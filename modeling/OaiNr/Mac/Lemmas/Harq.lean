import OaiNr.Mac.Harq
import OaiNr.Mac.Lemmas.NrList

/-!
# The lists of the HARQ processes

Each step of the scheduler takes a process out of one of the three lists and puts it into another.
`Held` is the invariant of both moves: `hold` are the processes that are in no list in between.
-/

namespace OaiNr.Mac

open Harq List

namespace Harq

/-- The three lists and `hold` are a partition of the processes. -/
structure Shape (h : Harq) (n : Nat) (hold av fb rt : List Nat) : Prop where
  available : h.available.Repr av
  feedback : h.feedback.Repr fb
  retrans : h.retrans.Repr rt
  availableLen : h.available.len = n
  feedbackLen : h.feedback.len = n
  retransLen : h.retrans.len = n
  le : n ≤ nrMaxHarqProcesses
  perm : (hold ++ (av ++ (fb ++ rt))).Perm (List.range n)

structure Held (h : Harq) (n roundMax : Nat) (hold av fb rt : List Nat) : Prop extends h.Shape n hold av fb rt where
  waiting : ∀ i, i ∉ hold → ((h.processes i).isWaiting = true ↔ i ∈ fb)
  free : ∀ i ∈ av, (h.processes i).round = 0
  unused : ∀ i, n ≤ i → (h.processes i).round = 0
  again : ∀ i ∈ rt, 1 ≤ (h.processes i).round ∧ (h.processes i).round < roundMax
  sent : ∀ i ∈ fb, (h.processes i).round < roundMax
  held : ∀ i ∈ hold, (h.processes i).round < roundMax

def Grantable (av rt : List Nat) (pid : Int) : Prop :=
  pid < 0 ∧ av ≠ [] ∨ ∃ x : Nat, pid = x ∧ (x ∈ av ∨ x ∈ rt)

variable {h : Harq} {n roundMax x : Nat} {hold av fb rt : List Nat} {f : Process → Process}

/-! ## Access to a process -/

theorem process_natCast (hx : x < nrMaxHarqProcesses) : h.process x = .ok (h.processes x) := by
  simp [process, hx]

theorem modify_natCast (hx : x < nrMaxHarqProcesses) :
    h.modify x f = .ok { h with processes := Function.update h.processes x (f (h.processes x)) } := by
  simp [modify, hx]

namespace Shape

theorem lt (I : h.Shape n hold av fb rt) (hx : x ∈ hold ++ (av ++ (fb ++ rt))) : x < n :=
  mem_range.mp (I.perm.mem_iff.mp hx)

theorem lt_max (I : h.Shape n hold av fb rt) (hx : x ∈ hold ++ (av ++ (fb ++ rt))) :
    x < nrMaxHarqProcesses := Nat.lt_of_lt_of_le (I.lt hx) I.le

theorem nodup (I : h.Shape n hold av fb rt) : (hold ++ (av ++ (fb ++ rt))).Nodup :=
  I.perm.nodup_iff.mpr nodup_range

theorem notMem (I : h.Shape n [x] av fb rt) : x ∉ av ++ (fb ++ rt) :=
  (nodup_cons.mp I.nodup).1

theorem length_feedback_lt (I : h.Shape n hold av fb rt) : fb.length < h.feedback.len + 1 :=
  I.feedback.length_lt

/-! ## Taking a process out of its list -/

theorem popFeedback (I : h.Shape n [] av (x :: fb) rt) :
    ∃ l, h.popFeedback = .ok { h with feedback := l } ∧ Shape { h with feedback := l } n [x] av fb rt := by
  obtain ⟨l, hl, hr, hlen⟩ := I.feedback.removeFront
  have hperm : ([x] ++ (av ++ (fb ++ rt))).Perm ([] ++ (av ++ (x :: fb ++ rt))) := by
    simpa using perm_middle.symm
  exact ⟨l, by rw [Harq.popFeedback, hl]; rfl, { I with
    feedback := hr
    feedbackLen := hlen.trans I.feedbackLen
    perm := hperm.trans I.perm }⟩

theorem popRetrans (I : h.Shape n [] av fb (x :: rt)) :
    ∃ l, h.popRetrans = .ok { h with retrans := l } ∧ Shape { h with retrans := l } n [x] av fb rt := by
  obtain ⟨l, hl, hr, hlen⟩ := I.retrans.removeFront
  have hperm : ([x] ++ (av ++ (fb ++ rt))).Perm ([] ++ (av ++ (fb ++ x :: rt))) := by
    simpa [← append_assoc] using (@perm_middle _ x (av ++ fb) rt).symm
  exact ⟨l, by rw [Harq.popRetrans, hl]; rfl, { I with
    retrans := hr
    retransLen := hlen.trans I.retransLen
    perm := hperm.trans I.perm }⟩

theorem popAvailable (I : h.Shape n [] (x :: av) fb rt) :
    ∃ l, h.available.removeFront = .ok l ∧ Shape { h with available := l } n [x] av fb rt := by
  obtain ⟨l, hl, hr, hlen⟩ := I.available.removeFront
  exact ⟨l, hl, { I with
    available := hr
    availableLen := hlen.trans I.availableLen }⟩

theorem removeAvailable (I : h.Shape n [] av fb rt) (hx : x ∈ av) : ∃ l, h.available.remove x = .ok l ∧
      Shape { h with available := l } n [x] (av.erase x) fb rt := by
  obtain ⟨l, hl, hr, hlen⟩ := I.available.remove hx
  have hperm : ([x] ++ (av.erase x ++ (fb ++ rt))).Perm ([] ++ (av ++ (fb ++ rt))) :=
    (perm_cons_erase hx).symm.append_right _
  exact ⟨l, hl, { I with
    available := hr
    availableLen := hlen.trans I.availableLen
    perm := hperm.trans I.perm }⟩

theorem removeRetrans (I : h.Shape n [] av fb rt) (hx : x ∈ rt) : ∃ l, h.retrans.remove x = .ok l ∧
      Shape { h with retrans := l } n [x] av fb (rt.erase x) := by
  obtain ⟨l, hl, hr, hlen⟩ := I.retrans.remove hx
  have hperm : ([x] ++ (av ++ (fb ++ rt.erase x))).Perm ([] ++ (av ++ (fb ++ rt))) := by
    have := (perm_cons_erase hx).symm.append_left (av ++ fb)
    simpa [← append_assoc] using perm_middle.symm.trans this
  exact ⟨l, hl, { I with
    retrans := hr
    retransLen := hlen.trans I.retransLen
    perm := hperm.trans I.perm }⟩

/-! ## Putting it into a list -/

theorem toAvailable (I : h.Shape n [x] av fb rt) :
    ∃ l, h.toAvailable x = .ok { h with available := l } ∧ Shape { h with available := l } n [] (av ++ [x]) fb rt := by
  obtain ⟨l, hl, hr, hlen⟩ := I.available.addTail (x := x)
    (fun hm => I.notMem (by simp [hm])) (by rw [I.availableLen]; exact I.lt (by simp))
  have hperm : ([] ++ ((av ++ [x]) ++ (fb ++ rt))).Perm ([x] ++ (av ++ (fb ++ rt))) := by simp
  exact ⟨l, by rw [Harq.toAvailable, hl]; rfl, { I with
    available := hr
    availableLen := hlen.trans I.availableLen
    perm := hperm.trans I.perm }⟩

theorem toFeedback (I : h.Shape n [x] av fb rt) :
    ∃ l, h.toFeedback x = .ok { h with feedback := l } ∧ Shape { h with feedback := l } n [] av (fb ++ [x]) rt := by
  obtain ⟨l, hl, hr, hlen⟩ := I.feedback.addTail (x := x)
    (fun hm => I.notMem (by simp [hm])) (by rw [I.feedbackLen]; exact I.lt (by simp))
  have hperm : ([] ++ (av ++ ((fb ++ [x]) ++ rt))).Perm ([x] ++ (av ++ (fb ++ rt))) := by
    simpa only [append_assoc, singleton_append, nil_append] using @perm_middle _ x (av ++ fb) rt
  exact ⟨l, by rw [Harq.toFeedback, hl]; rfl, { I with
    feedback := hr
    feedbackLen := hlen.trans I.feedbackLen
    perm := hperm.trans I.perm }⟩

theorem toRetrans (I : h.Shape n [x] av fb rt) :
    ∃ l, h.toRetrans x = .ok { h with retrans := l } ∧ Shape { h with retrans := l } n [] av fb (rt ++ [x]) := by
  obtain ⟨l, hl, hr, hlen⟩ := I.retrans.addTail (x := x)
    (fun hm => I.notMem (by simp [hm])) (by rw [I.retransLen]; exact I.lt (by simp))
  have hperm : ([] ++ (av ++ (fb ++ (rt ++ [x])))).Perm ([x] ++ (av ++ (fb ++ rt))) := by
    simp [← append_assoc]
  exact ⟨l, by rw [Harq.toRetrans, hl]; rfl, { I with
    retrans := hr
    retransLen := hlen.trans I.retransLen
    perm := hperm.trans I.perm }⟩

end Shape

namespace Held

/-! ## Taking a process out of its list -/

theorem popFeedback (I : h.Held n roundMax [] av (x :: fb) rt) :
    ∃ h', h.popFeedback = .ok h' ∧ h'.Held n roundMax [x] av fb rt ∧ h'.processes = h.processes := by
  obtain ⟨l, hp, S⟩ := I.toShape.popFeedback
  exact ⟨_, hp, { S, I with
    waiting := fun i hi => by
      simp only [mem_singleton] at hi
      simpa [hi] using I.waiting i
    sent := fun i hi => I.sent i (by simp [hi])
    held := fun i hi => I.sent i (by simp [mem_singleton.mp hi]) }, rfl⟩

/-! ## Writing to a process that is in no list -/

theorem modify (I : h.Held n roundMax [x] av fb rt) (hf : (f (h.processes x)).round < roundMax) :
    ∃ h', h.modify x f = .ok h' ∧ h'.Held n roundMax [x] av fb rt ∧ h'.processes x = f (h.processes x) := by
  have hx : x < nrMaxHarqProcesses := I.lt_max (by simp)
  refine ⟨_, modify_natCast hx, ?_, Function.update_self ..⟩
  have hne : ∀ i, i ≠ x → Function.update h.processes x (f (h.processes x)) i = h.processes i :=
    fun i hi => Function.update_of_ne hi ..
  have hout : ∀ i ∈ av ++ (fb ++ rt), i ≠ x := fun i hi heq => I.notMem (heq ▸ hi)
  have hlt : x < n := I.lt (by simp)
  exact { I with
    waiting := fun i hi => by simpa [hne i (by simpa using hi)] using I.waiting i hi
    free := fun i hi => by simpa [hne i (hout i (by simp [hi]))] using I.free i hi
    unused := fun i hi => by simpa [hne i (by omega)] using I.unused i hi
    again := fun i hi => by simpa [hne i (hout i (by simp [hi]))] using I.again i hi
    sent := fun i hi => by simpa [hne i (hout i (by simp [hi]))] using I.sent i hi
    held := fun i hi => by simpa [mem_singleton.mp hi] using hf }

/-! ## Putting it into a list -/

variable (I : h.Held n roundMax [x] av fb rt)
include I

theorem waiting_iff (hwait : (h.processes x).isWaiting = false) (i : Nat) :
    (h.processes i).isWaiting = true ↔ i ∈ fb := by
  by_cases hi : i = x
  · subst hi
    simp only [hwait, Bool.false_eq_true, false_iff]
    exact fun hm => I.notMem (by simp [hm])
  · exact I.waiting i (by simpa using hi)

theorem toAvailable (hround : (h.processes x).round = 0) (hwait : (h.processes x).isWaiting = false) :
    ∃ h', h.toAvailable x = .ok h' ∧ h'.Held n roundMax [] (av ++ [x]) fb rt ∧ h'.processes = h.processes := by
  obtain ⟨l, ha, S⟩ := I.toShape.toAvailable
  exact ⟨_, ha, { S, I with
    waiting := fun i _ => I.waiting_iff hwait i
    free := forall_mem_append.mpr ⟨I.free, by simpa using hround⟩
    held := by simp }, rfl⟩

theorem toFeedback (hwait : (h.processes x).isWaiting = true) :
    ∃ h', h.toFeedback x = .ok h' ∧ h'.Held n roundMax [] av (fb ++ [x]) rt ∧ h'.processes = h.processes := by
  obtain ⟨l, ha, S⟩ := I.toShape.toFeedback
  exact ⟨_, ha, { S, I with
    waiting := fun i _ => by
      by_cases hi : i = x
      · simp [hi, hwait]
      · simpa [hi] using I.waiting i (by simpa using hi)
    sent := forall_mem_append.mpr ⟨I.sent, I.held⟩
    held := by simp }, rfl⟩

theorem toRetrans (hround : 1 ≤ (h.processes x).round) (hwait : (h.processes x).isWaiting = false) :
    ∃ h', h.toRetrans x = .ok h' ∧ h'.Held n roundMax [] av fb (rt ++ [x]) ∧ h'.processes = h.processes := by
  obtain ⟨l, ha, S⟩ := I.toShape.toRetrans
  have hx : 1 ≤ (h.processes x).round ∧ (h.processes x).round < roundMax := ⟨hround, I.held x (by simp)⟩
  exact ⟨_, ha, { S, I with
    waiting := fun i _ => I.waiting_iff hwait i
    again := forall_mem_append.mpr ⟨I.again, by simpa using hx⟩
    held := by simp }, rfl⟩

omit I

/-! ## Grants -/

theorem isWaiting_eq_false (I : h.Held n roundMax [] av fb rt) (hx : x ∈ av ∨ x ∈ rt) :
    (h.processes x).isWaiting = false := by
  have hnodup : (av ++ (fb ++ rt)).Nodup := I.nodup
  rw [Bool.eq_false_iff, ne_eq, I.waiting x (by simp)]
  intro hfb
  rcases hx with hx | hx
  · exact (nodup_append.mp hnodup).2.2 x hx x (by simp [hfb]) rfl
  · exact (nodup_append.mp (nodup_append.mp hnodup).2.1).2.2 x hfb x hx rfl

variable (hR : 0 < roundMax)
include hR

theorem popAvailable (I : h.Held n roundMax [] (x :: av) fb rt) :
    ∃ l, h.available.removeFront = .ok l ∧ Held { h with available := l } n roundMax [x] av fb rt := by
  obtain ⟨l, hl, S⟩ := I.toShape.popAvailable
  exact ⟨l, hl, { S, I with
    waiting := fun i _ => I.waiting i (by simp)
    free := fun i hi => I.free i (by simp [hi])
    held := fun i hi => by rwa [I.free i (by simp [mem_singleton.mp hi])] }⟩

theorem take (I : h.Held n roundMax [] av fb rt) {pid : Int} (hp : Grantable av rt pid) :
    ∃ (x : Nat) (h' : Harq) (av' rt' : List Nat), h.take pid = .ok ((x : Int), h') ∧
      h'.Held n roundMax [x] av' fb rt' ∧ (h'.processes x).isWaiting = false := by
  rcases hp with ⟨hneg, hav⟩ | ⟨x, rfl, hx⟩
  · cases av with
    | nil => exact absurd rfl hav
    | cons x av =>
      have hhead : h.available.head = x := I.available.head_eq
      obtain ⟨l, hl, hI⟩ := I.popAvailable hR
      refine ⟨x, { h with available := l }, av, rt, ?_, hI, I.isWaiting_eq_false (.inl (by simp))⟩
      have hnonneg : ¬(x : Int) < 0 := by omega
      simp [Harq.take, hneg, hhead, hnonneg, hl]
  · have hnonneg : ¬(x : Int) < 0 := by omega
    have hmax : x < nrMaxHarqProcesses := I.lt_max (by simp; tauto)
    rcases hx with hx | hx
    · obtain ⟨l, hl, S⟩ := I.toShape.removeAvailable hx
      refine ⟨x, { h with available := l }, _, _, ?_, { S, I with
        waiting := fun i _ => I.waiting i (by simp)
        free := fun i hi => I.free i (mem_of_mem_erase hi)
        held := fun i hi => by rwa [mem_singleton.mp hi, I.free x hx] },
        I.isWaiting_eq_false (.inl hx)⟩
      simp [Harq.take, hnonneg, process_natCast hmax, I.free x hx, hl]
    · obtain ⟨l, hl, S⟩ := I.toShape.removeRetrans hx
      refine ⟨x, { h with retrans := l }, _, _, ?_, { S, I with
        waiting := fun i _ => I.waiting i (by simp)
        again := fun i hi => I.again i (mem_of_mem_erase hi)
        held := fun i hi => by rw [mem_singleton.mp hi]; exact (I.again x hx).2 },
        I.isWaiting_eq_false (.inr hx)⟩
      have hround : (h.processes x).round ≠ 0 := by have := (I.again x hx).1; omega
      simp [Harq.take, hnonneg, process_natCast hmax, hround, hl]

theorem finish (I : h.Held n roundMax [x] av fb rt) (hwait : (h.processes x).isWaiting = false) :
    ∃ h', h.finish x = .ok h' ∧ h'.Held n roundMax [] (av ++ [x]) fb rt ∧ (h'.processes x).round = 0 := by
  obtain ⟨h₁, hm, I₁, hp⟩ := I.modify (f := fun p => { p with ndi := p.ndi ^^^ 1, round := 0 }) hR
  obtain ⟨h₂, ha, I₂, hp'⟩ := I₁.toAvailable (by simp [hp]) (by simpa [hp] using hwait)
  refine ⟨h₂, ?_, I₂, by simp [hp', hp]⟩
  simp [Harq.finish, hm, ha]

omit hR

theorem await (I : h.Held n roundMax [x] av fb rt) (hf : ∀ p, (f p).round = p.round ∧ (f p).isWaiting = true) :
    ∃ h', (h.toFeedback x >>= fun h => h.modify x f) = .ok h' ∧
      h'.Held n roundMax [] av (fb ++ [x]) rt ∧ h'.processes x = f (h.processes x) := by
  have hmax : x < nrMaxHarqProcesses := I.lt_max (by simp)
  obtain ⟨h₁, hm, I₁, hp⟩ := I.modify (f := f) (by rw [(hf _).1]; exact I.held x (by simp))
  obtain ⟨h₂, ha, I₂, hp'⟩ := I₁.toFeedback (by rw [hp]; exact (hf _).2)
  refine ⟨h₂, ?_, I₂, by rw [hp', hp]⟩
  -- the list and the table are written in the other order
  rw [modify_natCast hmax] at hm
  obtain rfl := Except.ok.inj hm
  simp only [Harq.toFeedback, bind_eq_ok] at ha ⊢
  obtain ⟨l, hl, he⟩ := ha
  refine ⟨{ h with feedback := l }, ⟨l, hl, rfl⟩, ?_⟩
  rw [modify_natCast hmax]
  exact he

theorem assertNotWaiting (I : h.Held n roundMax [x] av fb rt)
    (hwait : (h.processes x).isWaiting = false) : h.assertNotWaiting x = .ok () := by
  simp [Harq.assertNotWaiting, process_natCast (I.lt_max (x := x) (by simp)), hwait]

include hR

theorem setupDl (I : h.Held n roundMax [] av fb rt) {pid : Int} (hp : Grantable av rt pid)
    (pucch : Option (Nat × Nat)) (action : Bool) :
    ∃ h' av' fb' rt', h.setupDl pid pucch action = .ok h' ∧ h'.Held n roundMax [] av' fb' rt' := by
  obtain ⟨x, h₁, av', rt', ht, I₁, hw⟩ := I.take hR hp
  cases pucch with
  | none =>
    obtain ⟨h₂, hf, I₂, -⟩ := I₁.finish hR hw
    refine ⟨h₂, _, _, _, ?_, I₂⟩
    simp [Harq.setupDl, ht, I₁.assertNotWaiting hw, hf]
  | some p =>
    obtain ⟨h₂, hf, I₂, -⟩ := @await _ _ _ _ _ _ _ (fun q => { q with
      feedbackFrame := p.1, feedbackSlot := p.2, isWaiting := true, action := if q.round = 0 then action else q.action })
      I₁ fun _ => ⟨rfl, rfl⟩
    refine ⟨h₂, _, _, _, ?_, I₂⟩
    simp only [Harq.setupDl, ht, I₁.assertNotWaiting hw, ok_bind] at hf ⊢
    exact hf

theorem setupUl (I : h.Held n roundMax [] av fb rt) {pid : Int} (hp : Grantable av rt pid)
    (disableHarq : Bool) (slot : Nat) : ∃ h' av' fb' rt', h.setupUl disableHarq roundMax pid slot = .ok h' ∧
      h'.Held n roundMax [] av' fb' rt' := by
  obtain ⟨x, h₁, av', rt', ht, I₁, hw⟩ := I.take hR hp
  have hmax : x < nrMaxHarqProcesses := I₁.lt_max (by simp)
  cases disableHarq with
  | true =>
    obtain ⟨h₂, hf, I₂, hround⟩ := I₁.finish hR hw
    refine ⟨h₂, _, _, _, ?_, I₂⟩
    have hle : ¬roundMax ≤ 0 := by omega
    simp [Harq.setupUl, ht, I₁.assertNotWaiting hw, hf, process_natCast hmax, hround, hle]
  | false =>
    obtain ⟨h₂, hf, I₂, hp⟩ := I₁.await
      (f := fun q => { q with feedbackSlot := slot, isWaiting := true }) fun _ => ⟨rfl, rfl⟩
    refine ⟨h₂, _, _, _, ?_, I₂⟩
    have hlt : ¬roundMax ≤ (h₂.processes x).round := by
      have := I₂.sent x (by simp)
      omega
    obtain ⟨h₃, hq, hm⟩ := bind_eq_ok.mp hf
    simp [Harq.setupUl, ht, I₁.assertNotWaiting hw, hq, hm, process_natCast hmax, hlt]

omit hR

/-! ## Feedback -/

theorem abort (hR : 0 < roundMax) (I : h.Held n roundMax [x] av fb rt) (hwait : (h.processes x).isWaiting = false) :
    ∃ h', h.abort x = .ok h' ∧ h'.Held n roundMax [] (av ++ [x]) fb rt ∧ (h'.processes x).round = 0 := by
  obtain ⟨h₁, hf, I₁, hround⟩ := I.finish hR hwait
  exact ⟨{ h₁ with errors := h₁.errors + 1 }, by simp [Harq.abort, hf], { I₁ with }, hround⟩

def Handled (h' : Harq) (n roundMax x : Nat) (av fb rt : List Nat) : Prop :=
  h'.Held n roundMax [] (av ++ [x]) fb rt ∧ (h'.processes x).round = 0 ∨
    h'.Held n roundMax [] av fb (rt ++ [x]) ∧ 1 ≤ (h'.processes x).round

include hR

theorem nack (I : h.Held n roundMax [x] av fb rt) (hwait : (h.processes x).isWaiting = false) :
    ∃ h', h.nack roundMax x = .ok h' ∧ Handled h' n roundMax x av fb rt := by
  have hmax : x < nrMaxHarqProcesses := I.lt_max (by simp)
  by_cases hlast : (roundMax : Int) - 1 ≤ (h.processes x).round
  · obtain ⟨h₁, ha, I₁, hround⟩ := I.abort hR hwait
    exact ⟨h₁, by rw [Harq.nack, process_natCast hmax, ok_bind, if_pos hlast, ha], .inl ⟨I₁, hround⟩⟩
  · obtain ⟨h₁, hm, I₁, hp⟩ := I.modify (f := fun p => { p with round := p.round + 1 }) (by simp only; omega)
    obtain ⟨h₂, ha, I₂, hp'⟩ := I₁.toRetrans (by simp [hp]) (by simpa [hp] using hwait)
    refine ⟨h₂, ?_, .inr ⟨I₂, by simp [hp', hp]⟩⟩
    rw [modify_natCast hmax] at hm
    obtain rfl := Except.ok.inj hm
    simp only [Harq.toRetrans, bind_eq_ok] at ha
    obtain ⟨l, hl, he⟩ := ha
    simp only [Harq.nack, process_natCast hmax, hlast, Harq.toRetrans, hl, ok_bind, pure_eq_ok, ↓reduceIte,
      modify_natCast hmax]
    exact he

theorem handleDl (I : h.Held n roundMax [x] av fb rt) (success : Bool) :
    ∃ h', h.handleDl roundMax x success = .ok h' ∧ Handled h' n roundMax x av fb rt := by
  obtain ⟨h₁, hm, I₁, hp⟩ := I.modify (f := fun p => { p with feedbackSlot := noFeedbackSlot, isWaiting := false })
    (I.held x (by simp))
  have hw : (h₁.processes x).isWaiting = false := by rw [hp]
  cases success with
  | true =>
    obtain ⟨h₂, hf, I₂, hround⟩ := I₁.finish hR hw
    exact ⟨h₂, by simp [Harq.handleDl, hm, hf], .inl ⟨I₂, hround⟩⟩
  | false =>
    obtain ⟨h₂, hf, H⟩ := I₁.nack hR hw
    exact ⟨h₂, by simp [Harq.handleDl, hm, hf], H⟩

omit hR

theorem Handled.held (H : Handled h n roundMax x av fb rt) :
    ∃ av' rt', h.Held n roundMax [] av' fb rt' ∧ ∀ y ∈ fb ++ rt', y ∈ x :: fb ++ rt := by
  rcases H with ⟨I, -⟩ | ⟨I, -⟩
  · exact ⟨_, _, I, fun y hy => by simp at hy ⊢; tauto⟩
  · exact ⟨_, _, I, fun y hy => by simp at hy ⊢; tauto⟩

theorem handleDl_ne {y : Nat} {h' : Harq} (hmax : x < nrMaxHarqProcesses) (hy : y ≠ x)
    (hrun : h.handleDl roundMax x false = .ok h') : h'.processes y = h.processes y := by
  simp only [Harq.handleDl, Harq.nack, Harq.abort, Harq.finish, Harq.toAvailable, Harq.toRetrans, modify_natCast hmax,
    process_natCast hmax, ok_bind, bind_assoc, pure_bind, Bool.false_eq_true, if_false] at hrun
  split_ifs at hrun
  · obtain ⟨l, -, he⟩ := bind_eq_ok.mp hrun
    cases he
    simp [hy]
  · obtain ⟨l, -, he⟩ := bind_eq_ok.mp hrun
    cases he
    simp [hy]

/-- The feedback list of `find_harq` from the first process on whose time is not past -/
def due (procs : Nat → Process) (frame slot : Nat) (fb : List Nat) : List Nat :=
  fb.dropWhile fun i => Process.past (procs i) frame slot

include hR

theorem findHarq {procs : Nat → Process} (I : h.Held n roundMax [] av fb rt) (frame slot : Nat)
    {fuel : Nat} (hfuel : fb.length < fuel) (hprocs : ∀ y ∈ fb, h.processes y = procs y) :
    ∃ h' av' rt', findHarq roundMax frame slot fuel h =
        .ok ((due procs frame slot fb).head?.any fun i => !Process.future (procs i) frame slot, h') ∧
      h'.Held n roundMax [] av' (due procs frame slot fb) rt' ∧ ∀ y ∈ due procs frame slot fb ++ rt', y ∈ fb ++ rt := by
  induction fb generalizing h av rt fuel with
  | nil =>
    obtain _ | fuel := fuel
    · cases hfuel
    have hhead : h.feedback.head < 0 := I.feedback.head_neg_iff.mpr rfl
    exact ⟨h, av, rt, by simp [findHarq, hhead, due], I, fun y hy => hy⟩
  | cons x fb ih =>
    obtain _ | fuel := fuel
    · cases hfuel
    have hhead : h.feedback.head = x := I.feedback.head_eq
    have hnonneg : ¬(x : Int) < 0 := by omega
    have hmax : x < nrMaxHarqProcesses := I.lt_max (by simp)
    have hx : h.processes x = procs x := hprocs x (by simp)
    by_cases hpast : Process.past (procs x) frame slot = true
    · obtain ⟨h₁, hpop, I₁, hp₁⟩ := I.popFeedback
      obtain ⟨h₂, hhandle, H⟩ := I₁.handleDl hR false
      obtain ⟨av₂, rt₂, I₂, hsub₂⟩ := H.held
      have hprocs₂ : ∀ y ∈ fb, h₂.processes y = procs y := fun y hy => by
        have hne : y ≠ x := fun heq => I₁.notMem (by simp [← heq, hy])
        rw [handleDl_ne hmax hne hhandle, hp₁, hprocs y (by simp [hy])]
      obtain ⟨h₃, av₃, rt₃, hrun, I₃, hsub₃⟩ := ih I₂ (show fb.length < fuel by simpa using hfuel) hprocs₂
      have hdue : due procs frame slot (x :: fb) = due procs frame slot fb := dropWhile_cons_of_pos hpast
      rw [hdue]
      refine ⟨h₃, av₃, rt₃, ?_, I₃, fun y hy => hsub₂ y (hsub₃ y hy)⟩
      simp [findHarq, hhead, hnonneg, process_natCast hmax, hx, hpast, hpop, hhandle, hrun]
    · have hdue : due procs frame slot (x :: fb) = x :: fb := dropWhile_cons_of_neg hpast
      rw [hdue]
      refine ⟨h, av, rt, ?_, I, fun y hy => hy⟩
      simp [findHarq, hhead, hnonneg, process_natCast hmax, hx, hpast]

theorem skipUl (I : h.Held n roundMax [] av (x :: fb) rt) :
    ∃ h', h.skipUl roundMax x = .ok h' ∧ Handled h' n roundMax x av fb rt := by
  obtain ⟨h₁, hpop, I₁, -⟩ := I.popFeedback
  obtain ⟨h₂, hm, I₂, hp⟩ := I₁.modify (f := fun p => { p with isWaiting := false }) (I₁.held x (by simp))
  obtain ⟨h₃, hn, H⟩ := I₂.nack hR (by rw [hp])
  exact ⟨h₃, by simp [Harq.skipUl, hpop, hm, hn], H⟩

theorem handleUl (I : h.Held n roundMax [] av fb rt) (crcPid : Int)
    (failed : Bool) {fuel : Nat} (hfuel : fb.length < fuel) :
    ∃ h' av' fb' rt', handleUl roundMax crcPid failed fuel h = .ok h' ∧ h'.Held n roundMax [] av' fb' rt' := by
  induction fb generalizing h av rt fuel with
  | nil =>
    obtain _ | fuel := fuel
    · cases hfuel
    have hhead : h.feedback.head < 0 := I.feedback.head_neg_iff.mpr rfl
    exact ⟨h, av, [], rt, by simp [handleUl, hhead], I⟩
  | cons x fb ih =>
    obtain _ | fuel := fuel
    · cases hfuel
    have hhead : h.feedback.head = x := I.feedback.head_eq
    have hnonneg : ¬(x : Int) < 0 := by omega
    by_cases hpid : crcPid = x
    · subst hpid
      have hwaiting : (h.processes x).isWaiting = true := (I.waiting x (by simp)).mpr (by simp)
      obtain ⟨h₁, hpop, I₁, hp₁⟩ := I.popFeedback
      obtain ⟨h₂, hm, I₂, hp₂⟩ := I₁.modify
        (f := fun p => { p with feedbackSlot := noFeedbackSlot, isWaiting := false }) (I₁.held x (by simp))
      have hw : (h₂.processes x).isWaiting = false := by rw [hp₂]
      have hmax : x < nrMaxHarqProcesses := I₁.lt_max (by simp)
      cases failed with
      | true =>
        obtain ⟨h₃, hn, H⟩ := I₂.nack hR hw
        obtain ⟨av₃, rt₃, I₃, -⟩ := H.held
        refine ⟨h₃, av₃, fb, rt₃, ?_, I₃⟩
        simp [handleUl, hhead, hnonneg, hpop, process_natCast hmax, hp₁, hwaiting, hm, hn]
      | false =>
        obtain ⟨h₃, hn, I₃, -⟩ := I₂.finish hR hw
        refine ⟨h₃, _, fb, rt, ?_, I₃⟩
        simp [handleUl, hhead, hnonneg, hpop, process_natCast hmax, hp₁, hwaiting, hm, hn]
    · obtain ⟨h₁, hskip, H⟩ := I.skipUl hR
      obtain ⟨av₁, rt₁, I₁, -⟩ := H.held
      obtain ⟨h₂, av₂, fb₂, rt₂, hrun, I₂⟩ := 
        ih I₁ (show fb.length < fuel by simpa using hfuel)
      refine ⟨h₂, av₂, fb₂, rt₂, ?_, I₂⟩
      simp [handleUl, hhead, hnonneg, hpid, hskip, hrun]

end Held

/-! ## Resets -/

namespace Shape

theorem drainFeedback (I : h.Shape n [] av fb rt) {fuel : Nat} (hfuel : fb.length < fuel) :
    ∃ h', drainFeedback fuel h = .ok h' ∧ h'.Shape n [] (av ++ fb) [] rt ∧ h'.processes = h.processes := by
  induction fb generalizing h av fuel with
  | nil =>
    obtain _ | fuel := fuel
    · cases hfuel
    have hhead : h.feedback.head < 0 := I.feedback.head_neg_iff.mpr rfl
    exact ⟨h, by simp [drainFeedback, hhead], by simpa using I, rfl⟩
  | cons x fb ih =>
    obtain _ | fuel := fuel
    · cases hfuel
    have hhead : h.feedback.head = x := I.feedback.head_eq
    have hnonneg : ¬(x : Int) < 0 := by omega
    obtain ⟨l, hpop, I₁⟩ := I.popFeedback
    obtain ⟨l', hadd, I₂⟩ := I₁.toAvailable
    obtain ⟨h₃, hrun, I₃, hp₃⟩ := ih I₂ (show fb.length < fuel by simpa using hfuel)
    refine ⟨h₃, ?_, by simpa using I₃, hp₃⟩
    simp [drainFeedback, hhead, hnonneg, hpop, hadd, hrun]

theorem drainRetrans (I : h.Shape n [] av fb rt) {fuel : Nat} (hfuel : rt.length < fuel) :
    ∃ h', drainRetrans fuel h = .ok h' ∧ h'.Shape n [] (av ++ rt) fb [] ∧ h'.processes = h.processes := by
  induction rt generalizing h av fuel with
  | nil =>
    obtain _ | fuel := fuel
    · cases hfuel
    have hhead : h.retrans.head < 0 := I.retrans.head_neg_iff.mpr rfl
    exact ⟨h, by simp [drainRetrans, hhead], by simpa using I, rfl⟩
  | cons x rt ih =>
    obtain _ | fuel := fuel
    · cases hfuel
    have hhead : h.retrans.head = x := I.retrans.head_eq
    have hnonneg : ¬(x : Int) < 0 := by omega
    obtain ⟨l, hpop, I₁⟩ := I.popRetrans
    obtain ⟨l', hadd, I₂⟩ := I₁.toAvailable
    obtain ⟨h₃, hrun, I₃, hp₃⟩ := ih I₂ (show rt.length < fuel by simpa using hfuel)
    refine ⟨h₃, ?_, by simpa using I₃, hp₃⟩
    simp [drainRetrans, hhead, hnonneg, hpop, hadd, hrun]

end Shape

theorem Held.reset (I : h.Held n roundMax [] av fb rt) :
    ∃ h' av', h.reset = .ok h' ∧ h'.Held n roundMax [] av' [] [] := by
  obtain ⟨h₁, hrun₁, S₁, hp₁⟩ := I.toShape.drainFeedback I.length_feedback_lt
  obtain ⟨h₂, hrun₂, S₂, hp₂⟩ := S₁.drainRetrans S₁.retrans.length_lt
  refine ⟨_, av ++ fb ++ rt, by simp only [Harq.reset, hrun₁, hrun₂, ok_bind]; rfl, ?_⟩
  have hout : ∀ i, ¬i < nrMaxHarqProcesses → n ≤ i := fun i hi => by have := I.le; omega
  exact { S₂ with
    waiting := fun i _ => by
      by_cases hi : i < nrMaxHarqProcesses
      · simp [hi]
      · have hnot : i ∉ fb := fun hm => by
          have := I.lt (x := i) (by simp [hm])
          have := hout i hi
          omega
        simpa [hi, hp₂, hp₁, hnot] using I.waiting i
    free := fun i hi => by
      have := S₂.lt_max (x := i) (by simpa using hi)
      simp [this]
    unused := fun i hi => by
      by_cases hlt : i < nrMaxHarqProcesses
      · simp [hlt]
      · simpa [hlt, hp₂, hp₁] using I.unused i hi
    again := by simp
    sent := by simp
    held := by simp }

/-! ## Configuration -/

theorem addProcesses_eq (first count : Nat) (hr : h.available.Repr av)
    (hav : ∀ y ∈ av, y < first) (hlen : first + count ≤ h.available.len) :
    ∃ l, addProcesses first count h = .ok { h with available := l } ∧
      l.Repr (av ++ List.range' first count) ∧ l.len = h.available.len := by
  induction count generalizing h av first with
  | zero => exact ⟨h.available, rfl, by simpa using hr, rfl⟩
  | succ count ih =>
    obtain ⟨l, hl, hr', hlen'⟩ := hr.addTail (x := first) (fun hm => Nat.lt_irrefl _ (hav _ hm)) (by omega)
    have hav' : ∀ y ∈ av ++ [first], y < first + 1 := by
      intro y hy
      rcases mem_append.mp hy with hy | hy
      · have := hav y hy
        omega
      · rw [mem_singleton.mp hy]
        omega
    obtain ⟨l', hrun, hr'', hlen''⟩ := ih (h := { h with available := l }) _ hr' hav' (by simp only [hlen']; omega)
    refine ⟨l', ?_, by simpa [List.range'_succ] using hr'', hlen''.trans hlen'⟩
    simpa [addProcesses, Harq.toAvailable, hl] using hrun

theorem createList_zero (roundMax : Nat) (hn : n ≤ nrMaxHarqProcesses) :
    ∃ h', zero.createList n = .ok h' ∧ h'.Held n roundMax [] (List.range n) [] [] := by
  obtain ⟨l, hl, hr, hlen⟩ := addProcesses_eq (h := { zero with available := .create n })
    0 n (NrList.Repr.create n) (by simp) (by simp [NrList.create])
  refine ⟨{ zero with available := l, feedback := .create n, retrans := .create n }, ?_, ?_⟩
  · simp [createList, zero, NrList.zero] at hl ⊢
    simp [hl]
  · exact {
      available := by simpa [range_eq_range'] using hr
      feedback := NrList.Repr.create n
      retrans := NrList.Repr.create n
      availableLen := by simpa [NrList.create] using hlen
      feedbackLen := rfl
      retransLen := rfl
      le := hn
      perm := by simp
      waiting := by simp [zero]
      free := by simp [zero]
      unused := by simp [zero]
      again := by simp
      sent := by simp
      held := by simp }

theorem Held.createList (I : h.Held n roundMax hold av fb rt) (hpos : 0 < n) {m : Nat} (hm : n ≤ m)
    (hmax : m ≤ nrMaxHarqProcesses) : ∃ h' av', h.createList m = .ok h' ∧ h'.Held m roundMax hold av' fb rt ∧
      h'.processes = h.processes := by
  rcases Nat.lt_or_eq_of_le hm with hlt | rfl
  · obtain ⟨a, ha, hra, hla⟩ := I.available.resize (n := m) (by rw [I.availableLen]; omega)
    obtain ⟨f, hf, hrf, hlf⟩ := I.feedback.resize (n := m) (by rw [I.feedbackLen]; omega)
    obtain ⟨r, hr, hrr, hlr⟩ := I.retrans.resize (n := m) (by rw [I.retransLen]; omega)
    obtain ⟨a', hadd, hra', hla'⟩ := addProcesses_eq (h := { h with available := a })
      n (m - n) hra (fun y hy => I.lt (by simp [hy])) (by simp only [hla]; omega)
    refine ⟨{ h with available := a', feedback := f, retrans := r }, av ++ List.range' n (m - n),
      ?_, ?_, rfl⟩
    · have h0 : ¬n = 0 := by omega
      have h1 : ¬n = m := by omega
      have h2 : ¬m ≤ n := by omega
      simp [Harq.createList, I.availableLen, h0, h1, h2, ha, hadd, hf, hr]
    · have hperm : (hold ++ ((av ++ List.range' n (m - n)) ++ (fb ++ rt))).Perm (List.range m) := by
        have hsplit : List.range m = List.range n ++ List.range' n (m - n) := by
          have happ := @List.range'_append_1 0 n (m - n)
          rw [Nat.zero_add, Nat.add_sub_cancel' hm] at happ
          simpa [range_eq_range'] using happ.symm
        rw [hsplit]
        refine List.Perm.trans ?_ (I.perm.append_right _)
        have hcomm := (@perm_append_comm _ (List.range' n (m - n)) (fb ++ rt)).append_left (hold ++ av)
        simpa only [append_assoc] using hcomm
      exact { I with
        available := hra'
        feedback := hrf
        retrans := hrr
        availableLen := hla'.trans hla
        feedbackLen := hlf
        retransLen := hlr
        le := hmax
        perm := hperm
        free := fun i hi => by
          rcases mem_append.mp hi with hi | hi
          · exact I.free i hi
          · exact I.unused i (by simp at hi; omega)
        unused := fun i hi => I.unused i (by omega) }
  · have h0 : ¬n = 0 := by omega
    exact ⟨h, av, by simp [Harq.createList, I.availableLen, h0], I, rfl⟩

theorem Held.createList_cases (I : h.Held n roundMax hold av fb rt) (hpos : 0 < n) {m : Nat}
    (hmax : m ≤ nrMaxHarqProcesses) : h.createList m = .error .harqLowered ∨
      ∃ h' m' av', 0 < m' ∧ h.createList m = .ok h' ∧ h'.Held m' roundMax hold av' fb rt ∧
        h'.processes = h.processes := by
  rcases Nat.lt_or_ge m n with hlt | hle
  · have h0 : ¬n = 0 := by omega
    have h1 : ¬n = m := by omega
    have h2 : m ≤ n := by omega
    simp [Harq.createList, I.availableLen, h0, h1, h2]
  · obtain ⟨h', av', hc, I', hp⟩ := I.createList hpos hle hmax
    exact .inr ⟨h', m, av', by omega, hc, I', hp⟩

theorem Held.createDlList_eq (I : h.Held n roundMax hold av fb rt) (m : Nat) : h.createDlList m = h.createList m := by
  simp [createDlList, I.availableLen, I.feedbackLen, I.retransLen]

/-! ## The choice of the process for a grant -/

theorem Held.retrans_head (I : h.Held n roundMax [] av fb rt) (hc : 0 ≤ h.retrans.head) :
    Grantable av rt h.retrans.head := by
  cases rt with
  | nil => exact absurd (I.retrans.head_neg_iff.mpr rfl) (by omega)
  | cons x rt => exact .inr ⟨x, I.retrans.head_eq, .inr (by simp)⟩

theorem Held.dlCandidate (I : h.Held n roundMax [] av fb rt) {pid : Int}
    (hc : h.dlCandidate = some pid) : Grantable av rt pid := by
  unfold Harq.dlCandidate at hc
  split at hc
  case isTrue hle => cases hc; exact I.retrans_head hle
  case isFalse =>
    split at hc
    case isTrue => cases hc
    case isFalse hle =>
      cases hc
      cases av with
      | nil => exact absurd (I.available.head_neg_iff.mpr rfl) hle
      | cons x av => exact .inr ⟨x, I.available.head_eq, .inl (by simp)⟩

theorem Held.freeCandidate (I : h.Held n roundMax [] av fb rt) {pid : Int}
    (hc : h.freeCandidate = some pid) : Grantable av rt pid := by
  unfold Harq.freeCandidate at hc
  split at hc
  case isTrue hle => cases hc; exact I.retrans_head hle
  case isFalse =>
    split at hc
    case isTrue => cases hc
    case isFalse hle =>
      cases hc
      exact .inl ⟨by omega, fun hnil => hle (I.available.head_neg_iff.mpr hnil)⟩

end Harq

end OaiNr.Mac
