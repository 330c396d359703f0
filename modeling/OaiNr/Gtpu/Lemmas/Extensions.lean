import OaiNr.Lib.Fallible
import OaiNr.Gtpu.Receiver

/-!
# The loop over the extension headers
-/

namespace OaiNr.Gtpu

open Relation (ReflTransGen)

variable {mem : Nat → UInt8} {len offset offset' rounds : Nat} {h h' : Headers}

theorem next_unique {p q : Nat} (hp : Next mem len offset p) (hq : Next mem len offset q) : p = q :=
  hp.2.2.1.trans hq.2.2.1.symm

section Round

/-- What the header at `offset` adds to those before -/
def Adds (mem : Nat → UInt8) (offset : Nat) (h h' : Headers) : Prop :=
  (h'.qfi.isSome ↔ h.qfi.isSome ∨ typeAt mem offset = pduSessionContainer) ∧
    h'.nrPdcpPduSn = if Reports mem offset then snAt mem offset else h.nrPdcpPduSn

theorem readNrRanContainer_inBuffer (h : Headers) (hran : typeAt mem offset = nrRanContainer) :
    ∃ h', readNrRanContainer (inBuffer mem) offset h = .ok h' ∧ h'.qfi = h.qfi ∧
      h'.nrPdcpPduSn = if Reports mem offset then snAt mem offset else h.nrPdcpPduSn := by
  unfold readNrRanContainer inBuffer
  simp only [ok_bind]
  split
  next htype =>
    split
    next hreport => exact ⟨_, rfl, rfl, (if_pos ⟨hran, htype, hreport⟩).symm⟩
    next hreport => exact ⟨_, rfl, rfl, (if_neg fun h => hreport h.2.2).symm⟩
  next htype => exact ⟨_, rfl, rfl, (if_neg fun h => htype h.2.1).symm⟩

theorem readContainer_passes (hpass : Passes mem len offset) :
    ∃ h', readContainer (inBuffer mem) len offset (typeAt mem offset) h = .ok (some h') ∧ Adds mem offset h h' := by
  unfold readContainer
  split
  next hpdu =>
    rw [if_neg (Nat.not_lt.mpr (hpass.1 hpdu))]
    exact ⟨_, rfl, by simp [hpdu], (if_neg fun h => absurd (hpdu.symm.trans h.1) (by decide)).symm⟩
  next hpdu =>
    split
    next hran =>
      obtain ⟨h', hread, hqfi, hsn⟩ := readNrRanContainer_inBuffer h hran
      rw [if_neg (Nat.not_lt.mpr (hpass.2 hran)), hread]
      exact ⟨h', rfl, by simp [hqfi, hpdu], hsn⟩
    next hran => exact ⟨h, rfl, by simp [hpdu], (if_neg fun h => hran h.1).symm⟩

theorem readContainer_fails (hpass : ¬ Passes mem len offset) :
    readContainer (inBuffer mem) len offset (typeAt mem offset) h = .ok none := by
  unfold readContainer
  split
  next hpdu =>
    rw [if_pos]
    refine Nat.lt_of_not_le fun hle => hpass ⟨fun _ => hle, fun hran => ?_⟩
    rw [hpdu] at hran
    cases hran
  next hpdu =>
    split
    next hran =>
      rw [if_pos]
      exact Nat.lt_of_not_le fun hle => hpass ⟨fun h => absurd h hpdu, fun _ => hle⟩
    next hran => exact absurd ⟨fun h => absurd h hpdu, fun h => absurd h hran⟩ hpass

theorem readExtension_next (hnext : Next mem len offset offset') :
    ∃ h', readExtension (inBuffer mem) len offset (typeAt mem offset) h = .ok (some (offset', typeAt mem offset', h')) ∧
      Adds mem offset h h' := by
  obtain ⟨-, hpass, rfl, hle⟩ := hnext
  obtain ⟨h', hread, hadds⟩ := @readContainer_passes mem len offset h hpass
  refine ⟨h', ?_, hadds⟩
  rw [readExtension, inBuffer, ok_bind, hread, ok_bind]
  exact if_neg (Nat.not_lt.mpr hle)

theorem readExtension_malformed (hnext : ∀ offset', ¬ Next mem len offset offset') (htype : typeAt mem offset ≠ 0) :
    readExtension (inBuffer mem) len offset (typeAt mem offset) h = .ok none := by
  rw [readExtension, inBuffer, ok_bind]
  by_cases hpass : Passes mem len offset
  · obtain ⟨h', hread, -⟩ := @readContainer_passes mem len offset h hpass
    rw [hread, ok_bind]
    exact if_pos (Nat.lt_of_not_le fun hle => hnext _ ⟨htype, hpass, rfl, hle⟩)
  · rw [readContainer_fails hpass, ok_bind]

end Round

section Loop

theorem extensionLoop_end (htype : typeAt mem offset = 0) :
    extensionLoop (inBuffer mem) len rounds offset (typeAt mem offset) h = .ok (some (offset, h)) := by
  cases rounds <;> rw [extensionLoop, if_pos htype]

theorem extensionLoop_next (h : Headers) (hnext : Next mem len offset offset') :
    ∃ h', (∀ rounds, extensionLoop (inBuffer mem) len (rounds + 1) offset (typeAt mem offset) h =
        extensionLoop (inBuffer mem) len rounds offset' (typeAt mem offset') h') ∧ Adds mem offset h h' := by
  obtain ⟨h', hread, hadds⟩ := @readExtension_next mem len offset offset' h hnext
  refine ⟨h', fun rounds => ?_, hadds⟩
  rw [extensionLoop, if_neg hnext.1]
  show (readExtension _ _ _ _ _ >>= _) = _
  rw [hread]
  rfl

theorem extensionLoop_malformed (hnext : ∀ offset', ¬ Next mem len offset offset') (htype : typeAt mem offset ≠ 0) :
    extensionLoop (inBuffer mem) len (rounds + 1) offset (typeAt mem offset) h = .ok none := by
  rw [extensionLoop, if_neg htype]
  show (readExtension _ _ _ _ _ >>= _) = _
  rw [readExtension_malformed hnext htype]
  rfl

theorem extensionLoop_cases (mem : Nat → UInt8) (len offset : Nat) :
    typeAt mem offset = 0 ∨ (typeAt mem offset ≠ 0 ∧ ∀ offset', ¬ Next mem len offset offset') ∨
      ∃ offset', Next mem len offset offset' := by
  by_cases htype : typeAt mem offset = 0
  · exact .inl htype
  · by_cases hnext : ∃ offset', Next mem len offset offset'
    · exact .inr (.inr hnext)
    · exact .inr (.inl ⟨htype, not_exists.mp hnext⟩)

theorem extensionLoop_stalls (hnext : Next mem len offset offset) :
    extensionLoop (inBuffer mem) len rounds offset (typeAt mem offset) h = .error .endless := by
  induction rounds generalizing h with
  | zero => rw [extensionLoop, if_neg hnext.1]
  | succ rounds ih =>
    obtain ⟨h', hloop, -⟩ := extensionLoop_next h hnext
    rw [hloop, ih]

theorem extensionLoop_endless (hchain : ReflTransGen (Next mem len) offset offset')
    (hend : ∀ rounds h, extensionLoop (inBuffer mem) len rounds offset' (typeAt mem offset') h = .error .endless) :
    ∀ rounds h, extensionLoop (inBuffer mem) len rounds offset (typeAt mem offset) h = .error .endless := by
  induction hchain using ReflTransGen.head_induction_on with
  | refl => exact hend
  | head hnext _ ih =>
    intro rounds h
    cases rounds with
    | zero => rw [extensionLoop, if_neg hnext.1]
    | succ rounds =>
      obtain ⟨h', hloop, -⟩ := extensionLoop_next h hnext
      rw [hloop, ih]

theorem extensionLoop_ends (hstall : ∀ p, ReflTransGen (Next mem len) offset p → ¬ Next mem len p p)
    (hrounds : (len - offset) / 4 < rounds) :
    extensionLoop (inBuffer mem) len rounds offset (typeAt mem offset) h ≠ .error .endless := by
  induction rounds generalizing offset h with
  | zero => omega
  | succ rounds ih =>
    rcases extensionLoop_cases mem len offset with htype | ⟨htype, hnext⟩ | ⟨offset', hnext⟩
    · rw [extensionLoop_end htype]
      nofun
    · rw [extensionLoop_malformed hnext htype]
      nofun
    · obtain ⟨h', hloop, -⟩ := extensionLoop_next h hnext
      have hle := hnext.2.2.2
      have hstep := hnext.2.2.1
      have hpos : (mem offset).toNat ≠ 0 := by
        intro hzero
        refine hstall offset .refl ?_
        obtain rfl : offset' = offset := by omega
        exact hnext
      rw [hloop]
      refine ih (fun p hp => hstall p (ReflTransGen.head hnext hp)) ?_
      omega

theorem extensionLoop_error {e : Fault}
    (hloop : extensionLoop (inBuffer mem) len rounds offset (typeAt mem offset) h = .error e) : e = .endless := by
  induction rounds generalizing offset h with
  | zero =>
    rw [extensionLoop] at hloop
    split at hloop
    · cases hloop
    · cases hloop
      rfl
  | succ rounds ih =>
    rcases extensionLoop_cases mem len offset with htype | ⟨htype, hnext⟩ | ⟨offset', hnext⟩
    · rw [extensionLoop_end htype] at hloop
      cases hloop
    · rw [extensionLoop_malformed hnext htype] at hloop
      cases hloop
    · obtain ⟨h', hstep, -⟩ := extensionLoop_next h hnext
      exact ih ((hstep rounds).symm.trans hloop)

end Loop

section Result

theorem reach_next_iff (hnext : Next mem len offset offset') {p : Nat} :
    ReflTransGen (Next mem len) offset p ↔ p = offset ∨ ReflTransGen (Next mem len) offset' p := by
  constructor
  · intro hreach
    rcases hreach.cases_head with rfl | ⟨q, hq, hreach⟩
    · exact .inl rfl
    · rw [next_unique hnext hq]
      exact .inr hreach
  · rintro (rfl | hreach)
    · exact .refl
    · exact .head hnext hreach

theorem eq_of_reach (htype : typeAt mem offset = 0) {p : Nat} (hreach : ReflTransGen (Next mem len) offset p) :
    p = offset := by
  rcases hreach.cases_head with rfl | ⟨q, hq, -⟩
  · rfl
  · exact absurd htype hq.1

def EndsWith (mem : Nat → UInt8) (len offset : Nat) (h : Headers) (r : Nat × Headers) : Prop :=
  ReflTransGen (Next mem len) offset r.1 ∧ typeAt mem r.1 = 0 ∧
    (r.2.qfi.isSome ↔ h.qfi.isSome ∨ ∃ p, ReflTransGen (Next mem len) offset p ∧ typeAt mem p = pduSessionContainer) ∧
    (Reported mem len offset h.nrPdcpPduSn → Reported mem len r.1 r.2.nrPdcpPduSn)

theorem EndsWith.here (htype : typeAt mem offset = 0) : EndsWith mem len offset h (offset, h) := by
  refine ⟨.refl, htype, Iff.symm (or_iff_left ?_), fun h => h⟩
  rintro ⟨p, hp, hpdu⟩
  rw [eq_of_reach htype hp, htype] at hpdu
  cases hpdu

theorem extensionLoop_result {r : Nat × Headers}
    (hloop : extensionLoop (inBuffer mem) len rounds offset (typeAt mem offset) h = .ok (some r)) :
    EndsWith mem len offset h r := by
  induction rounds generalizing offset h with
  | zero =>
    rw [extensionLoop] at hloop
    split at hloop
    next htype =>
      cases hloop
      exact .here htype
    next => cases hloop
  | succ rounds ih =>
    rcases extensionLoop_cases mem len offset with htype | ⟨htype, hnext⟩ | ⟨offset', hnext⟩
    · rw [extensionLoop_end htype] at hloop
      cases hloop
      exact .here htype
    · rw [extensionLoop_malformed hnext htype] at hloop
      cases hloop
    · obtain ⟨h', hstep, hqfi, hsn⟩ := extensionLoop_next h hnext
      rw [hstep] at hloop
      obtain ⟨hreach, hend, hsome, hreported⟩ := ih hloop
      refine ⟨.head hnext hreach, hend, ?_, fun hstart => hreported (hsn ▸ hstart.next hnext)⟩
      simp only [hsome, hqfi, reach_next_iff hnext, or_assoc, or_and_right, exists_or, exists_eq_left]

/-- The loop comes to `offset` with the number that the headers before leave. -/
theorem Reported.loop {sn : Nat} (hreported : Reported mem len offset sn) : ∃ steps h, h.nrPdcpPduSn = sn ∧ ∀ rounds,
    extensionLoop (inBuffer mem) len (rounds + steps) 12 (typeAt mem 12) ⟨none, false, 0⟩ =
      extensionLoop (inBuffer mem) len rounds offset (typeAt mem offset) h := by
  induction hreported with
  | start => exact ⟨0, _, rfl, fun _ => rfl⟩
  | next _ hnext ih =>
    obtain ⟨steps, h, rfl, hloop⟩ := ih
    obtain ⟨h', hstep, -, hsn⟩ := extensionLoop_next h hnext
    exact ⟨steps + 1, h', hsn, fun rounds => by rw [← hstep, ← hloop, Nat.add_right_comm]; rfl⟩

theorem extensionLoop_reaches (hreach : ReflTransGen (Next mem len) offset offset') (hend : typeAt mem offset' = 0) :
    ∃ rounds h', extensionLoop (inBuffer mem) len rounds offset (typeAt mem offset) h = .ok (some (offset', h')) := by
  induction hreach using ReflTransGen.head_induction_on generalizing h with
  | refl => exact ⟨0, h, extensionLoop_end hend⟩
  | head hnext _ ih =>
    obtain ⟨h₁, hstep, -⟩ := extensionLoop_next h hnext
    obtain ⟨rounds, h', hloop⟩ := @ih h₁
    exact ⟨rounds + 1, h', (hstep rounds).trans hloop⟩

end Result

end OaiNr.Gtpu
