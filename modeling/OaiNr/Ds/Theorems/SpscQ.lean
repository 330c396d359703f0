import OaiNr.Ds.Lemmas.SpscQ

/-!
# The queue is a bounded FIFO
-/

namespace OaiNr.Ds

open Simulation

variable {cap : Nat} {q : SpscQ} {f : Fifo} {p : Producer} {c : Consumer}

section Relation

def Producer.Follows (cap : Nat) (q : SpscQ) (f : Fifo) : Producer → Prop
  | .idle => f.putting = none
  | .loadWrite src => f.putting = some (src, none) ∧ src.length = q.elsiz
  | .loadRead src w => f.putting = some (src, none) ∧ src.length = q.elsiz ∧ w = q.writeIdx
  | .copy src w copied => f.putting = some (src, none) ∧ src.length = q.elsiz ∧ w = q.writeIdx ∧
      f.contents.length < cap ∧ copied ≤ q.elsiz ∧ (q.slot w).take copied = src.take copied

structure Getting.Matches (g : Getting) (t : Taking) : Prop where
  call : t.call = g.call
  count : g.count = t.taken.length
  dest : g.dest = if t.call.dest then t.taken else []

structure Getting.Goes (g : Getting) (f : Fifo) (t : Taking) : Prop extends g.Matches t where
  taking : f.taking = some t
  going : t.stopped = false
  again : t.call.again t.taken.length = true

def Consumer.Follows (q : SpscQ) (f : Fifo) : Consumer → Prop
  | .idle => f.taking = none
  | .loadWrite g => ∃ t, g.Goes f t
  | .loadRead g w => (w = q.readIdx ∧ ∃ t, g.Matches t ∧ f.taking = some t ∧ t.stopped = true) ∨
      (w ≠ q.readIdx ∧ ∃ t, g.Goes f t ∧ f.contents ≠ [])
  | .loadPos g r => r = q.readIdx ∧ ∃ t, g.Goes f t ∧ f.contents ≠ []
  | .test g r pos seen => r = q.readIdx ∧ pos = q.readIdx ∧ seen.length ≤ q.elsiz ∧
      ∃ t x, g.Goes f t ∧ f.contents.head? = some x ∧ seen = x.take seen.length
  | .copy g r pos out => r = q.readIdx ∧ pos = q.readIdx ∧ out.length ≤ q.elsiz ∧
      ∃ t x, g.Goes f t ∧ f.contents.head? = some x ∧ out = x.take out.length ∧ t.call.pred x = true ∧
        t.call.dest = true
  | .store g r => r = q.readIdx ∧ ∃ t x, f.taking = some t ∧ t.stopped = false ∧
      t.call.again t.taken.length = true ∧ f.contents.head? = some x ∧ t.call.pred x = true ∧
      Getting.Matches { g with count := g.count + 1 } { t with taken := t.taken ++ [x] }

structure Follows (cap : Nat) (elsiz : Nat) (s : System) (f : Fifo) : Prop where
  elsiz_eq : s.q.elsiz = elsiz
  ring : Ring cap s.q f.contents
  producer : s.producer.Follows cap s.q f
  consumer : s.consumer.Follows s.q f

end Relation

section Frame

theorem Consumer.Follows.frame {q' : SpscQ} {f' : Fifo} (h : c.Follows q f) (hread : q'.readIdx = q.readIdx)
    (helsiz : q'.elsiz = q.elsiz) (htaking : f'.taking = f.taking)
    (hhead : ∀ x, f.contents.head? = some x → f'.contents.head? = some x) : c.Follows q' f' := by
  have hgoes : ∀ {g : Getting} {t : Taking}, g.Goes f t → g.Goes f' t :=
    fun hg => ⟨hg.toMatches, htaking.trans hg.taking, hg.going, hg.again⟩
  have hne : f.contents ≠ [] → f'.contents ≠ [] := by
    intro hne hnil
    obtain ⟨x, xs, hx⟩ := List.exists_cons_of_ne_nil hne
    have := hhead x (by rw [hx]; rfl)
    rw [hnil] at this
    cases this
  cases c with
  | idle => exact htaking.trans h
  | loadWrite g =>
    obtain ⟨t, ht⟩ := h
    exact ⟨t, hgoes ht⟩
  | loadRead g w =>
    unfold Consumer.Follows
    rw [hread, htaking]
    exact h.imp_right fun ⟨hw, t, ht, hcon⟩ => ⟨hw, t, hgoes ht, hne hcon⟩
  | loadPos g r =>
    obtain ⟨hr, t, ht, hcon⟩ := h
    exact ⟨hr.trans hread.symm, t, hgoes ht, hne hcon⟩
  | test g r pos seen =>
    obtain ⟨hr, hpos, hlen, t, x, ht, hx, hseen⟩ := h
    exact ⟨hr.trans hread.symm, hpos.trans hread.symm, helsiz ▸ hlen, t, x, hgoes ht, hhead x hx, hseen⟩
  | copy g r pos out =>
    obtain ⟨hr, hpos, hlen, t, x, ht, hx, hout⟩ := h
    exact ⟨hr.trans hread.symm, hpos.trans hread.symm, helsiz ▸ hlen, t, x, hgoes ht, hhead x hx, hout⟩
  | store g r =>
    obtain ⟨hr, t, x, ht, hstopped, hagain, hx, hrest⟩ := h
    exact ⟨hr.trans hread.symm, t, x, htaking.trans ht, hstopped, hagain, hhead x hx, hrest⟩

theorem Producer.Follows.frame {f' : Fifo} {r : Nat} (h : p.Follows cap q f) (hputting : f'.putting = f.putting)
    (hlen : f'.contents.length ≤ f.contents.length) : p.Follows cap { q with readIdx := r } f' := by
  cases p with
  | idle => exact hputting.trans h
  | loadWrite src => exact ⟨hputting.trans h.1, h.2⟩
  | loadRead src w => exact ⟨hputting.trans h.1, h.2⟩
  | copy src w copied =>
    obtain ⟨hsrc, hlength, hw, hroom, hcopied, hslot⟩ := h
    exact ⟨hputting.trans hsrc, hlength, hw, Nat.lt_of_le_of_lt hlen hroom, hcopied, hslot⟩

end Frame

section Steps

theorem spscQPut_follows (hring : Ring cap q f.contents) (hp : p.Follows cap q f) (hc : c.Follows q f) :
    ∃ q' p' es f', spscQPut q p = .ok ((q', p'), es) ∧ Runs (Fifo.Step cap) f es f' ∧ q'.elsiz = q.elsiz ∧
      Ring cap q' f'.contents ∧ p'.Follows cap q' f' ∧ c.Follows q' f' := by
  cases p with
  | idle => exact ⟨q, .idle, [], f, rfl, .refl f, rfl, hring, hp, hc⟩
  | loadWrite src => exact ⟨q, .loadRead src q.writeIdx, [], f, rfl, .refl f, rfl, hring, ⟨hp.1, hp.2, rfl⟩, hc⟩
  | loadRead src w =>
    obtain ⟨hsrc, hlength, rfl⟩ := hp
    rw [spscQPut, hring.next_eq hring.write_lt, ok_bind]
    by_cases hfull : (q.writeIdx + 1) % q.cnt = q.readIdx
    · rw [if_pos hfull]
      refine ⟨q, .idle, [.putDone false], { f with putting := none }, rfl, ?_, rfl, hring, rfl, ?_⟩
      · exact (Runs.single (Fifo.Step.refuse hsrc (hring.full_iff.mp hfull))).tail (.putDone rfl)
      · exact hc.frame rfl rfl rfl fun _ hx => hx
    · rw [if_neg hfull]
      have hroom := Nat.lt_of_le_of_ne hring.length_le fun hlen => hfull (hring.full_iff.mpr hlen)
      exact ⟨q, .copy src q.writeIdx 0, [], f, rfl, .refl f, rfl, hring,
        ⟨hsrc, hlength, rfl, hroom, Nat.zero_le _, rfl⟩, hc⟩
  | copy src w copied =>
    obtain ⟨hsrc, hlength, rfl, hroom, hcopied, hslot⟩ := hp
    obtain ⟨hle, hmod⟩ := hring.address_lt hring.write_lt
    rw [spscQPut]
    by_cases hmore : copied < q.elsiz
    · obtain ⟨buf, hbuf⟩ : ∃ buf, Memory.writeAt q.buf (q.writeIdx * q.elsiz + copied) [src.getD copied 0] = some buf :=
        ⟨_, Memory.writeAt_eq_some.mpr ⟨by rw [List.length_singleton]; omega, rfl⟩⟩
      rw [if_pos hmore, hmod, hbuf, checked_some, ok_bind]
      refine ⟨{ q with buf := buf }, .copy src q.writeIdx (copied + 1), [], f, rfl, .refl f, rfl,
        hring.write hmore hbuf, ⟨hsrc, hlength, rfl, hroom, hmore, ?_⟩, hc.frame rfl rfl rfl fun _ hx => hx⟩
      rw [Ring.slot_write hmore hbuf, hslot, List.take_succ_eq_append_getElem (by omega),
        List.getD_eq_getElem?_getD, List.getElem?_eq_getElem (by omega), Option.getD_some]
    · obtain rfl : copied = q.elsiz := by omega
      have hdone : q.slot q.writeIdx = src := by
        rwa [List.take_of_length_le (Nat.le_of_eq (hring.length_slot hring.write_lt)),
          List.take_of_length_le (Nat.le_of_eq hlength)] at hslot
      rw [if_neg hmore, hring.next_eq hring.write_lt, ok_bind]
      refine ⟨{ q with writeIdx := (q.writeIdx + 1) % q.cnt }, .idle, [.putDone true],
        { f with contents := f.contents ++ [src], putting := none }, rfl, ?_, rfl, hring.push hdone hroom, rfl, ?_⟩
      · exact (Runs.single (Fifo.Step.accept hsrc hroom)).tail (.putDone rfl)
      · exact hc.frame rfl rfl rfl fun x hx => by rw [List.head?_append, hx]; rfl

theorem finish_follows {g : Getting} {t : Taking} (hg : g.Matches t) (ht : f.taking = some t)
    (hdone : t.stopped = true ∨ t.call.again t.taken.length = false) :
    Runs (Fifo.Step cap) f g.finish.2 { f with taking := none } := by
  have hstep := @Fifo.Step.getDone cap f t ht hdone
  rw [← hg.count, ← hg.dest] at hstep
  exact .single hstep

theorem spscQGetIf_follows (hring : Ring cap q f.contents) (hc : c.Follows q f) :
    ∃ r c' es f', spscQGetIf q c = .ok ({ q with readIdx := r }, c', es) ∧ Runs (Fifo.Step cap) f es f' ∧
      Ring cap { q with readIdx := r } f'.contents ∧ c'.Follows { q with readIdx := r } f' ∧
      f'.putting = f.putting ∧ f'.contents.length ≤ f.contents.length := by
  cases c with
  | idle => exact ⟨q.readIdx, .idle, [], f, rfl, .refl f, hring, hc, rfl, Nat.le_refl _⟩
  | loadWrite g =>
    obtain ⟨t, ht⟩ := hc
    by_cases hempty : q.writeIdx = q.readIdx
    · -- the queue is empty now; when the read index is loaded, it may not be
      refine ⟨q.readIdx, .loadRead g q.writeIdx, [], { f with taking := some { t with stopped := true } }, rfl, ?_,
        hring, .inl ⟨hempty, { t with stopped := true }, { ht with }, rfl, rfl⟩, rfl, Nat.le_refl _⟩
      refine .single (.stop ht.taking ht.again fun x hx => ?_)
      rw [hring.empty_iff.mp hempty] at hx
      cases hx
    · exact ⟨q.readIdx, .loadRead g q.writeIdx, [], f, rfl, .refl f, hring,
        .inr ⟨hempty, t, ht, fun hnil => hempty (hring.empty_iff.mpr hnil)⟩, rfl, Nat.le_refl _⟩
  | loadRead g w =>
    rcases hc with ⟨hw, t, hg, ht, hstopped⟩ | ⟨hw, t, ht, hne⟩
    · rw [spscQGetIf, if_pos hw]
      exact ⟨q.readIdx, .idle, _, { f with taking := none }, rfl, finish_follows hg ht (.inl hstopped), hring, rfl,
        rfl, Nat.le_refl _⟩
    · rw [spscQGetIf, if_neg hw]
      exact ⟨q.readIdx, .loadPos g q.readIdx, [], f, rfl, .refl f, hring, ⟨rfl, t, ht, hne⟩, rfl, Nat.le_refl _⟩
  | loadPos g r =>
    obtain ⟨hr, t, ht, hne⟩ := hc
    obtain ⟨x, xs, hx⟩ := List.exists_cons_of_ne_nil hne
    exact ⟨q.readIdx, .test g r q.readIdx [], [], f, rfl, .refl f, hring,
      ⟨hr, rfl, Nat.zero_le _, t, x, ht, by rw [hx]; rfl, rfl⟩, rfl, Nat.le_refl _⟩
  | test g r pos seen =>
    obtain ⟨hr, rfl, hlen, t, x, ht, hx, hseen⟩ := hc
    rw [spscQGetIf]
    by_cases hmore : seen.length < q.elsiz
    · obtain ⟨byte, hread, hlen', hnext⟩ := hring.readAt_oldest hx hseen hmore
      rw [if_pos hmore, hread, checked_some, ok_bind]
      exact ⟨q.readIdx, .test g r q.readIdx (seen ++ byte), [], f, rfl, .refl f, hring,
        ⟨hr, rfl, by rw [hlen']; exact hmore, t, x, ht, hx, hnext⟩, rfl, Nat.le_refl _⟩
    · rw [if_neg hmore, hring.eq_oldest hx hseen hmore, ← ht.call]
      cases hpred : t.call.pred x with
      | false =>
        have hstop : Fifo.Step cap f [] { f with taking := some { t with stopped := true } } :=
          .stop ht.taking ht.again fun y hy => by
            obtain rfl : x = y := Option.some.inj (hx.symm.trans hy)
            exact hpred
        exact ⟨q.readIdx, .idle, _, { f with taking := none }, rfl,
          (Runs.single hstop).trans (finish_follows (t := { t with stopped := true })
            { ht with } rfl (.inl rfl)), hring, rfl, rfl, Nat.le_refl _⟩
      | true =>
        cases hdest : t.call.dest with
        | true =>
          exact ⟨q.readIdx, .copy g r q.readIdx [], [], f, rfl, .refl f, hring,
            ⟨hr, rfl, Nat.zero_le _, t, x, ht, hx, rfl, hpred, hdest⟩, rfl, Nat.le_refl _⟩
        | false =>
          refine ⟨q.readIdx, .store g r, [], f, rfl, .refl f, hring, ⟨hr, t, x, ht.taking, ht.going, ht.again, hx, hpred,
            ⟨ht.call, ?_, ?_⟩⟩, rfl, Nat.le_refl _⟩
          · rw [List.length_append, List.length_singleton, ht.count]
          · rw [ht.dest, hdest]
            rfl
  | copy g r pos out =>
    obtain ⟨hr, rfl, hlen, t, x, ht, hx, hout, hpred, hdest⟩ := hc
    rw [spscQGetIf]
    by_cases hmore : out.length < q.elsiz
    · obtain ⟨byte, hread, hlen', hnext⟩ := hring.readAt_oldest hx hout hmore
      rw [if_pos hmore, hread, checked_some, ok_bind]
      exact ⟨q.readIdx, .copy g r q.readIdx (out ++ byte), [], f, rfl, .refl f, hring,
        ⟨hr, rfl, by rw [hlen']; exact hmore, t, x, ht, hx, hnext, hpred, hdest⟩, rfl, Nat.le_refl _⟩
    · rw [if_neg hmore, hring.eq_oldest hx hout hmore]
      refine ⟨q.readIdx, .store { g with dest := g.dest ++ [x] } r, [], f, rfl, .refl f, hring,
        ⟨hr, t, x, ht.taking, ht.going, ht.again, hx, hpred, ⟨ht.call, ?_, ?_⟩⟩, rfl, Nat.le_refl _⟩
      · rw [List.length_append, List.length_singleton, ht.count]
      · simp only [ht.dest, hdest, if_true]
  | store g r =>
    obtain ⟨rfl, t, x, ht, hgoing, hagain, hx, hpred, hg⟩ := hc
    obtain ⟨xs, hxs⟩ := List.head?_eq_some_iff.mp hx
    have hring' : Ring cap q (x :: xs) := hxs ▸ hring
    have htake : Fifo.Step cap f [] { f with contents := xs, taking := some { t with taken := t.taken ++ [x] } } :=
      .take ht hgoing hagain hxs hpred
    have hlen : xs.length ≤ f.contents.length := by
      rw [hxs]
      exact Nat.le_succ _
    rw [spscQGetIf, hring.next_eq hring.read_lt, ok_bind, Getting.loop]
    split
    next hloop =>
      refine ⟨(q.readIdx + 1) % q.cnt, .loadWrite { g with count := g.count + 1 }, [], _, rfl, .single htake, hring'.pop,
        ⟨_, hg, rfl, hgoing, ?_⟩, rfl, hlen⟩
      rw [← hg.count, hg.call]
      exact hloop
    next hend =>
      refine ⟨(q.readIdx + 1) % q.cnt, .idle, _, { f with contents := xs, taking := none }, rfl,
        (Runs.single htake).trans (finish_follows hg rfl (.inr ?_)), hring'.pop, rfl, rfl, hlen⟩
      rw [← hg.count, hg.call]
      exact eq_false_of_ne_true hend

theorem step_follows (cap elsiz : Nat) : Simulates (@System.step elsiz) (Fifo.Step cap) (Follows cap elsiz) := by
  rintro ⟨q, p, c⟩ f a ⟨helsiz, hring, hp, hc⟩
  cases a with
  | put src =>
    cases p with
    | idle =>
      exact ⟨⟨q, .loadWrite src.val, c⟩, [.put src.val], { f with putting := some (src.val, none) }, rfl,
        .single (.put src.val hp), helsiz, hring, ⟨rfl, src.property.trans helsiz.symm⟩,
        hc.frame rfl rfl rfl fun _ hx => hx⟩
    | loadWrite | loadRead | copy => exact ⟨_, [], f, rfl, .refl f, helsiz, hring, hp, hc⟩
  | get call =>
    cases c with
    | idle =>
      have hget : Fifo.Step cap f [.get call] { f with taking := some ⟨call, [], false⟩ } := .get call hc
      have hg : Getting.Matches ⟨call, 0, []⟩ ⟨call, [], false⟩ := ⟨rfl, rfl, (ite_self _).symm⟩
      cases hagain : call.again 0 with
      | true =>
        have hloop : Getting.loop ⟨call, 0, []⟩ = (.loadWrite ⟨call, 0, []⟩, []) := if_pos hagain
        exact ⟨⟨q, p, .loadWrite ⟨call, 0, []⟩⟩, [.get call], _, by simp only [System.step, hloop], .single hget,
          helsiz, hring, hp.frame rfl (Nat.le_refl _), ⟨_, hg, rfl, rfl, hagain⟩⟩
      | false =>
        have hloop : Getting.loop ⟨call, 0, []⟩ = Getting.finish ⟨call, 0, []⟩ :=
          if_neg (Bool.eq_false_iff.mp hagain)
        exact ⟨⟨q, p, .idle⟩, _, { f with taking := none }, by simp only [System.step, hloop]; rfl,
          (Runs.single hget).trans (finish_follows hg rfl (.inr hagain)), helsiz, hring,
          hp.frame rfl (Nat.le_refl _), rfl⟩
    | loadWrite | loadRead | loadPos | test | copy | store =>
      exact ⟨_, [], f, rfl, .refl f, helsiz, hring, hp, hc⟩
  | producer =>
    obtain ⟨q', p', es, f', hput, hruns, hsize, hring', hp', hc'⟩ := spscQPut_follows hring hp hc
    rw [System.step, hput]
    exact ⟨⟨q', p', c⟩, es, f', rfl, hruns, hsize.trans helsiz, hring', hp', hc'⟩
  | consumer =>
    obtain ⟨r, c', es, f', hget, hruns, hring', hc', hputting, hlen⟩ := spscQGetIf_follows hring hc
    rw [System.step, hget]
    exact ⟨⟨{ q with readIdx := r }, p, c'⟩, es, f', rfl, hruns, helsiz, hring', hp.frame hputting hlen, hc'⟩

end Steps

theorem Follows.raceFree {elsiz : Nat} {s : System} (h : Follows cap elsiz s f) : s.RaceFree := by
  rintro src w copied g r pos bytes hp hc rfl
  have hproducer := h.producer
  have hconsumer := h.consumer
  rw [hp] at hproducer
  have hhead : ∃ x, f.contents.head? = some x ∧ w = s.q.readIdx := by
    rcases hc with hc | hc
    · rw [hc] at hconsumer
      obtain ⟨-, hpos, -, -, x, -, hx, -⟩ := hconsumer
      exact ⟨x, hx, hpos⟩
    · rw [hc] at hconsumer
      obtain ⟨-, hpos, -, -, x, -, hx, -⟩ := hconsumer
      exact ⟨x, hx, hpos⟩
  obtain ⟨x, hx, hpos⟩ := hhead
  rw [h.ring.empty_iff.mp (hproducer.2.2.1.symm.trans hpos)] at hx
  cases hx

theorem spscQAlloc_follows {heap : Bool} {cnt elsiz : UInt64} {q : SpscQ} (hcnt : cnt.toNat + 1 < 2 ^ 64)
    (h : spscQAlloc heap cnt elsiz = some q) : Follows cnt.toNat elsiz.toNat ⟨q, .idle, .idle⟩ Fifo.empty := by
  obtain ⟨buf, hbuf, rfl⟩ := Option.map_eq_some_iff.mp h
  rw [toOption_eq_some, Nat.mod_eq_of_lt hcnt, calloc] at hbuf
  split at hbuf
  · cases hbuf
  · next hsize =>
    split at hbuf
    · obtain rfl := Except.ok.inj hbuf
      have hmod : (cnt.toNat + 1) % 2 ^ 64 = cnt.toNat + 1 := Nat.mod_eq_of_lt hcnt
      refine ⟨rfl, ⟨hmod, ?_, ?_, ?_, ?_, ?_, Nat.zero_le _, fun i hi => absurd hi (Nat.not_lt_zero i)⟩, rfl, rfl⟩
      · exact Nat.mod_lt _ (by decide)
      · show (cnt.toNat + 1) % 2 ^ 64 * elsiz.toNat < 2 ^ 64
        rw [hmod]
        exact Nat.not_le.mp hsize
      · show (List.replicate _ _).length = (cnt.toNat + 1) % 2 ^ 64 * elsiz.toNat
        rw [List.length_replicate, hmod]
      · show 0 < (cnt.toNat + 1) % 2 ^ 64
        rw [hmod]
        exact Nat.succ_pos _
      · exact (Nat.zero_mod _).symm
    · cases hbuf

/-- In every order of the steps, the queue is a FIFO of the capacity that was asked for, if and only if one more
element is still a `size_t`. -/
theorem spscQ_refines_iff (cnt elsiz : UInt64) :
    (∀ heap q, spscQAlloc heap cnt elsiz = some q → ∀ actions : List (Action elsiz.toNat),
      ∃ s es f, runAll System.step ⟨q, .idle, .idle⟩ actions = .ok (s, es) ∧
        Runs (Fifo.Step cnt.toNat) Fifo.empty es f ∧ s.q.elements = f.contents ∧ s.RaceFree) ↔
      cnt.toNat + 1 < 2 ^ 64 := by
  constructor
  · intro h
    have hlt : cnt.toNat < 2 ^ 64 := cnt.toNat_lt
    refine Nat.lt_of_not_le fun hle => ?_
    have hcnt : cnt.toNat + 1 = 2 ^ 64 := by omega
    have halloc : spscQAlloc true cnt elsiz = some ⟨[], 0, elsiz.toNat, 0, 0⟩ := by
      rw [spscQAlloc, hcnt, Nat.mod_self, calloc, Nat.zero_mul]
      rfl
    -- the first element that is put divides by the number of places
    obtain ⟨s, es, f, hrun, -⟩ := h true _ halloc
      [.put ⟨List.replicate elsiz.toNat 0, List.length_replicate⟩, .producer, .producer]
    cases hrun
  · intro hcnt heap q hq actions
    obtain ⟨s, es, f, hrun, hruns, hfollows⟩ :=
      (step_follows cnt.toNat elsiz.toNat).runAll (spscQAlloc_follows hcnt hq) actions
    exact ⟨s, es, f, hrun, hruns, hfollows.ring.elements_eq, hfollows.raceFree⟩

/-- A queue for as many elements as a `size_t` can count: it is there, but it has no places. -/
theorem spscQ_overflows : ∃ q, spscQAlloc true 18446744073709551615 1 = some q ∧
      runAll (@System.step 1) ⟨q, .idle, .idle⟩ [.put ⟨[0], rfl⟩, .producer, .producer] = .error .divisionByZero :=
  ⟨⟨[], 0, 1, 0, 0⟩, rfl, rfl⟩

end OaiNr.Ds
