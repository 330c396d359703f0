import OaiNr.Rlc.AmRx

/-!
# One slot of the reception ring

A slot holds the segments received for one SN, in the order of `so`. Once the SDU is processed the first byte stays
there, so that no later segment becomes the head.
-/

namespace OaiNr.Rlc

structure PduOk (sn : Int) (p : Pdu) : Prop where
  sn_eq : p.sn = sn
  so_nonneg : 0 ≤ p.so
  size_pos : 0 < p.size
  first : p.isFirst = true ↔ p.so = 0
  data_length : ∀ b, p.data = some b → (b.length : Int) = p.size

structure SlotOk (sn : Int) (l : List Pdu) : Prop where
  pdu : ∀ p ∈ l, PduOk sn p
  sorted : l.Pairwise fun p q => p.so ≤ q.so
  fresh : Am.processed l = false → ∀ p ∈ l, p.data ≠ none
  head : Am.processed l → ∀ p ∈ l.head?, p.so = 0

def marked (l : List Pdu) : List Pdu := l.map fun p => { p with data := none }

variable {sn : Int} {pdu p : Pdu} {l : List Pdu}

namespace RxManager

theorem mem_insertBySo : p ∈ insertBySo pdu l ↔ p = pdu ∨ p ∈ l := by
  induction l with
  | nil => simp [insertBySo]
  | cons c l ih =>
    simp only [insertBySo]
    split
    · simp
    · simp only [List.mem_cons, ih]
      tauto

theorem sorted_insertBySo (h : l.Pairwise fun p q => p.so ≤ q.so) :
    (insertBySo pdu l).Pairwise fun p q => p.so ≤ q.so := by
  induction l with
  | nil => simp [insertBySo]
  | cons c l ih =>
    obtain ⟨hc, hl⟩ := List.pairwise_cons.mp h
    simp only [insertBySo]
    split
    · rename_i hlt
      refine List.pairwise_cons.mpr ⟨fun q hq => ?_, h⟩
      rcases List.mem_cons.mp hq with rfl | hq
      · omega
      · have := hc q hq
        omega
    · rename_i hge
      refine List.pairwise_cons.mpr ⟨fun q hq => ?_, ih hl⟩
      rcases mem_insertBySo.mp hq with rfl | hq
      · omega
      · exact hc q hq

theorem head_insertBySo {c : Pdu} (h : c.so ≤ pdu.so) : insertBySo pdu (c :: l) = c :: insertBySo pdu l := by
  rw [insertBySo, if_neg (by omega)]

end RxManager

namespace Am

theorem processed_insertBySo (hd : pdu.data ≠ none) (hl : processed l = false) :
    processed (RxManager.insertBySo pdu l) = false := by
  have hd : pdu.data.isNone = false := by
    obtain ⟨data, hdata⟩ := Option.ne_none_iff_exists'.mp hd
    rw [hdata, Option.isNone_some]
  cases l with
  | nil => simpa [RxManager.insertBySo, processed] using hd
  | cons c l =>
    simp only [RxManager.insertBySo]
    split
    · simpa [processed] using hd
    · simpa [processed] using hl

theorem processed_marked (h : l ≠ []) : processed (marked l) := by
  cases l with
  | nil => exact absurd rfl h
  | cons c l => rfl

theorem sduFullLoop_head (h : sduFullLoop l (-1)) : ∃ c t, l = c :: t ∧ c.so ≤ 0 := by
  cases l with
  | nil => simp [sduFullLoop] at h
  | cons c l =>
    rw [sduFullLoop] at h
    split at h
    · simp at h
    · exact ⟨c, l, rfl, by omega⟩

theorem reassembleLoop_ok (h : ∀ p ∈ l, p.data ≠ none) (sdu : List UInt8) (so : Int) :
    ∃ r, reassembleLoop l sdu so = .ok r := by
  induction l generalizing sdu so with
  | nil => exact ⟨_, rfl⟩
  | cons c l ih =>
    obtain ⟨data, hdata⟩ := Option.ne_none_iff_exists'.mp (h c List.mem_cons_self)
    have ih := ih fun p hp => h p (List.mem_cons_of_mem _ hp)
    simp only [reassembleLoop, hdata]
    split
    · exact ⟨_, rfl⟩
    · split
      · exact ih _ _
      · exact ih _ _

end Am

namespace SlotOk

theorem nil : SlotOk sn [] :=
  { pdu := fun p hp => absurd hp List.not_mem_nil
    sorted := List.Pairwise.nil
    fresh := fun _ p hp => absurd hp List.not_mem_nil
    head := fun _ p hp => by simp at hp }

theorem insert (h : SlotOk sn l) (hp : PduOk sn pdu) (hd : pdu.data ≠ none) :
    SlotOk sn (RxManager.insertBySo pdu l) := by
  refine ⟨fun p hm => ?_, RxManager.sorted_insertBySo h.sorted, fun hf p hm => ?_, fun hf p hm => ?_⟩
  · rcases RxManager.mem_insertBySo.mp hm with rfl | hm
    · exact hp
    · exact h.pdu p hm
  · cases hpr : Am.processed l with
    | false =>
      rcases RxManager.mem_insertBySo.mp hm with rfl | hm
      · exact hd
      · exact h.fresh hpr p hm
    | true =>
      cases l with
      | nil => simp [Am.processed] at hpr
      | cons c l =>
        have hso := hp.so_nonneg
        have hc : c.so = 0 := h.head hpr c rfl
        rw [RxManager.head_insertBySo (by omega)] at hf
        exact absurd (hpr.symm.trans hf) (by simp)
  · cases hpr : Am.processed l with
    | false => exact absurd ((Am.processed_insertBySo hd hpr).symm.trans hf) (by simp)
    | true =>
      cases l with
      | nil => simp [Am.processed] at hpr
      | cons c l =>
        have hso := hp.so_nonneg
        have hc : c.so = 0 := h.head hpr c rfl
        rw [RxManager.head_insertBySo (by omega)] at hm
        cases hm
        exact hc

theorem mark (h : SlotOk sn l) (hf : Am.sduFullLoop l (-1)) : SlotOk sn (marked l) := by
  obtain ⟨c, t, rfl, hc⟩ := Am.sduFullLoop_head hf
  refine ⟨fun p hm => ?_, List.Pairwise.map _ (fun _ _ hab => hab) h.sorted, fun hp => ?_, fun _ p hm => ?_⟩
  · obtain ⟨q, hq, rfl⟩ := List.mem_map.mp hm
    exact { h.pdu q hq with data_length := fun b hb => by simp at hb }
  · simp [marked, Am.processed] at hp
  · cases hm
    have := (h.pdu c List.mem_cons_self).so_nonneg
    show c.so = 0
    omega

end SlotOk

end OaiNr.Rlc
