import FatFsParticle.Times.Stamp
import Mathlib.Data.Fin.Rev

/-!
# Timestamps while the clock runs

`get_fattime` reads the clock once for each field. What it packs lies between the first
reading and the last unless a field was read on the other side of a carry from the fields
above it.
-/

namespace FatFsParticle.Times

/-- Calls one after the other, on a clock that does not go back. -/
structure Running (calls : List Call) : Prop where
  valid : ∀ c ∈ calls, ∀ k, (c.clock k).Valid
  during : ∀ c ∈ calls, ∀ i j, i ≤ j → (c.clock i).NotAfter (c.clock j)
  between : calls.Pairwise fun c d => (c.clock 5).NotAfter (d.clock 0)

section Lexicographic

variable {first last : Fin 6 → Nat} {r : Fin 6 → Fin 6 → Nat}

/-- Fields taken from later vectors make a smaller one exactly behind a carry. -/
theorem assembled_lt_iff (later : ∀ k, toLex first ≤ toLex (r k)) :
    toLex (fun k => r k k) < toLex first ↔
      ∃ k, (∀ j < k, r j j = first j) ∧ (∃ j < k, r k j ≠ first j) ∧ r k k < first k := by
  constructor
  · rintro ⟨k, same, less⟩
    refine ⟨k, same, ?_, less⟩
    by_contra still
    push Not at still
    exact not_lt.mpr (later k) ⟨k, still, less⟩
  · rintro ⟨k, same, _, less⟩
    exact ⟨k, same, less⟩

/-- Fields taken from earlier vectors make a greater one exactly before a carry. -/
theorem lt_assembled_iff (earlier : ∀ k, toLex (r k) ≤ toLex last) :
    toLex last < toLex (fun k => r k k) ↔
      ∃ k, (∀ j < k, r j j = last j) ∧ (∃ j < k, r k j ≠ last j) ∧ last k < r k k := by
  constructor
  · rintro ⟨k, same, less⟩
    have same : ∀ j < k, r j j = last j := fun j early => (same j early).symm
    refine ⟨k, same, ?_, less⟩
    by_contra still
    push Not at still
    exact not_lt.mpr (earlier k) ⟨k, fun j early => (still j early).symm, less⟩
  · rintro ⟨k, same, _, less⟩
    exact ⟨k, fun j early => (same j early).symm, less⟩

end Lexicographic

namespace Call

/-- The fields as packed. -/
def assembled (c : Call) : Fin 6 → Nat := fun k => c.reading k k

theorem fits_assembled {c : Call} (valid : ∀ k, (c.clock k).Valid) : Fits c.assembled := by
  have fits (k : Fin 6) : Fits (c.reading k) := (valid (c.order k)).fits
  exact ⟨(fits 0).year, (fits 1).month, (fits 2).day, (fits 3).hour, (fits 4).minute,
    (fits 5).second⟩

theorem toNat_stamp {c : Call} (valid : ∀ k, (c.clock k).Valid) :
    c.stamp.toNat = number c.assembled := by
  have fits := fits_assembled valid
  have second := (valid (c.order 5)).second
  exact toNat_pack fits.year fits.month fits.day fits.hour fits.minute
    (Nat.lt_of_le_of_lt second (by decide))

theorem unpack_stamp {c : Call} (valid : ∀ k, (c.clock k).Valid) :
    (unpack c.stamp).halved = c.assembled := by
  have fits := fits_assembled valid
  have second := (valid (c.order 5)).second
  have same : unpack c.stamp = _ := unpack_pack fits.year fits.month fits.day fits.hour
    fits.minute (Nat.lt_of_le_of_lt second (by decide))
  funext k
  rw [same]
  match k with
  | 0 | 1 | 2 | 3 | 4 | 5 => simp [DateTime.halved, assembled, reading]

theorem within_iff {c : Call} (valid : ∀ k, (c.clock k).Valid)
    (during : ∀ i j, i ≤ j → (c.clock i).NotAfter (c.clock j)) : c.Within ↔ ¬ c.Torn := by
  have later (k : Fin 6) : toLex (c.clock 0).halved ≤ toLex (c.reading k) :=
    (during 0 (c.order k) (Fin.zero_le _)).halved
  have earlier (k : Fin 6) : toLex (c.reading k) ≤ toLex (c.clock 5).halved :=
    (during (c.order k) 5 (Fin.le_last _)).halved
  have after := not_lt.symm.trans (not_congr (assembled_lt_iff later))
  have before := not_lt.symm.trans (not_congr (lt_assembled_iff earlier))
  unfold Within DateTime.NotAfter₂ Torn
  rw [unpack_stamp valid, not_or]
  exact and_congr after before

end Call

/-- Every timestamp lies between the first and the last reading of its call, and they do
not go back, as long as no call is torn by a carry. -/
theorem stamps_in_order_iff {calls : List Call} (running : Running calls) :
    (∀ c ∈ calls, c.Within) ∧ calls.Pairwise (fun c d => c.stamp ≤ d.stamp) ↔
      ∀ c ∈ calls, ¬ c.Torn := by
  have within (c : Call) (call : c ∈ calls) : c.Within ↔ ¬ c.Torn :=
    Call.within_iff (running.valid c call) (running.during c call)
  constructor
  · rintro ⟨inside, _⟩ c call
    exact (within c call).mp (inside c call)
  · intro untorn
    have inside : ∀ c ∈ calls, c.Within := fun c call => (within c call).mpr (untorn c call)
    refine ⟨inside, ?_⟩
    apply running.between.imp_of_mem
    intro c d callc calld apart
    have validc := running.valid c callc
    have validd := running.valid d calld
    rw [BitVec.le_def, Call.toNat_stamp validc, Call.toNat_stamp validd,
      number_le_iff (Call.fits_assembled validc) (Call.fits_assembled validd),
      ← Call.unpack_stamp validc, ← Call.unpack_stamp validd]
    calc toLex (unpack c.stamp).halved
      _ ≤ toLex (c.clock 5).halved := (inside c callc).2
      _ ≤ toLex (d.clock 0).halved := apart.halved
      _ ≤ toLex (unpack d.stamp).halved := (inside d calld).1

/-- A call during which the clock turns from `a` to `b` before reading `n`. -/
def turning (a b : DateTime) (n : Fin 6) (order : Equiv.Perm (Fin 6)) : Call :=
  ⟨fun k => if k < n then a else b, order⟩

theorem during_turning {a b : DateTime} (turn : a.NotAfter b) (n : Fin 6)
    (order : Equiv.Perm (Fin 6)) (i j : Fin 6) (le : i ≤ j) :
    ((turning a b n order).clock i).NotAfter ((turning a b n order).clock j) := by
  simp only [turning]
  by_cases early : j < n
  · rw [if_pos early, if_pos (lt_of_le_of_lt le early)]
    exact le_refl _
  · rw [if_neg early]
    by_cases before : i < n
    · rw [if_pos before]
      exact turn
    · rw [if_neg before]
      exact le_refl _

theorem valid_turning {a b : DateTime} (va : a.Valid) (vb : b.Valid) (n : Fin 6)
    (order : Equiv.Perm (Fin 6)) (k : Fin 6) : ((turning a b n order).clock k).Valid := by
  simp only [turning]
  split
  · exact va
  · exact vb

/-- The last seconds of 2015 and the first of 2016. -/
def oldYear : DateTime := ⟨2015, 12, 31, 23, 59, 58⟩
def newYear : DateTime := ⟨2016, 1, 1, 0, 0, 0⟩

theorem valid_oldYear : oldYear.Valid := by constructor <;> decide
theorem valid_newYear : newYear.Valid := by constructor <;> decide

theorem oldYear_notAfter : oldYear.NotAfter newYear := by
  apply le_of_lt
  exact lt_at 0 (by decide) (by decide)

/-- The year is read last, after midnight: the timestamp is at the end of the new year,
and that of the next call before it. -/
theorem stamp_of_new_year : ∃ calls, Running calls ∧ ¬ (∀ c ∈ calls, c.Within) ∧
    ¬ calls.Pairwise (fun c d => c.stamp ≤ d.stamp) := by
  refine ⟨[turning oldYear newYear 5 Fin.revPerm, turning newYear newYear 0 Fin.revPerm],
    ?_, ?_, ?_⟩
  · constructor
    · simp only [List.mem_cons, List.not_mem_nil, or_false]
      rintro c (rfl | rfl) k
      · exact valid_turning valid_oldYear valid_newYear _ _ k
      · exact valid_turning valid_newYear valid_newYear _ _ k
    · simp only [List.mem_cons, List.not_mem_nil, or_false]
      rintro c (rfl | rfl) i j le
      · exact during_turning oldYear_notAfter _ _ i j le
      · exact during_turning (le_refl _) _ _ i j le
    · simp only [List.pairwise_cons, List.mem_singleton, forall_eq, List.not_mem_nil,
        false_imp_iff, implies_true, List.Pairwise.nil, and_true]
      exact le_refl _
  · intro inside
    have late := (inside _ (List.mem_cons_self ..)).2
    apply not_lt.mpr late
    exact lt_at 1 (by decide) (by decide)
  · decide

/-- A call while the minute turns, its fields read from the year on. -/
theorem stamps_in_order_iff_minute :
    let call := turning ⟨2016, 2, 29, 12, 30, 59⟩ ⟨2016, 2, 29, 12, 31, 0⟩ 3 (Equiv.refl _)
    (∀ c ∈ [call], c.Within) ∧ [call].Pairwise (fun c d => c.stamp ≤ d.stamp) ↔
      ∀ c ∈ [call], ¬ c.Torn := by
  intro call
  apply stamps_in_order_iff
  have turn : DateTime.NotAfter ⟨2016, 2, 29, 12, 30, 59⟩ ⟨2016, 2, 29, 12, 31, 0⟩ :=
    le_of_lt (lt_at 4 (by decide) (by decide))
  constructor
  · simp only [List.mem_singleton, forall_eq]
    exact valid_turning (by constructor <;> decide) (by constructor <;> decide) _ _
  · simp only [List.mem_singleton, forall_eq]
    exact during_turning turn _ _
  · exact List.pairwise_singleton _ _

end FatFsParticle.Times
