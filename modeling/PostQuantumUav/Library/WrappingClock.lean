import Mathlib.Algebra.Order.Ring.Nat
import Mathlib.Data.UInt
import Mathlib.Tactic.Common

/-!
# Durations from a counter that wraps

A program reads the low 32 bits of a counter of microseconds, widens two readings to
64 bits and subtracts them. The difference falls short of the true duration by `2 ^ 32`
for every wrap of the reading in between, so that a duration is right exactly when there
was none; a sum of short durations is right exactly when all of them are.
-/

namespace WrappingClock

/-- The low half of the counter. -/
def reading (time : Nat) : UInt32 := .ofNat time

/-- The difference of two widened readings. -/
def measured (start stop : Nat) : UInt64 := (reading stop).toUInt64 - (reading start).toUInt64

/-- How often the reading starts again from zero between two times. -/
def wraps (start stop : Nat) : Nat := stop / 2 ^ 32 - start / 2 ^ 32

variable {start stop first : Nat}

theorem toNat_reading (time : Nat) : (reading time).toUInt64.toNat = time % 2 ^ 32 := by
  rw [UInt32.toNat_toUInt64, reading, UInt32.toNat_ofNat']

/-- What is missing from a measured duration. -/
theorem measured_add_wraps (le : start ≤ stop) :
    measured start stop + .ofNat (2 ^ 32 * wraps start stop) = .ofNat (stop - start) := by
  have half := Nat.div_le_div_right (c := 2 ^ 32) le
  rw [← UInt64.toNat_inj, UInt64.toNat_add, measured, UInt64.toNat_sub, toNat_reading,
    toNat_reading, UInt64.toNat_ofNat', UInt64.toNat_ofNat', wraps]
  omega

/-- A duration is the time since an earlier moment when nothing is missing in between. -/
theorem measured_eq_iff (earlier : first ≤ start) (le : start ≤ stop) :
    measured start stop = .ofNat (stop - first) ↔
      2 ^ 64 ∣ start - first + 2 ^ 32 * wraps start stop := by
  have half := Nat.div_le_div_right (c := 2 ^ 32) le
  rw [← UInt64.toNat_inj, measured, UInt64.toNat_sub, toNat_reading, toNat_reading,
    UInt64.toNat_ofNat', wraps]
  omega

section Sums

/-- The sum of the measured durations. -/
def measuredSum (spans : List (Nat × Nat)) : UInt64 := (spans.map fun s => measured s.1 s.2).sum

/-- The sum of the true durations. -/
def elapsedSum (spans : List (Nat × Nat)) : Nat := (spans.map fun s => s.2 - s.1).sum

def wrapsSum (spans : List (Nat × Nat)) : Nat := (spans.map fun s => wraps s.1 s.2).sum

theorem measuredSum_append (spans more : List (Nat × Nat)) :
    measuredSum (spans ++ more) = measuredSum spans + measuredSum more := by
  induction spans with
  | nil => exact (UInt64.zero_add _).symm
  | cons span rest ih =>
      change measured _ _ + measuredSum (rest ++ more) = measured _ _ + measuredSum rest + _
      rw [ih, UInt64.add_assoc]

variable {spans : List (Nat × Nat)}

theorem measuredSum_add_wraps (ordered : ∀ span ∈ spans, span.1 ≤ span.2) :
    measuredSum spans + .ofNat (2 ^ 32 * wrapsSum spans) = .ofNat (elapsedSum spans) := by
  induction spans with
  | nil => rfl
  | cons span rest ih =>
      have first := measured_add_wraps (ordered span List.mem_cons_self)
      have later := ih fun span member => ordered span (List.mem_cons_of_mem _ member)
      have wrapped : wrapsSum (span :: rest) = wraps span.1 span.2 + wrapsSum rest := rfl
      have lasted : elapsedSum (span :: rest) = span.2 - span.1 + elapsedSum rest := rfl
      have counted : measuredSum (span :: rest) = measured span.1 span.2 + measuredSum rest := rfl
      rw [wrapped, lasted, counted, Nat.mul_add, UInt64.ofNat_add, UInt64.ofNat_add, ← first,
        ← later]
      ac_rfl

/-- Less than a whole turn of the counter has at most one wrap. -/
theorem wraps_le_one (short : stop - start < 2 ^ 32) : wraps start stop ≤ 1 := by
  rw [wraps]
  omega

theorem wrapsSum_le (short : ∀ span ∈ spans, span.2 - span.1 < 2 ^ 32) :
    wrapsSum spans ≤ spans.length := by
  induction spans with
  | nil => exact Nat.le_refl 0
  | cons span rest ih =>
      have first := wraps_le_one (short span List.mem_cons_self)
      have later := ih fun span member => short span (List.mem_cons_of_mem _ member)
      change wraps _ _ + wrapsSum rest ≤ rest.length + 1
      omega

/-- A sum of fewer than `2 ^ 32` short durations is right when no duration has a wrap. -/
theorem measuredSum_eq_iff (ordered : ∀ span ∈ spans, span.1 ≤ span.2)
    (short : ∀ span ∈ spans, span.2 - span.1 < 2 ^ 32) (few : spans.length < 2 ^ 32) :
    measuredSum spans = .ofNat (elapsedSum spans) ↔ ∀ span ∈ spans, wraps span.1 span.2 = 0 := by
  have bound := wrapsSum_le short
  have none_iff : wrapsSum spans = 0 ↔ ∀ span ∈ spans, wraps span.1 span.2 = 0 := by
    rw [wrapsSum, List.sum_eq_zero_iff_forall_eq_nat]
    simp only [List.mem_map, forall_exists_index, and_imp, forall_apply_eq_imp_iff₂]
  rw [← none_iff, ← measuredSum_add_wraps ordered, ← UInt64.toNat_inj, UInt64.toNat_add,
    UInt64.toNat_ofNat']
  have small := (measuredSum spans).toNat_lt
  omega

end Sums

end WrappingClock
