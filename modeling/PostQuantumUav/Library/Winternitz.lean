import Mathlib.Algebra.BigOperators.Group.Finset.Basic
import Mathlib.Algebra.Order.BigOperators.Group.Finset
import Mathlib.Tactic.Common

/-!
# Checksums of Winternitz signatures

A vector of digits says how far each hash chain is released. Whoever holds the
vector can move every chain further, never back. The message's digits are therefore
followed by the digits of a checksum: the number of steps that the message leaves in
its chains. A message whose digits are at least as large leaves fewer steps, so one of
its checksum digits is smaller.
-/

namespace Winternitz

variable {base n m : Nat} {a b : Nat → Nat}

/-- The steps that the first `n` chains have left. -/
def remaining (base : Nat) (a : Nat → Nat) (n : Nat) : Nat :=
  ∑ i ∈ Finset.range n, (base - 1 - a i)

@[simp] theorem remaining_zero (base : Nat) (a : Nat → Nat) : remaining base a 0 = 0 := rfl

theorem remaining_succ (base : Nat) (a : Nat → Nat) (n : Nat) :
    remaining base a (n + 1) = remaining base a n + (base - 1 - a n) :=
  Finset.sum_range_succ _ n

theorem remaining_le (base : Nat) (a : Nat → Nat) (n : Nat) :
    remaining base a n ≤ n * (base - 1) := by
  induction n with
  | zero => exact Nat.zero_le _
  | succ n ih =>
      rw [remaining_succ, Nat.succ_mul]
      exact Nat.add_le_add ih (Nat.sub_le _ _)

/-- The number written by the `m` digits from position `n` on, the first one most
significant. -/
def number (base : Nat) (a : Nat → Nat) (n : Nat) : Nat → Nat
  | 0 => 0
  | m + 1 => base * number base a n m + a (n + m)

theorem number_le (base : Nat) (dominated : ∀ i, n ≤ i → i < n + m → a i ≤ b i) :
    number base a n m ≤ number base b n m := by
  induction m with
  | zero => exact Nat.le_refl _
  | succ m ih =>
      have front := ih fun i low high => dominated i low (by omega)
      have last := dominated (n + m) (by omega) (by omega)
      exact Nat.add_le_add (Nat.mul_le_mul_left base front) last

/-- A vector that is nowhere smaller, and leaves no fewer steps, is the same. -/
theorem eq_of_remaining_le (bounded : ∀ i < n, b i < base) (dominated : ∀ i < n, a i ≤ b i)
    (left : remaining base a n ≤ remaining base b n) : ∀ i < n, a i = b i := by
  have fewer : ∀ i ∈ Finset.range n, base - 1 - b i ≤ base - 1 - a i := by
    intro i member
    have := dominated i (Finset.mem_range.mp member)
    omega
  have same := (Finset.sum_eq_sum_iff_of_le fewer).mp
    (Nat.le_antisymm (Finset.sum_le_sum fewer) left)
  intro i below
  have equal := same i (Finset.mem_range.mpr below)
  have := bounded i below
  have := dominated i below
  omega

/-- `n` digits followed by the `m` digits of the steps they leave. -/
structure Checksummed (base n m : Nat) (a : Nat → Nat) : Prop where
  bounded : ∀ i < n, a i < base
  checksum : number base a n m = remaining base a n

/-- Digits with a checksum that are nowhere larger than others with one are the same. -/
theorem Checksummed.eq_of_dominated (first : Checksummed base n m a)
    (second : Checksummed base n m b) (dominated : ∀ i < n + m, a i ≤ b i) :
    ∀ i < n, a i = b i := by
  have sums := number_le base fun i (_ : n ≤ i) high => dominated i high
  rw [first.checksum, second.checksum] at sums
  exact eq_of_remaining_le second.bounded (fun i below => dominated i (by omega)) sums

/-- Different digits with checksums: each vector is smaller than the other somewhere. -/
theorem Checksummed.incomparable (first : Checksummed base n m a)
    (second : Checksummed base n m b) (differ : ∃ i < n, a i ≠ b i) :
    (∃ i < n + m, a i < b i) ∧ ∃ i < n + m, b i < a i := by
  obtain ⟨i, below, ne⟩ := differ
  constructor
  · by_contra none
    have dominated : ∀ j < n + m, b j ≤ a j := by
      intro j bound
      by_contra more
      exact none ⟨j, bound, by omega⟩
    exact ne (second.eq_of_dominated first dominated i below).symm
  · by_contra none
    have dominated : ∀ j < n + m, a j ≤ b j := by
      intro j bound
      by_contra more
      exact none ⟨j, bound, by omega⟩
    exact ne (first.eq_of_dominated second dominated i below)

end Winternitz
