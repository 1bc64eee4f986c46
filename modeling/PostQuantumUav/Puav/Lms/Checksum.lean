import PostQuantumUav.Library.Hex
import PostQuantumUav.Library.Winternitz
import PostQuantumUav.Puav.Lms.Evaluation

/-!
# The checksum of a message digest

The sixty-four half bytes of a digest are followed by three more of the shifted
checksum; the last half byte is not read. The sixteen-bit sum never wraps, and its
shift puts the three digits of the sum into the three half bytes that are read, so no
two digests release chains of which one vector could be advanced into the other.
-/

namespace Puav.LmotsLms

open Interaction Cell

/-- The value that the checksum loop has accumulated after `count` coefficients. -/
def checksumAfter (digest : Bytes) (count : Nat) : UInt16 :=
  (List.range count).foldl
    (fun sum i => sum + .ofNat maxChain - (coefficientW4 digest i).toUInt16) 0

/-- The coefficients that `sign` and `verify` read for a digest. -/
def coefficients (digest : Digest) (i : Nat) : Nat :=
  (coefficientW4 (digest.toList ++ putU16 (checksum digest.toList)) i).toNat

theorem coefficientW4_eq (data : Bytes) (i : Nat) : (coefficientW4 data i).toNat =
    if i % 2 = 0 then (data.getD (i / 2) 0).toNat / 16 else (data.getD (i / 2) 0).toNat % 16 := by
  have high : ∀ v : UInt8, ((v >>> 4) &&& 0x0f).toNat = v.toNat / 16 :=
    Hex.of_all_bytes (by decide +kernel)
  have low : ∀ v : UInt8, (v &&& 0x0f).toNat = v.toNat % 16 :=
    Hex.of_all_bytes (by decide +kernel)
  unfold coefficientW4
  split
  · exact high _
  · exact low _

theorem checksumAfter_succ (digest : Bytes) (count : Nat) : checksumAfter digest (count + 1) =
    checksumAfter digest count + .ofNat maxChain - (coefficientW4 digest count).toUInt16 := by
  rw [checksumAfter, List.range_succ, List.foldl_append]
  rfl

/-- The loop counts the steps left in the chains; no sum and no difference wraps. -/
theorem toNat_checksumAfter (digest : Bytes) {count : Nat} (bound : count ≤ 64) :
    (checksumAfter digest count).toNat =
      Winternitz.remaining 16 (fun i => (coefficientW4 digest i).toNat) count := by
  induction count with
  | zero => rfl
  | succ count ih =>
      have before := ih (by omega)
      have left := Winternitz.remaining_le 16 (fun i => (coefficientW4 digest i).toNat) count
      have digit := coefficientW4_le digest count
      have fifteen : (UInt16.ofNat maxChain).toNat = 15 := rfl
      rw [checksumAfter_succ, Winternitz.remaining_succ, UInt16.toNat_sub, UInt16.toNat_add,
        fifteen, UInt8.toNat_toUInt16, before]
      omega

theorem toNat_checksumAfter_le (digest : Bytes) {count : Nat} (bound : count ≤ 64) :
    (checksumAfter digest count).toNat ≤ 15 * count := by
  rw [toNat_checksumAfter digest bound, Nat.mul_comm]
  exact Winternitz.remaining_le 16 _ count

theorem toNat_checksum (digest : Bytes) :
    (checksum digest).toNat = 16 * (checksumAfter digest 64).toNat := by
  have small := toNat_checksumAfter_le digest (Nat.le_refl 64)
  change (checksumAfter digest 64 <<< ls).toNat = _
  rw [UInt16.toNat_shiftLeft, Nat.shiftLeft_eq]
  change _ * 2 ^ 4 % 2 ^ 16 = _
  omega

section Coefficients

variable (digest : Digest)

/-- The first coefficients are the digest's. -/
theorem coefficients_digest {i : Nat} (bound : i < 64) :
    coefficients digest i = (coefficientW4 digest.toList i).toNat := by
  have inside : i / 2 < digest.toList.length := by
    rw [digest.toList_length]
    change i / 2 < 32
    omega
  rw [coefficients, coefficientW4_eq, coefficientW4_eq, List.getD_append _ _ _ _ inside]

/-- The byte of the checksum that stands at `offset` behind the digest. -/
theorem coefficients_checksum (offset : Nat) : coefficients digest (64 + offset) =
    (coefficientW4 (putU16 (checksum digest.toList)) offset).toNat := by
  have parity : (64 + offset) % 2 = offset % 2 := by omega
  have place : (64 + offset) / 2 = digest.toList.length + offset / 2 := by
    rw [digest.toList_length]
    change _ = 32 + _
    omega
  rw [coefficients, coefficientW4_eq, coefficientW4_eq, parity, place,
    List.getD_append_right _ _ _ _ (Nat.le_add_right _ _), Nat.add_sub_cancel_left]

/-- Three half bytes of the shifted checksum are the digits of the sum. -/
theorem checksummed : Winternitz.Checksummed 16 64 3 (coefficients digest) where
  bounded i below := by
    have := coefficientW4_le (digest.toList ++ putU16 (checksum digest.toList)) i
    rw [coefficients]
    omega
  checksum := by
    have steps : Winternitz.remaining 16 (coefficients digest) 64 =
        Winternitz.remaining 16 (fun i => (coefficientW4 digest.toList i).toNat) 64 :=
      Finset.sum_congr rfl fun i member => by
        rw [coefficients_digest digest (Finset.mem_range.mp member)]
    have small := toNat_checksumAfter_le digest.toList (Nat.le_refl 64)
    have shifted := toNat_checksum digest.toList
    rw [steps, ← toNat_checksumAfter digest.toList (Nat.le_refl 64)]
    have high : ((checksum digest.toList >>> 8).toUInt8).toNat =
        (checksum digest.toList).toNat / 256 % 256 := by
      rw [UInt16.toNat_toUInt8, UInt16.toNat_shiftRight, Nat.shiftRight_eq_div_pow]
      rfl
    have low : ((checksum digest.toList).toUInt8).toNat =
        (checksum digest.toList).toNat % 256 := UInt16.toNat_toUInt8 _
    simp only [Winternitz.number, coefficients_checksum, coefficientW4_eq]
    change 16 * (16 * (16 * 0 + ((checksum digest.toList >>> 8).toUInt8).toNat / 16) +
        ((checksum digest.toList >>> 8).toUInt8).toNat % 16) +
      ((checksum digest.toList).toUInt8).toNat / 16 = _
    rw [high, low]
    omega

end Coefficients

/-- Equal halves are equal bytes. -/
theorem eq_of_coefficients {digest digest' : Digest}
    (same : ∀ i < 64, coefficients digest i = coefficients digest' i) : digest = digest' := by
  refine List.Vector.eq _ _ (List.ext_getElem ?_ fun k inside inside' => ?_)
  · rw [digest.toList_length, digest'.toList_length]
  · have below : k < 32 := by rwa [digest.toList_length] at inside
    have high := same (2 * k) (by omega)
    have low := same (2 * k + 1) (by omega)
    rw [coefficients_digest _ (by omega), coefficients_digest _ (by omega), coefficientW4_eq,
      coefficientW4_eq, if_pos (by omega), if_pos (by omega),
      show 2 * k / 2 = k from by omega] at high
    rw [coefficients_digest _ (by omega), coefficients_digest _ (by omega), coefficientW4_eq,
      coefficientW4_eq, if_neg (by omega), if_neg (by omega),
      show (2 * k + 1) / 2 = k from by omega] at low
    rw [List.getD_eq_getElem _ _ inside, List.getD_eq_getElem _ _ inside'] at high low
    exact UInt8.toNat_inj.mp (by omega)

/-- Two different digests release chains of which neither vector dominates the other. -/
theorem coefficients_incomparable {digest digest' : Digest} (differ : digest ≠ digest') :
    (∃ i < p, coefficients digest i < coefficients digest' i) ∧
      ∃ i < p, coefficients digest' i < coefficients digest i := by
  refine (checksummed digest).incomparable (checksummed digest') ?_
  by_contra none
  refine differ (eq_of_coefficients fun i below => ?_)
  by_contra ne
  exact none ⟨i, below, ne⟩

/-- Sixteen bits hold every value that the checksum of a digest takes. -/
structure ChecksumExact (digest : Digest) : Prop where
  room : ∀ count < 64, (checksumAfter digest.toList count).toNat + maxChain < 2 ^ 16 ∧
    (coefficientW4 digest.toList count).toNat ≤ maxChain
  next : ∀ count < 64, (checksumAfter digest.toList (count + 1)).toNat =
    (checksumAfter digest.toList count).toNat + maxChain -
      (coefficientW4 digest.toList count).toNat
  shiftRoom : (checksumAfter digest.toList 64).toNat * 2 ^ ls.toNat < 2 ^ 16
  shifted : (checksum digest.toList).toNat =
    (checksumAfter digest.toList 64).toNat * 2 ^ ls.toNat

theorem checksumExact (digest : Digest) : ChecksumExact digest := by
  have bound := fun count (below : count ≤ 64) => toNat_checksumAfter_le digest.toList below
  have shift : 2 ^ ls.toNat = 16 := rfl
  refine ⟨?_, ?_, ?_, ?_⟩
  · intro count below
    have := bound count (Nat.le_of_lt below)
    refine ⟨?_, coefficientW4_le _ _⟩
    change _ + 15 < 2 ^ 16
    omega
  · intro count below
    have digit := coefficientW4_le digest.toList count
    rw [toNat_checksumAfter _ below, toNat_checksumAfter _ (Nat.le_of_lt below),
      Winternitz.remaining_succ]
    change _ + (15 - _) = _ + 15 - _
    omega
  · have := bound 64 (Nat.le_refl 64)
    rw [shift]
    omega
  · rw [toNat_checksum, shift, Nat.mul_comm]

/-- Two different digests release vectors of which neither can be advanced into the other,
and neither checksum ever leaves its sixteen bits. -/
theorem checksum_forbids_domination (digest digest' : Digest) (differ : digest ≠ digest') :
    (∃ i < p, coefficients digest i < coefficients digest' i) ∧
      (∃ i < p, coefficients digest' i < coefficients digest i) ∧
      ChecksumExact digest ∧ ChecksumExact digest' := by
  obtain ⟨smaller, larger⟩ := coefficients_incomparable differ
  exact ⟨smaller, larger, checksumExact digest, checksumExact digest'⟩

theorem checksum_forbids_domination_zero :
    (∃ i < p, coefficients zeroDigest i < coefficients (.replicate hashBytes 255) i) ∧
      (∃ i < p, coefficients (.replicate hashBytes 255) i < coefficients zeroDigest i) ∧
      ChecksumExact zeroDigest ∧ ChecksumExact (.replicate hashBytes 255) :=
  checksum_forbids_domination zeroDigest (.replicate hashBytes 255) fun same =>
    absurd (congrArg List.Vector.head same) (by decide)

end Puav.LmotsLms
