import Mathlib.Data.List.Basic
import Mathlib.Tactic.Common

/-!
# Hexadecimal text

Bytes as pairs of lower-case digits, and back. The reader takes digits of either
case and refuses anything else, also an odd digit at the end.
-/

namespace Hex

/-- The digit of a value below 16. -/
def digit (value : UInt8) : Char :=
  if value < 10 then .ofNat ('0'.toNat + value.toNat) else .ofNat ('a'.toNat + value.toNat - 10)

def digitValue (c : Char) : Option UInt8 :=
  if '0' ≤ c ∧ c ≤ '9' then some (.ofNat (c.toNat - '0'.toNat))
  else if 'a' ≤ c ∧ c ≤ 'f' then some (.ofNat (c.toNat - 'a'.toNat + 10))
  else if 'A' ≤ c ∧ c ≤ 'F' then some (.ofNat (c.toNat - 'A'.toNat + 10))
  else none

def encode : List UInt8 → List Char
  | [] => []
  | byte :: rest => digit (byte >>> 4) :: digit (byte &&& 15) :: encode rest

def decode : List Char → Option (List UInt8)
  | [] => some []
  | [_] => none
  | a :: b :: rest => do
      let high ← digitValue a
      let low ← digitValue b
      let bytes ← decode rest
      return (high <<< 4 ||| low) :: bytes

/-- A property of all bytes is checked at the 256 numbers. -/
theorem of_all_bytes {P : UInt8 → Prop} (all : ∀ n < 256, P (.ofNat n)) (byte : UInt8) :
    P byte := by
  have value := all byte.toNat byte.toNat_lt
  rwa [UInt8.ofNat_toNat] at value

theorem digit_lt (byte : UInt8) : byte >>> 4 < 16 ∧ byte &&& 15 < 16 := by
  revert byte
  exact of_all_bytes (by decide +kernel)

theorem digitValue_digit (value : UInt8) : value < 16 → digitValue (digit value) = some value := by
  revert value
  exact of_all_bytes (by decide +kernel)

theorem join_digits (byte : UInt8) : (byte >>> 4) <<< 4 ||| (byte &&& 15) = byte := by
  revert byte
  exact of_all_bytes (by decide +kernel)

@[simp] theorem decode_encode (bytes : List UInt8) : decode (encode bytes) = some bytes := by
  induction bytes with
  | nil => rfl
  | cons byte rest ih =>
      simp only [encode, decode, digitValue_digit _ (digit_lt byte).1,
        digitValue_digit _ (digit_lt byte).2, ih, Option.bind_eq_bind, Option.bind_some]
      rw [join_digits]
      rfl

theorem encode_inj {bytes bytes' : List UInt8} : encode bytes = encode bytes' ↔ bytes = bytes' := by
  constructor
  · intro same
    have read := congrArg decode same
    rw [decode_encode, decode_encode] at read
    exact Option.some.inj read
  · rintro rfl
    rfl

@[simp] theorem length_encode (bytes : List UInt8) : (encode bytes).length = 2 * bytes.length := by
  induction bytes with
  | nil => rfl
  | cons byte rest ih =>
      rw [encode, List.length_cons, List.length_cons, List.length_cons, ih]
      omega

/-- What holds of the sixteen digits holds of every character. -/
theorem all_encode {p : Char → Bool} (digits : ∀ value : UInt8, value < 16 → p (digit value) = true)
    (bytes : List UInt8) : (encode bytes).all p = true := by
  induction bytes with
  | nil => rfl
  | cons byte rest ih =>
      simp only [encode, List.all_cons, digits _ (digit_lt byte).1, digits _ (digit_lt byte).2, ih,
        Bool.and_self]

end Hex
