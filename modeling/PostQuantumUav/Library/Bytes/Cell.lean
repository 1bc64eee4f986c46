import Mathlib.Data.Vector.Defs
import Mathlib.Tactic.Common

/-!
# Cells and big-endian integers

Messages are lists of cells. A cell stores one byte; it may instead be a symbol
that stands for one byte of a value nobody can compute otherwise, such as a hash
output in a symbolic model. `Cell` is what message code needs of either: every
byte is a cell, and every cell reads as some byte.

Integers are written most significant byte first, one cell for each byte, and a
reader of `putU32 value` recovers `value` whatever follows it.
-/

abbrev Bytes := List UInt8

/-- Cells that can store a byte and be read back as one. -/
class Cell (α : Type) where
  ofByte : UInt8 → α
  toByte : α → UInt8
  toByte_ofByte : ∀ b, toByte (ofByte b) = b

namespace Cell

instance : Cell UInt8 where
  ofByte b := b
  toByte b := b
  toByte_ofByte _ := rfl

/-- A number stands for itself when it is a byte, and for a symbol otherwise. -/
instance : Cell Nat where
  ofByte := UInt8.toNat
  toByte := UInt8.ofNat
  toByte_ofByte _ := UInt8.ofNat_toNat

attribute [simp] toByte_ofByte

@[simp] theorem toByte_self (b : UInt8) : toByte b = b := rfl

variable {α : Type} [Cell α]

instance : Inhabited α := ⟨ofByte 0⟩

@[simp] theorem ofByte_inj {a b : UInt8} : (ofByte a : α) = ofByte b ↔ a = b := by
  constructor
  · intro h
    simpa only [toByte_ofByte] using congrArg toByte h
  · exact congrArg ofByte

/-- The cells of a byte string. -/
def ofBytes (bytes : List UInt8) : List α := bytes.map ofByte

@[simp] theorem length_ofBytes (bytes : List UInt8) :
    (ofBytes bytes : List α).length = bytes.length := List.length_map ofByte

@[simp] theorem ofBytes_self (bytes : List UInt8) : (ofBytes bytes : List UInt8) = bytes :=
  List.map_id bytes

theorem ofBytes_inj {a b : List UInt8} : (ofBytes a : List α) = ofBytes b ↔ a = b :=
  List.map_inj_right fun _ _ => ofByte_inj.mp

def putU16 (value : UInt16) : List α :=
  [ofByte (value >>> 8).toUInt8, ofByte value.toUInt8]

def putU32 (value : UInt32) : List α :=
  [ofByte (value >>> 24).toUInt8, ofByte (value >>> 16).toUInt8,
    ofByte (value >>> 8).toUInt8, ofByte value.toUInt8]

def putU64 (value : UInt64) : List α :=
  [ofByte (value >>> 56).toUInt8, ofByte (value >>> 48).toUInt8,
    ofByte (value >>> 40).toUInt8, ofByte (value >>> 32).toUInt8,
    ofByte (value >>> 24).toUInt8, ofByte (value >>> 16).toUInt8,
    ofByte (value >>> 8).toUInt8, ofByte value.toUInt8]

/-- The byte at `index`; a cell past the end reads as zero. -/
def readByte (cells : List α) (index : Nat) : UInt8 := toByte (cells.getD index (ofByte 0))

def getU16 (cells : List α) : UInt16 :=
  ((readByte cells 0).toUInt16 <<< 8) ||| (readByte cells 1).toUInt16

def getU32 (cells : List α) : UInt32 :=
  ((readByte cells 0).toUInt32 <<< 24) ||| ((readByte cells 1).toUInt32 <<< 16) |||
    ((readByte cells 2).toUInt32 <<< 8) ||| (readByte cells 3).toUInt32

def getU64 (cells : List α) : UInt64 :=
  (List.range 8).foldl (fun value i => (value <<< 8) ||| (readByte cells i).toUInt64) 0

@[simp] theorem length_putU16 (value : UInt16) : (putU16 value : List α).length = 2 := by
  rw [putU16]
  rfl

@[simp] theorem length_putU32 (value : UInt32) : (putU32 value : List α).length = 4 := by
  rw [putU32]
  rfl

@[simp] theorem length_putU64 (value : UInt64) : (putU64 value : List α).length = 8 := by
  rw [putU64]
  rfl

private theorem u16_parts (v : UInt16) :
    ((v >>> 8).toUInt8.toUInt16 <<< 8) ||| v.toUInt8.toUInt16 = v := by
  apply UInt16.eq_of_toBitVec_eq
  simp only [UInt16.toBitVec_or, UInt16.toBitVec_shiftLeft, UInt8.toBitVec_toUInt16,
    UInt16.toBitVec_toUInt8, UInt16.toBitVec_shiftRight]
  ext i hi
  simp only [BitVec.getElem_or, BitVec.getElem_setWidth, BitVec.shiftLeft_eq',
    BitVec.getElem_shiftLeft, BitVec.ushiftRight_eq', BitVec.getLsbD_setWidth,
    BitVec.getLsbD_ushiftRight]
  simp
  grind

private theorem u32_parts (v : UInt32) :
    ((v >>> 24).toUInt8.toUInt32 <<< 24) ||| ((v >>> 16).toUInt8.toUInt32 <<< 16) |||
      ((v >>> 8).toUInt8.toUInt32 <<< 8) ||| v.toUInt8.toUInt32 = v := by
  apply UInt32.eq_of_toBitVec_eq
  simp only [UInt32.toBitVec_or, UInt32.toBitVec_shiftLeft, UInt8.toBitVec_toUInt32,
    UInt32.toBitVec_toUInt8, UInt32.toBitVec_shiftRight]
  ext i hi
  simp only [BitVec.getElem_or, BitVec.getElem_setWidth, BitVec.shiftLeft_eq',
    BitVec.getElem_shiftLeft, BitVec.ushiftRight_eq', BitVec.getLsbD_setWidth,
    BitVec.getLsbD_ushiftRight]
  simp
  grind

private theorem u64_parts (v : UInt64) :
    ((v >>> 56).toUInt8.toUInt64 <<< 56) ||| ((v >>> 48).toUInt8.toUInt64 <<< 48) |||
      ((v >>> 40).toUInt8.toUInt64 <<< 40) ||| ((v >>> 32).toUInt8.toUInt64 <<< 32) |||
      ((v >>> 24).toUInt8.toUInt64 <<< 24) ||| ((v >>> 16).toUInt8.toUInt64 <<< 16) |||
      ((v >>> 8).toUInt8.toUInt64 <<< 8) ||| v.toUInt8.toUInt64 = v := by
  apply UInt64.eq_of_toBitVec_eq
  simp only [UInt64.toBitVec_or, UInt64.toBitVec_shiftLeft, UInt8.toBitVec_toUInt64,
    UInt64.toBitVec_toUInt8, UInt64.toBitVec_shiftRight]
  ext i hi
  simp only [BitVec.getElem_or, BitVec.getElem_setWidth, BitVec.shiftLeft_eq',
    BitVec.getElem_shiftLeft, BitVec.ushiftRight_eq', BitVec.getLsbD_setWidth,
    BitVec.getLsbD_ushiftRight]
  simp
  grind

/-- The byte-by-byte loop shifts every byte to its place. -/
private theorem foldl_shift (b : Nat → UInt8) :
    (List.range 8).foldl (fun (value : UInt64) i => (value <<< 8) ||| (b i).toUInt64) 0 =
      ((b 0).toUInt64 <<< 56) ||| ((b 1).toUInt64 <<< 48) ||| ((b 2).toUInt64 <<< 40) |||
        ((b 3).toUInt64 <<< 32) ||| ((b 4).toUInt64 <<< 24) ||| ((b 5).toUInt64 <<< 16) |||
        ((b 6).toUInt64 <<< 8) ||| (b 7).toUInt64 := by
  simp only [show List.range 8 = [0, 1, 2, 3, 4, 5, 6, 7] from rfl, List.foldl_cons,
    List.foldl_nil, UInt64.zero_shiftLeft, UInt64.zero_or]
  apply UInt64.eq_of_toBitVec_eq
  simp only [UInt64.toBitVec_or, UInt64.toBitVec_shiftLeft]
  simp [BitVec.shiftLeft_or_distrib, ← BitVec.shiftLeft_add]

@[simp] theorem getU16_putU16 (value : UInt16) (rest : List α) :
    getU16 (putU16 value ++ rest) = value := by
  simpa [getU16, putU16, readByte] using u16_parts value

@[simp] theorem getU32_putU32 (value : UInt32) (rest : List α) :
    getU32 (putU32 value ++ rest) = value := by
  simpa [getU32, putU32, readByte] using u32_parts value

@[simp] theorem getU64_putU64 (value : UInt64) (rest : List α) :
    getU64 (putU64 value ++ rest) = value := by
  rw [getU64, foldl_shift]
  simpa [putU64, readByte] using u64_parts value

@[simp] theorem getU32_putU32_self (value : UInt32) : getU32 (putU32 value : List α) = value := by
  simpa only [List.append_nil] using getU32_putU32 value ([] : List α)

@[simp] theorem getU64_putU64_self (value : UInt64) : getU64 (putU64 value : List α) = value := by
  simpa only [List.append_nil] using getU64_putU64 value ([] : List α)

theorem putU16_inj {a b : UInt16} : (putU16 a : List α) = putU16 b ↔ a = b := by
  constructor
  · intro h
    have read := getU16_putU16 a ([] : List α)
    rw [h, getU16_putU16] at read
    exact read.symm
  · exact congrArg putU16

theorem putU32_inj {a b : UInt32} : (putU32 a : List α) = putU32 b ↔ a = b := by
  constructor
  · intro h
    have read := getU32_putU32 a ([] : List α)
    rw [h, getU32_putU32] at read
    exact read.symm
  · exact congrArg putU32

/-- The bytes of a string as digits to base 257, all above zero, of a number in `size` bytes.
Every byte of the string counts, so examples can use it as a hash function. -/
def digitHash (size : Nat) (data : Bytes) : List.Vector UInt8 size :=
  let value := data.foldl (fun value byte => value * 257 + byte.toNat + 1) 0
  .ofFn fun i => .ofNat (value / Nat.pow 256 (size - 1 - i.val))

example : digitHash 4 [1, 2] ≠ digitHash 4 [2, 1] ∧ digitHash 4 [0] ≠ digitHash 4 [] := by decide

end Cell
