import PostQuantumUav.Library.Bytes.Buffer

/-!
# Maps between cells

A cell map takes cells of one type to cells of another and keeps what the code sees of
them: a byte goes to the same byte, and a cell reads as the same byte as its image. Marks
that are put on cells, and those that are taken off again, are maps of this kind.

Whatever is written, copied or read through the operations on cells and buffers commutes
with such a map.
-/

namespace Cell

open Buffer

variable {α β : Type} [Cell α] [Cell β]

/-- The map keeps bytes and what cells read as. -/
structure CellMap (f : α → β) : Prop where
  ofByte : ∀ b : UInt8, f (ofByte b) = ofByte b
  toByte : ∀ x, toByte (f x) = toByte x

/-- A cell read as a byte. -/
theorem cellMap_toByte : CellMap (toByte : α → UInt8) := ⟨toByte_ofByte, fun _ => rfl⟩

/-- A byte as a cell. -/
theorem cellMap_ofByte : CellMap (ofByte : UInt8 → α) := ⟨fun _ => rfl, toByte_ofByte⟩

namespace CellMap

variable {f : α → β} (hom : CellMap f)

include hom

section Numbers

theorem map_ofBytes (bytes : Bytes) : (ofBytes bytes : List α).map f = ofBytes bytes := by
  rw [ofBytes, ofBytes, List.map_map]
  exact List.map_congr_left fun b _ => hom.ofByte b

theorem map_putU16 (value : UInt16) : (putU16 value : List α).map f = putU16 value := by
  simp only [putU16, List.map_cons, List.map_nil, hom.ofByte]

theorem map_putU32 (value : UInt32) : (putU32 value : List α).map f = putU32 value := by
  simp only [putU32, List.map_cons, List.map_nil, hom.ofByte]

theorem map_putU64 (value : UInt64) : (putU64 value : List α).map f = putU64 value := by
  simp only [putU64, List.map_cons, List.map_nil, hom.ofByte]

theorem map_toByte (cells : List α) : (cells.map f).map Cell.toByte = cells.map Cell.toByte := by
  rw [List.map_map]
  exact List.map_congr_left fun x _ => hom.toByte x

theorem readByte_map (cells : List α) (index : Nat) :
    readByte (cells.map f) index = readByte cells index := by
  rw [readByte, readByte, List.getD_eq_getElem?_getD, List.getD_eq_getElem?_getD, List.getElem?_map]
  cases cells[index]? with
  | none => rw [Option.map_none, Option.getD_none, Option.getD_none, toByte_ofByte, toByte_ofByte]
  | some x => exact hom.toByte x

theorem getU16_map (cells : List α) : getU16 (cells.map f) = getU16 cells := by
  simp only [getU16, hom.readByte_map]

theorem getU32_map (cells : List α) : getU32 (cells.map f) = getU32 cells := by
  simp only [getU32, hom.readByte_map]

theorem map_replicate (size : Nat) :
    (List.Vector.replicate size (Cell.ofByte 0 : α)).map f = .replicate size (Cell.ofByte 0) := by
  apply List.Vector.toList_injective
  rw [List.Vector.toList_map]
  exact List.map_replicate.trans (congrArg (List.replicate size) (hom.ofByte 0))

end Numbers

end CellMap

section Buffers

omit [Cell α] [Cell β]

variable (f : α → β) {size : Nat}

theorem map_slice (cells : List α) (offset length : Nat) :
    (slice cells offset length).map f = slice (cells.map f) offset length := by
  rw [slice, slice, List.map_take, List.map_drop]

theorem map_memcpy (buffer : List α) (offset : Nat) (data : List α) :
    (memcpy buffer offset data).map f = memcpy (buffer.map f) offset (data.map f) := by
  simp only [memcpy, List.map_take, List.map_append, List.map_drop, List.length_map]

theorem map_block (buffer : List.Vector α size) (offset length : Nat)
    (fits : offset + length ≤ size) :
    (block buffer offset length fits).map f = block (buffer.map f) offset length fits := by
  apply List.Vector.toList_injective
  rw [List.Vector.toList_map]
  exact (map_slice f _ offset length).trans
    (congrArg (slice · offset length) (List.Vector.toList_map _ _).symm)

theorem map_writeAt (buffer : List.Vector α size) (offset : Nat) (data : List α) :
    (writeAt buffer offset data).map f = writeAt (buffer.map f) offset (data.map f) := by
  apply List.Vector.toList_injective
  rw [List.Vector.toList_map]
  exact (map_memcpy f _ offset data).trans
    (congrArg (memcpy · offset _) (List.Vector.toList_map _ _).symm)

theorem map_overwrite (buffer : List.Vector α size) (data : List α) :
    (overwrite buffer data).map f = overwrite (buffer.map f) (data.map f) :=
  map_writeAt f buffer 0 data

/-- A vector whose cells are mapped one by one. -/
theorem vector_map_eq {v : List.Vector α size} {w : List.Vector β size}
    (same : v.toList.map f = w.toList) : v.map f = w :=
  List.Vector.toList_injective ((List.Vector.toList_map _ _).trans same)

end Buffers

end Cell
