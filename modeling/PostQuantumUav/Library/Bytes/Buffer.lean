import Mathlib.Data.Vector.Basic
import Mathlib.Tactic.Common
import PostQuantumUav.Library.Bytes.Cell

/-!
# Writing into and reading from fixed buffers

`memcpy buffer offset data` overwrites `data.length` cells of a buffer and
`slice buffer offset length` reads a field back. The rules below say when a read
meets a write: the same field returns what was written, a field before or after
it is not disturbed, and a write inside the buffer keeps its length.

Side conditions are inequalities between literal offsets, so a message built by
successive writes is read back by `simp`.
-/

namespace Buffer

variable {α : Type}

/-- The `length` cells that start at `offset`. -/
def slice (buffer : List α) (offset length : Nat) : List α := (buffer.drop offset).take length

/-- Overwrite the cells from `offset` on with `data`; what would lie past the end of the
buffer is not written. -/
def memcpy (buffer : List α) (offset : Nat) (data : List α) : List α :=
  (buffer.take offset ++ data ++ buffer.drop (offset + data.length)).take buffer.length

section Length

theorem length_slice {buffer : List α} {offset length : Nat}
    (fits : offset + length ≤ buffer.length) : (slice buffer offset length).length = length := by
  simp only [slice, List.length_take, List.length_drop]
  omega

@[simp] theorem length_memcpy (buffer : List α) (offset : Nat) (data : List α) :
    (memcpy buffer offset data).length = buffer.length := by
  simp only [memcpy, List.length_append, List.length_take, List.length_drop]
  omega

end Length

section Read

variable {buffer data : List α} {offset : Nat}

/-- The cell at `i` after a write is the written one inside the written field
and the old one outside it. -/
theorem getElem?_memcpy (buffer : List α) (offset : Nat) (data : List α) (i : Nat) :
    (memcpy buffer offset data)[i]? =
      if offset ≤ i ∧ i < offset + data.length ∧ i < buffer.length then data[i - offset]?
      else buffer[i]? := by
  rw [memcpy, List.getElem?_take]
  by_cases inside : i < buffer.length
  · have taken : (buffer.take offset).length = min offset buffer.length := List.length_take
    rw [if_pos inside, List.append_assoc, List.getElem?_append, taken]
    split
    · rename_i before
      rw [List.getElem?_take, if_pos (by omega), if_neg (by omega)]
    · rw [List.getElem?_append]
      split
      · rw [if_pos (by omega)]
        congr 1
        omega
      · rw [if_neg (by omega), List.getElem?_drop]
        congr 1
        omega
  · rw [if_neg inside, if_neg (by omega), List.getElem?_eq_none (by omega)]

theorem getElem?_slice (buffer : List α) (offset length i : Nat) :
    (slice buffer offset length)[i]? = if i < length then buffer[offset + i]? else none := by
  rw [slice, List.getElem?_take]
  simp only [List.getElem?_drop]

@[simp] theorem slice_memcpy_self {length : Nat} (fits : offset + length ≤ buffer.length)
    (same : data.length = length) :
    slice (memcpy buffer offset data) offset length = data := by
  apply List.ext_getElem?
  intro i
  rw [getElem?_slice, getElem?_memcpy]
  split
  · rw [if_pos (by omega), Nat.add_sub_cancel_left]
  · rw [List.getElem?_eq_none (by omega)]

@[simp] theorem slice_memcpy_before {first length : Nat} (before : first + length ≤ offset) :
    slice (memcpy buffer offset data) first length = slice buffer first length := by
  apply List.ext_getElem?
  intro i
  rw [getElem?_slice, getElem?_slice, getElem?_memcpy]
  split
  · rw [if_neg (by omega)]
  · rfl

@[simp] theorem slice_memcpy_after {first length : Nat} (after : offset + data.length ≤ first) :
    slice (memcpy buffer offset data) first length = slice buffer first length := by
  apply List.ext_getElem?
  intro i
  rw [getElem?_slice, getElem?_slice, getElem?_memcpy]
  split
  · rw [if_neg (by omega)]
  · rfl

/-- Behind the cells before it, a write leaves its data. -/
theorem take_memcpy {length : Nat} (fits : offset + data.length ≤ buffer.length)
    (stop : offset + data.length = length) :
    (memcpy buffer offset data).take length = buffer.take offset ++ data := by
  have before : (buffer.take offset).length = offset := by
    rw [List.length_take]
    omega
  rw [memcpy, List.take_take, Nat.min_eq_left (by omega)]
  apply List.take_left'
  rw [List.length_append, before, stop]

/-- A field inside the written data is read from the data. -/
theorem slice_memcpy_inside (fits : offset + data.length ≤ buffer.length) {first length : Nat}
    (start : offset ≤ first) (stop : first + length ≤ offset + data.length) :
    slice (memcpy buffer offset data) first length = slice data (first - offset) length := by
  apply List.ext_getElem?
  intro i
  rw [getElem?_slice, getElem?_slice, getElem?_memcpy]
  split
  · rw [if_pos (by omega)]
    congr 1
    omega
  · rfl

end Read

section Zeros

variable [Cell α]

/-- A buffer after `memset` to zero. -/
def zeros (length : Nat) : List α := List.replicate length (Cell.ofByte 0)

@[simp] theorem length_zeros (length : Nat) : (zeros length : List α).length = length :=
  List.length_replicate

/-- A byte inside a field of one cell. -/
theorem readByte_of_slice {buffer : List α} {index : Nat} {x : α}
    (field : slice buffer index 1 = [x]) : Cell.readByte buffer index = Cell.toByte x := by
  have present : buffer[index]? = some x := by
    have read := getElem?_slice buffer index 1 0
    rw [field, if_pos Nat.zero_lt_one] at read
    exact read.symm
  rw [Cell.readByte, List.getD_eq_getElem?_getD, present]
  rfl

/-- A byte is determined by the field of length one at its place. -/
theorem readByte_congr {buffer buffer' : List α} {index : Nat}
    (same : slice buffer index 1 = slice buffer' index 1) :
    Cell.readByte buffer index = Cell.readByte buffer' index := by
  have read := congrArg (fun field : List α => field[0]?) same
  simp only [getElem?_slice, Nat.zero_lt_one, if_true, Nat.add_zero] at read
  rw [Cell.readByte, Cell.readByte, List.getD_eq_getElem?_getD, List.getD_eq_getElem?_getD, read]

end Zeros

/-- A field is read from where it was placed. -/
theorem slice_middle {front field back : List α} {offset length : Nat}
    (before : front.length = offset) (sized : field.length = length) :
    slice (front ++ (field ++ back)) offset length = field := by
  subst before sized
  rw [slice, List.drop_left, List.take_left]

/-- Nested reads add their offsets. -/
theorem slice_slice {buffer : List α} {offset length first count : Nat}
    (fits : first + count ≤ length) :
    slice (slice buffer offset length) first count = slice buffer (offset + first) count := by
  apply List.ext_getElem?
  intro i
  rw [getElem?_slice, getElem?_slice, getElem?_slice]
  split
  · rw [if_pos (by omega), Nat.add_assoc]
  · rfl

theorem slice_zero_length (buffer : List α) : slice buffer 0 buffer.length = buffer := by
  rw [slice, List.drop_zero, List.take_length]

theorem mem_of_mem_slice {buffer : List α} {offset length : Nat} {x : α}
    (h : x ∈ slice buffer offset length) : x ∈ buffer :=
  List.mem_of_mem_drop (List.mem_of_mem_take h)

theorem mem_memcpy {buffer data : List α} {offset : Nat} {x : α}
    (h : x ∈ memcpy buffer offset data) : x ∈ buffer ∨ x ∈ data := by
  have h := List.mem_of_mem_take h
  rw [List.mem_append, List.mem_append] at h
  rcases h with (h | h) | h
  · exact .inl (List.mem_of_mem_take h)
  · exact .inr h
  · exact .inl (List.mem_of_mem_drop h)

section Sized

variable {size : Nat}

/-- The field of `length` cells at `offset` of a buffer that holds it. -/
def block (buffer : List.Vector α size) (offset length : Nat)
    (fits : offset + length ≤ size := by decide) : List.Vector α length :=
  ⟨slice buffer.toList offset length, length_slice (buffer.toList_length.symm ▸ fits)⟩

/-- Overwrite the cells of a buffer from `offset` on. -/
def writeAt (buffer : List.Vector α size) (offset : Nat) (data : List α) : List.Vector α size :=
  ⟨memcpy buffer.toList offset data, (length_memcpy _ _ _).trans buffer.toList_length⟩

@[simp] theorem toList_writeAt (buffer : List.Vector α size) (offset : Nat) (data : List α) :
    (writeAt buffer offset data).toList = memcpy buffer.toList offset data := rfl

/-- Overwrite the first cells of a buffer. -/
def overwrite (buffer : List.Vector α size) (data : List α) : List.Vector α size :=
  ⟨memcpy buffer.toList 0 data, (length_memcpy _ _ _).trans buffer.toList_length⟩

@[simp] theorem toList_block (buffer : List.Vector α size) (offset length : Nat)
    (fits : offset + length ≤ size) :
    (block buffer offset length fits).toList = slice buffer.toList offset length := rfl

/-- A field is read from where the buffer has it. -/
theorem block_eq {buffer : List.Vector α size} {front back : List α} {offset length : Nat}
    {field : List.Vector α length} (parts : buffer.toList = front ++ (field.toList ++ back))
    (before : front.length = offset) (fits : offset + length ≤ size) :
    block buffer offset length fits = field := by
  apply List.Vector.toList_injective
  rw [toList_block, parts]
  exact slice_middle before field.toList_length

/-- Successive writes leave their data one after the other. -/
theorem take_writeAt {buffer : List.Vector α size} {offset length : Nat} {data : List α}
    (fits : length ≤ size) (stop : offset + data.length = length) :
    (writeAt buffer offset data).toList.take length = buffer.toList.take offset ++ data :=
  take_memcpy (by rw [stop, buffer.toList_length]; exact fits) stop

/-- The write that reaches the end of the buffer. -/
theorem toList_writeAt_last {buffer : List.Vector α size} {offset : Nat} {data : List α}
    (stop : offset + data.length = size) :
    (writeAt buffer offset data).toList = buffer.toList.take offset ++ data := by
  rw [← take_writeAt (Nat.le_refl size) stop,
    List.take_of_length_le (Nat.le_of_eq (writeAt buffer offset data).toList_length)]

/-- A write of the whole size leaves nothing of the old cells. -/
theorem toList_overwrite {buffer : List.Vector α size} {data : List α}
    (sized : data.length = size) : (overwrite buffer data).toList = data := by
  have fits : 0 + data.length ≤ buffer.toList.length := by
    rw [sized, buffer.toList_length, Nat.zero_add]
  have whole := take_memcpy fits (Nat.zero_add _)
  rw [List.take_of_length_le (by rw [length_memcpy, buffer.toList_length, sized])] at whole
  exact whole

@[simp] theorem overwrite_toList (buffer data : List.Vector α size) :
    overwrite buffer data.toList = data :=
  List.Vector.toList_injective (toList_overwrite data.toList_length)

/-- A shorter write leaves the rest of the buffer. -/
theorem toList_overwrite_front {buffer : List.Vector α size} {data : List α}
    (fits : data.length ≤ size) :
    (overwrite buffer data).toList = data ++ buffer.toList.drop data.length := by
  have sized : (data ++ buffer.toList.drop data.length).length = buffer.toList.length := by
    rw [List.length_append, List.length_drop, buffer.toList_length]
    omega
  change memcpy buffer.toList 0 data = _
  rw [memcpy, List.take_zero, List.nil_append, Nat.zero_add, ← sized, List.take_length]

theorem drop_overwrite {buffer : List.Vector α size} {data : List α} {length : Nat}
    (fits : length ≤ size) (shorter : data.length ≤ length) :
    (overwrite buffer data).toList.drop length = buffer.toList.drop length := by
  rw [toList_overwrite_front (Nat.le_trans shorter fits), List.drop_append, List.drop_drop,
    List.drop_eq_nil_of_le shorter, List.nil_append, Nat.add_sub_cancel' shorter]

theorem slice_overwrite {buffer : List.Vector α size} {data : List α} (fits : data.length ≤ size)
    {offset length : Nat} (inside : offset + length ≤ data.length) :
    slice (overwrite buffer data).toList offset length = slice data offset length := by
  exact slice_memcpy_inside (by rw [buffer.toList_length]; omega) (Nat.zero_le _) (by omega)

/-- Write several fields, each at its offset, one after the other. -/
def writes (buffer : List.Vector α size) (fields : List (Nat × List α)) : List.Vector α size :=
  fields.foldl (fun buffer field => writeAt buffer field.1 field.2) buffer

/-- Each field starts where the one before it ends, from `start` to `stop`. -/
def Contiguous : Nat → List (Nat × List α) → Nat → Prop
  | start, [], stop => start = stop
  | start, (offset, data) :: rest, stop =>
      offset = start ∧ Contiguous (start + data.length) rest stop

theorem Contiguous.le {start stop : Nat} {fields : List (Nat × List α)}
    (h : Contiguous start fields stop) : start ≤ stop := by
  induction fields generalizing start with
  | nil => exact Nat.le_of_eq h
  | cons field rest ih => exact Nat.le_trans (Nat.le_add_right _ _) (ih h.2)

/-- Contiguous fields leave no gap and overwrite nothing of each other. -/
theorem take_writes {fields : List (Nat × List α)} {start stop : Nat}
    {buffer : List.Vector α size} (contiguous : Contiguous start fields stop) (fits : stop ≤ size) :
    (writes buffer fields).toList.take stop =
      buffer.toList.take start ++ (fields.map Prod.snd).flatten := by
  induction fields generalizing start buffer with
  | nil =>
      obtain rfl : start = stop := contiguous
      rw [List.map_nil, List.flatten_nil, List.append_nil]
      rfl
  | cons field rest ih =>
      obtain ⟨place, contiguous⟩ := contiguous
      have written : (writeAt buffer field.1 field.2).toList.take (start + field.2.length) =
          buffer.toList.take start ++ field.2 := by
        rw [take_writeAt (Nat.le_trans contiguous.le fits) (by rw [place]), place]
      change (writes (writeAt buffer field.1 field.2) rest).toList.take stop = _
      rw [ih contiguous, written, List.map_cons, List.flatten_cons, List.append_assoc]

/-- Contiguous fields over a whole buffer are its contents, whatever it held before. -/
theorem toList_writes {fields : List (Nat × List α)} {buffer : List.Vector α size}
    (contiguous : Contiguous 0 fields size) :
    (writes buffer fields).toList = (fields.map Prod.snd).flatten := by
  have taken := @take_writes _ _ fields 0 size buffer contiguous (Nat.le_refl size)
  rwa [List.take_of_length_le (Nat.le_of_eq (List.Vector.toList_length _)), List.take_zero,
    List.nil_append] at taken

end Sized

end Buffer
