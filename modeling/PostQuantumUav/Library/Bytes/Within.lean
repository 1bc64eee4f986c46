import PostQuantumUav.Library.Bytes.Buffer

/-!
# Cells of one kind

`Within kind cells` states that every cell is of a kind: public, or free of a secret.
Copying cells between buffers keeps the kind, and so does a constant of a kind that has
every byte.
-/

open Buffer Cell

variable {α : Type}

/-- Every cell is of the kind. -/
def Within (kind : α → Prop) (cells : List α) : Prop := ∀ x ∈ cells, kind x

variable {kind : α → Prop}

section Lists

@[simp] theorem within_nil : Within kind [] := nofun

@[simp] theorem within_cons {x : α} {cells : List α} :
    Within kind (x :: cells) ↔ kind x ∧ Within kind cells := List.forall_mem_cons

@[simp] theorem within_append {front back : List α} :
    Within kind (front ++ back) ↔ Within kind front ∧ Within kind back := List.forall_mem_append

theorem within_true (cells : List α) : Within (fun _ => True) cells := fun _ _ => trivial

theorem Within.mono {kind' : α → Prop} {cells : List α} (h : Within kind cells)
    (imp : ∀ x, kind x → kind' x) : Within kind' cells := fun x mem => imp x (h x mem)

theorem Within.slice {cells : List α} (h : Within kind cells) (offset length : Nat) :
    Within kind (slice cells offset length) := fun x mem => h x (mem_of_mem_slice mem)

theorem Within.memcpy {buffer data : List α} (old : Within kind buffer) (new : Within kind data)
    (offset : Nat) : Within kind (memcpy buffer offset data) := by
  intro x mem
  rcases mem_memcpy mem with h | h
  · exact old x h
  · exact new x h

end Lists

section Sized

variable {size : Nat}

theorem Within.block {buffer : List.Vector α size} (h : Within kind buffer.toList)
    (offset length : Nat) (fits : offset + length ≤ size) :
    Within kind (block buffer offset length fits).toList := h.slice offset length

theorem Within.overwrite {buffer : List.Vector α size} {data : List α}
    (old : Within kind buffer.toList) (new : Within kind data) :
    Within kind (overwrite buffer data).toList := old.memcpy new 0

theorem Within.writeAt {buffer : List.Vector α size} {data : List α}
    (old : Within kind buffer.toList) (offset : Nat) (new : Within kind data) :
    Within kind (writeAt buffer offset data).toList := old.memcpy new offset

theorem within_replicate {x : α} (h : kind x) :
    Within kind (List.Vector.replicate size x).toList := by
  intro y mem
  exact List.eq_of_mem_replicate mem ▸ h

end Sized

section Bytes

variable [Cell α] (bytes : ∀ b : UInt8, kind (ofByte b))

include bytes

theorem within_ofBytes (data : Bytes) : Within kind (ofBytes data) := by
  intro x mem
  obtain ⟨b, _, rfl⟩ := List.mem_map.mp mem
  exact bytes b

theorem within_putU16 (value : UInt16) : Within kind (putU16 value : List α) := by
  rw [putU16]
  simp only [within_cons, within_nil, bytes, and_self]

theorem within_putU32 (value : UInt32) : Within kind (putU32 value : List α) := by
  rw [putU32]
  simp only [within_cons, within_nil, bytes, and_self]

theorem within_putU64 (value : UInt64) : Within kind (putU64 value : List α) := by
  rw [putU64]
  simp only [within_cons, within_nil, bytes, and_self]

end Bytes
