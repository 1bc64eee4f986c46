import Mathlib.Data.Vector.Basic
import PostQuantumUav.Library.Bytes.Cell

/-!
# Symbols

The cells of a model in which cryptographic functions are free constructors of their
inputs. A symbol is a byte, a part of a random value, or one cell of an output together
with the whole input, so that two outputs agree in one cell only if the inputs agree.

An observer can build every output whose inputs it knows, and nothing else. It knows all
bytes and all random values, and the shared secrets that are not protected. Whatever it
derives lies in every set that contains what it was told and that is closed under these
constructions.
-/

namespace Symbolic

inductive Symbol where
  | byte (value : UInt8)
  | fresh (name index : Nat)
  /-- A cell of the shared secret that a ciphertext transports under a public key. -/
  | shared (publicKey ciphertext : List Symbol) (index : Nat)
  | sha (data : List Symbol) (index : Nat)
  | hmac (key data : List Symbol) (index : Nat)
  | hkdf (ikm salt info : List Symbol) (index : Nat)

namespace Symbol

/-- A symbol reads as the byte that it is, and as zero otherwise. -/
def toByte : Symbol → UInt8
  | .byte value => value
  | _ => 0

instance : Cell Symbol where
  ofByte := .byte
  toByte := toByte
  toByte_ofByte _ := rfl

noncomputable instance : DecidableEq Symbol := Classical.decEq Symbol

/-- A byte or a part of a random value. -/
def Atomic : Symbol → Prop
  | .byte _ => True
  | .fresh _ _ => True
  | _ => False

end Symbol

open Symbolic.Symbol

section Outputs

variable (length : Nat)

/-- The cells of an output. -/
def cells (cell : Nat → Symbol) : List.Vector Symbol length := .ofFn fun i => cell i

variable {length}

theorem mem_cells {cell : Nat → Symbol} {x : Symbol} (mem : x ∈ (cells length cell).toList) :
    ∃ i, x = cell i := by
  rw [cells, List.Vector.toList_ofFn, List.mem_ofFn] at mem
  obtain ⟨i, rfl⟩ := mem
  exact ⟨i, rfl⟩

theorem cell_mem (cell : Nat → Symbol) (i : Fin length) : cell i ∈ (cells length cell).toList := by
  rw [cells, List.Vector.toList_ofFn, List.mem_ofFn]
  exact ⟨i, rfl⟩

/-- Outputs that are not empty agree only if all their cells do. -/
theorem cells_inj {cell cell' : Nat → Symbol} (same : cells (length + 1) cell =
    cells (length + 1) cell') : cell 0 = cell' 0 := by
  have first := congrArg (fun v => List.Vector.get v 0) same
  simpa only [cells, List.Vector.get_ofFn, Fin.val_zero] using first

end Outputs

/-- What an observer can build from what it was told. -/
inductive Derivable (isProtected : List Symbol → List Symbol → Prop) (told : Symbol → Prop) :
    Symbol → Prop where
  | told {x : Symbol} (h : told x) : Derivable isProtected told x
  | atomic {x : Symbol} (h : x.Atomic) : Derivable isProtected told x
  | shared {publicKey ciphertext : List Symbol} (h : ¬ isProtected publicKey ciphertext)
      (index : Nat) : Derivable isProtected told (.shared publicKey ciphertext index)
  | sha {data : List Symbol} (h : ∀ x ∈ data, Derivable isProtected told x) (index : Nat) :
      Derivable isProtected told (.sha data index)
  | hmac {key data : List Symbol} (h : ∀ x ∈ key, Derivable isProtected told x)
      (h' : ∀ x ∈ data, Derivable isProtected told x) (index : Nat) :
      Derivable isProtected told (.hmac key data index)
  | hkdf {ikm salt info : List Symbol} (h : ∀ x ∈ ikm, Derivable isProtected told x)
      (h' : ∀ x ∈ salt, Derivable isProtected told x)
      (h'' : ∀ x ∈ info, Derivable isProtected told x) (index : Nat) :
      Derivable isProtected told (.hkdf ikm salt info index)

/-- A shared secret, the keys that are derived from it, and the tags of one string under one
of these keys. -/
inductive Secret (publicKey ciphertext sharedSecret key data : List Symbol) : Symbol → Prop where
  | shared (index : Nat) : Secret publicKey ciphertext sharedSecret key data
      (.shared publicKey ciphertext index)
  | hkdf (salt info : List Symbol) (index : Nat) :
      Secret publicKey ciphertext sharedSecret key data (.hkdf sharedSecret salt info index)
  | hmac (index : Nat) : Secret publicKey ciphertext sharedSecret key data (.hmac key data index)

section Secrecy

variable {isProtected : List Symbol → List Symbol → Prop} {told : Symbol → Prop}
  {publicKey ciphertext sharedSecret key data : List Symbol}

theorem Secret.not_atomic {x : Symbol} (h : Secret publicKey ciphertext sharedSecret key data x) :
    ¬ x.Atomic := by
  cases h with
  | shared index => exact id
  | hkdf salt info index => exact id
  | hmac index => exact id

/-- An observer that was told nothing of a protected secret derives nothing of it. -/
theorem Derivable.not_secret {x : Symbol} (h : Derivable isProtected told x)
    (safe : isProtected publicKey ciphertext)
    (fromShared : ∃ i, .shared publicKey ciphertext i ∈ sharedSecret)
    (fromHkdf : ∃ salt info i, .hkdf sharedSecret salt info i ∈ key)
    (untold : ∀ x, told x → ¬ Secret publicKey ciphertext sharedSecret key data x) :
    ¬ Secret publicKey ciphertext sharedSecret key data x := by
  induction h with
  | told h => exact untold _ h
  | atomic h => exact fun secret => secret.not_atomic h
  | shared h index =>
      intro secret
      cases secret
      exact h safe
  | sha h index ih =>
      intro secret
      cases secret
  | hmac h h' index ih ih' =>
      intro secret
      cases secret
      obtain ⟨salt, info, i, mem⟩ := fromHkdf
      exact ih _ mem (.hkdf salt info i)
  | hkdf h h' h'' index ih ih' ih'' =>
      intro secret
      cases secret
      obtain ⟨i, mem⟩ := fromShared
      exact ih _ mem (.shared i)

end Secrecy

end Symbolic
