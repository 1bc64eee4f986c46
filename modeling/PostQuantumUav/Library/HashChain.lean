import PostQuantumUav.Library.HashTree

/-!
# Hash chains

A chain starts from a secret value and hashes it step by step, each step with its number.
Whoever holds the value at some step can compute the later ones.

Two values from which the same number of steps leads to one end are equal, unless two
different strings met on the way hash to the same value.
-/

namespace HashChain

variable {Digest Preimage : Type} (hash : Preimage → Digest)
  (input : Nat → Digest → Preimage)

/-- `count` steps from step `start` on. -/
def walk (start count : Nat) (x : Digest) : Digest :=
  (List.range' start count).foldl (fun current j => hash (input j current)) x

/-- The strings hashed on the way, the first one first. -/
def inputs : Nat → Nat → Digest → List Preimage
  | _, 0, _ => []
  | start, count + 1, x => input start x :: inputs (start + 1) count (hash (input start x))

theorem walk_succ (start count : Nat) (x : Digest) : walk hash input start (count + 1) x =
    walk hash input (start + 1) count (hash (input start x)) := by
  rw [walk, List.range'_succ, List.foldl_cons]
  rfl

/-- The last steps of a walk hash some of its strings. -/
theorem inputs_suffix (start first rest : Nat) (x : Digest) :
    inputs hash input (start + first) rest (walk hash input start first x) ⊆
      inputs hash input start (first + rest) x := by
  induction first generalizing start x with
  | zero =>
      rw [Nat.add_zero, Nat.zero_add]
      exact List.Subset.refl _
  | succ first ih =>
      rw [walk_succ, Nat.succ_add, inputs, Nat.add_succ, ← Nat.succ_add]
      exact List.Subset.trans (ih (start + 1) _) (List.subset_cons_self _ _)

variable {hash input}

/-- Walks of one length that meet started from one value, or their strings collide. -/
theorem walk_binds (inj : ∀ j, Function.Injective (input j)) {start count : Nat} {x y : Digest}
    (meet : walk hash input start count x = walk hash input start count y) :
    x = y ∨ HashTree.Collides hash (inputs hash input start count x)
      (inputs hash input start count y) := by
  induction count generalizing start x y with
  | zero => exact .inl meet
  | succ count ih =>
      rw [walk_succ, walk_succ] at meet
      rcases ih meet with same | collision
      · by_cases strings : input start x = input start y
        · exact .inl (inj start strings)
        · exact .inr ⟨_, List.mem_cons_self, _, List.mem_cons_self, strings, same⟩
      · exact .inr (collision.mono hash (List.subset_cons_self _ _) (List.subset_cons_self _ _))

end HashChain
