import Mathlib.Data.List.Induction
import Mathlib.Logic.Function.Basic

/-!
# Tables in which the last write counts

A table maps keys to values, and a write replaces the value of its key. After a
sequence of writes every key has the value written last for it, or the value it
had before when there was none.
-/

namespace LastWrite

variable {K V : Type} [DecidableEq K]

/-- One write. -/
def apply (table : K → Option V) (write : K × V) : K → Option V :=
  Function.update table write.1 (some write.2)

/-- The value that a sequence of writes leaves under a key, if it writes the key. -/
def last (writes : List (K × V)) (key : K) : Option V :=
  writes.foldl (fun value write => if write.1 = key then some write.2 else value) none

@[simp] theorem last_nil (key : K) : last ([] : List (K × V)) key = none := rfl

theorem last_append (writes : List (K × V)) (write : K × V) (key : K) :
    last (writes ++ [write]) key = if write.1 = key then some write.2 else last writes key := by
  simp only [last, List.foldl_append, List.foldl_cons, List.foldl_nil]

theorem foldl_apply (writes : List (K × V)) (table : K → Option V) (key : K) :
    writes.foldl apply table key = (last writes key).or (table key) := by
  induction writes using List.reverseRecOn with
  | nil => rfl
  | append_singleton writes write ih =>
      rw [List.foldl_append, last_append]
      change Function.update (writes.foldl apply table) write.1 (some write.2) key = _
      by_cases same : write.1 = key
      · rw [if_pos same, same, Function.update_self]
        rfl
      · rw [if_neg same, Function.update_of_ne (Ne.symm same), ih]

/-- A key has no last value exactly when nothing was written for it. -/
theorem last_eq_none {writes : List (K × V)} {key : K} :
    last writes key = none ↔ ∀ write ∈ writes, write.1 ≠ key := by
  induction writes using List.reverseRecOn with
  | nil => exact iff_of_true rfl fun _ mem => absurd mem List.not_mem_nil
  | append_singleton writes write ih =>
      rw [last_append]
      by_cases same : write.1 = key
      · rw [if_pos same]
        refine iff_of_false (Option.some_ne_none _) fun none => ?_
        exact none write (List.mem_append_right _ List.mem_cons_self) same
      · rw [if_neg same, ih]
        constructor
        · intro none w mem
          rcases List.mem_append.mp mem with mem | mem
          · exact none w mem
          · rwa [List.mem_singleton.mp mem]
        · exact fun none w mem => none w (List.mem_append_left _ mem)

/-- Two sequences that write the same keys leave the same table exactly when they leave the same
value under every key. -/
theorem foldl_apply_eq_iff {writes writes' : List (K × V)} {table : K → Option V}
    (keys : ∀ key, last writes key = none ↔ last writes' key = none) :
    writes.foldl apply table = writes'.foldl apply table ↔
      ∀ key, last writes key = last writes' key := by
  constructor
  · intro same key
    have value := congrFun same key
    rw [foldl_apply, foldl_apply] at value
    cases here : last writes key with
    | none => rw [(keys key).mp here]
    | some v =>
        cases there : last writes' key with
        | none => exact absurd ((keys key).mpr there) (here ▸ Option.some_ne_none v)
        | some v' => rwa [here, there] at value
  · intro same
    funext key
    rw [foldl_apply, foldl_apply, same]

end LastWrite
