import PostQuantumUav.Library.Interaction.Basic

/-!
# Programs that may fail

`Fallible S α` is a program that finishes with a value or gives up. Evaluating
one with fixed answers gives an optional result and the list of calls made before
it finished or gave up.

The traversal rules describe loops whose every iteration succeeds: the loop
succeeds with the ordinary fold or map, and makes the calls of every iteration.
-/

namespace Interaction

/-- A program that finishes with a value or fails. -/
abbrev Fallible (S : Signature) (α : Type) := OptionT (Program S) α

namespace Fallible

variable {S : Signature} {α β ι : Type}

variable (answer : (c : S.Call) → S.Answer c)

def eval (x : Fallible S α) : Option α := x.run.eval answer

def calls (x : Fallible S α) : List S.Call := x.run.calls answer

@[simp] theorem eval_pure (a : α) : (pure a : Fallible S α).eval answer = some a := rfl

@[simp] theorem eval_failure : (failure : Fallible S α).eval answer = none := rfl

@[simp] theorem eval_bind (x : Fallible S α) (f : α → Fallible S β) :
    (x >>= f).eval answer = (x.eval answer).bind (fun a => (f a).eval answer) := by
  simp only [eval, OptionT.run_bind, Option.elimM, Program.eval_bind]
  cases x.run.eval answer <;> rfl

@[simp] theorem calls_pure (a : α) : (pure a : Fallible S α).calls answer = [] := rfl

@[simp] theorem calls_failure : (failure : Fallible S α).calls answer = [] := rfl

theorem calls_bind (x : Fallible S α) (f : α → Fallible S β) :
    (x >>= f).calls answer =
      x.calls answer ++ (x.eval answer).elim [] (fun a => (f a).calls answer) := by
  simp only [calls, eval, OptionT.run_bind, Option.elimM, Program.calls_bind]
  cases x.run.eval answer <;> rfl

variable {answer}

theorem calls_subset_bind (x : Fallible S α) (f : α → Fallible S β) :
    x.calls answer ⊆ (x >>= f).calls answer := by
  rw [calls_bind]
  exact List.subset_append_left _ _

/-- After a first part that succeeds, the calls of the second part are made. -/
theorem calls_subset_bind_of_eval {x : Fallible S α} {a : α} (h : x.eval answer = some a)
    (f : α → Fallible S β) : (f a).calls answer ⊆ (x >>= f).calls answer := by
  rw [calls_bind, h]
  exact List.subset_append_right _ _

section Loops

variable {f : β → ι → Fallible S β} {g : β → ι → β}

/-- A loop whose iterations succeed computes the ordinary fold. -/
theorem eval_foldlM (items : List ι) (init : β)
    (step : ∀ b, ∀ i ∈ items, (f b i).eval answer = some (g b i)) :
    (items.foldlM f init : Fallible S β).eval answer = some (items.foldl g init) := by
  induction items generalizing init with
  | nil => rfl
  | cons i rest ih =>
      rw [List.foldlM_cons, eval_bind, step init i List.mem_cons_self, Option.bind_some,
        List.foldl_cons]
      exact ih (g init i) (fun b j hj => step b j (List.mem_cons_of_mem i hj))

/-- The iteration reached after `front` makes its calls. -/
theorem calls_subset_foldlM (front : List ι) (i : ι) (back : List ι) (init : β)
    (step : ∀ b, ∀ i ∈ front, (f b i).eval answer = some (g b i)) :
    (f (front.foldl g init) i).calls answer ⊆
      ((front ++ i :: back).foldlM f init : Fallible S β).calls answer := by
  rw [List.foldlM_append]
  refine List.Subset.trans ?_ (calls_subset_bind_of_eval (eval_foldlM front init step) _)
  rw [List.foldlM_cons]
  exact calls_subset_bind _ _

/-- A traversal whose iterations succeed computes the ordinary map. -/
theorem eval_mapM {f : ι → Fallible S β} {g : ι → β} (items : List ι)
    (step : ∀ i ∈ items, (f i).eval answer = some (g i)) :
    (items.mapM f : Fallible S (List β)).eval answer = some (items.map g) := by
  induction items with
  | nil => rfl
  | cons i rest ih =>
      rw [List.mapM_cons, eval_bind, step i List.mem_cons_self, Option.bind_some, eval_bind,
        ih (fun j hj => step j (List.mem_cons_of_mem i hj))]
      rfl

/-- Each iteration of such a traversal makes its calls. -/
theorem calls_subset_mapM {f : ι → Fallible S β} {g : ι → β} {items : List ι} {i : ι}
    (mem : i ∈ items) (step : ∀ i ∈ items, (f i).eval answer = some (g i)) :
    (f i).calls answer ⊆ (items.mapM f : Fallible S (List β)).calls answer := by
  induction items with
  | nil => cases mem
  | cons first rest ih =>
      rw [List.mapM_cons]
      rcases List.mem_cons.mp mem with rfl | later
      · exact calls_subset_bind _ _
      · have inner := ih later fun j hj => step j (List.mem_cons_of_mem first hj)
        refine List.Subset.trans ?_ (calls_subset_bind_of_eval (step first List.mem_cons_self) _)
        exact List.Subset.trans inner (calls_subset_bind _ _)

end Loops

end Fallible

end Interaction
