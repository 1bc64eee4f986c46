import Mathlib.Data.Option.Basic
import Mathlib.Tactic.Common

/-!
# Programs as trees of calls

A program either finishes with a value or makes one call and continues with the
answer it receives. The tree fixes no meaning for its calls: the same program is
evaluated with total answers, logged, or executed step by step against a world
that may stop it after any call.

`Program.eval` and `Program.calls` interpret a program whose calls have a fixed
answer. They are the two halves of one deterministic execution: its result, and
the list of calls it made in order.
-/

namespace Interaction

/-- The calls a program can make and the type of each call's answer. -/
structure Signature where
  Call : Type
  Answer : Call → Type

/-- A call together with the answer it received. -/
structure Event (S : Signature) where
  call : S.Call
  answer : S.Answer call

/-- A computation over the calls of `S`. Every branch is finite, so a program
cannot run forever; unbounded waiting is expressed by the answers it receives. -/
inductive Program (S : Signature) (α : Type) where
  | done (value : α)
  | call (request : S.Call) (next : S.Answer request → Program S α)

namespace Program

variable {S : Signature} {α β γ : Type}

/-- Continue the result of `p` with `f`, keeping the calls of `p` first. -/
def bind : Program S α → (α → Program S β) → Program S β
  | .done a, f => f a
  | .call c next, f => .call c (fun a => (next a).bind f)

instance : Monad (Program S) where
  pure := .done
  bind := bind

@[simp] theorem pure_eq (a : α) : (pure a : Program S α) = .done a := rfl

@[simp] theorem done_bind (a : α) (f : α → Program S β) : (.done a >>= f) = f a := rfl

@[simp] theorem call_bind (c : S.Call) (next : S.Answer c → Program S α) (f : α → Program S β) :
    (.call c next >>= f) = .call c (fun a => next a >>= f) := rfl

theorem bind_done (p : Program S α) : (p >>= Program.done) = p := by
  induction p with
  | done a => rfl
  | call c next ih =>
      rw [call_bind]
      congr 1
      funext a
      exact ih a

theorem bind_assoc (p : Program S α) (f : α → Program S β) (g : β → Program S γ) :
    (p >>= f >>= g) = (p >>= fun a => f a >>= g) := by
  induction p with
  | done a => rfl
  | call c next ih =>
      rw [call_bind, call_bind, call_bind]
      congr 1
      funext a
      exact ih a

instance : LawfulMonad (Program S) :=
  LawfulMonad.mk' (Program S) bind_done (fun _ _ => rfl) bind_assoc

/-- The program that makes one call and returns its answer. -/
def ask (c : S.Call) : Program S (S.Answer c) := .call c .done

@[simp] theorem ask_bind (c : S.Call) (f : S.Answer c → Program S β) :
    (ask c >>= f) = .call c f := rfl

section Asks

/-- Some execution of the program makes the call. -/
def Asks (c : S.Call) : Program S α → Prop
  | .done _ => False
  | .call c' next => c = c' ∨ ∃ a, (next a).Asks c

@[simp] theorem asks_done {c : S.Call} (a : α) : ¬ (Program.done a : Program S α).Asks c := id

@[simp] theorem asks_call {c c' : S.Call} {next : S.Answer c' → Program S α} :
    (Program.call c' next).Asks c ↔ c = c' ∨ ∃ a, (next a).Asks c := Iff.rfl

/-- A call of a sequence is one of its first or of its second part. -/
theorem asks_of_bind {c : S.Call} {p : Program S α} {f : α → Program S β}
    (h : (p >>= f).Asks c) : p.Asks c ∨ ∃ a, (f a).Asks c := by
  induction p with
  | done a => exact .inr ⟨a, h⟩
  | call c' next ih =>
      obtain same | ⟨a, later⟩ := h
      · exact .inl (.inl same)
      · obtain first | second := ih a later
        · exact .inl (.inr ⟨a, first⟩)
        · exact .inr second

end Asks

section Answered

variable (answer : (c : S.Call) → S.Answer c)

/-- The result of a program whose calls are answered by a fixed function. -/
def eval : Program S α → α
  | .done a => a
  | .call c next => (next (answer c)).eval

/-- The calls made by the same execution, in the order they are made. -/
def calls : Program S α → List S.Call
  | .done _ => []
  | .call c next => c :: (next (answer c)).calls

@[simp] theorem eval_done (a : α) : (Program.done a : Program S α).eval answer = a := rfl

@[simp] theorem eval_call (c : S.Call) (next : S.Answer c → Program S α) :
    (Program.call c next).eval answer = (next (answer c)).eval answer := rfl

@[simp] theorem eval_bind (p : Program S α) (f : α → Program S β) :
    (p >>= f).eval answer = (f (p.eval answer)).eval answer := by
  induction p with
  | done a => rfl
  | call c next ih => exact ih (answer c)

@[simp] theorem calls_done (a : α) : (Program.done a : Program S α).calls answer = [] := rfl

@[simp] theorem calls_call (c : S.Call) (next : S.Answer c → Program S α) :
    (Program.call c next).calls answer = c :: (next (answer c)).calls answer := rfl

@[simp] theorem calls_bind (p : Program S α) (f : α → Program S β) :
    (p >>= f).calls answer = p.calls answer ++ (f (p.eval answer)).calls answer := by
  induction p with
  | done a => rfl
  | call c next ih => exact congrArg (c :: ·) (ih (answer c))

end Answered

end Program

end Interaction
