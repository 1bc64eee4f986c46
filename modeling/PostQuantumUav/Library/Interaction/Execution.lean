import PostQuantumUav.Library.Interaction.Basic

/-!
# Executions against a world, and what they ensure

A world is a state and a relation that says which answers a call may receive
and how the state changes. `Exec` is a partial execution: it may stop after any
call, which is how a crash or a power loss between two steps is expressed.

`Ensures` is the corresponding weakest precondition. It carries two assertions:
`always` holds of every world reached after a call, including those where the
execution stops early, and `post` holds where the program finishes.
-/

namespace Interaction

/-- Which answers a call may receive in a world, and the world that follows. -/
abbrev World (S : Signature) (σ : Type) := σ → Event S → σ → Prop

namespace Program

variable {S : Signature} {σ α β : Type} {world : World S σ}

/-- A partial execution of a program, leaving the program that remains. -/
inductive Exec (world : World S σ) : Program S α → σ → Program S α → σ → Prop where
  | stop (p : Program S α) (s : σ) : Exec world p s p s
  | step {c : S.Call} {next : S.Answer c → Program S α} {s s' t : σ} {a : S.Answer c}
      {q : Program S α} (answered : world s ⟨c, a⟩ s') (rest : Exec world (next a) s' q t) :
      Exec world (.call c next) s q t

/-- Every execution keeps `always` after each call and ends in `post`. -/
def Ensures (world : World S σ) (always : σ → Prop) (post : α → σ → Prop) :
    Program S α → σ → Prop
  | .done a, s => post a s
  | .call c next, s => ∀ a s', world s ⟨c, a⟩ s' →
      always s' ∧ (next a).Ensures world always post s'

section Ensures

variable {always always' : σ → Prop} {post post' : α → σ → Prop} {s t : σ}

@[simp] theorem ensures_done (a : α) :
    (Program.done a : Program S α).Ensures world always post s ↔ post a s := Iff.rfl

@[simp] theorem ensures_call (c : S.Call) (next : S.Answer c → Program S α) :
    (Program.call c next).Ensures world always post s ↔
      ∀ a s', world s ⟨c, a⟩ s' → always s' ∧ (next a).Ensures world always post s' := Iff.rfl

/-- A sequence ensures `post` exactly when its first part ensures what the
second part needs. -/
@[simp] theorem ensures_bind (p : Program S α) (f : α → Program S β) {post : β → σ → Prop} :
    (p >>= f).Ensures world always post s ↔
      p.Ensures world always (fun a t => (f a).Ensures world always post t) s := by
  induction p generalizing s with
  | done a => rfl
  | call c next ih =>
      rw [call_bind, ensures_call, ensures_call]
      simp only [ih]

theorem Ensures.mono {p : Program S α} (h : p.Ensures world always post s)
    (imp : ∀ s, always s → always' s) (post_imp : ∀ a s, post a s → post' a s) :
    p.Ensures world always' post' s := by
  induction p generalizing s with
  | done a => exact post_imp a s h
  | call c next ih =>
      intro a s' hs
      exact ⟨imp s' (h a s' hs).1, ih a (h a s' hs).2⟩

/-- Every program keeps what every call keeps. -/
theorem Ensures.of_step {invariant : σ → Prop}
    (step : ∀ s event s', world s event s' → invariant s → invariant s') (p : Program S α)
    (start : invariant s) : p.Ensures world invariant (fun _ t => invariant t) s := by
  induction p generalizing s with
  | done a => exact start
  | call c next ih =>
      intro a s' answered
      have kept := step s ⟨c, a⟩ s' answered start
      exact ⟨kept, ih a kept⟩

/-- Two postconditions that a program ensures hold together. -/
theorem Ensures.and {p : Program S α} (first : p.Ensures world always post s)
    (second : p.Ensures world always' post' s) :
    p.Ensures world always (fun a t => post a t ∧ post' a t) s := by
  induction p generalizing s with
  | done a => exact ⟨first, second⟩
  | call c next ih =>
      intro a s' answered
      exact ⟨(first a s' answered).1, ih a (first a s' answered).2 (second a s' answered).2⟩

/-- What a program ensures from a world is ensured by whatever remains of it. -/
theorem Exec.ensures {p q : Program S α} (h : Exec world p s q t)
    (ensured : p.Ensures world always post s) (start : always s) :
    always t ∧ q.Ensures world always post t := by
  induction h with
  | stop p s => exact ⟨start, ensured⟩
  | step answered _ ih =>
      obtain ⟨now, later⟩ := ensured _ _ answered
      exact ih later now

/-- A finished execution ends in the postcondition. -/
theorem Exec.post_of_done {p : Program S α} {a : α} (h : Exec world p s (.done a) t)
    (ensured : p.Ensures world always post s) (start : always s) : post a t :=
  (h.ensures ensured start).2

end Ensures

/-- An execution seen in a part of the world. -/
theorem Exec.project {τ : Type} {world' : World S τ} (view : σ → τ) {p q : Program S α} {s t : σ}
    (imp : ∀ s event s', world s event s' → world' (view s) event (view s'))
    (h : Exec world p s q t) : Exec world' p (view s) q (view t) := by
  induction h with
  | stop _ _ => exact .stop _ _
  | step answered _ ih => exact .step (imp _ _ _ answered) ih

/-- A world that allows more answers has the same executions. -/
theorem Exec.mono {world' : World S σ} {p q : Program S α} {s t : σ}
    (imp : ∀ s event s', world s event s' → world' s event s') (h : Exec world p s q t) :
    Exec world' p s q t :=
  h.project id imp

theorem Exec.trans {p q r : Program S α} {s t u : σ} (first : Exec world p s q t)
    (second : Exec world q t r u) : Exec world p s r u := by
  induction first with
  | stop _ _ => exact second
  | step answered _ ih => exact .step answered (ih second)

/-- An execution of the first part of a sequence is one of the sequence. -/
theorem Exec.bind {p q : Program S α} {s t : σ} (h : Exec world p s q t)
    (f : α → Program S β) : Exec world (p >>= f) s (q >>= f) t := by
  induction h with
  | stop _ _ => exact .stop _ _
  | step answered _ ih => exact .step answered ih

end Program

end Interaction
