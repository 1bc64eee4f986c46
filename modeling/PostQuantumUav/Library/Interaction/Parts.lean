import PostQuantumUav.Library.Interaction.Embedding

/-!
# Finished runs and their parts

A finished run of a sequence is a finished run of its first part and one of the rest, and a
finished run of an embedded routine is one of the routine itself. So a run of a loop over
methods falls apart into runs of the methods, one after the other.

A run can be followed in another world as long as a relation between the states is kept.
-/

namespace Interaction

variable {S T : Signature} {ω σ τ α β : Type}

namespace Program

/-- A run is followed in a second world. -/
theorem Exec.follow {world : World S σ} (world' : World S τ) (related : σ → τ → Prop)
    (step : ∀ s event s' u, world s event s' → related s u →
      ∃ u', world' u event u' ∧ related s' u')
    {p q : Program S α} {s t : σ} {u : τ} (h : Exec world p s q t) (start : related s u) :
    ∃ v, Exec world' p u q v ∧ related t v := by
  induction h generalizing u with
  | stop p s => exact ⟨u, .stop _ _, start⟩
  | step answered _ ih =>
      obtain ⟨u', answered', start'⟩ := step _ _ _ u answered start
      obtain ⟨v, rest, stop⟩ := ih start'
      exact ⟨v, .step answered' rest, stop⟩

/-- What a program ensures in a world that can follow every step, it ensures up to the relation. -/
theorem Ensures.follow {world : World S σ} (world' : World S τ) (related : σ → τ → Prop)
    (step : ∀ u event u' s, world' u event u' → related s u →
      ∃ s', world s event s' ∧ related s' u')
    {p : Program S α} {always : σ → Prop} {post : α → σ → Prop} {s : σ} {u : τ}
    (h : p.Ensures world always post s) (start : related s u) :
    p.Ensures world' (fun _ => True) (fun a u' => ∃ s', related s' u' ∧ post a s') u := by
  induction p generalizing s u with
  | done a => exact ⟨s, start, h⟩
  | call c next ih =>
      intro a u' answered
      obtain ⟨s', followed, start'⟩ := step _ _ _ _ answered start
      exact ⟨trivial, ih a (h a s' followed).2 start'⟩

/-- The parts of a sequence that finishes. -/
theorem Exec.of_bind {world : World S σ} {p : Program S α} {f : α → Program S β} {b : β} {s t : σ}
    (h : Exec world (p >>= f) s (.done b) t) :
    ∃ a u, Exec world p s (.done a) u ∧ Exec world (f a) u (.done b) t := by
  induction p generalizing s with
  | done a => exact ⟨a, s, .stop _ _, h⟩
  | call c next ih =>
      cases h with
      | step answered rest =>
          obtain ⟨a, u, first, second⟩ := ih _ rest
          exact ⟨a, u, .step answered first, second⟩

variable {e : Embedding S T} {world : World T σ}

/-- An embedded program that finishes. -/
theorem Exec.of_embed {p : Program S α} {a : α} {s t : σ}
    (h : Exec world (p.embed e) s (.done a) t) : Exec (world.pull e) p s (.done a) t := by
  induction p generalizing s with
  | done b =>
      cases h
      exact .stop _ _
  | call c next ih =>
      cases h with
      | step answered rest => exact .step ⟨_, answered, rfl⟩ (ih _ rest)

theorem Exec.embed {p : Program S α} {a : α} {s t : σ}
    (h : Exec (world.pull e) p s (.done a) t) : Exec world (p.embed e) s (.done a) t := by
  induction p generalizing s with
  | done b =>
      cases h
      exact .stop _ _
  | call c next ih =>
      cases h with
      | @step _ _ _ s' _ answer _ answered rest =>
          obtain ⟨outer, answered, rfl⟩ : ∃ outer : T.Answer (e.call c),
            world s ⟨e.call c, outer⟩ s' ∧ e.answer c outer = answer := answered
          exact .step answered (ih _ rest)

end Program

namespace Routine

variable {world : World S σ} {object object' : ω} {s t : σ}

theorem Run.of_pure {a : α} {result : Option α}
    (run : Run world (pure a) object s result object' t) :
    result = some a ∧ object' = object ∧ t = s := by
  cases run
  exact ⟨rfl, rfl, rfl⟩

theorem Run.of_get {f : ω → Routine S ω β} {result : Option β}
    (run : Run world (get >>= f) object s result object' t) :
    Run world (f object) object s result object' t := run

/-- A sequence whose first part cannot fail. -/
theorem Run.of_attempt_bind {r : Routine S ω α} {f : Option α → Routine S ω β} {result : Option β}
    (run : Run world (Routine.attempt r >>= f) object s result object' t) :
    ∃ outcome middle u, Run world r object s outcome middle u ∧
      Run world (f outcome) middle u result object' t := by
  rw [Run, on_bind, on_attempt] at run
  obtain ⟨_, u, first, second⟩ := run.of_bind
  obtain ⟨⟨outcome, middle⟩, v, inner, last⟩ := first.of_bind
  cases last
  exact ⟨outcome, middle, u, inner, second⟩

theorem Run.of_perform_bind {c : S.Call} {f : S.Answer c → Routine S ω β} {result : Option β}
    (run : Run world (perform c >>= f) object s result object' t) :
    ∃ a u, world s ⟨c, a⟩ u ∧ Run world (f a) object u result object' t := by
  cases run with
  | step answered rest => exact ⟨_, _, answered, rest⟩

variable {e : Embedding S T} {outer : World T σ} {r : Routine S ω α} {result : Option α}

theorem Run.of_embed (run : Run outer (Routine.embed e r) object s result object' t) :
    Run (outer.pull e) r object s result object' t := Program.Exec.of_embed run

theorem Run.embed (run : Run (outer.pull e) r object s result object' t) :
    Run outer (Routine.embed e r) object s result object' t := Program.Exec.embed run

end Routine

end Interaction
