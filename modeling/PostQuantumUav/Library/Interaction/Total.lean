import PostQuantumUav.Library.Interaction.Routine

/-!
# Total correctness of routines

A world that can answer every call lets every program finish, since programs are
finite trees. `Total` states that some execution finishes and that each finished
one satisfies the postcondition; in such a world it follows from `Ensures`.
-/

namespace Interaction

variable {S : Signature} {ω σ α β : Type} {world : World S σ}

/-- No call waits forever in this world. -/
def World.Responsive (world : World S σ) : Prop := ∀ s c, ∃ a s', world s ⟨c, a⟩ s'

/-- A responsive world lets every program finish. -/
theorem Program.exists_exec (responsive : world.Responsive) (p : Program S α) (s : σ) :
    ∃ a t, Program.Exec world p s (.done a) t := by
  induction p generalizing s with
  | done a => exact ⟨a, s, .stop _ _⟩
  | call c next ih =>
      obtain ⟨a, s', answered⟩ := responsive s c
      obtain ⟨b, t, rest⟩ := ih a s'
      exact ⟨b, t, .step answered rest⟩

namespace Routine

/-- The routine can finish, and `post` holds whenever it does. -/
def Total (world : World S σ) (post : Option α → ω → σ → Prop) (r : Routine S ω α)
    (object : ω) (s : σ) : Prop :=
  (∃ result object' t, Run world r object s result object' t) ∧
    ∀ result object' t, Run world r object s result object' t → post result object' t

theorem Ensures.total {post : Option α → ω → σ → Prop} {r : Routine S ω α} {object : ω} {s : σ}
    (h : Ensures world (fun _ => True) post r object s) (responsive : world.Responsive) :
    Total world post r object s := by
  refine ⟨?_, fun result object' t run => h.post_of_run run trivial⟩
  obtain ⟨⟨result, object'⟩, t, run⟩ := Program.exists_exec responsive (r.on object) s
  exact ⟨result, object', t, run⟩

theorem Total.mono {post post' : Option α → ω → σ → Prop} {r : Routine S ω α} {object : ω} {s : σ}
    (h : Total world post r object s)
    (imp : ∀ result object' t, post result object' t → post' result object' t) :
    Total world post' r object s :=
  ⟨h.1, fun result object' t run => imp result object' t (h.2 result object' t run)⟩

end Routine

end Interaction
