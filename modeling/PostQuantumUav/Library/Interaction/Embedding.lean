import PostQuantumUav.Library.Interaction.Routine

/-!
# Programs inside larger programs

A program over some calls is used in one that makes further calls by renaming its calls
and translating the answers back. What it ensures there is what it ensures in the world
that the larger one offers for the renamed calls.
-/

namespace Interaction

variable {S T : Signature} {σ ω α : Type}

/-- How the calls of `S` are made among those of `T`. -/
structure Embedding (S T : Signature) where
  call : S.Call → T.Call
  answer : (c : S.Call) → T.Answer (call c) → S.Answer c

/-- What a world over the larger signature answers to the embedded calls. -/
def World.pull (e : Embedding S T) (world : World T σ) : World S σ := fun s event t =>
  ∃ a, world s ⟨e.call event.call, a⟩ t ∧ e.answer event.call a = event.answer

namespace Program

def embed (e : Embedding S T) : Program S α → Program T α
  | .done a => .done a
  | .call c next => .call (e.call c) fun a => (next (e.answer c a)).embed e

theorem ensures_embed {e : Embedding S T} {world : World T σ} {always : σ → Prop}
    {post : α → σ → Prop} {p : Program S α} {s : σ}
    (h : p.Ensures (world.pull e) always post s) : (p.embed e).Ensures world always post s := by
  induction p generalizing s with
  | done a => exact h
  | call c next ih =>
      intro a t answered
      obtain ⟨now, later⟩ := h (e.answer c a) t ⟨a, answered, rfl⟩
      exact ⟨now, ih _ later⟩

end Program

namespace Routine

def embed (e : Embedding S T) (r : Routine S ω α) : Routine T ω α :=
  OptionT.mk fun object => (r.on object).embed e

theorem Ensures.embed {e : Embedding S T} {world : World T σ} {always : σ → Prop}
    {post : Option α → ω → σ → Prop} {r : Routine S ω α} {object : ω} {s : σ}
    (h : Ensures (world.pull e) always post r object s) :
    Ensures world always post (Routine.embed e r) object s :=
  Program.ensures_embed h

end Routine

end Interaction
