import PostQuantumUav.Library.Interaction.Computes

/-!
# What a routine that succeeds has done

`Delivers` is partial correctness of routines: the postcondition holds whenever the
routine returns a value, and a failure is always allowed. It is what can be said of
code that checks its inputs, for every input and every answer of the world.

A part that computes one value is skipped by its own lemma; a check leaves its
condition behind.
-/

namespace Interaction.Routine

variable {S : Signature} {ω σ α β : Type} (world : World S σ)

/-- Every value that the routine returns satisfies the postcondition. -/
def Delivers (post : α → ω → σ → Prop) (r : Routine S ω α) (object : ω) (s : σ) : Prop :=
  Ensures world (fun _ => True) (fun result object' t => ∀ a, result = some a → post a object' t)
    r object s

variable {world} {object : ω} {s : σ} {post : β → ω → σ → Prop}

theorem delivers_pure {b : β} (h : post b object s) : Delivers world post (pure b) object s := by
  intro a returned
  cases Option.some.inj returned
  exact h

theorem delivers_failure : Delivers world post failure object s := fun _ returned =>
  nomatch returned

theorem Delivers.mono {post' : β → ω → σ → Prop} {r : Routine S ω β}
    (h : Delivers world post r object s)
    (imp : ∀ b object' t, post b object' t → post' b object' t) :
    Delivers world post' r object s :=
  Ensures.mono h fun _ object' t all b returned => imp b object' t (all b returned)

/-- A sequence: the second part starts from what the first one delivers. -/
theorem Delivers.bind {middle : α → ω → σ → Prop} {r : Routine S ω α} {f : α → Routine S ω β}
    (first : Delivers world middle r object s)
    (second : ∀ a object' t, middle a object' t → Delivers world post (f a) object' t) :
    Delivers world post (r >>= f) object s := by
  refine Ensures.bind first ?_ ?_
  · exact fun _ _ _ _ returned => nomatch returned
  · exact fun a object' t all => second a object' t (all a rfl)

theorem Delivers.get {f : ω → Routine S ω β} (next : Delivers world post (f object) object s) :
    Delivers world post (get >>= f) object s := by
  rw [Delivers, ensures_bind, ensures_get]
  exact next

theorem Delivers.modify {f : ω → ω} {g : PUnit → Routine S ω β}
    (next : Delivers world post (g .unit) (f object) s) :
    Delivers world post (modify f >>= g) object s := by
  rw [Delivers, ensures_bind, ensures_modify]
  exact next

/-- What follows a check may use its condition. -/
theorem Delivers.guard {c : Prop} [Decidable c] {f : Unit → Routine S ω β}
    (next : c → Delivers world post (f ()) object s) :
    Delivers world post (guard c >>= f) object s := by
  rw [Delivers, ensures_bind, ensures_guard]
  exact ⟨next, fun _ _ returned => nomatch returned⟩

theorem Delivers.perform {c : S.Call} {f : S.Answer c → Routine S ω β}
    (answered : ∀ a t, world s ⟨c, a⟩ t → Delivers world post (f a) object t) :
    Delivers world post (Routine.perform c >>= f) object s :=
  Ensures.perform fun a t step => ⟨trivial, answered a t step⟩

/-- A first part that computes one value. -/
theorem Computes.delivers {same : ω → ω → Prop} {r : Routine S ω α} {f : α → Routine S ω β}
    {a : α} {object' : ω} {t : σ} {start : ω}
    (first : Computes world same r object s a object' t) (like : same object start)
    (second : ∀ middle, same object' middle → Delivers world post (f a) middle t) :
    Delivers world post (r >>= f) start s :=
  first.ensures like second

/-- A finished execution that returns a value satisfies the postcondition. -/
theorem Delivers.of_run {r : Routine S ω β} {b : β} {object' : ω} {t : σ}
    (h : Delivers world post r object s) (run : Run world r object s (some b) object' t) :
    post b object' t :=
  h.post_of_run run trivial b rfl

end Interaction.Routine
