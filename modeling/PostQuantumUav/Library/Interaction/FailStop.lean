import PostQuantumUav.Library.Interaction.Total

/-!
# Routines that stop at the first failed call

The world remembers whether a call has failed. A fail-stop routine starts before any
failure and fails exactly when one of its own calls does; where it succeeds, it delivers
its postcondition.

The rules follow the routine's structure. A loop needs an invariant of the object alone,
since a round that fails ends it.
-/

namespace Interaction.Routine

variable {S : Signature} {ω σ α β ι : Type} {world : World S σ} {broken : σ → Prop} {object : ω}

/-- Whatever the calls answer, the routine fails with a failed call, and otherwise there is
none and the postcondition holds. -/
def FailStop (world : World S σ) (broken : σ → Prop) (post : β → ω → Prop) (r : Routine S ω β)
    (object : ω) : Prop :=
  ∀ s, ¬broken s → Ensures world (fun _ => True) (fun result object' t =>
    (result = none → broken t) ∧ ∀ b, result = some b → ¬broken t ∧ post b object') r object s

theorem failStop_pure {post : β → ω → Prop} {b : β} (h : post b object) :
    FailStop world broken post (pure b) object := by
  refine fun s intact => ⟨nofun, fun b' returned => ?_⟩
  cases Option.some.inj returned
  exact ⟨intact, h⟩

theorem failStop_modify {post : PUnit → ω → Prop} {f : ω → ω} (h : post .unit (f object)) :
    FailStop world broken post (modify f) object :=
  fun _ intact => ⟨nofun, fun _ _ => ⟨intact, h⟩⟩

theorem FailStop.mono {post post' : β → ω → Prop} {r : Routine S ω β}
    (h : FailStop world broken post r object)
    (imp : ∀ b object', post b object' → post' b object') :
    FailStop world broken post' r object := by
  refine fun s intact => (h s intact).mono ?_
  exact fun _ _ _ outcome => ⟨outcome.1, fun b returned =>
    ⟨(outcome.2 b returned).1, imp b _ (outcome.2 b returned).2⟩⟩

theorem FailStop.and {post post' : β → ω → Prop} {r : Routine S ω β}
    (first : FailStop world broken post r object) (second : FailStop world broken post' r object) :
    FailStop world broken (fun b object' => post b object' ∧ post' b object') r object := by
  refine fun s intact => Program.Ensures.mono ((first s intact).and (second s intact))
    (fun _ kept => kept) ?_
  exact fun result t outcome => ⟨outcome.1.1, fun b returned => ⟨(outcome.1.2 b returned).1,
    (outcome.1.2 b returned).2, (outcome.2.2 b returned).2⟩⟩

/-- A sequence: the second part starts where the first one succeeds. -/
theorem FailStop.bind {middle : α → ω → Prop} {post : β → ω → Prop} {r : Routine S ω α}
    {f : α → Routine S ω β} (first : FailStop world broken middle r object)
    (second : ∀ a object', middle a object' → FailStop world broken post (f a) object') :
    FailStop world broken post (r >>= f) object := by
  refine fun s intact => (first s intact).bind ?_ ?_
  · exact fun _ _ outcome => ⟨fun _ => outcome.1 rfl, fun _ returned => nomatch returned⟩
  · intro a object' t outcome
    obtain ⟨intact, reached⟩ := outcome.2 a rfl
    exact second a object' reached t intact

theorem FailStop.get {post : β → ω → Prop} {f : ω → Routine S ω β}
    (next : FailStop world broken post (f object) object) :
    FailStop world broken post (get >>= f) object := by
  intro s intact
  rw [ensures_bind, ensures_get]
  exact next s intact

theorem FailStop.modify {post : β → ω → Prop} {f : ω → ω} {g : PUnit → Routine S ω β}
    (next : FailStop world broken post (g .unit) (f object)) :
    FailStop world broken post (modify f >>= g) object := by
  intro s intact
  rw [ensures_bind, ensures_modify]
  exact next s intact

/-- A check that cannot fail. -/
theorem FailStop.guard {post : β → ω → Prop} {c : Prop} [Decidable c] {f : Unit → Routine S ω β}
    (holds : c) (next : FailStop world broken post (f ()) object) :
    FailStop world broken post (guard c >>= f) object := by
  intro s intact
  rw [ensures_bind, ensures_guard]
  exact ⟨fun _ => next s intact, fun fails => absurd holds fails⟩

/-- What follows the failure of an operation must fail as well. -/
theorem FailStop.attempt {middle : α → ω → Prop} {post : β → ω → Prop} {r : Routine S ω α}
    {f : Option α → Routine S ω β} (first : FailStop world broken middle r object)
    (success : ∀ a object', middle a object' → FailStop world broken post (f (some a)) object')
    (failed : ∀ object' t, Ensures world (fun _ => True)
      (fun result _ t' => result = none ∧ t' = t) (f none) object' t) :
    FailStop world broken post (Routine.attempt r >>= f) object := by
  intro s intact
  rw [ensures_bind, ensures_attempt]
  refine (first s intact).mono fun result object' t outcome => ?_
  cases result with
  | some a =>
      obtain ⟨intact, reached⟩ := outcome.2 a rfl
      exact success a object' reached t intact
  | none =>
      refine (failed object' t).mono ?_
      rintro _ _ _ ⟨rfl, rfl⟩
      exact ⟨fun _ => outcome.1 rfl, nofun⟩

theorem FailStop.forM {f : ι → Routine S ω PUnit} {invariant : ω → Prop} (items : List ι)
    (step : ∀ i object, invariant object →
      FailStop world broken (fun _ => invariant) (f i) object) (start : invariant object) :
    FailStop world broken (fun _ => invariant) (items.forM f) object := by
  induction items generalizing object with
  | nil => exact failStop_pure start
  | cons i rest ih => exact (step i object start).bind fun _ _ reached => ih reached

theorem FailStop.foldlM {f : β → ι → Routine S ω β} {invariant : β → ω → Prop} (items : List ι)
    {b : β} (step : ∀ b i object, invariant b object →
      FailStop world broken invariant (f b i) object) (start : invariant b object) :
    FailStop world broken invariant (items.foldlM f b) object := by
  induction items generalizing b object with
  | nil => exact failStop_pure start
  | cons i rest ih =>
      rw [List.foldlM_cons]
      exact (step b i object start).bind fun b' _ reached => ih reached

/-- A loop whose invariant names the items that are done. -/
theorem FailStop.foldlM_front {f : β → ι → Routine S ω β} (reached : List ι → β → ω → Prop)
    (items : List ι) {b : β}
    (step : ∀ front i back b object, items = front ++ i :: back → reached front b object →
      FailStop world broken (reached (front ++ [i])) (f b i) object)
    (start : reached [] b object) :
    FailStop world broken (reached items) (items.foldlM f b) object := by
  suffices rest : ∀ back front b object, items = front ++ back → reached front b object →
      FailStop world broken (reached items) (back.foldlM f b) object from
    rest items [] b object rfl start
  intro back
  induction back with
  | nil =>
      intro front b object split done
      rw [List.append_nil] at split
      exact failStop_pure (split ▸ done)
  | cons i back ih =>
      intro front b object split done
      rw [List.foldlM_cons]
      refine (step front i back b object split done).bind fun b' object' next => ?_
      exact ih (front ++ [i]) b' object' (by rw [split, List.append_assoc]; rfl) next

theorem FailStop.forM_front {f : ι → Routine S ω PUnit} (reached : List ι → ω → Prop)
    (items : List ι)
    (step : ∀ front i back object, items = front ++ i :: back → reached front object →
      FailStop world broken (fun _ => reached (front ++ [i])) (f i) object)
    (start : reached [] object) :
    FailStop world broken (fun _ => reached items) (items.forM f) object := by
  suffices rest : ∀ back front object, items = front ++ back → reached front object →
      FailStop world broken (fun _ => reached items) (back.forM f) object from
    rest items [] object rfl start
  intro back
  induction back with
  | nil =>
      intro front object split done
      rw [List.append_nil] at split
      exact failStop_pure (split ▸ done)
  | cons i back ih =>
      intro front object split done
      refine (step front i back object split done).bind fun _ object' next => ?_
      exact ih (front ++ [i]) object' (by rw [split, List.append_assoc]; rfl) next

/-- Where a call can always succeed, a fail-stop routine has an execution that succeeds. -/
theorem FailStop.exists_run {post : β → ω → Prop} {r : Routine S ω β}
    (h : FailStop world broken post r object)
    (answers : ∀ s c, ∃ a t, world s ⟨c, a⟩ t ∧ (¬broken s → ¬broken t)) {s : σ}
    (intact : ¬broken s) : ∃ b object' t, Run world r object s (some b) object' t ∧
      ¬broken t ∧ post b object' := by
  let succeeding : World S σ := fun s event t => world s event t ∧ (¬broken s → ¬broken t)
  have responsive : succeeding.Responsive := answers
  obtain ⟨⟨result, object'⟩, t, run⟩ := Program.exists_exec responsive (r.on object) s
  have kept : (r.on object).Ensures succeeding (fun s => ¬broken s) (fun _ t => ¬broken t) s :=
    Program.Ensures.of_step (fun _ _ _ step now => step.2 now) _ intact
  have still : ¬broken t := run.post_of_done kept intact
  have whole : Run world r object s result object' t := run.mono fun _ _ _ step => step.1
  obtain ⟨failed, succeeded⟩ := (h s intact).post_of_run whole trivial
  cases result with
  | none => exact absurd (failed rfl) still
  | some b => exact ⟨b, object', t, whole, succeeded b rfl⟩

end Interaction.Routine
