import PostQuantumUav.Library.Interaction.Discipline

/-!
# Routines that move a world between stages

A stage is a property of the world. A routine that obeys a discipline may move the world
from one stage to another, and leaves a failure stage behind where it gives up; a property
that all stages imply then holds at every point of an execution.

Parts that stay within one stage need no proof of their own: it is enough that they obey
the discipline and that the allowed calls keep the stage.
-/

namespace Interaction.Routine

variable {S : Signature} {ω σ α β : Type}

/-- From the stage `start` the routine ends at the stage `stop` with a good value, or gives up at
the stage `failed`. -/
def Moves (d : Discipline S ω) (world : World S σ) (always failed start stop : σ → Prop)
    (good : α → Prop) (r : Routine S ω α) : Prop :=
  ∀ object s, d.kept object → start s →
    Ensures world always (fun result object' t => d.kept object' ∧ (result = none → failed t) ∧
      ∀ a, result = some a → good a ∧ stop t) r object s

variable {d : Discipline S ω} {world : World S σ} {always failed start middle stop : σ → Prop}
  {good : α → Prop}

theorem moves_pure {a : α} (h : good a) :
    Moves d world always failed start start good (pure a) := by
  refine fun object s kept now => ⟨kept, nofun, fun b returned => ?_⟩
  cases Option.some.inj returned
  exact ⟨h, now⟩

theorem Moves.bind {good' : β → Prop} {r : Routine S ω α} {f : α → Routine S ω β}
    (first : Moves d world always failed start middle good r)
    (second : ∀ a, good a → Moves d world always failed middle stop good' (f a)) :
    Moves d world always failed start stop good' (r >>= f) := by
  intro object s kept now
  refine (first object s kept now).bind ?_ ?_
  · exact fun object' t outcome => ⟨outcome.1, fun _ => outcome.2.1 rfl, nofun⟩
  · intro a object' t outcome
    obtain ⟨is, reached⟩ := outcome.2.2 a rfl
    exact second a is object' t outcome.1 reached

theorem Moves.get {good' : β → Prop} {f : ω → Routine S ω β}
    (next : ∀ object, d.kept object → Moves d world always failed start stop good' (f object)) :
    Moves d world always failed start stop good' (get >>= f) := by
  intro object s kept now
  rw [ensures_bind, ensures_get]
  exact next object kept object s kept now

/-- The routine's failure is not the end. -/
theorem Moves.attempt {r : Routine S ω α} (h : Moves d world always failed start stop good r)
    (gaveUp : ∀ s, stop s → failed s) :
    Moves d world always failed start failed (fun result => ∀ a, result = some a → good a)
      (Routine.attempt r) := by
  refine fun object s kept now => ensures_attempt.mpr ((h object s kept now).mono ?_)
  intro result object' t outcome
  refine ⟨outcome.1, nofun, fun result' returned => ?_⟩
  cases Option.some.inj returned
  refine ⟨fun a is => (outcome.2.2 a is).1, ?_⟩
  cases result with
  | none => exact outcome.2.1 rfl
  | some a => exact gaveUp t (outcome.2.2 a rfl).2

theorem Moves.mono {start' stop' : σ → Prop} {good' : α → Prop} {r : Routine S ω α}
    (h : Moves d world always failed start stop good r) (from_start : ∀ s, start' s → start s)
    (to_stop : ∀ s, stop s → stop' s) (imp : ∀ a, good a → good' a) :
    Moves d world always failed start' stop' good' r := by
  refine fun object s kept now => (h object s kept (from_start s now)).mono ?_
  intro result object' t outcome
  refine ⟨outcome.1, outcome.2.1, fun a returned => ?_⟩
  exact ⟨imp a (outcome.2.2 a returned).1, to_stop t (outcome.2.2 a returned).2⟩

/-- A part that stays within one stage. -/
theorem Obeys.moves {r : Routine S ω α} (obeys : Obeys d good r) (keeps : Keeps d world start)
    (implies : ∀ s, start s → always s) (gaveUp : ∀ s, start s → failed s) :
    Moves d world always failed start start good r := by
  refine fun object s kept now => (obeys.ensures keeps implies kept now).mono ?_
  exact fun result object' t outcome => ⟨outcome.1, fun _ => gaveUp t outcome.2.2,
    fun a returned => ⟨outcome.2.1 a returned, outcome.2.2⟩⟩

end Interaction.Routine
