import PostQuantumUav.Library.Interaction.Parts

/-!
# Programs that are images of each other

A program over one signature is compared with a program over another. `Images` says that
both make corresponding calls in the same order, that corresponding answers lead both to
corresponding ends, and that neither stops before the other. Which calls correspond, and
for each pair of them which answers do, is a parameter.

The rules for routines follow their structure, with a relation between the two objects
that is kept throughout. Where a second world answers every call as a first one does, up to
the correspondence, an execution in the first has an image in the second.
-/

namespace Interaction

variable {S S' : Signature} {α α' β β' ω ω' σ σ' ι : Type}

/-- Which calls of two signatures correspond, and which answers to them do. -/
abbrev Imaging (S S' : Signature) :=
  (c : S.Call) → (c' : S'.Call) → (S.Answer c → S'.Answer c' → Prop) → Prop

theorem optionRel_map (R : α → β → Prop) {f : α → β} (related : ∀ a, R a (f a))
    (a : Option α) : Option.Rel R a (a.map f) := by
  cases a with
  | none => exact .none
  | some a => exact .some (related a)

theorem optionRel_image (f : α → β) (a : Option α) :
    Option.Rel (fun a b => b = f a) a (a.map f) :=
  optionRel_map (fun a b => b = f a) (fun _ => rfl) a

theorem optionRel_self (a : Option α) : Option.Rel (fun a a' => a = a') a a := by
  cases a with
  | none => exact .none
  | some a => exact .some rfl

namespace Program

/-- Corresponding calls, up to corresponding ends. -/
def Images (calls : Imaging S S') (ends : α → α' → Prop) : Program S α → Program S' α' → Prop
  | .done a, .done a' => ends a a'
  | .call c next, .call c' next' => ∃ answers, calls c c' answers ∧
      ∀ a a', answers a a' → (next a).Images calls ends (next' a')
  | _, _ => False

variable {calls : Imaging S S'} {ends : α → α' → Prop}

theorem Images.bind {ends' : β → β' → Prop} {p : Program S α} {p' : Program S' α'}
    {f : α → Program S β} {f' : α' → Program S' β'} (first : p.Images calls ends p')
    (second : ∀ a a', ends a a' → (f a).Images calls ends' (f' a')) :
    (p >>= f).Images calls ends' (p' >>= f') := by
  induction p generalizing p' with
  | done a =>
      cases p' with
      | done a' => exact second a a' first
      | call c' next' => exact absurd first id
  | call c next ih =>
      cases p' with
      | done a' => exact absurd first id
      | call c' next' =>
          obtain ⟨answers, corresponds, later⟩ := first
          exact ⟨answers, corresponds, fun a a' answered => ih a (later a a' answered)⟩

/-- An execution has an image where the second world can answer as the first one does. -/
theorem Images.exec {world : World S σ} {world' : World S' σ'} (like : σ → σ' → Prop)
    (step : ∀ s c a t, world s ⟨c, a⟩ t → ∀ s' c' answers, like s s' → calls c c' answers →
      ∃ a' t', answers a a' ∧ world' s' ⟨c', a'⟩ t' ∧ like t t')
    {p q : Program S α} {p' : Program S' α'} {s t : σ} {s' : σ'} (exec : Exec world p s q t)
    (images : p.Images calls ends p') (start : like s s') :
    ∃ q' t', Exec world' p' s' q' t' ∧ q.Images calls ends q' ∧ like t t' := by
  induction exec generalizing p' s' with
  | stop p s => exact ⟨p', s', .stop _ _, images, start⟩
  | @step c next s u t a q answered rest ih =>
      cases p' with
      | done a' => exact absurd images id
      | call c' next' =>
          obtain ⟨answers, corresponds, later⟩ := images
          obtain ⟨a', u', both, answered', middle⟩ := step _ _ _ _ answered _ _ _ start corresponds
          obtain ⟨q', t', exec', images, stop⟩ := ih (later a a' both) middle
          exact ⟨q', t', .step answered' exec', images, stop⟩

end Program

namespace Routine

/-- From corresponding objects, corresponding calls up to corresponding objects and results. -/
def Images (calls : Imaging S S') (objects : ω → ω' → Prop) (results : α → α' → Prop)
    (r : Routine S ω α) (r' : Routine S' ω' α') : Prop :=
  ∀ object object', objects object object' → (r.on object).Images calls
    (fun x x' => Option.Rel results x.1 x'.1 ∧ objects x.2 x'.2) (r'.on object')

variable {calls : Imaging S S'} {objects : ω → ω' → Prop} {results : α → α' → Prop}
  {results' : β → β' → Prop}

theorem images_pure {a : α} {a' : α'} (related : results a a') :
    Images calls objects results (pure a) (pure a') :=
  fun _ _ like => ⟨.some related, like⟩

theorem images_failure : Images calls objects results failure failure :=
  fun _ _ like => ⟨.none, like⟩

theorem images_perform {c : S.Call} {c' : S'.Call} {answers : S.Answer c → S'.Answer c' → Prop}
    (corresponds : calls c c' answers) :
    Images calls objects answers (perform c) (perform c') :=
  fun _ _ like => ⟨answers, corresponds, fun _ _ both => ⟨.some both, like⟩⟩

theorem images_modify {f : ω → ω} {f' : ω' → ω'}
    (changed : ∀ object object', objects object object' → objects (f object) (f' object')) :
    Images calls objects (fun _ _ => True) (modify f : Routine S ω PUnit)
      (modify f' : Routine S' ω' PUnit) :=
  fun _ _ like => ⟨.some trivial, changed _ _ like⟩

theorem Images.bind {r : Routine S ω α} {r' : Routine S' ω' α'} {f : α → Routine S ω β}
    {f' : α' → Routine S' ω' β'} (first : Images calls objects results r r')
    (second : ∀ a a', results a a' → Images calls objects results' (f a) (f' a')) :
    Images calls objects results' (r >>= f) (r' >>= f') := by
  intro object object' like
  rw [on_bind, on_bind]
  refine (first object object' like).bind ?_
  rintro ⟨_ | a, last⟩ ⟨_ | a', last'⟩ ⟨outcome, like⟩
  · exact ⟨.none, like⟩
  · cases outcome
  · cases outcome
  · cases outcome with
    | some related => exact second a a' related last last' like

/-- Both look at their objects. -/
theorem Images.get {f : ω → Routine S ω β} {f' : ω' → Routine S' ω' β'}
    (next : ∀ object object', objects object object' →
      Images calls objects results' (f object) (f' object')) :
    Images calls objects results' (get >>= f) (get >>= f') := by
  intro object object' like
  rw [on_bind, on_bind]
  exact next object object' like object object' like

theorem Images.mono {results' : α → α' → Prop} {r : Routine S ω α} {r' : Routine S' ω' α'}
    (images : Images calls objects results r r') (imp : ∀ a a', results a a' → results' a a') :
    Images calls objects results' r r' := by
  have tail := images.bind fun a a' related =>
    @images_pure _ _ _ _ _ _ calls objects _ _ _ (imp a a' related)
  rwa [bind_pure, bind_pure] at tail

/-- Nothing is said of the results. -/
theorem Images.any {r : Routine S ω α} {r' : Routine S' ω' α'}
    (images : Images calls objects results r r') :
    Images calls objects (fun _ _ => True) r r' :=
  images.mono fun _ _ _ => trivial

/-- A sequence whose second parts do not depend on what the first ones return. -/
theorem Images.andThen {r : Routine S ω α} {r' : Routine S' ω' α'} {f : α → Routine S ω β}
    {f' : α' → Routine S' ω' β'} (first : Images calls objects results r r')
    (second : ∀ a a', Images calls objects results' (f a) (f' a')) :
    Images calls objects results' (r >>= f) (r' >>= f') :=
  first.bind fun a a' _ => second a a'

theorem Images.attempt {r : Routine S ω α} {r' : Routine S' ω' α'}
    (images : Images calls objects results r r') :
    Images calls objects (Option.Rel results) (Routine.attempt r) (Routine.attempt r') := by
  intro object object' like
  rw [on_attempt, on_attempt]
  exact (images object object' like).bind fun _ _ ends => ⟨.some ends.1, ends.2⟩

theorem Images.orFail {r : Routine S ω (Option α)} {r' : Routine S' ω' (Option α')}
    (images : Images calls objects (Option.Rel results) r r') :
    Images calls objects results (Routine.orFail r) (Routine.orFail r') := by
  refine images.bind fun a a' related => ?_
  cases related with
  | none => exact images_failure
  | some related => exact images_pure related

/-- Optional values that were held before. -/
theorem images_held {held : Option α} {held' : Option α'}
    (related : Option.Rel results held held') :
    Images calls objects results (Routine.orFail (pure held)) (Routine.orFail (pure held')) :=
  (images_pure related).orFail

/-- Checks that agree leave their conditions behind. -/
theorem images_guard {c c' : Prop} [Decidable c] [Decidable c'] (same : c ↔ c') :
    Images calls objects (fun _ _ => c) (guard c) (guard c') := by
  by_cases h : c
  · rw [guard, guard, if_pos h, if_pos (same.mp h)]
    exact images_pure h
  · rw [guard, guard, if_neg h, if_neg fun h' => h (same.mpr h')]
    exact images_failure

theorem Images.check {r : Routine S ω Bool} {r' : Routine S' ω' Bool}
    (images : Images calls objects (· = ·) r r') :
    Images calls objects (fun _ _ => True) (Routine.check r) (Routine.check r') := by
  refine images.bind fun ok ok' same => ?_
  subst same
  exact (images_guard Iff.rfl).any

theorem Images.ite {c c' : Prop} [Decidable c] [Decidable c'] {yes no : Routine S ω α}
    {yes' no' : Routine S' ω' α'} (same : c ↔ c') (first : Images calls objects results yes yes')
    (second : Images calls objects results no no') :
    Images calls objects results (if c then yes else no) (if c' then yes' else no') := by
  by_cases h : c
  · rw [if_pos h, if_pos (same.mp h)]
    exact first
  · rw [if_neg h, if_neg fun h' => h (same.mpr h')]
    exact second

theorem Images.forM {f : ι → Routine S ω PUnit} {f' : ι → Routine S' ω' PUnit} (items : List ι)
    (round : ∀ i, Images calls objects (fun _ _ => True) (f i) (f' i)) :
    Images calls objects (fun _ _ => True) (items.forM f) (items.forM f') := by
  induction items with
  | nil => exact images_pure trivial
  | cons i rest ih => exact (round i).andThen fun _ _ => ih

theorem Images.foldlM {f : α → ι → Routine S ω α} {f' : α' → ι → Routine S' ω' α'}
    (items : List ι) {start : α} {start' : α'}
    (round : ∀ a a' i, results a a' → Images calls objects results (f a i) (f' a' i))
    (init : results start start') :
    Images calls objects results (items.foldlM f start) (items.foldlM f' start') := by
  induction items generalizing start start' with
  | nil => exact images_pure init
  | cons i rest ih =>
      rw [List.foldlM_cons, List.foldlM_cons]
      exact (round start start' i init).bind fun a a' related => ih related

/-- A finished run has a finished image. -/
theorem Images.run {world : World S σ} {world' : World S' σ'} (like : σ → σ' → Prop)
    (step : ∀ s c a t, world s ⟨c, a⟩ t → ∀ s' c' answers, like s s' → calls c c' answers →
      ∃ a' t', answers a a' ∧ world' s' ⟨c', a'⟩ t' ∧ like t t')
    {r : Routine S ω α} {r' : Routine S' ω' α'} (images : Images calls objects results r r')
    {object last : ω} {object' : ω'} {s t : σ} {result : Option α}
    (run : Run world r object s result last t) (same : objects object object') (s' : σ')
    (start : like s s') :
    ∃ result' last' t', Run world' r' object' s' result' last' t' ∧
      Option.Rel results result result' ∧ objects last last' ∧ like t t' := by
  obtain ⟨q', t', exec, ends, stop⟩ := (images object object' same).exec like step run start
  cases q' with
  | call c' next' => exact absurd ends id
  | done x' => exact ⟨x'.1, x'.2, t', exec, ends.1, ends.2, stop⟩

end Routine

end Interaction
