import PostQuantumUav.Library.Interaction.Routine

/-!
# Disciplines

A discipline says which calls a program may make, what it may rely on in their answers,
and which property of its object it keeps. A routine that obeys a discipline does so for
every answer that satisfies what may be relied on, and what it returns satisfies a
property of its own, so that routines which pass values to each other compose.

The worlds come last: where the allowed calls keep a property of the world and are
answered as the discipline assumes, every execution keeps the property.
-/

namespace Interaction

variable {S : Signature} {ω σ α β ι : Type}

/-- The calls of a program, what it assumes of the answers, and what it keeps. -/
structure Discipline (S : Signature) (ω : Type) where
  allowed : S.Call → Prop
  answered : (c : S.Call) → S.Answer c → Prop
  kept : ω → Prop

namespace Program

/-- Every call that is reached with assumed answers is allowed, and so is every result. -/
def Obeys (allowed : S.Call → Prop) (answered : (c : S.Call) → S.Answer c → Prop)
    (returned : α → Prop) : Program S α → Prop
  | .done a => returned a
  | .call c next => allowed c ∧ ∀ a, answered c a → (next a).Obeys allowed answered returned

variable {allowed : S.Call → Prop} {answered : (c : S.Call) → S.Answer c → Prop}

theorem Obeys.bind {p : Program S α} {f : α → Program S β} {middle : α → Prop}
    {returned : β → Prop} (first : p.Obeys allowed answered middle)
    (second : ∀ a, middle a → (f a).Obeys allowed answered returned) :
    (p >>= f).Obeys allowed answered returned := by
  induction p with
  | done a => exact second a first
  | call c next ih => exact ⟨first.1, fun a assumed => ih a (first.2 a assumed)⟩

/-- What the allowed calls keep is kept throughout. -/
theorem Obeys.ensures {world : World S σ} {kept : σ → Prop} {returned : α → Prop}
    {p : Program S α} (obeys : p.Obeys allowed answered returned)
    (step : ∀ s c a s', allowed c → kept s → world s ⟨c, a⟩ s' → answered c a ∧ kept s') {s : σ}
    (start : kept s) : p.Ensures world kept (fun a t => returned a ∧ kept t) s := by
  induction p generalizing s with
  | done a => exact ⟨obeys, start⟩
  | call c next ih =>
      intro a s' answer
      obtain ⟨assumed, after⟩ := step s c a s' obeys.1 start answer
      exact ⟨after, ih a (obeys.2 a assumed) after⟩

end Program

namespace Routine

/-- From every object with the kept property the routine obeys the discipline, and what it
returns is good. -/
def Obeys (d : Discipline S ω) (good : α → Prop) (r : Routine S ω α) : Prop :=
  ∀ object, d.kept object → (r.on object).Obeys d.allowed d.answered fun result =>
    d.kept result.2 ∧ ∀ a, result.1 = some a → good a

variable {d : Discipline S ω} {good : α → Prop}

theorem obeys_pure {a : α} (h : good a) : Obeys d good (pure a) := by
  intro object start
  refine ⟨start, fun b returned => ?_⟩
  cases Option.some.inj returned
  exact h

theorem obeys_failure : Obeys d good failure := fun _ start => ⟨start, nofun⟩

theorem obeys_modify {f : ω → ω} (h : ∀ object, d.kept object → d.kept (f object)) :
    Obeys d (fun _ => True) (modify f : Routine S ω PUnit) :=
  fun object start => ⟨h object start, fun _ _ => trivial⟩

theorem obeys_perform {c : S.Call} (h : d.allowed c) : Obeys d (d.answered c) (perform c) := by
  refine fun object start => ⟨h, fun a assumed => ⟨start, fun b returned => ?_⟩⟩
  cases Option.some.inj returned
  exact assumed

theorem Obeys.bind {middle : α → Prop} {good : β → Prop} {r : Routine S ω α}
    {f : α → Routine S ω β} (first : Obeys d middle r)
    (second : ∀ a, middle a → Obeys d good (f a)) :
    Obeys d good (r >>= f) := by
  intro object start
  rw [on_bind]
  refine (first object start).bind fun result after => ?_
  obtain ⟨_ | a, last⟩ := result
  · exact ⟨after.1, nofun⟩
  · exact second a (after.2 a rfl) last after.1

/-- The object is read first, and what follows may use its property. -/
theorem Obeys.get {good : β → Prop} {f : ω → Routine S ω β}
    (next : ∀ object, d.kept object → Obeys d good (f object)) : Obeys d good (get >>= f) := by
  intro object start
  rw [on_bind]
  exact next object start object start

theorem Obeys.mono {good' : α → Prop} {r : Routine S ω α} (h : Obeys d good r)
    (imp : ∀ a, good a → good' a) : Obeys d good' r := by
  have tail := h.bind fun a is => @obeys_pure _ _ _ d good' a (imp a is)
  rwa [bind_pure] at tail

theorem Obeys.attempt {r : Routine S ω α} (h : Obeys d good r) :
    Obeys d (fun result => ∀ a, result = some a → good a) (Routine.attempt r) := by
  intro object start
  rw [on_attempt]
  refine (h object start).bind fun result after => ⟨after.1, fun outcome returned => ?_⟩
  cases Option.some.inj returned
  exact after.2

/-- A check leaves its condition behind. -/
theorem obeys_guard (c : Prop) [Decidable c] : Obeys d (fun _ => c) (guard c) := by
  rw [guard]
  split
  · rename_i holds
    exact obeys_pure holds
  · exact obeys_failure

theorem Obeys.check {good : Bool → Prop} {r : Routine S ω Bool} (h : Obeys d good r) :
    Obeys d (fun _ => good true) (Routine.check r) := by
  refine h.bind fun ok is => (obeys_guard _).mono ?_
  rintro _ rfl
  exact is

theorem Obeys.ite {c : Prop} [Decidable c] {yes no : Routine S ω α} (first : Obeys d good yes)
    (second : Obeys d good no) : Obeys d good (if c then yes else no) := by
  split
  · exact first
  · exact second

theorem Obeys.orFail {r : Routine S ω (Option α)}
    (h : Obeys d (fun result => ∀ a, result = some a → good a) r) :
    Obeys d good (Routine.orFail r) := by
  refine h.bind fun result is => ?_
  cases result with
  | none => exact obeys_failure
  | some a => exact obeys_pure (is a rfl)

/-- A value of which nothing is known. -/
theorem Obeys.orFail_any {good : Option α → Prop} {r : Routine S ω (Option α)}
    (h : Obeys d good r) : Obeys d (fun _ => True) (Routine.orFail r) :=
  (h.mono fun _ _ _ _ => trivial).orFail

/-- An optional value that was held before. -/
theorem obeys_held (held : Option α) :
    Obeys d (fun _ => True) (Routine.orFail (pure held) : Routine S ω α) :=
  (@obeys_pure _ _ _ d (fun _ => True) held trivial).orFail_any

/-- Nothing is said of what the routine returns. -/
theorem Obeys.any {r : Routine S ω α} (h : Obeys d good r) : Obeys d (fun _ => True) r :=
  h.mono fun _ _ => trivial

theorem Obeys.check_any {good : Bool → Prop} {r : Routine S ω Bool} (h : Obeys d good r) :
    Obeys d (fun _ => True) (Routine.check r) := h.check.any

/-- A sequence whose second part works for everything that the first may return. -/
theorem Obeys.andThen {good : β → Prop} {r : Routine S ω α} {f : α → Routine S ω β}
    (first : Obeys d (fun _ => True) r) (second : ∀ a, Obeys d good (f a)) :
    Obeys d good (r >>= f) :=
  first.bind fun a _ => second a

theorem Obeys.forM {f : ι → Routine S ω PUnit} (items : List ι)
    (h : ∀ i, Obeys d (fun _ => True) (f i)) : Obeys d (fun _ => True) (items.forM f) := by
  induction items with
  | nil => exact obeys_pure trivial
  | cons i rest ih => exact (h i).andThen fun _ => ih

/-- A loop whose rounds return good values from good values. -/
theorem Obeys.foldlM {f : β → ι → Routine S ω β} {good : β → Prop} (items : List ι) {start : β}
    (h : ∀ b i, good b → Obeys d good (f b i)) (init : good start) :
    Obeys d good (items.foldlM f start) := by
  induction items generalizing start with
  | nil => exact obeys_pure init
  | cons i rest ih =>
      rw [List.foldlM_cons]
      exact (h start i init).bind fun b is => ih is

/-- The allowed calls are answered as assumed and keep a property of the world. -/
def Keeps (d : Discipline S ω) (world : World S σ) (during : σ → Prop) : Prop :=
  ∀ s c a s', d.allowed c → during s → world s ⟨c, a⟩ s' → d.answered c a ∧ during s'

/-- In a world that answers as assumed, what the allowed calls keep is kept. -/
theorem Obeys.ensures {world : World S σ} {always during : σ → Prop} {r : Routine S ω α}
    (obeys : Obeys d good r) (step : Keeps d world during)
    (implies : ∀ s, during s → always s) {object : ω} {s : σ} (like : d.kept object)
    (start : during s) :
    Ensures world always (fun result object' t => d.kept object' ∧
      (∀ a, result = some a → good a) ∧ during t) r object s := by
  refine ((obeys object like).ensures step start).mono implies fun result t after => ?_
  exact ⟨after.1.1, after.1.2, after.2⟩

end Routine

end Interaction
