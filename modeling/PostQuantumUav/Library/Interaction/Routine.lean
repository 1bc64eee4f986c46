import PostQuantumUav.Library.Interaction.Execution

/-!
# Methods of an object

A `Routine` is a program that owns an object, may read and change it between its
calls, and may give up; the object is kept as it is then. Methods of a class that
return false on failure are routines over the class's fields.

The rules for `Ensures` follow the routine's own structure. Its postcondition sees
the result, absent after a failure, together with the final object and world.
-/

namespace Interaction

/-- A program over an object `ω` that finishes with a value or fails. -/
abbrev Routine (S : Signature) (ω α : Type) := OptionT (StateT ω (Program S)) α

namespace Routine

variable {S : Signature} {ω σ α β ι : Type}

/-- The program run on an object; a result of none is a failure. -/
def on (r : Routine S ω α) (object : ω) : Program S (Option α × ω) := (OptionT.run r).run object

/-- A finished execution on an object. -/
abbrev Run (world : World S σ) (r : Routine S ω α) (object : ω) (s : σ) (result : Option α)
    (object' : ω) (t : σ) : Prop :=
  Program.Exec world (r.on object) s (.done (result, object')) t

/-- Make one call. -/
def perform (c : S.Call) : Routine S ω (S.Answer c) :=
  OptionT.lift (StateT.lift (Program.ask c))

/-- Run a routine and continue after its failure as well. -/
def attempt (r : Routine S ω α) : Routine S ω (Option α) := OptionT.lift (OptionT.run r)

/-- Fail where a routine reports an error by returning nothing. -/
def orFail (r : Routine S ω (Option α)) : Routine S ω α := do
  let some a ← r | failure
  pure a

/-- Fail where a routine reports an error by returning false. -/
def check (r : Routine S ω Bool) : Routine S ω Unit := do
  let ok ← r
  guard (ok = true)

section On

variable (object : ω)

@[simp] theorem on_pure (a : α) : (pure a : Routine S ω α).on object = .done (some a, object) :=
  rfl

@[simp] theorem on_failure :
    (failure : Routine S ω α).on object = .done (none, object) := rfl

theorem on_bind (r : Routine S ω α) (f : α → Routine S ω β) :
    (r >>= f).on object = r.on object >>= fun result =>
      match result.1 with
      | none => .done (none, result.2)
      | some a => (f a).on result.2 := by
  change ((OptionT.run r).run object >>= fun result => _) = _
  refine congrArg _ (funext fun result => ?_)
  obtain ⟨_ | a, _⟩ := result <;> rfl

@[simp] theorem on_perform (c : S.Call) :
    (perform c : Routine S ω _).on object = .call c fun a => .done (some a, object) := rfl

theorem on_attempt (r : Routine S ω α) :
    (attempt r).on object = r.on object >>= fun result => .done (some result.1, result.2) := rfl

@[simp] theorem on_get : (get : Routine S ω ω).on object = .done (some object, object) := rfl

@[simp] theorem on_modify (f : ω → ω) :
    (modify f : Routine S ω PUnit).on object = .done (some .unit, f object) := rfl

end On

/-- Some run of the routine on the object makes the call. -/
def Asks (r : Routine S ω α) (object : ω) (c : S.Call) : Prop := (r.on object).Asks c

section Asks

variable {object : ω} {c : S.Call}

@[simp] theorem asks_pure (a : α) : ¬ Asks (pure a : Routine S ω α) object c := id

@[simp] theorem asks_get : ¬ Asks (get : Routine S ω ω) object c := id

@[simp] theorem asks_modify (f : ω → ω) : ¬ Asks (modify f : Routine S ω PUnit) object c := id

@[simp] theorem asks_perform {c' : S.Call} :
    Asks (perform c' : Routine S ω _) object c ↔ c = c' :=
  ⟨fun h => h.elim id fun ⟨_, impossible⟩ => absurd impossible id, .inl⟩

@[simp] theorem asks_guard {p : Prop} [Decidable p] :
    ¬ Asks (guard p : Routine S ω Unit) object c := by
  by_cases h : p
  · rw [guard, if_pos h]
    exact id
  · rw [guard, if_neg h]
    exact id

/-- A call of a sequence is one of its first or of its second part. -/
theorem Asks.of_bind {r : Routine S ω α} {f : α → Routine S ω β} (h : Asks (r >>= f) object c) :
    Asks r object c ∨ ∃ a object', Asks (f a) object' c := by
  rw [Asks, on_bind] at h
  obtain first | ⟨⟨_ | a, object'⟩, second⟩ := Program.asks_of_bind h
  · exact .inl first
  · exact absurd second id
  · exact .inr ⟨a, object', second⟩

/-- A routine that starts with a look at its object. -/
theorem Asks.of_get {f : ω → Routine S ω β} (h : Asks (get >>= f) object c) :
    Asks (f object) object c := h

theorem Asks.of_attempt {r : Routine S ω α} (h : Asks (attempt r) object c) :
    Asks r object c := by
  rw [Asks, on_attempt] at h
  obtain first | ⟨_, impossible⟩ := Program.asks_of_bind h
  · exact first
  · exact absurd impossible id

theorem Asks.of_orFail {r : Routine S ω (Option α)} (h : Asks (orFail r) object c) :
    Asks r object c := by
  obtain first | ⟨_ | a, object', impossible⟩ := h.of_bind
  · exact first
  · exact absurd impossible id
  · exact absurd impossible id

end Asks

/-- Every execution on the object keeps `always` and ends in `post`. -/
def Ensures (world : World S σ) (always : σ → Prop) (post : Option α → ω → σ → Prop)
    (r : Routine S ω α) (object : ω) (s : σ) : Prop :=
  (r.on object).Ensures world always (fun result t => post result.1 result.2 t) s

section Ensures

variable {world : World S σ} {always : σ → Prop} {object : ω} {s : σ}

@[simp] theorem ensures_pure {post : Option α → ω → σ → Prop} (a : α) :
    Ensures world always post (pure a) object s ↔ post (some a) object s := Iff.rfl

@[simp] theorem ensures_failure {post : Option α → ω → σ → Prop} :
    Ensures world always post failure object s ↔ post none object s := Iff.rfl

@[simp] theorem ensures_perform {c : S.Call} {post : Option (S.Answer c) → ω → σ → Prop} :
    Ensures world always post (perform c) object s ↔
      ∀ a s', world s ⟨c, a⟩ s' → always s' ∧ post (some a) object s' := Iff.rfl

@[simp] theorem ensures_get {post : Option ω → ω → σ → Prop} :
    Ensures world always post get object s ↔ post (some object) object s := Iff.rfl

@[simp] theorem ensures_modify {f : ω → ω} {post : Option PUnit → ω → σ → Prop} :
    Ensures world always post (modify f) object s ↔ post (some .unit) (f object) s := Iff.rfl

@[simp] theorem ensures_guard {c : Prop} [Decidable c] {post : Option Unit → ω → σ → Prop} :
    Ensures world always post (guard c) object s ↔
      (c → post (some ()) object s) ∧ (¬c → post none object s) := by
  by_cases h : c
  · rw [guard, if_pos h]
    simp [h]
  · rw [guard, if_neg h]
    simp [h]

theorem ensures_bind {r : Routine S ω α} {f : α → Routine S ω β}
    {post : Option β → ω → σ → Prop} :
    Ensures world always post (r >>= f) object s ↔
      Ensures world always (fun result object' t =>
        match result with
        | none => post none object' t
        | some a => Ensures world always post (f a) object' t) r object s := by
  rw [Ensures, on_bind, Program.ensures_bind]
  refine iff_of_eq (congrArg (fun post => Program.Ensures world always post (r.on object) s) ?_)
  funext result t
  obtain ⟨_ | a, _⟩ := result <;> rfl

theorem ensures_attempt {r : Routine S ω α} {post : Option (Option α) → ω → σ → Prop} :
    Ensures world always post (attempt r) object s ↔
      Ensures world always (fun result object' t => post (some result) object' t) r object s := by
  rw [Ensures, on_attempt, Program.ensures_bind]
  rfl

theorem ensures_orFail {r : Routine S ω (Option α)} {post : Option α → ω → σ → Prop} :
    Ensures world always post (orFail r) object s ↔
      Ensures world always (fun result object' t => post result.join object' t) r object s := by
  rw [orFail, ensures_bind]
  refine iff_of_eq (congrArg (fun post => Ensures world always post r object s) ?_)
  funext result object' t
  obtain _ | _ | a := result <;> rfl

theorem ensures_check {r : Routine S ω Bool} {post : Option Unit → ω → σ → Prop} :
    Ensures world always post (check r) object s ↔
      Ensures world always (fun result object' t =>
        post (if result = some true then some () else none) object' t) r object s := by
  rw [check, ensures_bind]
  refine iff_of_eq (congrArg (fun post => Ensures world always post r object s) ?_)
  funext result object' t
  obtain _ | _ | _ := result <;> simp

theorem Ensures.mono {post post' : Option α → ω → σ → Prop} {r : Routine S ω α}
    (h : Ensures world always post r object s)
    (imp : ∀ result object t, post result object t → post' result object t) :
    Ensures world always post' r object s :=
  Program.Ensures.mono h (fun _ kept => kept) fun result t => imp result.1 result.2 t

/-- A sequence: the second part starts where the first one succeeds. -/
theorem Ensures.bind {r : Routine S ω α} {f : α → Routine S ω β}
    {middle : Option α → ω → σ → Prop} {post : Option β → ω → σ → Prop}
    (first : Ensures world always middle r object s)
    (failed : ∀ object' t, middle none object' t → post none object' t)
    (second : ∀ a object' t, middle (some a) object' t →
      Ensures world always post (f a) object' t) :
    Ensures world always post (r >>= f) object s := by
  refine ensures_bind.mpr (first.mono ?_)
  intro result object' t h
  cases result with
  | none => exact failed object' t h
  | some a => exact second a object' t h

/-- A call first: the rest has to work for every answer. -/
theorem Ensures.perform {c : S.Call} {f : S.Answer c → Routine S ω β}
    {post : Option β → ω → σ → Prop}
    (answered : ∀ a s', world s ⟨c, a⟩ s' → always s' ∧ Ensures world always post (f a) object s') :
    Ensures world always post (Routine.perform c >>= f) object s :=
  ensures_bind.mpr answered

theorem ensures_ite {c : Prop} [Decidable c] {yes no : Routine S ω α}
    {post : Option α → ω → σ → Prop} :
    Ensures world always post (if c then yes else no) object s ↔
      (c → Ensures world always post yes object s) ∧
        (¬c → Ensures world always post no object s) := by
  by_cases h : c <;> simp [h]

/-- A loop over a list keeps an invariant of the items done so far; a failing iteration
ends it in `failed`. -/
theorem Ensures.forM {f : ι → Routine S ω PUnit} (invariant : List ι → ω → σ → Prop)
    (failed : ω → σ → Prop) {items : List ι}
    (step : ∀ done i, done ++ [i] <+: items → ∀ object s, invariant done object s →
      Ensures world always (fun result object' t =>
        (result = none → failed object' t) ∧
          (result = some .unit → invariant (done ++ [i]) object' t)) (f i) object s)
    (start : invariant [] object s) :
    Ensures world always (fun result object' t =>
      (result = none → failed object' t) ∧
        (result = some .unit → invariant items object' t)) (items.forM f) object s := by
  -- The loop over `rest` continues from the invariant of `done`.
  suffices from_done : ∀ rest done object s, done ++ rest = items → invariant done object s →
      Ensures world always (fun result object' t =>
        (result = none → failed object' t) ∧
          (result = some .unit → invariant items object' t)) (rest.forM f) object s from
    from_done items [] object s rfl start
  intro rest
  induction rest with
  | nil =>
      intro done object s all reached
      rw [List.append_nil] at all
      exact ⟨fun none => (nomatch none), fun _ => all ▸ reached⟩
  | cons i rest ih =>
      intro done object s all reached
      have now : done ++ [i] ++ rest = items := by
        rw [← all, List.append_assoc]
        rfl
      refine (step done i ⟨rest, now⟩ object s reached).bind ?_ ?_
      · intro object' t outcome
        exact ⟨fun _ => outcome.1 rfl, fun some => (nomatch some)⟩
      · intro _ object' t outcome
        exact ih (done ++ [i]) object' t now (outcome.2 rfl)

/-- A finished execution of a routine ends in its postcondition. -/
theorem Ensures.post_of_run {post : Option α → ω → σ → Prop} {r : Routine S ω α}
    {result : Option α} {object' : ω} {t : σ} (h : Ensures world always post r object s)
    (run : Run world r object s result object' t) (start : always s) : post result object' t :=
  run.post_of_done h start

end Ensures

section Run

variable {world : World S σ} {object object' object'' : ω} {s t u : σ}

theorem run_pure (a : α) : Run world (pure a) object s (some a) object s := .stop _ _

theorem run_get : Run world get object s (some object) object s := .stop _ _

theorem run_modify (f : ω → ω) : Run world (modify f) object s (some .unit) (f object) s :=
  .stop _ _

theorem run_perform {c : S.Call} {a : S.Answer c} (answered : world s ⟨c, a⟩ t) :
    Run world (perform c) object s (some a) object t :=
  .step answered (.stop _ _)

theorem run_guard {c : Prop} [Decidable c] (holds : c) :
    Run world (guard c) object s (some ()) object s := by
  rw [guard, if_pos holds]
  exact run_pure ()

/-- A routine that succeeds, then the rest. -/
theorem Run.bind {r : Routine S ω α} {f : α → Routine S ω β} {a : α} {result : Option β}
    (first : Run world r object s (some a) object' t)
    (second : Run world (f a) object' t result object'' u) :
    Run world (r >>= f) object s result object'' u := by
  rw [Run, on_bind]
  exact Program.Exec.trans (Program.Exec.bind first _) second

theorem run_failure : Run world (failure : Routine S ω α) object s none object s := .stop _ _

/-- A routine that fails ends the sequence. -/
theorem Run.failed {r : Routine S ω α} {f : α → Routine S ω β}
    (first : Run world r object s none object' t) :
    Run world (r >>= f) object s none object' t := by
  rw [Run, on_bind]
  exact Program.Exec.bind first _

theorem Run.attempt {r : Routine S ω α} {result : Option α}
    (run : Run world r object s result object' t) :
    Run world (Routine.attempt r) object s (some result) object' t := by
  rw [Run, on_attempt]
  exact Program.Exec.bind run _

/-- A routine that succeeds, then part of the rest. -/
theorem Run.bind_exec {r : Routine S ω α} {f : α → Routine S ω β} {a : α}
    {rest : Program S (Option β × ω)} (first : Run world r object s (some a) object' t)
    (second : Program.Exec world ((f a).on object') t rest u) :
    Program.Exec world ((r >>= f).on object) s rest u := by
  rw [on_bind]
  exact Program.Exec.trans (Program.Exec.bind first _) second

/-- An execution that stops in the first part of a sequence. -/
theorem exec_bind {r : Routine S ω α} {rest : Program S (Option α × ω)}
    (first : Program.Exec world (r.on object) s rest t) (f : α → Routine S ω β) :
    ∃ rest', Program.Exec world ((r >>= f).on object) s rest' t := by
  rw [on_bind]
  exact ⟨_, first.bind _⟩

theorem exec_attempt {r : Routine S ω α} {rest : Program S (Option α × ω)}
    (part : Program.Exec world (r.on object) s rest t) :
    ∃ rest', Program.Exec world ((attempt r).on object) s rest' t := by
  rw [on_attempt]
  exact ⟨_, part.bind _⟩

end Run

end Routine

end Interaction
