import PostQuantumUav.Library.Interaction.Routine

/-!
# Routines with one outcome

`Computes` describes a routine whose result and final world do not depend on the
answers that its calls receive. The object is only followed up to a relation: what the
relation leaves open, such as measured durations, may differ from run to run, both
before the routine and after it.

Because the relation is the same on both sides, two such routines compose without a
word about what is left open.
-/

namespace Interaction.Routine

variable {S : Signature} {ω σ α β ι : Type} (world : World S σ) (same : ω → ω → Prop)

/-- From every object like `object`, the routine finishes with `a`, an object like `object'`
and the world `t`. -/
def Computes (r : Routine S ω α) (object : ω) (s : σ) (a : α) (object' : ω) (t : σ) : Prop :=
  ∀ first, same object first → Ensures world (fun _ => True)
    (fun result last u => result = some a ∧ same object' last ∧ u = t) r first s

variable {world} {same} {object object' object'' : ω} {s t u : σ} {a : α} {b : β}

theorem computes_pure (a : α) : Computes world same (pure a) object s a object s :=
  fun _ like => ⟨rfl, like, rfl⟩

/-- A sequence whose second part has several outcomes. -/
theorem Computes.ensures {r : Routine S ω α} {f : α → Routine S ω β}
    {post : Option β → ω → σ → Prop} {start : ω}
    (first : Computes world same r object s a object' t) (like : same object start)
    (second : ∀ middle, same object' middle →
      Ensures world (fun _ => True) post (f a) middle t) :
    Ensures world (fun _ => True) post (r >>= f) start s := by
  refine (first start like).bind ?_ ?_
  · rintro middle v ⟨none, _⟩
    cases none
  · rintro x middle v ⟨value, like, rfl⟩
    cases Option.some.inj value
    exact second middle like

/-- A sequence, where the second part starts from what the first one computes. -/
theorem Computes.bind {r : Routine S ω α} {f : α → Routine S ω β}
    (first : Computes world same r object s a object' t)
    (second : Computes world same (f a) object' t b object'' u) :
    Computes world same (r >>= f) object s b object'' u :=
  fun _ like => first.ensures like second

/-- A call with one possible answer. -/
theorem computes_perform {c : S.Call} {a : S.Answer c}
    (answered : ∀ x v, world s ⟨c, x⟩ v → x = a ∧ v = t) :
    Computes world same (perform c) object s a object t := by
  intro start like x v step
  obtain ⟨rfl, rfl⟩ := answered x v step
  exact ⟨trivial, rfl, like, rfl⟩

/-- A call first: every answer leads to the same outcome. -/
theorem Computes.perform {c : S.Call} {f : S.Answer c → Routine S ω β}
    (answered : ∀ x v, world s ⟨c, x⟩ v → Computes world same (f x) object v b object' t) :
    Computes world same (Routine.perform c >>= f) object s b object' t := by
  intro start like
  refine Ensures.perform fun x v step => ?_
  exact ⟨trivial, answered x v step start like⟩

theorem Computes.attempt {r : Routine S ω α} (h : Computes world same r object s a object' t) :
    Computes world same (Routine.attempt r) object s (some a) object' t := by
  intro start like
  refine ensures_attempt.mpr ((h start like).mono ?_)
  rintro result last u ⟨rfl, rest⟩
  exact ⟨rfl, rest⟩

theorem Computes.orFail {r : Routine S ω (Option α)}
    (h : Computes world same r object s (some a) object' t) :
    Computes world same (Routine.orFail r) object s a object' t :=
  h.bind (computes_pure a)

/-- The object is read; what follows works for every object like the one followed. -/
theorem Computes.get {f : ω → Routine S ω β}
    (next : ∀ x, same object x → Computes world same (f x) object s b object' t) :
    Computes world same (get >>= f) object s b object' t := by
  intro start like
  rw [ensures_bind, ensures_get]
  exact next start like start like

/-- The object is changed. -/
theorem computes_modify {f : ω → ω} (changed : ∀ x, same object x → same object' (f x)) :
    Computes world same (modify f) object s .unit object' s :=
  fun start like => ⟨rfl, changed start like, rfl⟩

theorem computes_guard {c : Prop} [Decidable c] (holds : c) :
    Computes world same (guard c) object s () object s := by
  rw [guard, if_pos holds]
  exact computes_pure ()

theorem Computes.check {r : Routine S ω Bool} (h : Computes world same r object s true object' t) :
    Computes world same (Routine.check r) object s () object' t :=
  h.bind (computes_guard rfl)

section Reaches

variable (world) (same)

/-- The routine finishes in one world with an object like `object'`; of its value only a property
is known. -/
def Reaches (r : Routine S ω α) (object : ω) (s : σ) (values : α → Prop) (object' : ω) (t : σ) :
    Prop :=
  ∀ first, same object first → Ensures world (fun _ => True)
    (fun result last u => ∃ a, result = some a ∧ values a ∧ same object' last ∧ u = t) r first s

variable {world} {same} {values : α → Prop}

theorem Computes.reaches {r : Routine S ω α} (h : Computes world same r object s a object' t)
    (is : values a) : Reaches world same r object s values object' t := by
  intro first like
  refine (h first like).mono ?_
  rintro result last u ⟨rfl, rest⟩
  exact ⟨a, rfl, is, rest⟩

/-- A sequence whose second part has several outcomes. -/
theorem Reaches.ensures {r : Routine S ω α} {f : α → Routine S ω β}
    {post : Option β → ω → σ → Prop} {start : ω}
    (first : Reaches world same r object s values object' t) (like : same object start)
    (second : ∀ a, values a → ∀ middle, same object' middle →
      Ensures world (fun _ => True) post (f a) middle t) :
    Ensures world (fun _ => True) post (r >>= f) start s := by
  refine (first start like).bind ?_ ?_
  · rintro middle v ⟨_, none, _⟩
    cases none
  · rintro x middle v ⟨a, value, is, like, rfl⟩
    cases Option.some.inj value
    exact second x is middle like

/-- A sequence that computes one value from every value of its first part. -/
theorem Reaches.bind {r : Routine S ω α} {f : α → Routine S ω β}
    (first : Reaches world same r object s values object' t)
    (second : ∀ a, values a → Computes world same (f a) object' t b object'' u) :
    Computes world same (r >>= f) object s b object'' u :=
  fun _ like => first.ensures like second

theorem Computes.bindReaches {r : Routine S ω α} {f : α → Routine S ω β} {values : β → Prop}
    (first : Computes world same r object s a object' t)
    (second : Reaches world same (f a) object' t values object'' u) :
    Reaches world same (r >>= f) object s values object'' u :=
  fun _ like => first.ensures like second

theorem Reaches.perform {c : S.Call} {f : S.Answer c → Routine S ω β} {values : β → Prop}
    (answered : ∀ x v, world s ⟨c, x⟩ v → Reaches world same (f x) object v values object' t) :
    Reaches world same (Routine.perform c >>= f) object s values object' t := by
  intro start like
  refine Ensures.perform fun x v step => ?_
  exact ⟨trivial, answered x v step start like⟩

theorem Reaches.get {f : ω → Routine S ω β} {values : β → Prop}
    (next : ∀ x, same object x → Reaches world same (f x) object s values object' t) :
    Reaches world same (get >>= f) object s values object' t := by
  intro start like
  rw [ensures_bind, ensures_get]
  exact next start like start like

end Reaches

/-- A loop whose rounds each compute a value computes the ordinary fold. -/
theorem computes_foldlM {f : β → ι → Routine S ω β} {g : β → ι → β} (items : List ι) (init : β)
    (round : ∀ x, ∀ i ∈ items, Computes world same (f x i) object s (g x i) object s) :
    Computes world same (items.foldlM f init) object s (items.foldl g init) object s := by
  induction items generalizing init with
  | nil => exact computes_pure init
  | cons i rest ih =>
      rw [List.foldlM_cons, List.foldl_cons]
      refine (round init i List.mem_cons_self).bind ?_
      exact ih (g init i) fun x j later => round x j (List.mem_cons_of_mem i later)

end Interaction.Routine
