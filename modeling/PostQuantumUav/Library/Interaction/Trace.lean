import Mathlib.Data.List.Induction
import Mathlib.Data.List.Nodup
import Mathlib.Data.List.Perm.Subperm
import PostQuantumUav.Library.Interaction.Routine

/-!
# Traces

In the world that only records, every answer is possible and the state is the list of
the events so far. A partial execution in it is a trace of the program: what an
observer may see of it, whatever answers its calls.

An event of a trace may need a reason in the events before it. A routine that emits only
events with reasons satisfies a postcondition on what it returns and on the whole trace
by then. Events stay in the trace, so that a fact about the presence of an event never
has to be carried along.
-/

namespace Interaction

variable {S : Signature} {ω α β δ ε ι : Type}

/-- Every answer is possible, and the event is kept. -/
def recorded : World S (List (Event S)) := fun t e t' => t' = t ++ [e]

/-- The program may have made these calls so far, with these answers. -/
def Program.Traces (p : Program S α) (t : List (Event S)) : Prop :=
  ∃ q, Program.Exec recorded p [] q t

/-- Every event has its reason in the events before it. -/
def Reasoned (reason : List ε → ε → Prop) (t : List ε) : Prop :=
  ∀ front e back, t = front ++ e :: back → reason front e

section Reasons

variable {reason : List ε → ε → Prop} {t : List ε}

theorem reasoned_nil : Reasoned reason [] := by
  intro front e back split
  exact absurd split.symm (List.append_ne_nil_of_right_ne_nil _ (List.cons_ne_nil _ _))

theorem Reasoned.snoc {e : ε} (h : Reasoned reason t) (now : reason t e) :
    Reasoned reason (t ++ [e]) := by
  intro front e' back split
  rcases List.eq_nil_or_concat back with rfl | ⟨back, last, rfl⟩
  · obtain ⟨rfl, same⟩ := List.append_inj' split rfl
    cases same
    exact now
  · rw [List.concat_eq_append, ← List.cons_append, ← List.append_assoc] at split
    obtain ⟨rfl, -⟩ := List.append_inj' split rfl
    exact h front e' back rfl

/-- Events that each have their reason before all of them; more events do not invalidate one. -/
theorem Reasoned.append {more : List ε} (h : Reasoned reason t)
    (mono : ∀ {t t' e}, t <+: t' → reason t e → reason t' e) (each : ∀ e ∈ more, reason t e) :
    Reasoned reason (t ++ more) := by
  induction more using List.reverseRecOn with
  | nil => rwa [List.append_nil]
  | append_singleton more e ih =>
      rw [← List.append_assoc]
      refine (ih fun e' mem => each e' (List.mem_append_left _ mem)).snoc ?_
      exact mono (List.prefix_append _ _) (each e (List.mem_append_right _ List.mem_cons_self))

end Reasons

section Executions

variable {t : List (Event S)}

/-- An execution in the recording world only adds events. -/
theorem Program.Exec.prefix {p q : Program S α} {t' : List (Event S)}
    (h : Program.Exec recorded p t q t') : t <+: t' := by
  induction h with
  | stop p t => exact List.prefix_refl t
  | step answered _ ih =>
      rw [answered] at ih
      exact (List.prefix_append _ _).trans ih

/-- A trace may stop earlier. -/
theorem Program.Exec.front {p q : Program S α} {t t' more : List (Event S)}
    (h : Program.Exec recorded p t q t') (split : t' = t ++ more) {front back : List (Event S)}
    (parts : more = front ++ back) : ∃ q', Program.Exec recorded p t q' (t ++ front) := by
  induction h generalizing front more with
  | stop p t =>
      obtain rfl : more = [] := List.append_cancel_left (split.symm.trans (List.append_nil t).symm)
      obtain ⟨rfl, -⟩ := List.append_eq_nil_iff.mp parts.symm
      rw [List.append_nil]
      exact ⟨p, .stop p t⟩
  | @step c next t s' u a q answered rest ih =>
      change s' = _ at answered
      subst answered
      cases front with
      | nil =>
          rw [List.append_nil]
          exact ⟨.call c next, .stop _ t⟩
      | cons e front =>
          obtain ⟨later, longer⟩ := rest.prefix
          rw [← longer, parts, List.append_assoc] at split
          obtain ⟨rfl, same⟩ := List.cons.inj (List.append_cancel_left split)
          obtain ⟨q', run⟩ := ih longer.symm same
          rw [List.append_assoc] at run
          exact ⟨q', .step (show recorded t ⟨c, a⟩ _ from rfl) run⟩

theorem Program.Traces.front {p : Program S α} {front back : List (Event S)}
    (h : p.Traces (front ++ back)) : p.Traces front := by
  obtain ⟨q, run⟩ := h
  exact run.front (List.nil_append _).symm rfl

/-- The events of an execution in a world that notes some of them. -/
theorem Program.Exec.events {world : World S (List δ)} {allowed : Event S → Prop}
    {note : Event S → Option δ}
    (noted : ∀ s e s', world s e s' → allowed e ∧ s' = s ++ (note e).toList) {p q : Program S α}
    {s s' : List δ} (h : Program.Exec world p s q s') :
    ∃ t, (∀ before, Program.Exec recorded p before q (before ++ t)) ∧ (∀ e ∈ t, allowed e) ∧
      s' = s ++ t.filterMap note := by
  induction h with
  | stop p s =>
      refine ⟨[], fun before => ?_, fun e mem => absurd mem List.not_mem_nil,
        (List.append_nil s).symm⟩
      rw [List.append_nil]
      exact .stop p before
  | @step c next s v u a q answered rest ih =>
      obtain ⟨t, run, each, rfl⟩ := ih
      obtain ⟨first, rfl⟩ := noted s _ v answered
      refine ⟨⟨c, a⟩ :: t, fun before => ?_, List.forall_mem_cons.mpr ⟨first, each⟩, ?_⟩
      · have later := run (before ++ [⟨c, a⟩])
        rw [List.append_assoc] at later
        exact .step (show recorded before ⟨c, a⟩ _ from rfl) later
      · rw [List.append_assoc, List.filterMap_cons]
        cases note ⟨c, a⟩ <;> rfl

end Executions

namespace Routine

/-- The routine emits events with reasons, and what it returns satisfies the postcondition. -/
def Emits (reason : List (Event S) → Event S → Prop) (post : α → ω → List (Event S) → Prop)
    (r : Routine S ω α) (object : ω) (t : List (Event S)) : Prop :=
  Reasoned reason t → Ensures recorded (Reasoned reason) (fun result object' t' =>
    Reasoned reason t' ∧ t <+: t' ∧ ∀ a, result = some a → post a object' t') r object t

section Emits

variable {reason : List (Event S) → Event S → Prop} {object : ω} {t : List (Event S)}
  {post : β → ω → List (Event S) → Prop}

theorem emits_pure {b : β} (h : post b object t) : Emits reason post (pure b) object t := by
  intro reasoned
  refine ⟨reasoned, List.prefix_refl t, fun a returned => ?_⟩
  cases Option.some.inj returned
  exact h

theorem emits_failure : Emits reason post failure object t := by
  intro reasoned
  refine ⟨reasoned, List.prefix_refl t, ?_⟩
  rintro _ ⟨⟩

/-- A sequence: the second part starts from a longer trace and what the first one returned. -/
theorem Emits.bind {middle : α → ω → List (Event S) → Prop} {r : Routine S ω α}
    {f : α → Routine S ω β} (first : Emits reason middle r object t)
    (second : ∀ a object' t', t <+: t' → middle a object' t' → Emits reason post (f a) object' t') :
    Emits reason post (r >>= f) object t := by
  intro reasoned
  refine (first reasoned).bind ?_ ?_
  · rintro object' t' ⟨reasoned', more, -⟩
    refine ⟨reasoned', more, ?_⟩
    rintro _ ⟨⟩
  · rintro a object' t' ⟨reasoned', more, holds⟩
    refine (second a object' t' more (holds a rfl) reasoned').mono ?_
    rintro result object'' t'' ⟨reasoned'', more', holds'⟩
    exact ⟨reasoned'', more.trans more', holds'⟩

theorem Emits.mono {post' : β → ω → List (Event S) → Prop} {r : Routine S ω β}
    (h : Emits reason post r object t)
    (imp : ∀ b object' t', t <+: t' → post b object' t' → post' b object' t') :
    Emits reason post' r object t := by
  intro reasoned
  refine (h reasoned).mono ?_
  rintro result object' t' ⟨reasoned', more, holds⟩
  exact ⟨reasoned', more, fun b returned => imp b object' t' more (holds b returned)⟩

theorem Emits.get {f : ω → Routine S ω β} (next : Emits reason post (f object) object t) :
    Emits reason post (get >>= f) object t := by
  intro reasoned
  rw [ensures_bind, ensures_get]
  exact next reasoned

theorem emits_modify {post : PUnit → ω → List (Event S) → Prop} {f : ω → ω}
    (h : post .unit (f object) t) : Emits reason post (modify f) object t :=
  fun reasoned => ⟨reasoned, List.prefix_refl t, fun _ _ => h⟩

theorem Emits.modify {f : ω → ω} {g : PUnit → Routine S ω β}
    (next : Emits reason post (g .unit) (f object) t) :
    Emits reason post (modify f >>= g) object t := by
  intro reasoned
  rw [ensures_bind, ensures_modify]
  exact next reasoned

theorem emits_guard {post : Unit → ω → List (Event S) → Prop} {c : Prop} [Decidable c]
    (h : c → post () object t) : Emits reason post (guard c) object t := by
  rw [guard]
  split
  · rename_i holds
    exact emits_pure (h holds)
  · exact emits_failure

/-- What follows a check may use its condition. -/
theorem Emits.guard {c : Prop} [Decidable c] {f : Unit → Routine S ω β}
    (next : c → Emits reason post (f ()) object t) :
    Emits reason post (guard c >>= f) object t := by
  intro reasoned
  rw [ensures_bind, ensures_guard]
  refine ⟨fun holds => next holds reasoned, fun _ => ⟨reasoned, List.prefix_refl t, ?_⟩⟩
  rintro _ ⟨⟩

/-- A call that has its reason. -/
theorem Emits.perform {c : S.Call} {f : S.Answer c → Routine S ω β} (now : ∀ a, reason t ⟨c, a⟩)
    (next : ∀ a, Emits reason post (f a) object (t ++ [⟨c, a⟩])) :
    Emits reason post (Routine.perform c >>= f) object t := by
  intro reasoned
  refine Ensures.perform fun a t' step => ?_
  change t' = _ at step
  subst step
  have longer := reasoned.snoc (now a)
  refine ⟨longer, (next a longer).mono ?_⟩
  rintro result object' t'' ⟨reasoned', more, holds⟩
  exact ⟨reasoned', (List.prefix_append _ _).trans more, holds⟩

theorem emits_perform {c : S.Call} {post : S.Answer c → ω → List (Event S) → Prop}
    (now : ∀ a, reason t ⟨c, a⟩) (h : ∀ a, post a object (t ++ [⟨c, a⟩])) :
    Emits reason post (Routine.perform c) object t := by
  rw [← bind_pure (Routine.perform c)]
  exact Emits.perform now fun a => emits_pure (h a)

theorem Emits.attempt {r : Routine S ω β} (h : Emits reason post r object t) :
    Emits reason (fun result object' t' => ∀ b, result = some b → post b object' t')
      (Routine.attempt r) object t := by
  intro reasoned
  refine ensures_attempt.mpr ((h reasoned).mono ?_)
  rintro result object' t' ⟨reasoned', more, holds⟩
  refine ⟨reasoned', more, ?_⟩
  rintro _ ⟨⟩
  exact holds

theorem Emits.orFail {r : Routine S ω (Option β)}
    (h : Emits reason (fun result object' t' => ∀ b, result = some b → post b object' t') r
      object t) : Emits reason post (Routine.orFail r) object t := by
  refine h.bind fun result object' t' _ holds => ?_
  cases result with
  | none => exact emits_failure
  | some b => exact emits_pure (holds b rfl)

/-- A value that may have been held before. -/
theorem Emits.held {held : Option α} {f : α → Routine S ω β}
    (next : ∀ a, held = some a → Emits reason post (f a) object t) :
    Emits reason post (Routine.orFail (pure held) >>= f) object t := by
  cases held with
  | none => exact emits_failure
  | some a => exact next a rfl

theorem Emits.check {post : Unit → ω → List (Event S) → Prop} {r : Routine S ω Bool}
    (h : Emits reason (fun ok object' t' => ok = true → post () object' t') r object t) :
    Emits reason post (Routine.check r) object t := by
  exact h.bind fun ok object' t' _ holds => emits_guard holds

/-- Every event of a trace has its reason. -/
theorem Emits.traces {r : Routine S ω β} (h : Emits reason post r object [])
    (traces : (r.on object).Traces t) : Reasoned reason t := by
  obtain ⟨rest, run⟩ := traces
  exact (run.ensures (h reasoned_nil) reasoned_nil).1

end Emits

end Routine

section Interleaving

variable [DecidableEq ι] {history : List (ι × Event S)} {i : ι}

/-- The events of one party in a history. -/
def own (i : ι) (history : List (ι × Event S)) : List (Event S) :=
  history.filterMap fun e => if e.1 = i then some e.2 else none

theorem own_append (front back : List (ι × Event S)) : own i (front ++ back) =
    own i front ++ own i back := List.filterMap_append

theorem own_mono {front : List (ι × Event S)} (more : front <+: history) :
    own i front <+: own i history := by
  obtain ⟨rest, rfl⟩ := more
  rw [own_append]
  exact List.prefix_append _ _

theorem own_cons_self (e : Event S) (rest : List (ι × Event S)) :
    own i ((i, e) :: rest) = e :: own i rest := by
  rw [own, List.filterMap_cons, if_pos rfl]
  rfl

/-- The events of one party, one after the other. -/
def turn (i : ι) (t : List (Event S)) : List (ι × Event S) := t.map fun e => (i, e)

@[simp] theorem own_turn_self (i : ι) (t : List (Event S)) : own i (turn i t) = t := by
  induction t with
  | nil => rfl
  | cons e t ih => exact (own_cons_self e (turn i t)).trans (congrArg _ ih)

theorem own_turn_other {j : ι} (other : j ≠ i) (t : List (Event S)) : own i (turn j t) = [] := by
  induction t with
  | nil => rfl
  | cons e t ih =>
      rw [turn, List.map_cons, own, List.filterMap_cons, if_neg other]
      exact ih

theorem mem_own {e : Event S} : e ∈ own i history ↔ (i, e) ∈ history := by
  rw [own, List.mem_filterMap]
  constructor
  · rintro ⟨⟨j, e'⟩, mem, found⟩
    split at found
    · rename_i same
      cases Option.some.inj found
      cases (same : j = i)
      exact mem
    · cases found
  · intro mem
    exact ⟨(i, e), mem, if_pos rfl⟩

/-- Two events of which there is at most one. -/
theorem eq_of_countP_le_one {p : Event S → Bool} {t : List (Event S)} {e e' : Event S}
    (once : t.countP p ≤ 1) (mem : e ∈ t) (is : p e = true) (mem' : e' ∈ t) (is' : p e' = true) :
    e = e' := by
  rw [List.countP_eq_length_filter] at once
  have kept : e ∈ t.filter p := List.mem_filter.mpr ⟨mem, is⟩
  have kept' : e' ∈ t.filter p := List.mem_filter.mpr ⟨mem', is'⟩
  cases found : t.filter p with
  | nil =>
      rw [found] at kept
      cases kept
  | cons first rest =>
      rw [found, List.length_cons] at once
      obtain rfl : rest = [] := List.eq_nil_of_length_eq_zero (by omega)
      rw [found] at kept kept'
      rw [List.mem_singleton.mp kept, List.mem_singleton.mp kept']

/-- A history in which no party does something twice, and every party that does it is matched to
an item of its own. -/
theorem countP_le_of_once {p : Event S → Bool} {relevant : ι → Bool} {items : List β}
    (once : ∀ i, relevant i = true → (own i history).countP p ≤ 1) {matched : ι → β → Prop}
    (found : ∀ i e, (i, e) ∈ history → relevant i = true → p e = true → ∃ b ∈ items, matched i b)
    (apart : ∀ i j b, matched i b → matched j b → i = j) :
      history.countP (fun e => relevant e.1 && p e.2) ≤ items.length := by
  let parties := (history.filter fun e => relevant e.1 && p e.2).map Prod.fst
  have doing : ∀ i ∈ parties, relevant i = true ∧ ∃ e, (i, e) ∈ history ∧ p e = true := by
    intro i mem
    obtain ⟨⟨j, e⟩, kept, rfl⟩ := List.mem_map.mp mem
    obtain ⟨inside, both⟩ := List.mem_filter.mp kept
    obtain ⟨is, does⟩ := Bool.and_eq_true_iff.mp both
    exact ⟨is, e, inside, does⟩
  have nodup : parties.Nodup := by
    refine List.nodup_iff_count_le_one.mpr fun i => ?_
    by_cases mem : i ∈ parties
    · refine Nat.le_trans (Nat.le_of_eq ?_) (once i (doing i mem).1)
      rw [List.count, List.countP_map, List.countP_filter, own, List.countP_filterMap]
      refine List.countP_congr fun e _ => ?_
      by_cases same : e.1 = i
      · simp [same, (doing i mem).1]
      · simp [same]
    · rw [List.count_eq_zero_of_not_mem mem]
      exact Nat.zero_le 1
  have item : ∀ i : {i // i ∈ parties}, ∃ b ∈ items, matched i b := by
    rintro ⟨i, mem⟩
    obtain ⟨is, e, there, does⟩ := doing i mem
    exact found i e there is does
  choose f inside matches_ using item
  have injective : Function.Injective f := by
    intro i j same
    exact Subtype.ext (apart i j (f i) (matches_ i) (same ▸ matches_ j))
  have within : parties.attach.map f ⊆ items := by
    intro b mem
    obtain ⟨i, -, rfl⟩ := List.mem_map.mp mem
    exact inside i
  have bound := (List.subperm_of_subset (nodup.attach.map injective) within).length_le
  rwa [List.length_map, List.length_attach, List.length_map, ← List.countP_eq_length_filter]
    at bound

/-- Parties that run programs side by side: each one's events are a trace of its program. -/
def Interleaved (programs : ι → Program S α) (history : List (ι × Event S)) : Prop :=
  ∀ i, (programs i).Traces (own i history)

theorem Interleaved.front {programs : ι → Program S α} {front back : List (ι × Event S)}
    (h : Interleaved programs (front ++ back)) : Interleaved programs front := by
  intro i
  have whole := h i
  rw [own_append] at whole
  exact whole.front

/-- The events of all parties have their reasons among the party's earlier events. -/
theorem Interleaved.reasoned {reason : List (Event S) → Event S → Prop}
    {programs : ι → Program S α} (h : Interleaved programs history)
    (each : ∀ t, (programs i).Traces t → Reasoned reason t) {e : Event S}
    {front back : List (ι × Event S)} (split : history = front ++ (i, e) :: back) :
    reason (own i front) e := by
  refine each _ (h i) (own i front) e (own i back) ?_
  rw [split, own_append, own_cons_self]

end Interleaving

end Interaction
