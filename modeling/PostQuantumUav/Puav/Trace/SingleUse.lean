import PostQuantumUav.Library.Interaction.Trace
import PostQuantumUav.Puav.OneTimeIndices

/-!
# One index for each session

A trace of a session of either role has at most one reservation and at most one signature,
whatever the answers are.
-/

namespace Puav.ProposedUavProtocol

open Interaction Cell Buffer

variable {α κ : Type}

namespace Call

/-- A write of the stored counter. -/
def reserves : Call α κ → Bool
  | .putUInt _ => true
  | _ => false

def signs : Call α κ → Bool
  | .sign _ _ _ => true
  | _ => false

theorem not_indexed {c : Call α κ} (other : ¬c.Indexed) : c.reserves = false ∧ c.signs = false := by
  cases c with
  | putUInt _ => exact absurd trivial other
  | sign _ _ _ => exact absurd trivial other
  | _ => exact ⟨rfl, rfl⟩

end Call

/-- How many reservations a trace has. -/
def reservations (t : List (Event (calls α κ))) : Nat := t.countP fun e => e.call.reserves

def signatures (t : List (Event (calls α κ))) : Nat := t.countP fun e => e.call.signs

theorem reservations_snoc (t : List (Event (calls α κ))) (e : Event (calls α κ)) :
    reservations (t ++ [e]) = reservations t + if e.call.reserves then 1 else 0 := by
  rw [reservations, List.countP_append, List.countP_singleton]
  rfl

theorem signatures_snoc (t : List (Event (calls α κ))) (e : Event (calls α κ)) :
    signatures (t ++ [e]) = signatures t + if e.call.signs then 1 else 0 := by
  rw [signatures, List.countP_append, List.countP_singleton]
  rfl

/-- At most as many reservations and signatures. -/
def Uses (reserved signed : Nat) (t : List (Event (calls α κ))) : Prop :=
  reservations t ≤ reserved ∧ signatures t ≤ signed

theorem Uses.mono {reserved signed reserved' signed' : Nat} {t : List (Event (calls α κ))}
    (h : Uses reserved signed t) (more : reserved ≤ reserved') (more' : signed ≤ signed') :
    Uses reserved' signed' t :=
  ⟨Nat.le_trans h.1 more, Nat.le_trans h.2 more'⟩

theorem Uses.snoc {reserved signed : Nat} {t : List (Event (calls α κ))}
    (h : Uses reserved signed t) (e : Event (calls α κ)) :
    Uses (reserved + if e.call.reserves then 1 else 0) (signed + if e.call.signs then 1 else 0)
      (t ++ [e]) := by
  constructor
  · rw [reservations_snoc]
    exact Nat.add_le_add_right h.1 _
  · rw [signatures_snoc]
    exact Nat.add_le_add_right h.2 _

variable {config : NodeConfig}

/-- Other calls use nothing. -/
theorem unindexed_uses (reserved signed : Nat) :
    Routine.Keeps (unindexed config : Discipline (calls α κ) _) recorded
      (Uses reserved signed) := by
  intro t c a t' other now step
  change t' = _ at step
  subst step
  obtain ⟨reserves, signs⟩ := Call.not_indexed other
  have longer := now.snoc ⟨c, a⟩
  rw [reserves, signs] at longer
  exact ⟨trivial, longer⟩

theorem ensures_reserveQ_uses {object : ProposedUavProtocol α κ} {t : List (Event (calls α κ))}
    (kept : object.config = config) (now : Uses 0 0 t) :
    Routine.Ensures recorded (Uses 1 1) (fun result object' t' => object'.config = config ∧
      (result = none → Uses 1 1 t') ∧ ∀ q : UInt32, result = some q → Uses 1 0 t')
      reserveQ object t := by
  rw [reserveQ, Routine.ensures_bind, Routine.ensures_get]
  refine Routine.Ensures.perform fun (nextQ : UInt32) t₁ step => ?_
  change t₁ = _ at step
  subst step
  have read : Uses 0 0 (t ++ [⟨.getUInt object.config.firstQ, nextQ⟩]) := now.snoc _
  refine ⟨read.mono (Nat.zero_le _) (Nat.zero_le _), ?_⟩
  rw [Routine.ensures_bind, Routine.ensures_guard]
  refine ⟨fun _ => ?_, fun _ => ⟨kept, fun _ => read.mono (Nat.zero_le _) (Nat.zero_le _), ?_⟩⟩
  · refine Routine.Ensures.perform fun (stored : Nat) t₂ step => ?_
    change t₂ = _ at step
    subst step
    have written : Uses 1 0 _ := read.snoc ⟨.putUInt (nextQ + 1), stored⟩
    refine ⟨written.mono (Nat.le_refl _) (Nat.zero_le _), ?_⟩
    rw [Routine.ensures_bind, Routine.ensures_guard]
    refine ⟨fun _ => ⟨kept, ?_, fun _ _ => written⟩, fun _ => ⟨kept, fun _ => ?_, ?_⟩⟩
    · rintro ⟨⟩
    · exact written.mono (Nat.le_refl _) (Nat.zero_le _)
    · rintro _ ⟨⟩
  · rintro _ ⟨⟩

variable {object : ProposedUavProtocol α κ} {t : List (Event (calls α κ))}

theorem uses_of_moves {β : Type} {r : Method α κ β}
    (moves : Routine.Moves (unindexed object.config) recorded (Uses 1 1) (Uses 1 1) (Uses 0 0)
      (Uses 1 1) (fun _ => True) r) (traces : (r.on object).Traces t) : Uses 1 1 t := by
  obtain ⟨rest, run⟩ := traces
  exact (run.ensures (moves object [] rfl ⟨Nat.le_refl _, Nat.le_refl _⟩)
    ⟨Nat.zero_le _, Nat.zero_le _⟩).1

variable [Cell α]

/-- The stages of a session by what has been used. -/
theorem stages_uses : Stages recorded (unindexed config : Discipline (calls α κ) _)
    (fun _ => True) (fun _ => True) (Uses 1 1) (Uses 0 0) (fun _ => Uses 1 0) (Uses 1 1) where
  frame := unindexed_frame
  seeds := obeys_timedRuntimeSeed unindexed_frame
  before_keeps := unindexed_uses 0 0
  reserved_keeps _ := unindexed_uses 1 0
  after_keeps := unindexed_uses 1 1
  after_of_before _ now := now.mono (Nat.zero_le _) (Nat.zero_le _)
  after_of_reserved _ _ now := now.mono (Nat.le_refl _) (Nat.zero_le _)
  always_of_after _ now := now
  reserves object t kept now := ensures_reserveQ_uses kept now
  signs q message runtimeSeed t a t' _ _ now step := by
    change t' = _ at step
    subst step
    exact ⟨now.snoc _, answers_true _ a⟩

variable [DecidableEq α]

/-- A session reserves at most one index and signs at most once. -/
theorem uses_runInitiatorSession
    (traces : ((runInitiatorSession : Method α κ _).on object).Traces t) : Uses 1 1 t :=
  uses_of_moves (stages_uses.moves_runInitiatorSession fun _ _ _ => id) traces

theorem uses_runResponderOnce
    (traces : ((runResponderOnce : Method α κ _).on object).Traces t) : Uses 1 1 t :=
  uses_of_moves (stages_uses.moves_runResponderOnce fun _ _ _ => id) traces

end Puav.ProposedUavProtocol
