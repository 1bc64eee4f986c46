import PostQuantumUav.Puav.Trace.Initiator
import PostQuantumUav.Puav.Trace.Responder
import PostQuantumUav.Puav.Trace.SingleUse

/-!
# Histories of two devices

Any number of sessions of an initiator and of a responder, in any order of their steps:
each session is a run of `runInitiatorSession` or `runResponderOnce`, which may stop
anywhere, and all answers are open. Sessions of one device that follow each other differ
from concurrent ones only in the objects that they start from, and these are arbitrary up
to the configuration and the record of the peer.

The reasons of a session's events are among its own earlier events.
-/

namespace Puav.ProposedUavProtocol

open Interaction Cell Buffer

/-- A session by its role and a number. -/
abbrev Session := Role × Nat

abbrev History (α κ : Type) := List (Session × Step α κ)

/-- A signature that a session accepts under a record was produced before, by a session of the
device that the record belongs to. -/
def Unforgeable {α κ : Type} (signer : Role) (record : PeerPublicRecord)
    (history : History α κ) : Prop :=
  ∀ front back session q message signature path,
    history = front ++ (session, verifies q message signature record path) :: back →
      ∃ n q' runtimeSeed signature', ((signer, n), signs q' message runtimeSeed signature') ∈ front

/-- No two strings that were hashed have the same hash. -/
def CollisionFree {α κ : Type} (history : History α κ) : Prop :=
  ∀ session session' data data' hash, (session, hashes data hash) ∈ history →
    (session', hashes data' hash) ∈ history → data = data'

/-- The sessions of a device drew different nonces. -/
def FreshNonces {α κ : Type} (role : Role) (history : History α κ) : Prop :=
  ∀ n n' nonce, ((role, n), draws nonce) ∈ history → ((role, n'), draws nonce) ∈ history → n = n'

section Prefix

variable {α κ : Type} {front back : History α κ} {role : Role}

theorem Unforgeable.before {record : PeerPublicRecord}
    (h : Unforgeable role record (front ++ back)) : Unforgeable role record front := by
  intro first rest session q message signature path split
  exact h first (rest ++ back) session q message signature path (by
    rw [split, List.append_assoc, List.cons_append])

theorem CollisionFree.before (h : CollisionFree (front ++ back)) : CollisionFree front :=
  fun session session' data data' hash mem mem' => h session session' data data' hash
    (List.mem_append_left _ mem) (List.mem_append_left _ mem')

theorem FreshNonces.before (h : FreshNonces role (front ++ back)) : FreshNonces role front :=
  fun n n' nonce mem mem' => h n n' nonce (List.mem_append_left _ mem)
    (List.mem_append_left _ mem')

end Prefix

/-- The devices of all sessions of one initiator and one responder. -/
structure Network (α κ : Type) where
  initiator : NodeConfig
  responder : NodeConfig
  /-- What the initiator holds of the responder. -/
  responderRecord : PeerPublicRecord
  /-- What the responder holds of the initiator. -/
  initiatorRecord : PeerPublicRecord
  start : Session → ProposedUavProtocol α κ
  initiates : ∀ n, Configured initiator responderRecord (start (.initiator, n))
  responds : ∀ n, Configured responder initiatorRecord (start (.responder, n))

namespace Network

variable {α κ : Type} [Cell α] [DecidableEq α]

/-- The program of a session. -/
def program (network : Network α κ) :
    Session → Program (calls α κ) (Option (View α) × ProposedUavProtocol α κ)
  | (.initiator, n) => runInitiatorSession.on (network.start (.initiator, n))
  | (.responder, n) => runResponderOnce.on (network.start (.responder, n))

/-- What may have happened so far. -/
def Happens (network : Network α κ) (history : History α κ) : Prop :=
  Interleaved network.program history

variable {network : Network α κ} {history front back : History α κ} {n : Nat}

theorem Happens.before (h : network.Happens (front ++ back)) : network.Happens front :=
  Interleaved.front h

theorem Happens.initiatorReason (h : network.Happens history) {e : Step α κ}
    (split : history = front ++ ((.initiator, n), e) :: back) :
    InitiatorReason network.initiator network.responderRecord (own (.initiator, n) front) e := by
  have each : ∀ t, (network.program (.initiator, n)).Traces t →
      Reasoned (InitiatorReason network.initiator network.responderRecord) t :=
    fun t traces => (emits_runInitiatorSession (network.initiates n)).traces traces
  exact Interleaved.reasoned h each split

theorem Happens.responderReason (h : network.Happens history) {e : Step α κ}
    (split : history = front ++ ((.responder, n), e) :: back) :
    ResponderReason network.responder network.initiatorRecord (own (.responder, n) front) e := by
  have each : ∀ t, (network.program (.responder, n)).Traces t →
      Reasoned (ResponderReason network.responder network.initiatorRecord) t :=
    fun t traces => (emits_runResponderOnce (network.responds n)).traces traces
  exact Interleaved.reasoned h each split

/-- What a session of the responder has done that derived the keys of a view. -/
theorem Happens.keyed (h : network.Happens history) {view : View α}
    (noted : ((.responder, n), notes .keysDerived view) ∈ history) :
    Keyed network.responder network.initiatorRecord (own (.responder, n) history) view := by
  obtain ⟨front, back, split⟩ := List.append_of_mem noted
  have keyed : Keyed _ _ _ view := h.responderReason split
  exact keyed.mono (own_mono ⟨_, split.symm⟩)

/-- What a session of the initiator has done that accepted tau_B for a view. -/
theorem Happens.confirmed (h : network.Happens history) {view : View α}
    (noted : ((.initiator, n), notes .tauBVerified view) ∈ history) :
    Confirmed network.initiator network.responderRecord (own (.initiator, n) history) view := by
  obtain ⟨front, back, split⟩ := List.append_of_mem noted
  have confirmed : Confirmed _ _ _ view := h.initiatorReason split
  exact confirmed.mono (own_mono ⟨_, split.symm⟩)

/-- A session uses one index. -/
theorem Happens.uses (h : network.Happens history) (session : Session) :
    Uses 1 1 (own session history) := by
  obtain ⟨role, n⟩ := session
  cases role with
  | initiator => exact uses_runInitiatorSession (h (.initiator, n))
  | responder => exact uses_runResponderOnce (h (.responder, n))

end Network

end Puav.ProposedUavProtocol
