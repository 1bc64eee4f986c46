import PostQuantumUav.Library.Interaction.Parts
import PostQuantumUav.Puav.ProposedUavProtocol

/-!
# Experiments

`runInitiatorExperiments` and the responder's part of `loop`: sessions one after the other,
with pauses between them. Whether a session succeeds does not stop either side; the
initiator counts its successes.

The loop of the initiator is unrolled a given number of times, and its result tells whether
it has ended by then. The responder's one is called so many times.
-/

namespace Puav.Experiment

open Interaction

variable {α κ : Type} [Cell α] [DecidableEq α]

inductive Call (α κ : Type) where
  | method (c : ProposedUavProtocol.Call α κ)
  | delay (ms : UInt32)

def calls (α κ : Type) : Signature where
  Call := Call α κ
  Answer
    | .method c => (ProposedUavProtocol.calls α κ).Answer c
    | .delay _ => Unit

abbrev Method (α κ β : Type) := Routine (calls α κ) (ProposedUavProtocol α κ) β

/-- The protocol's own calls. -/
def methods : Embedding (ProposedUavProtocol.calls α κ) (calls α κ) where
  call := .method
  answer _ a := a

/-- The pause between two sessions, or the one before the first. -/
abbrev delay (ms : UInt32) : Method α κ Unit := @Routine.perform (calls α κ) _ (.delay ms)

/-- The loop of `runInitiatorExperiments` from `run` on, with the successes so far; nothing when it
goes on after so many rounds. -/
def experimentLoop (numberOfSessions : UInt32) : Nat → UInt32 → UInt32 → Method α κ (Option UInt32)
  | 0, _, _ => pure none
  | rounds + 1, run, successful =>
      if run ≤ numberOfSessions then do
        let view ← Routine.attempt (Routine.embed methods ProposedUavProtocol.runInitiatorSession)
        delay 750
        experimentLoop numberOfSessions rounds (run + 1)
          (if view.isSome then successful + 1 else successful)
      else pure (some successful)

def runInitiatorExperiments (rounds : Nat) : Method α κ (Option UInt32) := do
  delay 5000
  let protocol ← get
  experimentLoop protocol.config.numberOfSessions rounds 1 0

/-- `loop` of a responder that is ready, so many times. -/
def responderLoop : Nat → Method α κ Unit
  | 0 => pure ()
  | times + 1 => do
      let _ ← Routine.attempt (Routine.embed methods ProposedUavProtocol.runResponderOnce)
      delay 1
      responderLoop times

end Puav.Experiment
