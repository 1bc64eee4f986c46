import PostQuantumUav.Apqe.FragmentedUdp
import PostQuantumUav.Puav.FragmentedUdp
import PostQuantumUav.Transport.Provenance

/-!
# When the two receivers deliver received bytes only

Both receivers complete a message by counting indices, so both leave a hole where
the payloads do not reach the announced length. The condition on the arrivals is
the same for both; only the datagrams that count as arrivals differ.
-/

namespace Transport

open Cell

/-- For every sequence of rounds: a call of either receiver delivers only bytes received
during the call exactly when the arrivals fill the message they complete. -/
theorem receivers_deliver_received_bytes_iff (expectedType : UInt8) (expectedSession : UInt32)
    (outputCapacity : Nat) (startMs timeoutMs : UInt32) (polls : List Poll) :
    (DeliversReceivedBytes (fun output => Puav.FragmentedUdp.receiveMessage expectedType
        expectedSession output outputCapacity startMs timeoutMs polls) ↔
      FilledWhenComplete (arrivals (Puav.FragmentedUdp.candidate expectedType expectedSession
        outputCapacity) startMs timeoutMs polls)) ∧
    (DeliversReceivedBytes (fun output => Apqe.FragmentedUdp.receiveMessage expectedType
        expectedSession output outputCapacity startMs timeoutMs polls) ↔
      FilledWhenComplete (arrivals (Apqe.FragmentedUdp.candidate expectedType expectedSession
        outputCapacity) startMs timeoutMs polls)) :=
  ⟨deliversReceivedBytes_iff (Puav.FragmentedUdp.receives _ _ _),
    deliversReceivedBytes_iff (Apqe.FragmentedUdp.receives _ _ _)⟩

/-- The only fragment of a three-byte message, with an empty payload. -/
def emptyFragment (magic : UInt16) : Packet where
  bytes := putU16 magic ++ [1, 0x10] ++ putU32 1 ++ putU16 3 ++ [0, 1] ++ putU16 0
  source := ⟨0, 4210⟩

/-- Both receivers answer true to an empty fragment and leave all three announced bytes
as the caller's buffer held them. -/
theorem emptyFragment_delivers_old_bytes :
    ¬ DeliversReceivedBytes (fun output => Puav.FragmentedUdp.receiveMessage 0x10 0 output 86
      0 1000 [⟨0, some (emptyFragment Puav.fragmentMagic)⟩]) ∧
    ¬ DeliversReceivedBytes (fun output => Apqe.FragmentedUdp.receiveMessage 0x10 0 output 3104
      0 1000 [⟨0, some (emptyFragment Apqe.fragmentMagic)⟩]) := by
  refine ⟨fun delivers => ?_, fun delivers => ?_⟩
  · obtain ⟨s', rest', delivered, same⟩ :=
      delivers.independent (fun _ => 0) (fun _ => 1) _ _ _ rfl
    cases delivered
    exact absurd (same 0 (by decide)) (by decide)
  · obtain ⟨s', rest', delivered, same⟩ :=
      delivers.independent (fun _ => 0) (fun _ => 1) _ _ _ rfl
    cases delivered
    exact absurd (same 0 (by decide)) (by decide)

end Transport
