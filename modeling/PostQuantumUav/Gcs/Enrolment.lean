import Mathlib.Logic.Relation
import PostQuantumUav.Gcs.LedgerServer
import PostQuantumUav.Puav.GcsLedgerClient

/-!
# A device enrols over a network that loses, repeats and delays

The network keeps every request that the device sent and every reply that the
server made, so each may arrive any number of times, late and in any order, or
never. Nothing is forged: the server receives what the device sent and packets
of other devices, and only its replies reach the device from its address.

A reply carries no request number. The world is parametrized by which replies
may be delivered while the device waits for a given request to be acknowledged.
-/

namespace Gcs

open Interaction Puav Cell Buffer

/-- A reply of the server and the request that it answers. -/
structure Reply where
  bytes : Bytes
  request : Bytes

/-- The server's tables, the device's datagrams so far, and its last request. -/
structure Net where
  ledger : Ledger
  requests : List Bytes
  replies : List Reply
  awaited : Bytes

namespace Net

/-- A network that holds no datagram of the device. -/
def initial (ledger : Ledger) : Net := ⟨ledger, [], [], []⟩

section World

variable (hmac : Bytes → Tag) (client : GcsLedgerClient)

/-- The server takes a packet from the network and replies. -/
inductive ServerStep : Net → Net → Prop where
  | own {net : Net} {request reply : Bytes} {ledger : Ledger} (sent : request ∈ net.requests)
      (turn : handle hmac net.ledger request = .replied ledger reply) :
      ServerStep net { net with ledger := ledger, replies := ⟨reply, request⟩ :: net.replies }
  | other {net : Net} {packet reply : Bytes} {ledger : Ledger}
      (foreign : slice packet 8 idBytes ≠ client.deviceId.toList)
      (turn : handle hmac net.ledger packet = .replied ledger reply) :
      ServerStep net { net with ledger := ledger }

/-- What the device's packets from the server's address can be. -/
def Arrives (delivers : Bytes → Reply → Prop) (net : Net) (packet : Transport.Packet) : Prop :=
  packet.source = client.gcs →
    ∃ reply ∈ net.replies, reply.bytes = packet.bytes ∧ delivers net.awaited reply

/-- How the device's calls are answered. -/
inductive Answered (delivers : Bytes → Reply → Prop) (net : Net) :
    Event GcsLedgerClient.calls → Net → Prop where
  | discardPending : Answered delivers net ⟨.discardPending, ()⟩ net
  | hmacSha256 (data : Bytes) (tag : Option Tag) (honest : ∀ t, tag = some t → t = hmac data) :
      Answered delivers net ⟨.hmacSha256 data, tag⟩ net
  | sendPacket (request : Bytes) (sent : Bool) :
      Answered delivers net ⟨.sendPacket request, sent⟩
        { net with requests := request :: net.requests, awaited := request }
  | pollRounds (rounds : Nat) : Answered delivers net ⟨.pollRounds, rounds⟩ net
  | parsePacket (packet : Option Transport.Packet)
      (arrives : ∀ p, packet = some p → Arrives client delivers net p) :
      Answered delivers net ⟨.parsePacket, packet⟩ net
  | espTimer (now : UInt64) : Answered delivers net ⟨.espTimer, now⟩ net

/-- The server works any number of turns before each call of the device is answered. -/
def world (delivers : Bytes → Reply → Prop) : World GcsLedgerClient.calls Net :=
  fun net event net' => ∃ before, Relation.ReflTransGen (ServerStep hmac client) net before ∧
    Answered hmac client delivers before event net'

variable {hmac client}

/-- The replies in the network stay there while the server works. -/
theorem replies_subset {net net' : Net}
    (steps : Relation.ReflTransGen (ServerStep hmac client) net net') :
    net.replies ⊆ net'.replies ∧ net'.awaited = net.awaited := by
  induction steps with
  | refl => exact ⟨fun _ mem => mem, rfl⟩
  | tail _ step ih =>
      cases step with
      | own sent turn => exact ⟨fun _ mem => List.mem_cons_of_mem _ (ih.1 mem), ih.2⟩
      | other foreign turn => exact ih

end World

/-- Every reply may arrive at any time. -/
def anyReply (_ : Bytes) (_ : Reply) : Prop := True

/-- Every reply may arrive at any time, but for the acknowledgement of a root while the
device waits for that of path zero of the same version. -/
def noRootForPathZero (awaited : Bytes) (reply : Reply) : Prop :=
  ¬ (readByte awaited 4 = opEnrollPath ∧ u32be awaited 44 = 0 ∧
    readByte reply.request 4 = opEnrollRoot ∧ u32be reply.request 40 = u32be awaited 40)

theorem noRootForPathZero_of_root {awaited : Bytes} {reply : Reply}
    (op : readByte awaited 4 = opEnrollRoot) : noRootForPathZero awaited reply := fun confused =>
  absurd (op.symm.trans confused.1) (by decide)

theorem noRootForPathZero_of_path {awaited : Bytes} {reply : Reply}
    (op : readByte reply.request 4 = opEnrollPath) : noRootForPathZero awaited reply :=
  fun confused => absurd (op.symm.trans confused.2.2.1) (by decide)

end Net

end Gcs
