import Mathlib.Logic.Relation
import PostQuantumUav.Apqe.GatewayExchange

/-!
# Which request an answer belongs to

A board, its gateway and a network that keeps every datagram: each may arrive any
number of times, late and in any order, or never, and nothing is forged. The board
may lose power at any point and starts again with request number one.

An answer echoes the operation and the number of its request. It is attributed to
the right call as long as no earlier call of the board, before or after a restart,
used the same operation and number.
-/

namespace Apqe

open Interaction Cell Buffer FabricUdpClient

/-- A call of `transact` with the number that it uses. -/
structure Issued where
  op : UInt8
  requestId : UInt32
  slot : UInt16
  payload : Bytes

/-- What the gateway computed for a datagram that a call sent. -/
structure Answer where
  call : Nat
  request : Gateway.Request
  outcome : Gateway.Outcome

/-- The ledger, the board's calls so far in order, and the datagrams in the network with the
positions of their calls. -/
structure Net (κ : Type) where
  ledger : κ
  calls : List Issued
  requests : List (Nat × Bytes)
  answers : List Answer

namespace Net

section World

variable {κ : Type} (hmac : Bytes → Digest) (contract : World Gateway.calls κ)
variable (gateway : Transport.Endpoint)

/-- The gateway works on a datagram of the board, or the ledger changes on behalf of others. -/
inductive GatewayStep : Net κ → Net κ → Prop where
  | own {net : Net κ} {call : Nat} {packet : Bytes} {request : Gateway.Request}
      {outcome : Gateway.Outcome} {ledger : κ} (sent : (call, packet) ∈ net.requests)
      (parsed : Gateway.parseRequest hmac (packet.take gatewayMaxResponseBytes) = .ok request)
      (handled : Program.Exec contract (Gateway.handle request) net.ledger (.done outcome) ledger) :
      GatewayStep net { net with
        ledger := ledger, answers := ⟨call, request, outcome⟩ :: net.answers }
  | other {net : Net κ} (ledger : κ) : GatewayStep net { net with ledger := ledger }

/-- How the board's calls are answered. A datagram is marked with the call that is under way. -/
inductive Answered (net : Net κ) : Event FabricUdpClient.calls → Net κ → Prop where
  | discardPending : Answered net ⟨.discardPending, ()⟩ net
  | hmacSha256 (data : Bytes) (tag : Option Digest) (honest : ∀ t, tag = some t → t = hmac data) :
      Answered net ⟨.hmacSha256 data, tag⟩ net
  | micros (now : UInt32) : Answered net ⟨.micros, now⟩ net
  | sendPacket (request : Bytes) (sent : Bool) : Answered net ⟨.sendPacket request, sent⟩
      { net with requests := (net.calls.length - 1, request) :: net.requests }
  | pollRounds (rounds : Nat) : Answered net ⟨.pollRounds, rounds⟩ net
  | parsePacket (packet : Option Transport.Packet) (arrives : ∀ p, packet = some p →
      p.source = gateway → ∃ a ∈ net.answers, Gateway.response hmac a.request a.outcome = p.bytes) :
      Answered net ⟨.parsePacket, packet⟩ net

/-- The gateway works any number of turns before each call of the board is answered. -/
def world : World FabricUdpClient.calls (Net κ) := fun net event net' =>
  ∃ before, Relation.ReflTransGen (GatewayStep hmac contract) net before ∧
    Answered hmac gateway before event net'

end World

/-- Every datagram is that of its call, and every answer was computed for one. -/
structure Marked {κ : Type} (hmac : Bytes → Digest) (net : Net κ) : Prop where
  requests : ∀ call packet, (call, packet) ∈ net.requests → ∃ issued,
    net.calls[call]? = some issued ∧ issued.payload.length ≤ fabricRecordBytes ∧
      packet = requestPacket hmac issued.op issued.requestId issued.slot issued.payload
  answers : ∀ a ∈ net.answers, a.outcome.payload.length ≤ fabricRecordBytes ∧ ∃ issued,
    net.calls[a.call]? = some issued ∧
      a.request = ⟨issued.op, issued.requestId, issued.slot, issued.payload⟩

section Invariant

variable {κ : Type} {hmac : Bytes → Digest} {contract : World Gateway.calls κ}
variable {gateway : Transport.Endpoint} {net net' : Net κ}

theorem Marked.gatewayStep (marked : net.Marked hmac) (step : GatewayStep hmac contract net net') :
    net'.Marked hmac ∧ net'.calls = net.calls ∧ net.answers ⊆ net'.answers := by
  cases step with
  | other ledger => exact ⟨⟨marked.requests, marked.answers⟩, rfl, fun _ mem => mem⟩
  | @own call packet request outcome ledger sent parsed handled =>
      refine ⟨⟨marked.requests, ?_⟩, rfl, fun _ mem => List.mem_cons_of_mem _ mem⟩
      intro a mem
      obtain rfl | mem := List.mem_cons.mp mem
      · obtain ⟨issued, called, small, rfl⟩ := marked.requests call packet sent
        refine ⟨handled.post_of_done (Gateway.handle_ensures request) trivial, issued, called, ?_⟩
        have whole : (requestPacket hmac issued.op issued.requestId issued.slot
            issued.payload).take gatewayMaxResponseBytes =
              requestPacket hmac issued.op issued.requestId issued.slot issued.payload := by
          apply List.take_of_length_le
          rw [length_requestPacket]
          simp only [gatewayMaxResponseBytes, gatewayRequestHeaderBytes, gatewayTagBytes,
            gatewayResponseHeaderBytes]
          omega
        rw [whole, parseRequest_requestPacket hmac issued.op issued.requestId issued.slot
          (Nat.lt_of_le_of_lt small (by decide))] at parsed
        exact (Except.ok.inj parsed).symm
      · exact marked.answers a mem

theorem Marked.gatewaySteps (marked : net.Marked hmac)
    (steps : Relation.ReflTransGen (GatewayStep hmac contract) net net') :
    net'.Marked hmac ∧ net'.calls = net.calls ∧ net.answers ⊆ net'.answers := by
  induction steps with
  | refl => exact ⟨marked, rfl, fun _ mem => mem⟩
  | tail _ step ih =>
      obtain ⟨marked', calls, answers⟩ := ih
      obtain ⟨marked'', calls', answers'⟩ := marked'.gatewayStep step
      exact ⟨marked'', calls'.trans calls, fun _ mem => answers' (answers mem)⟩

/-- The network while the last call is under way. -/
def Waiting (hmac : Bytes → Digest) (calls : List Issued) (issued : Issued) (net : Net κ) : Prop :=
  net.Marked hmac ∧ net.calls = calls ++ [issued]

/-- A packet from the gateway's address is one of its answers. -/
def Arrived (hmac : Bytes → Digest) (gateway : Transport.Endpoint) (net : Net κ)
    (packet : Transport.Packet) : Prop :=
  packet.source = gateway → ∃ a ∈ net.answers, Gateway.response hmac a.request a.outcome =
    packet.bytes

theorem serves {calls : List Issued} {issued : Issued}
    (small : issued.payload.length ≤ fabricRecordBytes) :
    Serves (world hmac contract gateway)
      (requestPacket hmac issued.op issued.requestId issued.slot issued.payload)
      (Waiting hmac calls issued) (Arrived hmac gateway) where
  send := by
    rintro s s' sent ⟨marked, called⟩ ⟨before, steps, answered⟩
    obtain ⟨marked', calls', -⟩ := marked.gatewaySteps steps
    cases answered with
    | sendPacket =>
        refine ⟨⟨?_, marked'.answers⟩, calls'.trans called⟩
        intro call packet mem
        obtain same | mem := List.mem_cons.mp mem
        · cases same
          refine ⟨issued, ?_, small, rfl⟩
          rw [calls', called]
          simp
        · exact marked'.requests call packet mem
  quiet := by
    rintro s s' event ⟨marked, called⟩ ⟨before, steps, answered⟩ quiet
    obtain ⟨marked', calls', answers⟩ := marked.gatewaySteps steps
    have kept : ∀ p, Arrived hmac gateway s p → Arrived hmac gateway before p := by
      intro p arrived source
      obtain ⟨a, mem, bytes⟩ := arrived source
      exact ⟨a, answers mem, bytes⟩
    cases answered with
    | sendPacket request => exact absurd rfl (quiet request)
    | _ => exact ⟨⟨marked', calls'.trans called⟩, kept⟩
  parse := by
    rintro s s' packet ⟨marked, called⟩ ⟨before, steps, answered⟩ p rfl
    cases answered with
    | parsePacket _ arrives => exact arrives p rfl

end Invariant

/-- The network when a call begins. A payload that fits into no request takes no number. -/
def issue {κ : Type} (net : Net κ) (issued : Issued) : Net κ :=
  if issued.payload.length ≤ fabricRecordBytes then { net with calls := net.calls ++ [issued] }
  else net

end Net

/-- The number that the board's client uses next, and the network. -/
structure Board (κ : Type) where
  nextRequestId : UInt32
  net : Net κ

namespace Board

section Runs

variable {κ : Type} (hmac : Bytes → Digest) (contract : World Gateway.calls κ)
variable (gateway : Transport.Endpoint)

/-- A board that starts for the first time. -/
def initial (ledger : κ) : Board κ := ⟨1, ⟨ledger, [], [], []⟩⟩

/-- No earlier call of the board used this operation with the number that is next. -/
def Unused (board : Board κ) (op : UInt8) : Prop :=
  ∀ issued ∈ board.net.calls,
    ¬ (issued.requestId = board.nextRequestId ∧ issued.op ||| 0x80 = op ||| 0x80)

/-- The client that the board's calls use. Between two calls the fields that no call depends on
are arbitrary. -/
structure Uses (board : Board κ) (client : FabricUdpClient) : Prop where
  gateway : client.gateway = gateway
  nextRequestId : client.nextRequestId = board.nextRequestId

/-- What a board does: a call, which may be cut short by a loss of power, or a restart. -/
inductive Step (board : Board κ) : Board κ → Prop where
  | transact {client client' : FabricUdpClient} {op : UInt8} {slot : UInt16} {payload : Bytes}
      {capacity : Nat} {result : Option Bytes} {net : Net κ} (uses : board.Uses gateway client)
      (run : Routine.Run (Net.world hmac contract gateway) (transact op capacity slot payload)
        client (board.net.issue ⟨op, board.nextRequestId, slot, payload⟩) result client' net) :
      Step board ⟨client'.nextRequestId, net⟩
  | powerLost {client : FabricUdpClient} {op : UInt8} {slot : UInt16} {payload : Bytes}
      {capacity : Nat} {rest : Program FabricUdpClient.calls (Option Bytes × FabricUdpClient)}
      {net : Net κ} (uses : board.Uses gateway client)
      (run : Program.Exec (Net.world hmac contract gateway)
        ((transact op capacity slot payload).on client)
        (board.net.issue ⟨op, board.nextRequestId, slot, payload⟩) rest net) :
      Step board ⟨1, net⟩
  | restart : Step board ⟨1, board.net⟩

/-- The boards that a run from a first start reaches. -/
def Reached (ledger : κ) : Board κ → Prop :=
  Relation.ReflTransGen (Step hmac contract gateway) (initial ledger)

end Runs

section Attribution

variable {κ : Type} {hmac : Bytes → Digest} {contract : World Gateway.calls κ}
variable {gateway : Transport.Endpoint} {board board' : Board κ}

theorem marked_issue {net : Net κ} (marked : net.Marked hmac) (issued : Issued) :
    (net.issue issued).Marked hmac := by
  rw [Net.issue]
  split
  case isFalse => exact marked
  case isTrue =>
    have later : ∀ {call : Nat} {other : Issued}, net.calls[call]? = some other →
        (net.calls ++ [issued])[call]? = some other := by
      intro call other called
      rw [List.getElem?_append_left (List.getElem?_eq_some_iff.mp called).1]
      exact called
    constructor
    · intro call packet mem
      obtain ⟨other, called, rest⟩ := marked.requests call packet mem
      exact ⟨other, later called, rest⟩
    · intro a mem
      obtain ⟨small, other, called, request⟩ := marked.answers a mem
      exact ⟨small, other, later called, request⟩

/-- An answer that the client accepts was computed for a call with the operation and number it
waits for, and carries the payload that the gateway computed. -/
theorem accepted_answer {net : Net κ} (marked : net.Marked hmac) {op : UInt8} {requestId : UInt32}
    {packet : Transport.Packet} {answer : Bytes} (arrived : net.Arrived hmac gateway packet)
    (accepted : Accepted gateway op requestId packet answer) :
    ∃ a ∈ net.answers, a.outcome.payload = answer ∧ ∃ issued, net.calls[a.call]? = some issued ∧
      a.request = ⟨issued.op, issued.requestId, issued.slot, issued.payload⟩ ∧
        issued.requestId = requestId ∧ issued.op ||| 0x80 = op ||| 0x80 := by
  obtain ⟨a, mem, bytes⟩ := arrived accepted.source
  obtain ⟨small, issued, called, request⟩ := marked.answers a mem
  have fields := answerFields_response hmac a.request small
  rw [bytes] at fields
  obtain ⟨-, -, op_eq, number, -⟩ := accepted.matches_
  refine ⟨a, mem, ?_, issued, called, request, ?_, ?_⟩
  · rw [← fields.payload, ← fields.payloadLength]
    exact accepted.payload_eq
  · rw [← number, fields.requestID, request]
  · rw [← op_eq, fields.op, request]

/-- What a call of the board keeps at every point, and what it returns. -/
theorem transact_attributed (marked : board.net.Marked hmac) {client : FabricUdpClient}
    (uses : board.Uses gateway client) (op : UInt8) (capacity : Nat) (slot : UInt16)
    (payload : Bytes) :
    Routine.Ensures (Net.world hmac contract gateway) (Net.Marked hmac)
      (fun result _ net => net.Marked hmac ∧ ∀ answer, result = some answer → board.Unused op →
        ∃ a ∈ net.answers, a.call = board.net.calls.length ∧
          a.request = ⟨op, board.nextRequestId, slot, payload⟩ ∧ a.outcome.payload = answer)
      (transact op capacity slot payload) client
      (board.net.issue ⟨op, board.nextRequestId, slot, payload⟩) := by
  have marked_now := marked_issue marked ⟨op, board.nextRequestId, slot, payload⟩
  by_cases fits : payload.length ≤ fabricRecordBytes
  case neg =>
    have long : ¬ gatewayRequestHeaderBytes + payload.length + gatewayTagBytes ≤
        gatewayMaxRequestBytes := by
      simp only [gatewayMaxRequestBytes]
      omega
    simp only [transact, Routine.ensures_bind (r := guard _), Routine.ensures_guard]
    exact ⟨fun short => absurd short long, fun _ => ⟨marked_now, nofun⟩⟩
  have waits : Net.Waiting hmac board.net.calls ⟨op, board.nextRequestId, slot, payload⟩
      (board.net.issue ⟨op, board.nextRequestId, slot, payload⟩) := by
    refine ⟨marked_now, ?_⟩
    rw [Net.issue, if_pos fits]
  have serves := @Net.serves κ hmac contract gateway board.net.calls
    ⟨op, board.nextRequestId, slot, payload⟩ fits
  rw [← uses.nextRequestId] at serves waits
  have honest : ∀ {net net' : Net κ} {data : Bytes} {tag : Digest},
      Net.world hmac contract gateway net ⟨.hmacSha256 data, some tag⟩ net' → tag = hmac data := by
    rintro net net' data tag ⟨before, -, answered⟩
    cases answered with
    | hmacSha256 _ _ honest => exact honest tag rfl
  have exchange := @transact_ensures _ _ _ _ _ _ _ capacity hmac _ _ serves honest waits
  rw [uses.nextRequestId] at exchange
  refine Program.Ensures.mono exchange (fun net waiting => waiting.1) ?_
  rintro ⟨result, client'⟩ net ⟨-, ⟨marked', called⟩, accepts⟩
  refine ⟨marked', ?_⟩
  intro answer returned unused
  obtain ⟨packet, arrived, accepted⟩ := accepts answer returned
  rw [uses.gateway] at accepted
  obtain ⟨a, mem, content, issued, position, request, number, echoed⟩ :=
    accepted_answer marked' arrived accepted
  -- An earlier call has another operation or number, so this is the call under way.
  rw [called] at position
  obtain earlier | last := Nat.lt_or_ge a.call board.net.calls.length
  · rw [List.getElem?_append_left earlier] at position
    exact absurd ⟨number, echoed⟩ (unused issued (List.mem_of_getElem? position))
  · rw [List.getElem?_append_right last, List.getElem?_singleton] at position
    split at position
    · cases position
      refine ⟨a, mem, ?_, request, content⟩
      omega
    · cases position

/-- Whatever the board does, datagrams and answers stay with their calls. -/
theorem Step.marked (step : Step hmac contract gateway board board')
    (marked : board.net.Marked hmac) : board'.net.Marked hmac := by
  cases step with
  | restart => exact marked
  | transact uses run =>
      exact ((transact_attributed marked uses _ _ _ _).post_of_run run (marked_issue marked _)).1
  | powerLost uses run =>
      exact (run.ensures (transact_attributed marked uses _ _ _ _) (marked_issue marked _)).1

theorem Reached.marked {ledger : κ} (reached : Reached hmac contract gateway ledger board) :
    board.net.Marked hmac := by
  induction reached with
  | refl => exact ⟨nofun, nofun⟩
  | tail _ step ih => exact step.marked ih

end Attribution

section Answering

variable {κ : Type} {hmac : Bytes → Digest} {contract : World Gateway.calls κ}
variable {gateway : Transport.Endpoint} {net net' : Net κ} {client : FabricUdpClient}

/-- A call that is answered without a turn of the gateway. -/
theorem world_of_answered {event : Event FabricUdpClient.calls}
    (answered : Net.Answered hmac gateway net event net') :
    Net.world hmac contract gateway net event net' :=
  ⟨net, .refl, answered⟩

/-- An answer of the gateway with the operation and number that the client waits for. -/
structure Fits (a : Answer) (op : UInt8) (requestId : UInt32) (capacity : Nat) : Prop where
  op : a.request.op ||| 0x80 = op ||| 0x80
  requestId : a.request.requestID = requestId
  status : a.outcome.status = gwOk
  small : a.outcome.payload.length ≤ fabricRecordBytes
  room : a.outcome.payload.length ≤ capacity

/-- The client after it has accepted an answer. -/
def accepting (client : FabricUdpClient) (answer : Bytes) (beginUs now : UInt32) :
    FabricUdpClient :=
  let rx := overwrite client.rx answer
  { client with
    rx := rx
    lastStatus := readByte rx.toList 8
    usage := { client.usage with
      wallUs := client.usage.wallUs + (now.toUInt64 - beginUs.toUInt64)
      appRx := client.usage.appRx + .ofNat answer.length
      fabricUs := client.usage.fabricUs + getU64 (slice rx.toList 9 8) } }

/-- The client accepts a fitting answer of its gateway in any world that computes the tag. -/
theorem examine_accepts {σ : Type} {world : World FabricUdpClient.calls σ} {s t u : σ} {a : Answer}
    {op : UInt8} {requestId : UInt32} {capacity : Nat} {bytes : Bytes}
    (fits : Fits a op requestId capacity)
    (beginUs now : UInt32) (address : client.gateway = gateway)
    (made : Gateway.response hmac a.request a.outcome = bytes)
    (tagged : ∀ data, world s ⟨.hmacSha256 data, some (hmac data)⟩ t)
    (timed : world t ⟨.micros, now⟩ u) :
    Routine.Run world (examine op requestId capacity beginUs ⟨bytes, gateway⟩) client s
      (some (some a.outcome.payload)) (accepting client bytes beginUs now) u := by
  have read := answerRead_response hmac client a.request fits.small
  rw [made] at read
  have same := (Puav.constantTimeEqual_iff (List.Vector.toList_length _)
    (List.Vector.toList_length _)).mpr (Eq.refl
      (hmac (bytes.take (gatewayResponseHeaderBytes + a.outcome.payload.length))).toList)
  rw [examine]
  dsimp only
  rw [if_neg (Nat.not_lt.mpr read.fits)]
  refine (Routine.run_modify _).bind ?_
  rw [if_neg (Nat.not_lt.mpr read.long)]
  apply Routine.run_get.bind
  dsimp only
  rw [if_neg (not_not_intro address.symm),
    if_neg (not_not_intro ((read.matches_ op requestId).mpr ⟨fits.op, fits.requestId⟩)),
    read.payloadLength, read.front, read.tag]
  refine Routine.Run.bind ((Routine.run_perform (tagged _)).bind (Routine.run_pure _)) ?_
  rw [if_neg (not_not_intro same)]
  refine (Routine.run_perform timed).bind ?_
  refine (Routine.run_modify _).bind ?_
  refine (Routine.run_guard (read.status.trans fits.status)).bind ?_
  refine (Routine.run_guard fits.room).bind ?_
  rw [read.payload]
  exact Routine.run_pure _

/-- The network after a call has sent its datagram once. -/
def sent (net : Net κ) (packet : Bytes) : Net κ :=
  { net with requests := (net.calls.length - 1, packet) :: net.requests }

/-- The client while it waits for the answer to its first request. -/
def awaiting (client : FabricUdpClient) (request : Bytes) : FabricUdpClient :=
  { client with
    nextRequestId := client.nextRequestId + 1
    usage := { client.usage with appTx := client.usage.appTx + .ofNat request.length } }

/-- The first attempt succeeds in any world that delivers a fitting answer to it. -/
theorem transact_accepts {σ : Type} {world : World FabricUdpClient.calls σ}
    {s prepared discarded begun sent polled arrived tagged t : σ} {a : Answer} {op : UInt8}
    {slot : UInt16} {payload : Bytes} {capacity : Nat} (small : payload.length ≤ fabricRecordBytes)
    (address : client.gateway = gateway) (fits : Fits a op client.nextRequestId capacity)
    (beginUs now : UInt32)
    (prepare : ∀ data, world s ⟨.hmacSha256 data, some (hmac data)⟩ prepared)
    (discard : world prepared ⟨.discardPending, ()⟩ discarded)
    (start : world discarded ⟨.micros, beginUs⟩ begun)
    (send : world begun
      ⟨.sendPacket (requestPacket hmac op client.nextRequestId slot payload), true⟩ sent)
    (poll : world sent ⟨.pollRounds, (1 : Nat)⟩ polled)
    (arrive : world polled
      ⟨.parsePacket, some ⟨Gateway.response hmac a.request a.outcome, gateway⟩⟩ arrived)
    (tag : ∀ data, world arrived ⟨.hmacSha256 data, some (hmac data)⟩ tagged)
    (stop : world tagged ⟨.micros, now⟩ t) :
    Routine.Run world (transact op capacity slot payload) client s (some a.outcome.payload)
      (accepting (awaiting client (requestPacket hmac op client.nextRequestId slot payload))
        (Gateway.response hmac a.request a.outcome) beginUs now) t := by
  let packet := requestPacket hmac op client.nextRequestId slot payload
  have room : gatewayRequestHeaderBytes + payload.length + gatewayTagBytes ≤
      gatewayMaxRequestBytes := by
    simp only [gatewayMaxRequestBytes]
    omega
  rw [transact]
  refine (Routine.run_guard room).bind (Routine.run_get.bind ?_)
  refine (Routine.run_modify _).bind ?_
  refine Routine.Run.bind ((Routine.run_perform (prepare _)).bind (Routine.run_pure _)) ?_
  change Routine.Run _ (attempts op client.nextRequestId capacity packet (5 + 1)) _ _ _ _ _
  rw [attempts]
  refine Routine.Run.bind (a := some a.outcome.payload) ?_ (Routine.run_pure _)
  rw [attempt]
  refine (Routine.run_perform discard).bind ((Routine.run_perform start).bind ?_)
  refine (Routine.run_perform send).bind ?_
  refine (Routine.run_guard rfl).bind ((Routine.run_modify _).bind ?_)
  refine (Routine.run_perform poll).bind ?_
  rw [awaitAnswer]
  refine (Routine.run_perform arrive).bind ?_
  refine Routine.Run.bind (a := some a.outcome.payload) ?_ (Routine.run_pure _)
  exact examine_accepts fits beginUs now address rfl tag stop

/-- The first attempt succeeds when a fitting answer is in the network. -/
theorem transact_run {a : Answer} {op : UInt8} {slot : UInt16} {payload : Bytes} {capacity : Nat}
    (small : payload.length ≤ fabricRecordBytes) (address : client.gateway = gateway)
    (steps : Relation.ReflTransGen (Net.GatewayStep hmac contract)
      (sent net (requestPacket hmac op client.nextRequestId slot payload)) net')
    (mem : a ∈ net'.answers) (fits : Fits a op client.nextRequestId capacity) :
    ∃ client', client'.nextRequestId = client.nextRequestId + 1 ∧
      Routine.Run (Net.world hmac contract gateway) (transact op capacity slot payload) client net
        (some a.outcome.payload) client' net' := by
  have tagged (net : Net κ) (data : Bytes) :
      Net.world hmac contract gateway net ⟨.hmacSha256 data, some (hmac data)⟩ net := by
    refine world_of_answered (.hmacSha256 data _ ?_)
    rintro tag ⟨⟩
    rfl
  refine ⟨_, rfl, transact_accepts small address fits 0 0 (tagged _)
    (world_of_answered .discardPending) (world_of_answered (.micros 0))
    (world_of_answered (.sendPacket _ _)) (world_of_answered (.pollRounds 1))
    ⟨net', steps, .parsePacket _ ?_⟩ (tagged _) (world_of_answered (.micros 0))⟩
  rintro p ⟨⟩ _
  exact ⟨a, mem, rfl⟩

/-- A gateway whose contract knows no record stores the one of a request. -/
theorem put_exec {request : Gateway.Request} {s : κ} {error : Text}
    (put : request.op = gwPutCredential) (sized : request.payload.length = fabricRecordBytes)
    (unknown : ∀ function args, contract s ⟨.evaluateTransaction function args, .error error⟩ s)
    (submitted : ∀ function args, contract s ⟨.submitTransaction function args, .ok ()⟩ s)
    (timed : contract s ⟨.microseconds, (0 : UInt64)⟩ s) :
    Program.Exec contract (Gateway.handle request) s (.done ⟨gwOk, 0, []⟩) s := by
  have other : request.op ≠ gwPing := by
    rw [put]
    decide
  unfold Gateway.handle
  rw [if_neg other, if_pos put, Gateway.credentialFromPayload, if_neg (not_not_intro sized)]
  exact .step (unknown _ _) (.step timed (.step (submitted _ _) (.step timed (.stop _ _))))

end Answering

section Histories

/-- A contract that knows no record and accepts every new one. -/
def storingContract : World Gateway.calls Unit := fun _ event _ =>
  match event with
  | ⟨.evaluateTransaction _ _, answer⟩ => answer = .error "credential not found".toList
  | ⟨.submitTransaction _ _, answer⟩ => answer = .ok ()
  | ⟨.microseconds, elapsed⟩ => elapsed = (0 : UInt64)

def exampleHmac (_ : Bytes) : Digest := List.Vector.replicate _ 0

def exampleGateway : Transport.Endpoint := ⟨0xC0A80164, 5400⟩

/-- A record that consists of one byte. -/
def exampleRecord (byte : UInt8) : Bytes := List.replicate fabricRecordBytes byte

/-- A client after its constructor and `begin`. -/
def exampleClient : FabricUdpClient := .start exampleGateway ⟨0, 0, 0, 0⟩

/-- The network after the first record was stored. -/
def storedNet : Net Unit where
  ledger := ()
  calls := [⟨gwPutCredential, 1, 0, exampleRecord 0⟩]
  requests := [(0, requestPacket exampleHmac gwPutCredential 1 0 (exampleRecord 0))]
  answers := [⟨0, ⟨gwPutCredential, 1, 0, exampleRecord 0⟩, ⟨gwOk, 0, []⟩⟩]

theorem length_exampleRecord (byte : UInt8) :
    (exampleRecord byte).length = fabricRecordBytes := List.length_replicate

theorem issue_exampleRecord (net : Net Unit) (requestId : UInt32) (byte : UInt8) :
    net.issue ⟨gwPutCredential, requestId, 0, exampleRecord byte⟩ =
      { net with calls := net.calls ++ [⟨gwPutCredential, requestId, 0, exampleRecord byte⟩] } := by
  rw [Net.issue, if_pos]
  exact Nat.le_of_eq (length_exampleRecord byte)

/-- The answer to a stored record fits every call with its number that stores one. -/
theorem fits_stored (call : Nat) (record : Bytes) :
    Fits ⟨call, ⟨gwPutCredential, 1, 0, record⟩, ⟨gwOk, 0, []⟩⟩ gwPutCredential 1 0 where
  op := rfl
  requestId := rfl
  status := rfl
  small := Nat.zero_le _
  room := Nat.le_refl _

/-- The first call of a board stores its record. -/
theorem stored_run : ∃ client', Routine.Run
    (Net.world exampleHmac storingContract exampleGateway)
    (transact gwPutCredential 0 0 (exampleRecord 0)) exampleClient
    ((@initial Unit ()).net.issue ⟨gwPutCredential, 1, 0, exampleRecord 0⟩) (some []) client'
    storedNet := by
  have size := length_exampleRecord 0
  have parsed := @parseRequest_requestPacket exampleHmac gwPutCredential 1 0 (exampleRecord 0)
    (by rw [size]; decide)
  have whole : (requestPacket exampleHmac gwPutCredential 1 0 (exampleRecord 0)).take
      gatewayMaxResponseBytes =
        requestPacket exampleHmac gwPutCredential 1 0 (exampleRecord 0) := by
    apply List.take_of_length_le
    rw [length_requestPacket, size]
    decide
  have handled := @put_exec Unit storingContract ⟨gwPutCredential, 1, 0, exampleRecord 0⟩ () _ rfl
    size (fun _ _ => rfl) (fun _ _ => rfl) rfl
  rw [← whole] at parsed
  rw [issue_exampleRecord]
  have step : Net.GatewayStep exampleHmac storingContract
      (sent ⟨(), [⟨gwPutCredential, 1, 0, exampleRecord 0⟩], [], []⟩
        (requestPacket exampleHmac gwPutCredential 1 0 (exampleRecord 0))) storedNet :=
    .own List.mem_cons_self parsed handled
  have fits : Fits _ gwPutCredential exampleClient.nextRequestId 0 :=
    fits_stored 0 (exampleRecord 0)
  obtain ⟨client', -, run⟩ := @transact_run _ _ _ _ _ _ exampleClient _ _ 0 _ _ (Nat.le_of_eq size)
    rfl (.single step) List.mem_cons_self fits
  exact ⟨client', run⟩

/-- The delayed answer to the first call makes a call after a restart return true. -/
theorem stale_run (byte : UInt8) : ∃ client' net, Routine.Run
    (Net.world exampleHmac storingContract exampleGateway)
    (transact gwPutCredential 0 0 (exampleRecord byte)) exampleClient
    (storedNet.issue ⟨gwPutCredential, 1, 0, exampleRecord byte⟩) (some []) client' net ∧
      net.answers = storedNet.answers := by
  have fits : Fits _ gwPutCredential exampleClient.nextRequestId 0 :=
    fits_stored 0 (exampleRecord 0)
  rw [issue_exampleRecord]
  let net : Net Unit :=
    { storedNet with calls := storedNet.calls ++ [⟨gwPutCredential, 1, 0, exampleRecord byte⟩] }
  obtain ⟨client', -, run⟩ := @transact_run Unit exampleHmac storingContract exampleGateway net _
    exampleClient _ _ 0 (exampleRecord byte) 0 (Nat.le_of_eq (length_exampleRecord byte)) rfl .refl
    List.mem_cons_self fits
  exact ⟨client', _, run, rfl⟩

/-- After a restart, the answer to a ping arrives beside the one to the stored record. -/
theorem pinged_run : ∃ client' net, Routine.Run
    (Net.world exampleHmac storingContract exampleGateway) (transact gwPing 0 0 [])
    exampleClient (storedNet.issue ⟨gwPing, 1, 0, []⟩) (some []) client' net := by
  let pinged : Answer := ⟨1, ⟨gwPing, 1, 0, []⟩, ⟨gwOk, 0, []⟩⟩
  have parsed := @parseRequest_requestPacket exampleHmac gwPing 1 0 [] (by decide)
  have whole : (requestPacket exampleHmac gwPing 1 0 []).take gatewayMaxResponseBytes =
      requestPacket exampleHmac gwPing 1 0 [] := rfl
  have handled : Program.Exec storingContract (Gateway.handle ⟨gwPing, 1, 0, []⟩) ()
      (.done ⟨gwOk, 0, []⟩) () := .stop _ _
  rw [← whole] at parsed
  have fits : Fits pinged gwPing exampleClient.nextRequestId 0 :=
    ⟨rfl, rfl, rfl, Nat.zero_le _, Nat.le_refl _⟩
  obtain ⟨client', -, run⟩ := @transact_run Unit exampleHmac storingContract exampleGateway
    (storedNet.issue ⟨gwPing, 1, 0, []⟩) _ exampleClient pinged gwPing 0 [] 0 (Nat.zero_le _) rfl
    (.single (.own List.mem_cons_self parsed handled)) List.mem_cons_self fits
  exact ⟨client', _, run⟩

end Histories

variable {κ : Type} {hmac : Bytes → Digest} {contract : World Gateway.calls κ}
variable {gateway : Transport.Endpoint} {board : Board κ}

/-- In every run, a call whose operation and number no earlier call used returns only a payload
that the gateway computed for a datagram of that call. -/
theorem transact_own_answer {ledger : κ} (reached : Reached hmac contract gateway ledger board)
    {client client' : FabricUdpClient} (uses : board.Uses gateway client) {op : UInt8}
    {slot : UInt16} {payload answer : Bytes} {capacity : Nat} {net : Net κ}
    (run : Routine.Run (Net.world hmac contract gateway) (transact op capacity slot payload) client
      (board.net.issue ⟨op, board.nextRequestId, slot, payload⟩) (some answer) client' net)
    (unused : board.Unused op) :
    ∃ a ∈ net.answers, a.call = board.net.calls.length ∧
      a.request = ⟨op, board.nextRequestId, slot, payload⟩ ∧ a.outcome.payload = answer := by
  have marked := reached.marked
  have start := marked_issue marked ⟨op, board.nextRequestId, slot, payload⟩
  exact ((transact_attributed marked uses op capacity slot payload).post_of_run run start).2
    answer rfl unused

/-- A board that was restarted after its first call pings the gateway. -/
theorem transact_own_answer_restarted : ∃ net : Net Unit,
    Reached exampleHmac storingContract exampleGateway () ⟨1, storedNet⟩ ∧
    (∃ a ∈ storedNet.answers, a.request.requestID = 1) ∧
    ∃ a ∈ net.answers, a.call = 1 ∧ a.request = ⟨gwPing, 1, 0, []⟩ ∧ a.outcome.payload = [] := by
  obtain ⟨_, first⟩ := stored_run
  obtain ⟨client', net, second⟩ := pinged_run
  have reached : Reached exampleHmac storingContract exampleGateway () ⟨1, storedNet⟩ :=
    (Relation.ReflTransGen.single (.transact ⟨rfl, rfl⟩ first)).tail .restart
  have unused : Board.Unused ⟨1, storedNet⟩ gwPing := by
    rintro issued mem ⟨-, same⟩
    obtain rfl := List.mem_singleton.mp mem
    exact absurd same (by decide)
  exact ⟨net, reached, ⟨_, List.mem_cons_self, rfl⟩,
    transact_own_answer reached ⟨rfl, rfl⟩ second unused⟩

/-- A board that restarts may take the answer to an old request for the answer to a new one with
another record, of which the gateway never saw a datagram. -/
theorem transact_returns_old_answer :
    ¬ ∀ (board : Board Unit) (client client' : FabricUdpClient) (net : Net Unit) (op : UInt8)
        (slot : UInt16) (payload answer : Bytes) (capacity : Nat),
      Reached exampleHmac storingContract exampleGateway () board →
      board.Uses exampleGateway client →
      Routine.Run (Net.world exampleHmac storingContract exampleGateway)
        (transact op capacity slot payload) client
        (board.net.issue ⟨op, board.nextRequestId, slot, payload⟩) (some answer) client' net →
      ∃ a ∈ net.answers, a.call = board.net.calls.length ∧
        a.request = ⟨op, board.nextRequestId, slot, payload⟩ ∧ a.outcome.payload = answer := by
  intro claimed
  obtain ⟨_, first⟩ := stored_run
  obtain ⟨_, net, second, answers⟩ := stale_run 1
  have reached : Reached exampleHmac storingContract exampleGateway () ⟨1, storedNet⟩ :=
    (Relation.ReflTransGen.single (.transact ⟨rfl, rfl⟩ first)).tail .restart
  obtain ⟨a, mem, call, -⟩ := claimed ⟨1, storedNet⟩ _ _ net _ _ _ _ _ reached ⟨rfl, rfl⟩ second
  rw [answers] at mem
  obtain rfl := List.mem_singleton.mp mem
  exact nomatch call

end Board

end Apqe
