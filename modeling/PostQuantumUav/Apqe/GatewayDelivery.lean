import PostQuantumUav.Apqe.GatewayExchange
import PostQuantumUav.Apqe.GatewayLedger

/-!
# Transactions whose messages are delivered

A board, the gateway over its ledger, and a network that delivers: a request reaches
the gateway, and its three answers reach the board in order after any number of
rounds of the wait loop. Copies of older answers may be read first, and datagrams
from elsewhere at any time before.

A transaction then returns what the gateway computed for its request. The copies that
it leaves behind have an older number, so they do not disturb the next one.
-/

namespace Apqe.FabricUdpClient

open Interaction Cell Buffer Chaincode

/-- The ledger, the answers that are on their way to one board, and the rounds of the wait loop
before the next of them arrives. -/
structure Link where
  state : StateTexts
  queue : List Bytes
  delay : Nat

namespace Link

variable (hmac : Bytes → Digest) (gateway : Transport.Endpoint)

/-- How the board's calls are answered. -/
inductive Answered (link : Link) : Event calls → Link → Prop where
  | discardPending (arrived rest : List Bytes) (queued : link.queue = arrived ++ rest) :
      Answered link ⟨.discardPending, ()⟩ { link with queue := rest }
  | hmacSha256 (data : Bytes) : Answered link ⟨.hmacSha256 data, some (hmac data)⟩ link
  | micros (now : UInt32) : Answered link ⟨.micros, now⟩ link
  | sendPacket {request answer : Bytes} {state : StateTexts} (delay : Nat)
      (served : Program.Exec Gateway.Committed (Gateway.serve hmac request) link.state
        (.done (some answer)) state) :
      Answered link ⟨.sendPacket request, true⟩
        ⟨state, link.queue ++ List.replicate 3 answer, delay⟩
  | rejected {request : Bytes} {state : StateTexts}
      (served : Program.Exec Gateway.Committed (Gateway.serve hmac request) link.state
        (.done none) state) :
      Answered link ⟨.sendPacket request, true⟩ { link with state := state }
  | pollRounds (rounds : Nat) (enough : link.delay + link.queue.length < rounds) :
      Answered link ⟨.pollRounds, rounds⟩ link
  | waits {rounds : Nat} (waiting : link.delay = rounds + 1) (packet : Option Transport.Packet)
      (foreign : ∀ p, packet = some p → p.source ≠ gateway) :
      Answered link ⟨.parsePacket, packet⟩ { link with delay := rounds }
  | arrives {answer : Bytes} {rest : List Bytes} (queued : link.queue = answer :: rest) :
      Answered link ⟨.parsePacket, some ⟨answer, gateway⟩⟩ { link with queue := rest }
  | silent (empty : link.queue = []) : Answered link ⟨.parsePacket, none⟩ link

/-- The network answers every call of the board. -/
theorem answered_responsive : World.Responsive (Answered hmac gateway) := by
  intro link c
  cases c with
  | discardPending => exact ⟨(), _, .discardPending [] link.queue rfl⟩
  | hmacSha256 data => exact ⟨_, link, .hmacSha256 data⟩
  | micros => exact ⟨(0 : UInt32), link, .micros 0⟩
  | pollRounds => exact ⟨_, link, .pollRounds _ (Nat.lt_succ_self _)⟩
  | parsePacket =>
      cases queued : link.queue with
      | nil => exact ⟨none, link, .silent queued⟩
      | cons answer rest => exact ⟨some ⟨answer, gateway⟩, _, .arrives queued⟩
  | sendPacket request =>
      obtain ⟨answer, state, served⟩ := Program.exists_exec Gateway.committed_responsive
        (Gateway.serve hmac request) link.state
      cases answer with
      | none => exact ⟨true, _, .rejected served⟩
      | some answer => exact ⟨true, _, .sendPacket 0 served⟩

end Link

section Receiving

variable {hmac : Bytes → Digest} {gateway : Transport.Endpoint} {client : FabricUdpClient}
variable {link : Link} {op : UInt8} {requestId : UInt32} {capacity : Nat} {beginUs : UInt32}

/-- An answer to a request with another number. -/
def Stale (hmac : Bytes → Digest) (requestId : UInt32) (bytes : Bytes) : Prop :=
  ∃ request outcome, Gateway.response hmac request outcome = bytes ∧
    outcome.payload.length ≤ fabricRecordBytes ∧ request.requestID ≠ requestId

/-- The fields that receiving does not change. -/
structure Rests (client client' : FabricUdpClient) : Prop extends Kept client client' where
  recordScratch : client'.recordScratch = client.recordScratch

theorem Rests.refl (client : FabricUdpClient) : Rests client client := ⟨⟨rfl, rfl⟩, rfl⟩

theorem Rests.trans {client client' client'' : FabricUdpClient} (first : Rests client client')
    (second : Rests client' client'') : Rests client client'' :=
  ⟨first.toKept.trans second.toKept, second.recordScratch.trans first.recordScratch⟩

/-- A datagram from elsewhere is skipped. -/
theorem examine_foreign {packet : Transport.Packet} (foreign : packet.source ≠ client.gateway) :
    Routine.Ensures (Link.Answered hmac gateway) (fun _ => True)
      (fun result client' link' => result = some none ∧ Rests client client' ∧ link' = link)
      (examine op requestId capacity beginUs packet) client link := by
  have skipped : ∀ rx, Rests client { client with rx := rx } := fun _ => ⟨⟨rfl, rfl⟩, rfl⟩
  simp only [examine, Routine.ensures_ite, Routine.ensures_bind (r := modify _),
    Routine.ensures_modify, Routine.ensures_bind (r := get), Routine.ensures_pure,
    Routine.ensures_get]
  exact ⟨fun _ => ⟨trivial, .refl client, trivial⟩, fun _ =>
    ⟨fun _ => ⟨trivial, skipped _, trivial⟩,
      fun _ => ⟨fun _ => ⟨trivial, skipped _, trivial⟩, fun near => absurd foreign near⟩⟩⟩

/-- A copy of an older answer is skipped. -/
theorem examine_stale {bytes : Bytes} (stale : Stale hmac requestId bytes) :
    Routine.Ensures (Link.Answered hmac gateway) (fun _ => True)
      (fun result client' link' => result = some none ∧ Rests client client' ∧ link' = link)
      (examine op requestId capacity beginUs ⟨bytes, gateway⟩) client link := by
  obtain ⟨request, outcome, rfl, small, other⟩ := stale
  have read := answerRead_response hmac client request small
  have skipped : ∀ rx, Rests client { client with rx := rx } := fun _ => ⟨⟨rfl, rfl⟩, rfl⟩
  simp only [examine, Routine.ensures_ite, Routine.ensures_bind (r := modify _),
    Routine.ensures_modify, Routine.ensures_bind (r := get), Routine.ensures_pure,
    Routine.ensures_get]
  refine ⟨fun _ => ⟨trivial, .refl client, trivial⟩, fun _ =>
    ⟨fun _ => ⟨trivial, skipped _, trivial⟩, fun _ =>
      ⟨fun _ => ⟨trivial, skipped _, trivial⟩, fun _ =>
        ⟨fun _ => ⟨trivial, skipped _, trivial⟩, fun matched => ?_⟩⟩⟩⟩
  exact absurd ((read.matches_ op requestId).mp (Classical.not_not.mp matched)).2 other

/-- What the client makes of the answer to its own request. -/
structure Received (client : FabricUdpClient) (outcome : Gateway.Outcome)
    (client' : FabricUdpClient) : Prop extends Rests client client' where
  lastStatus : client'.lastStatus = outcome.status

/-- The payload of an answer whose status is good; another one ends the transaction. -/
def accepted (outcome : Gateway.Outcome) : Option (Option Bytes) :=
  if outcome.status = gwOk then some (some outcome.payload) else none

/-- The answer to the client's own request ends the wait. -/
theorem examine_own {request : Gateway.Request} {outcome : Gateway.Outcome}
    (address : client.gateway = gateway) (sameOp : request.op = op)
    (number : request.requestID = requestId) (small : outcome.payload.length ≤ fabricRecordBytes)
    (room : outcome.payload.length ≤ capacity) :
    Routine.Ensures (Link.Answered hmac gateway) (fun _ => True)
      (fun result client' link' =>
        result = accepted outcome ∧ Received client outcome client' ∧ link' = link)
      (examine op requestId capacity beginUs ⟨Gateway.response hmac request outcome, gateway⟩)
      client link := by
  have read := answerRead_response hmac client request small
  generalize Gateway.response hmac request outcome = bytes at read
  have matched := (read.matches_ op requestId).mpr ⟨congrArg (· ||| 0x80) sameOp, number⟩
  have same := (Puav.constantTimeEqual_iff (List.Vector.toList_length _)
    (List.Vector.toList_length _)).mpr (Eq.refl
      (hmac (bytes.take (gatewayResponseHeaderBytes + outcome.payload.length))).toList)
  rw [examine]
  dsimp only
  rw [if_neg (Nat.not_lt.mpr read.fits), Routine.ensures_bind, Routine.ensures_modify]
  dsimp only
  rw [if_neg (Nat.not_lt.mpr read.long), Routine.ensures_bind, Routine.ensures_get]
  dsimp only
  rw [if_neg (not_not_intro address.symm), if_neg (not_not_intro matched), read.payloadLength,
    read.front, read.tag, computeTag, Routine.ensures_bind]
  refine Routine.Ensures.perform fun tag link₁ answered => ⟨trivial, ?_⟩
  cases answered with
  | hmacSha256 =>
      dsimp only
      rw [Routine.ensures_pure]
      dsimp only
      rw [if_neg (not_not_intro same)]
      refine Routine.Ensures.perform fun now link₂ answered => ⟨trivial, ?_⟩
      cases answered with
      | micros =>
          simp only [Routine.ensures_bind (r := modify _), Routine.ensures_modify,
            Routine.ensures_bind (r := guard _), Routine.ensures_guard, Routine.ensures_pure,
            read.status, read.payload, room]
          refine ⟨fun ok => ⟨fun _ => ⟨?_, ⟨⟨⟨rfl, rfl⟩, rfl⟩, rfl⟩, trivial⟩,
            fun small => absurd trivial small⟩, fun bad => ⟨?_, ⟨⟨⟨rfl, rfl⟩, rfl⟩, rfl⟩, trivial⟩⟩
          · rw [accepted, if_pos ok]
          · rw [accepted, if_neg bad]

/-- Among the copies of older answers the client waits for its own. -/
theorem awaitAnswer_delivered {request : Gateway.Request} {outcome : Gateway.Outcome}
    {old later : List Bytes} (rounds : Nat) (address : client.gateway = gateway)
    (sameOp : request.op = op) (number : request.requestID = requestId)
    (small : outcome.payload.length ≤ fabricRecordBytes)
    (room : outcome.payload.length ≤ capacity) (stale : ∀ b ∈ old, Stale hmac requestId b)
    (queued : link.queue = old ++ Gateway.response hmac request outcome :: later)
    (enough : link.delay + old.length < rounds) :
    Routine.Ensures (Link.Answered hmac gateway) (fun _ => True)
      (fun result client' link' => result = accepted outcome ∧ Received client outcome client' ∧
        link'.state = link.state ∧ link'.queue = later)
      (awaitAnswer op requestId capacity beginUs rounds) client link := by
  induction rounds generalizing client link old with
  | zero => omega
  | succ rounds ih =>
      refine Routine.Ensures.perform fun packet link₁ answered => ⟨trivial, ?_⟩
      cases answered with
      | silent empty =>
          rw [empty] at queued
          exact absurd queued (by simp)
      | @waits remaining waiting packet foreign =>
          let passed : Link := { link with delay := remaining }
          have queued : passed.queue =
              old ++ Gateway.response hmac request outcome :: later := queued
          have less : passed.delay + old.length < rounds := by
            change remaining + old.length < rounds
            omega
          cases packet with
          | none => exact ih address stale queued less
          | some packet =>
              refine (examine_foreign (address ▸ foreign packet rfl)).bind ?_ ?_
              · rintro client' link' ⟨result, -⟩
                cases result
              · rintro result client' link' ⟨read, rests, rfl⟩
                cases Option.some.inj read
                refine (ih (rests.gateway.trans address) stale queued less).mono ?_
                rintro result client'' link'' ⟨same, received, state, queue⟩
                exact ⟨same, ⟨rests.trans received.toRests, received.lastStatus⟩, state, queue⟩
      | @arrives answer rest first =>
          cases old with
          | nil =>
              rw [first] at queued
              obtain ⟨rfl, rfl⟩ := List.cons.inj queued
              refine (examine_own address sameOp number small room).bind ?_ ?_
              · rintro client' link' ⟨result, received, rfl⟩
                rw [accepted] at result ⊢
                split at result
                · cases result
                · exact ⟨by rw [if_neg ‹_›], received, rfl, rfl⟩
              · rintro result client' link' ⟨read, received, rfl⟩
                rw [accepted] at read ⊢
                split at read
                · cases Option.some.inj read
                  exact ⟨by rw [if_pos ‹_›], received, rfl, rfl⟩
                · cases read
          | cons b old =>
              rw [first] at queued
              obtain ⟨rfl, tail⟩ := List.cons.inj queued
              let passed : Link := { link with queue := rest }
              have tail : passed.queue =
                  old ++ Gateway.response hmac request outcome :: later := tail
              have less : passed.delay + old.length < rounds := by
                rw [List.length_cons] at enough
                change link.delay + old.length < rounds
                omega
              refine (examine_stale (stale _ List.mem_cons_self)).bind ?_ ?_
              · rintro client' link' ⟨result, -⟩
                cases result
              · rintro result client' link' ⟨read, rests, rfl⟩
                cases Option.some.inj read
                refine (ih (rests.gateway.trans address)
                  (fun b mem => stale b (List.mem_cons_of_mem _ mem)) tail less).mono ?_
                rintro result client'' link'' ⟨same, received, state, queue⟩
                exact ⟨same, ⟨rests.trans received.toRests, received.lastStatus⟩, state, queue⟩

end Receiving

section Transactions

variable {hmac : Bytes → Digest} {gateway : Transport.Endpoint} {client : FabricUdpClient}
variable {link : Link} {op : UInt8} {slot : UInt16} {payload : Bytes} {capacity : Nat}

/-- A board between two transactions: all answers on their way to it are old. -/
structure Ready (hmac : Bytes → Digest) (gateway : Transport.Endpoint) (client : FabricUdpClient)
    (queue : List Bytes) : Prop where
  gateway : client.gateway = gateway
  stale : ∀ b ∈ queue, Stale hmac client.nextRequestId b

/-- A request of the client is served by `handle`. -/
theorem serve_requestPacket {requestId : UInt32} {state : StateTexts}
    {post : Gateway.Outcome → StateTexts → Prop} (small : payload.length ≤ fabricRecordBytes)
    (handled : (Gateway.handle ⟨op, requestId, slot, payload⟩).Ensures Gateway.Committed
      (fun _ => True) post state) :
    (Gateway.serve hmac (requestPacket hmac op requestId slot payload)).Ensures Gateway.Committed
      (fun _ => True) (fun answer state' => ∃ outcome, post outcome state' ∧
        answer = some (Gateway.response hmac ⟨op, requestId, slot, payload⟩ outcome)) state := by
  have whole : (requestPacket hmac op requestId slot payload).take gatewayMaxResponseBytes =
      requestPacket hmac op requestId slot payload := by
    apply List.take_of_length_le
    rw [length_requestPacket]
    simp only [gatewayMaxResponseBytes, gatewayRequestHeaderBytes, gatewayTagBytes,
      gatewayResponseHeaderBytes]
    omega
  rw [Gateway.serve, whole, parseRequest_requestPacket hmac op requestId slot
    (Nat.lt_of_le_of_lt small (by decide))]
  dsimp only
  rw [Program.ensures_bind]
  exact handled.mono (fun _ always => always) fun outcome _ held => ⟨outcome, held, rfl⟩

/-- How a transaction ends: with what the gateway computed for its request. -/
structure Answers (hmac : Bytes → Digest) (gateway : Transport.Endpoint)
    (post : Gateway.Outcome → StateTexts → Prop)
    (recordScratch : List.Vector UInt8 fabricRecordBytes) (outcome : Gateway.Outcome)
    (client' : FabricUdpClient) (link' : Link) : Prop where
  holds : post outcome link'.state
  ready : Ready hmac gateway client' link'.queue
  lastStatus : client'.lastStatus = outcome.status
  recordScratch : client'.recordScratch = recordScratch

theorem attempt_delivered {requestId : UInt32} {post : Gateway.Outcome → StateTexts → Prop}
    (address : client.gateway = gateway) (advanced : client.nextRequestId ≠ requestId)
    (stale : ∀ b ∈ link.queue, Stale hmac requestId b) (small : payload.length ≤ fabricRecordBytes)
    (handled : (Gateway.handle ⟨op, requestId, slot, payload⟩).Ensures Gateway.Committed
      (fun _ => True) (fun outcome state => post outcome state ∧
        outcome.payload.length ≤ fabricRecordBytes ∧
        outcome.payload.length ≤ capacity) link.state) :
    Routine.Ensures (Link.Answered hmac gateway) (fun _ => True)
      (fun result client' link' => ∃ outcome, result = accepted outcome ∧
        Answers hmac gateway post client.recordScratch outcome client' link')
      (attempt op requestId capacity (requestPacket hmac op requestId slot payload)) client
      link := by
  refine Routine.Ensures.perform fun _ link₁ discarded => ⟨trivial, ?_⟩
  cases discarded with
  | discardPending arrived rest queued =>
      refine Routine.Ensures.perform fun beginUs link₂ read => ⟨trivial, ?_⟩
      cases read with
      | micros =>
          refine Routine.Ensures.perform fun sent link₃ answered => ⟨trivial, ?_⟩
          have serves := @serve_requestPacket hmac _ _ _ _ _ _ small handled
          cases answered with
          | rejected served =>
              obtain ⟨outcome, -, absent⟩ := served.post_of_done serves trivial
              cases absent
          | @sendPacket _ _ state delay served =>
              obtain ⟨outcome, ⟨holds, fits, room⟩, answer⟩ := served.post_of_done serves trivial
              cases Option.some.inj answer
              simp only [Routine.ensures_bind (r := guard _), Routine.ensures_guard,
                Routine.ensures_bind (r := modify _), Routine.ensures_modify]
              refine ⟨fun _ => ?_, fun unsent => absurd trivial unsent⟩
              refine Routine.Ensures.perform fun rounds link₄ polled => ⟨trivial, ?_⟩
              cases polled with
              | pollRounds rounds enough =>
                  have old : ∀ b ∈ rest, Stale hmac requestId b := fun b mem =>
                    stale b (by rw [queued]; exact List.mem_append_right _ mem)
                  have waits : delay + rest.length < rounds := by
                    simp only [List.length_append] at enough
                    omega
                  have copies : (⟨state, rest ++ List.replicate 3 (Gateway.response hmac
                      ⟨op, requestId, slot, payload⟩ outcome), delay⟩ : Link).queue =
                        rest ++ Gateway.response hmac ⟨op, requestId, slot, payload⟩ outcome ::
                          List.replicate 2 (Gateway.response hmac ⟨op, requestId, slot, payload⟩
                            outcome) := rfl
                  refine Routine.Ensures.mono (awaitAnswer_delivered rounds ?_ rfl rfl fits room old
                    copies waits) ?_
                  · exact address
                  · rintro result client' link' ⟨same, received, state, queue⟩
                    refine ⟨outcome, same, state ▸ holds, ⟨received.gateway.trans address, ?_⟩,
                      received.lastStatus, received.recordScratch⟩
                    intro b mem
                    rw [queue] at mem
                    obtain rfl := List.eq_of_mem_replicate mem
                    refine ⟨_, outcome, rfl, fits, ?_⟩
                    rw [received.nextRequestId]
                    exact advanced.symm

/-- A transaction returns what the gateway computed for its request. -/
theorem transact_delivered {post : Gateway.Outcome → StateTexts → Prop}
    (ready : Ready hmac gateway client link.queue) (small : payload.length ≤ fabricRecordBytes)
    (handled : (Gateway.handle ⟨op, client.nextRequestId, slot, payload⟩).Ensures Gateway.Committed
      (fun _ => True) (fun outcome state => post outcome state ∧
        outcome.payload.length ≤ capacity) link.state) :
    Routine.Ensures (Link.Answered hmac gateway) (fun _ => True)
      (fun result client' link' => ∃ outcome,
        result = (if outcome.status = gwOk then some outcome.payload else none) ∧
        Answers hmac gateway post client.recordScratch outcome client' link')
      (transact op capacity slot payload) client link := by
  have room : gatewayRequestHeaderBytes + payload.length + gatewayTagBytes ≤
      gatewayMaxRequestBytes := by
    simp only [gatewayMaxRequestBytes]
    omega
  have sized : (Gateway.handle ⟨op, client.nextRequestId, slot, payload⟩).Ensures Gateway.Committed
      (fun _ => True) (fun outcome state => post outcome state ∧
        outcome.payload.length ≤ fabricRecordBytes ∧ outcome.payload.length ≤ capacity)
      link.state := by
    have fits := @Gateway.handle_ensures _ Gateway.Committed link.state
      ⟨op, client.nextRequestId, slot, payload⟩
    exact (handled.and fits).mono (fun _ always => always) fun _ _ held =>
      ⟨held.1.1, held.2, held.1.2⟩
  have advanced : client.nextRequestId + 1 ≠ client.nextRequestId := by
    intro same
    have apart := congrArg UInt32.toNat same
    rw [UInt32.toNat_add] at apart
    have bound := client.nextRequestId.toNat_lt
    simp only [UInt32.toNat_one] at apart
    omega
  simp only [transact, Routine.ensures_bind (r := guard _), Routine.ensures_guard,
    Routine.ensures_bind (r := get), Routine.ensures_get, Routine.ensures_bind (r := modify _),
    Routine.ensures_modify]
  refine ⟨fun _ => ?_, fun long => absurd room long⟩
  rw [computeTag, Routine.ensures_bind]
  refine Routine.Ensures.perform fun tag link₁ answered => ⟨trivial, ?_⟩
  cases answered with
  | hmacSha256 =>
      dsimp only
      rw [Routine.ensures_pure]
      dsimp only
      have attempted := @attempt_delivered hmac gateway
        { client with nextRequestId := client.nextRequestId + 1 } link op slot payload capacity _
        post ready.gateway advanced ready.stale small sized
      change Routine.Ensures _ _ _ (attempts op client.nextRequestId capacity
        (requestPacket hmac op client.nextRequestId slot payload) (5 + 1)) _ _
      rw [attempts]
      refine attempted.bind ?_ ?_
      · rintro client' link' ⟨outcome, refused, answers⟩
        rw [accepted] at refused
        split at refused
        · cases refused
        · exact ⟨outcome, by rw [if_neg ‹_›], answers⟩
      · rintro result client' link' ⟨outcome, same, answers⟩
        rw [accepted] at same
        split at same
        · cases Option.some.inj same
          exact ⟨outcome, by rw [if_pos ‹_›], answers⟩
        · cases same

end Transactions

end Apqe.FabricUdpClient
