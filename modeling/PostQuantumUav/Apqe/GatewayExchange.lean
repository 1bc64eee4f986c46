import PostQuantumUav.Apqe.GatewayPackets

/-!
# What a transaction with the gateway returns

`transact` against an arbitrary world, described by what it keeps while the client
waits and by what is known of a packet that arrives then. A transaction that returns
true accepted such a packet, from the gateway's address, that echoes its operation
and number and carries the payload that is returned.
-/

namespace Apqe.FabricUdpClient

open Interaction Cell Buffer

/-- What a world keeps during a transaction, and what is known of the packets that arrive. -/
structure Serves {σ : Type} (world : World calls σ) (request : Bytes) (waiting : σ → Prop)
    (arrived : σ → Transport.Packet → Prop) : Prop where
  send : ∀ {s s'} {sent : Bool}, waiting s → world s ⟨.sendPacket request, sent⟩ s' → waiting s'
  quiet : ∀ {s s'} {event : Event calls}, waiting s → world s event s' →
    (∀ request, event.call ≠ .sendPacket request) → waiting s' ∧ ∀ p, arrived s p → arrived s' p
  parse : ∀ {s s'} {packet : Option Transport.Packet}, waiting s →
    world s ⟨.parsePacket, packet⟩ s' → ∀ p, packet = some p → arrived s' p

/-- The packet is an answer that a client with this gateway accepts, with this payload. -/
structure Accepted (gateway : Transport.Endpoint) (op : UInt8) (requestId : UInt32)
    (packet : Transport.Packet) (payload : Bytes) : Prop where
  source : packet.source = gateway
  matches_ : Matches op requestId packet.bytes.length packet.bytes
  status : readByte packet.bytes 8 = gwOk
  payload_eq : slice packet.bytes gatewayResponseHeaderBytes
    (getU16 (slice packet.bytes 17 2)).toNat = payload

/-- The fields that no transaction changes. -/
structure Kept (client client' : FabricUdpClient) : Prop where
  gateway : client'.gateway = client.gateway
  nextRequestId : client'.nextRequestId = client.nextRequestId

theorem Kept.trans {client client' client'' : FabricUdpClient} (first : Kept client client')
    (second : Kept client' client'') : Kept client client'' :=
  ⟨second.gateway.trans first.gateway, second.nextRequestId.trans first.nextRequestId⟩

section Reading

variable {client : FabricUdpClient} {bytes : Bytes}

/-- Behind an answer the buffer keeps older bytes, and the checks do not read them. -/
theorem overwrite_fields (fits : bytes.length ≤ gatewayMaxResponseBytes)
    (long : gatewayResponseHeaderBytes + gatewayTagBytes ≤ bytes.length) (op : UInt8)
    (requestId : UInt32) :
    (Matches op requestId bytes.length (overwrite client.rx bytes).toList ↔
        Matches op requestId bytes.length bytes) ∧
      readByte (overwrite client.rx bytes).toList 8 = readByte bytes 8 ∧
      ∀ offset length, offset + length ≤ bytes.length →
        slice (overwrite client.rx bytes).toList offset length = slice bytes offset length := by
  have read : ∀ offset length, offset + length ≤ bytes.length →
      slice (overwrite client.rx bytes).toList offset length = slice bytes offset length :=
    fun offset length inside => slice_overwrite fits inside
  have cell : ∀ i, i < bytes.length → readByte (overwrite client.rx bytes).toList i =
      readByte bytes i := by
    intro i inside
    exact readByte_congr (read i 1 inside)
  simp only [gatewayResponseHeaderBytes, gatewayTagBytes] at long
  refine ⟨?_, cell 8 (by omega), read⟩
  rw [Matches, Matches, read 0 2 (by omega), cell 2 (by omega), cell 3 (by omega),
    read 4 4 (by omega), read 17 2 (by omega)]

/-- An answer in the buffer, as the client's checks read it. -/
structure AnswerRead (hmac : Bytes → Digest) (request : Gateway.Request) (outcome : Gateway.Outcome)
    (bytes buffer : Bytes) : Prop where
  fits : bytes.length ≤ gatewayMaxResponseBytes
  long : gatewayResponseHeaderBytes + gatewayTagBytes ≤ bytes.length
  matches_ : ∀ op requestId, Matches op requestId bytes.length buffer ↔
    request.op ||| 0x80 = op ||| 0x80 ∧ request.requestID = requestId
  status : readByte buffer 8 = outcome.status
  payloadLength : (getU16 (slice buffer 17 2)).toNat = outcome.payload.length
  front : buffer.take (gatewayResponseHeaderBytes + outcome.payload.length) =
    bytes.take (gatewayResponseHeaderBytes + outcome.payload.length)
  tag : slice buffer (gatewayResponseHeaderBytes + outcome.payload.length) gatewayTagBytes =
    (hmac (bytes.take (gatewayResponseHeaderBytes + outcome.payload.length))).toList
  payload : slice buffer gatewayResponseHeaderBytes outcome.payload.length = outcome.payload

theorem answerRead_response (hmac : Bytes → Digest) (client : FabricUdpClient)
    (request : Gateway.Request) {outcome : Gateway.Outcome}
    (small : outcome.payload.length ≤ fabricRecordBytes) :
    AnswerRead hmac request outcome (Gateway.response hmac request outcome)
      (overwrite client.rx (Gateway.response hmac request outcome)).toList := by
  have fields := answerFields_response hmac request small
  generalize Gateway.response hmac request outcome = bytes at fields
  have sized := fields.length
  have fits : bytes.length ≤ gatewayMaxResponseBytes := by
    simp only [gatewayMaxResponseBytes]
    omega
  have long : gatewayResponseHeaderBytes + gatewayTagBytes ≤ bytes.length := by omega
  obtain ⟨-, status, read⟩ := @overwrite_fields client bytes fits long request.op request.requestID
  refine ⟨fits, long, ?_, status.trans fields.status, ?_, read 0 _ (by omega), ?_, ?_⟩
  · intro op requestId
    rw [(@overwrite_fields client bytes fits long op requestId).1, Matches, fields.magic,
      fields.version, fields.op, fields.requestID, fields.payloadLength, sized]
    simp only [true_and, and_true]
  · rw [read 17 2 (by simp only [gatewayResponseHeaderBytes, gatewayTagBytes] at long; omega),
      fields.payloadLength]
  · rw [read _ _ (by omega), fields.tag]
  · rw [read _ _ (by omega), fields.payload]

end Reading

section Exchange

variable {σ : Type} {world : World calls σ} {request : Bytes} {waiting : σ → Prop}
variable {arrived : σ → Transport.Packet → Prop} {client : FabricUdpClient} {s : σ}
variable {op : UInt8} {requestId : UInt32} {capacity : Nat} {beginUs : UInt32}

/-- How a part of a transaction ends: an answer is accepted, or nothing is known. -/
structure Outcome (waiting : σ → Prop) (arrived : σ → Transport.Packet → Prop)
    (client : FabricUdpClient) (op : UInt8) (requestId : UInt32) (result : Option Bytes)
    (client' : FabricUdpClient) (s : σ) : Prop where
  kept : Kept client client'
  waits : waiting s
  accepted : ∀ payload, result = some payload →
    ∃ packet, arrived s packet ∧ Accepted client.gateway op requestId packet payload

theorem Outcome.nothing {client' : FabricUdpClient} (kept : Kept client client')
    (waits : waiting s) : Outcome waiting arrived client op requestId none client' s :=
  ⟨kept, waits, fun _ accepted => nomatch accepted⟩

theorem Outcome.of_kept {client' client'' : FabricUdpClient} {result : Option Bytes}
    (h : Outcome waiting arrived client' op requestId result client'' s)
    (kept : Kept client client') : Outcome waiting arrived client op requestId result client'' s :=
  ⟨kept.trans h.kept, h.waits, kept.gateway ▸ h.accepted⟩

theorem computeTag_ensures (serves : Serves world request waiting arrived) (waits : waiting s)
    (data : Bytes) :
    Routine.Ensures world waiting (fun tag client' t => client' = client ∧ waiting t ∧
      (∀ p, arrived s p → arrived t p) ∧ world s ⟨.hmacSha256 data, tag⟩ t) (computeTag data)
      client s := by
  refine Routine.Ensures.perform fun tag t answered => ?_
  obtain ⟨waits', still⟩ := serves.quiet waits answered nofun
  refine ⟨waits', ?_⟩
  cases tag <;> exact ⟨rfl, waits', still, answered⟩

theorem examine_ensures (serves : Serves world request waiting arrived)
    {packet : Transport.Packet} (waits : waiting s) (present : arrived s packet) :
    Routine.Ensures world waiting (fun result client' t =>
      Outcome waiting arrived client op requestId (result.getD none) client' t)
      (examine op requestId capacity beginUs packet) client s := by
  have same : ∀ {rx lastStatus usage}, Kept client
      { client with rx := rx, lastStatus := lastStatus, usage := usage } := ⟨rfl, rfl⟩
  simp only [examine, Routine.ensures_ite, Routine.ensures_bind (r := modify _),
    Routine.ensures_modify, Routine.ensures_bind (r := get), Routine.ensures_pure,
    Routine.ensures_get]
  refine ⟨fun _ => .nothing same waits, fun fits => ⟨fun _ => .nothing same waits,
    fun long => ⟨fun _ => .nothing same waits, fun source =>
      ⟨fun _ => .nothing same waits, fun fields => ?_⟩⟩⟩⟩
  obtain ⟨matches_, status, read⟩ := @overwrite_fields client packet.bytes (Nat.not_lt.mp fits)
    (Nat.not_lt.mp long) op requestId
  have matched : Matches op requestId packet.bytes.length packet.bytes :=
    matches_.mp (Classical.not_not.mp fields)
  refine (computeTag_ensures serves waits _).bind ?_ ?_
  · rintro _ t ⟨rfl, waits', -⟩
    exact .nothing same waits'
  · rintro tag _ t ⟨rfl, waits', still, -⟩
    rw [Routine.ensures_ite]
    refine ⟨fun _ => .nothing same waits', fun _ => ?_⟩
    refine Routine.Ensures.perform fun now t' answered => ?_
    obtain ⟨waits'', still'⟩ := serves.quiet waits' answered (by rintro _ ⟨⟩)
    refine ⟨waits'', ?_⟩
    simp only [Routine.ensures_bind (r := modify _), Routine.ensures_modify,
      Routine.ensures_bind (r := guard _), Routine.ensures_guard, Routine.ensures_pure]
    refine ⟨fun ok => ⟨fun _ => ⟨same, waits'', ?_⟩, fun _ => .nothing same waits''⟩,
      fun _ => .nothing same waits''⟩
    rintro _ ⟨⟩
    refine ⟨packet, still' packet (still packet present), Classical.not_not.mp source, matched,
      status ▸ ok, ?_⟩
    have count := matched.2.2.2.2
    simp only [gatewayResponseHeaderBytes, gatewayTagBytes] at long count
    rw [read 17 2 (by omega), read _ _ (by simp only [gatewayResponseHeaderBytes]; omega)]

theorem awaitAnswer_ensures (serves : Serves world request waiting arrived) (rounds : Nat)
    (waits : waiting s) :
    Routine.Ensures world waiting (fun result client' t =>
      Outcome waiting arrived client op requestId (result.getD none) client' t)
      (awaitAnswer op requestId capacity beginUs rounds) client s := by
  induction rounds generalizing client s with
  | zero => exact .nothing ⟨rfl, rfl⟩ waits
  | succ rounds ih =>
      refine Routine.Ensures.perform fun packet t answered => ?_
      obtain ⟨waits', -⟩ := serves.quiet waits answered nofun
      refine ⟨waits', ?_⟩
      cases packet with
      | none => exact ih waits'
      | some packet =>
          have present := serves.parse waits answered packet rfl
          refine (examine_ensures serves waits' present).bind ?_ ?_
          · intro client' t' outcome
            exact outcome
          · intro accepted client' t' outcome
            cases accepted with
            | none => exact (ih outcome.waits).mono fun _ _ _ later => later.of_kept outcome.kept
            | some payload => exact outcome

theorem attempt_ensures (serves : Serves world request waiting arrived) (waits : waiting s) :
    Routine.Ensures world waiting (fun result client' t =>
      Outcome waiting arrived client op requestId (result.getD none) client' t)
      (attempt op requestId capacity request) client s := by
  refine Routine.Ensures.perform fun _ s₁ discarded => ?_
  have waits₁ := (serves.quiet waits discarded (by rintro _ ⟨⟩)).1
  refine ⟨waits₁, Routine.Ensures.perform fun beginUs s₂ read => ?_⟩
  have waits₂ := (serves.quiet waits₁ read (by rintro _ ⟨⟩)).1
  refine ⟨waits₂, Routine.Ensures.perform fun sent s₃ answered => ?_⟩
  have waits₃ := serves.send waits₂ answered
  refine ⟨waits₃, ?_⟩
  simp only [Routine.ensures_bind (r := guard _), Routine.ensures_guard,
    Routine.ensures_bind (r := modify _), Routine.ensures_modify]
  refine ⟨fun _ => ?_, fun _ => .nothing ⟨rfl, rfl⟩ waits₃⟩
  refine Routine.Ensures.perform fun rounds s₄ polled => ?_
  have waits₄ := (serves.quiet waits₃ polled (by rintro _ ⟨⟩)).1
  exact ⟨waits₄, (awaitAnswer_ensures serves rounds waits₄).mono fun _ _ _ outcome =>
    outcome.of_kept ⟨rfl, rfl⟩⟩

theorem attempts_ensures (serves : Serves world request waiting arrived) (retries : Nat)
    (waits : waiting s) :
    Routine.Ensures world waiting (fun result client' t =>
      Outcome waiting arrived client op requestId result client' t)
      (attempts op requestId capacity request retries) client s := by
  induction retries generalizing client s with
  | zero => exact .nothing ⟨rfl, rfl⟩ waits
  | succ retries ih =>
      refine (attempt_ensures serves waits).bind ?_ ?_
      · intro client' t outcome
        exact outcome
      · intro accepted client' t outcome
        cases accepted with
        | none => exact (ih outcome.waits).mono fun _ _ _ later => later.of_kept outcome.kept
        | some payload => exact outcome

/-- A transaction returns the payload of an answer that arrived while it waited and echoes its
operation and number. -/
theorem transact_ensures (hmac : Bytes → Digest) {slot : UInt16} {payload : Bytes}
    (serves : Serves world (requestPacket hmac op client.nextRequestId slot payload) waiting
      arrived)
    (honest : ∀ {s s' data} {tag : Digest}, world s ⟨.hmacSha256 data, some tag⟩ s' →
      tag = hmac data) (waits : waiting s) :
    Routine.Ensures world waiting (fun result client' t => client'.gateway = client.gateway ∧
      waiting t ∧ ∀ answer, result = some answer → ∃ packet, arrived t packet ∧
        Accepted client.gateway op client.nextRequestId packet answer)
      (transact op capacity slot payload) client s := by
  simp only [transact, Routine.ensures_bind (r := guard _), Routine.ensures_guard,
    Routine.ensures_bind (r := get), Routine.ensures_get, Routine.ensures_bind (r := modify _),
    Routine.ensures_modify]
  refine ⟨fun _ => ?_, fun _ => ⟨trivial, waits, by rintro _ ⟨⟩⟩⟩
  refine (computeTag_ensures serves waits _).bind ?_ ?_
  · rintro _ t ⟨rfl, waits', -⟩
    exact ⟨rfl, waits', by rintro _ ⟨⟩⟩
  · rintro tag _ t ⟨rfl, waits', -, answered⟩
    obtain rfl := honest answered
    refine (attempts_ensures serves gatewayRetries waits').mono ?_
    intro result client' t' outcome
    exact ⟨outcome.kept.gateway, outcome.waits, outcome.accepted⟩

end Exchange

end Apqe.FabricUdpClient
