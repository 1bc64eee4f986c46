import PostQuantumUav.Apqe.FabricUdpClient
import PostQuantumUav.Apqe.Gateway

/-!
# The packets between client and gateway

The C++ client and the Go gateway place the same fields at the same offsets: the
gateway parses a request as the one it was built from, and the client finds the
fields of an answer where the gateway put them.
-/

namespace Apqe

open Cell Buffer

variable (hmac : Bytes → Digest)

/-- A request as the client sends it. -/
def requestPacket (op : UInt8) (requestId : UInt32) (slot : UInt16) (payload : Bytes) : Bytes :=
  let body := FabricUdpClient.requestBody op requestId slot payload
  body ++ (hmac body).toList

theorem length_requestBody (op : UInt8) (requestId : UInt32) (slot : UInt16) (payload : Bytes) :
    (FabricUdpClient.requestBody op requestId slot payload).length =
      gatewayRequestHeaderBytes + payload.length := by
  simp only [FabricUdpClient.requestBody, List.length_append, length_putU16, length_putU32,
    List.length_cons, List.length_nil]

theorem length_requestPacket (op : UInt8) (requestId : UInt32) (slot : UInt16) (payload : Bytes) :
    (requestPacket hmac op requestId slot payload).length =
      gatewayRequestHeaderBytes + payload.length + gatewayTagBytes := by
  rw [requestPacket, List.length_append, length_requestBody, List.Vector.toList_length]

/-- The gateway parses what the client sends. -/
theorem parseRequest_requestPacket (op : UInt8) (requestId : UInt32) (slot : UInt16)
    {payload : Bytes} (small : payload.length < 2 ^ 16) :
    Gateway.parseRequest hmac (requestPacket hmac op requestId slot payload) =
      .ok ⟨op, requestId, slot, payload⟩ := by
  have sized := length_requestPacket hmac op requestId slot payload
  have bodySized := length_requestBody op requestId slot payload
  have magic : getU16 (slice (requestPacket hmac op requestId slot payload) 0 2) =
      gatewayMagic := by
    change getU16 (putU16 gatewayMagic) = _
    exact getU16_putU16 gatewayMagic []
  have version : readByte (requestPacket hmac op requestId slot payload) 2 = gatewayVersion := rfl
  have operation : readByte (requestPacket hmac op requestId slot payload) 3 = op := rfl
  have number : getU32 (slice (requestPacket hmac op requestId slot payload) 4 4) = requestId := by
    change getU32 (putU32 requestId) = _
    exact getU32_putU32_self requestId
  have slots : getU16 (slice (requestPacket hmac op requestId slot payload) 8 2) = slot := by
    change getU16 (putU16 slot) = _
    exact getU16_putU16 slot []
  have count : (getU16 (slice (requestPacket hmac op requestId slot payload) 10 2)).toNat =
      payload.length := by
    change (getU16 (putU16 (.ofNat payload.length))).toNat = _
    have read := getU16_putU16 (.ofNat payload.length) ([] : Bytes)
    rw [List.append_nil] at read
    rw [read, UInt16.toNat_ofNat_of_lt' small]
  have content : slice (requestPacket hmac op requestId slot payload) 12 payload.length =
      payload := by
    change (payload ++ _).take payload.length = payload
    exact List.take_left
  have front : (requestPacket hmac op requestId slot payload).take
      (gatewayRequestHeaderBytes + payload.length) =
        FabricUdpClient.requestBody op requestId slot payload := by
    rw [← bodySized]
    exact List.take_left
  have back : (requestPacket hmac op requestId slot payload).drop
      (gatewayRequestHeaderBytes + payload.length) =
        (hmac (FabricUdpClient.requestBody op requestId slot payload)).toList := by
    rw [← bodySized]
    exact List.drop_left
  unfold Gateway.parseRequest
  simp only [count]
  rw [if_neg (by rw [sized]; omega), if_neg (by rw [magic, version]; simp),
    if_neg (by rw [sized]; simp), if_neg (by rw [front, back]; simp), operation, number, slots,
    content]

/-- The fields of an answer, as the client reads them. -/
structure AnswerFields (hmac : Bytes → Digest) (request : Gateway.Request)
    (outcome : Gateway.Outcome) (answer : Bytes) : Prop where
  length : answer.length =
    gatewayResponseHeaderBytes + outcome.payload.length + gatewayTagBytes
  magic : getU16 (slice answer 0 2) = gatewayMagic
  version : readByte answer 2 = gatewayVersion
  op : readByte answer 3 = request.op ||| 0x80
  requestID : getU32 (slice answer 4 4) = request.requestID
  status : readByte answer 8 = outcome.status
  fabricUS : getU64 (slice answer 9 8) = outcome.fabricUS
  payloadLength : (getU16 (slice answer 17 2)).toNat = outcome.payload.length
  payload : slice answer gatewayResponseHeaderBytes outcome.payload.length = outcome.payload
  tag : slice answer (gatewayResponseHeaderBytes + outcome.payload.length) gatewayTagBytes =
    (hmac (answer.take (gatewayResponseHeaderBytes + outcome.payload.length))).toList

/-- The client finds every field where the gateway wrote it. -/
theorem answerFields_response (request : Gateway.Request) {outcome : Gateway.Outcome}
    (small : outcome.payload.length ≤ fabricRecordBytes) :
    AnswerFields hmac request outcome (Gateway.response hmac request outcome) := by
  obtain ⟨op, requestID, slot, requested⟩ := request
  obtain ⟨status, fabricUS, payload⟩ := outcome
  change payload.length ≤ fabricRecordBytes at small
  have bodySized : (Gateway.responseBody op requestID status fabricUS payload).length =
      gatewayResponseHeaderBytes + payload.length := by
    simp only [Gateway.responseBody, List.length_append, length_putU16, length_putU32,
      length_putU64, List.length_cons, List.length_nil]
  have read := getU16_putU16 (.ofNat payload.length) ([] : Bytes)
  rw [List.append_nil] at read
  have front : (Gateway.response hmac ⟨op, requestID, slot, requested⟩
      ⟨status, fabricUS, payload⟩).take (gatewayResponseHeaderBytes + payload.length) =
        Gateway.responseBody op requestID status fabricUS payload := by
    rw [← bodySized]
    exact List.take_left
  constructor
  · rw [Gateway.response, Gateway.buildResponse, List.length_append, bodySized,
      List.Vector.toList_length]
  · change getU16 (putU16 gatewayMagic) = _
    exact getU16_putU16 gatewayMagic []
  · rfl
  · rfl
  · change getU32 (putU32 requestID) = _
    exact getU32_putU32_self requestID
  · rfl
  · change getU64 (putU64 fabricUS) = _
    exact getU64_putU64_self fabricUS
  · change (getU16 (putU16 (.ofNat payload.length))).toNat = _
    rw [read, UInt16.toNat_ofNat_of_lt' (Nat.lt_of_le_of_lt small (by decide))]
  · change (payload ++ _).take payload.length = payload
    exact List.take_left
  · dsimp only
    rw [front, slice, ← bodySized]
    change (List.drop _ (Gateway.responseBody op requestID status fabricUS payload ++ _)).take _ = _
    rw [List.drop_left]
    exact List.take_of_length_le (Nat.le_of_eq (List.Vector.toList_length _))

end Apqe
