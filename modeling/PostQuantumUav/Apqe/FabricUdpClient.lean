import PostQuantumUav.Apqe.Constants
import PostQuantumUav.Library.Bytes.Buffer
import PostQuantumUav.Library.Interaction.Routine
import PostQuantumUav.Transport.Basic

/-!
# The client of the ledger gateway

`FabricUdpClient.cpp` as routines over the client object. The socket, the clock in
microseconds and HMAC-SHA256 under the shared key are calls; the timeout enters
through the number of rounds of the wait loop that fit into it.

The fields of a request are written one after the other, so a request is their
concatenation. An answer is read into `m_rx`, which keeps older bytes behind a
shorter one. The counters that a caller passes by reference are part of the object.
-/

namespace Apqe

open Interaction Cell Buffer

abbrev Digest := List.Vector UInt8 hashBytes

/-- The counters that the callers of `transact` pass by reference. -/
structure GatewayUsage where
  fabricUs : UInt64
  wallUs : UInt64
  appTx : UInt32
  appRx : UInt32

structure FabricUdpClient where
  gateway : Transport.Endpoint
  nextRequestId : UInt32
  lastStatus : UInt8
  rx : List.Vector UInt8 gatewayMaxResponseBytes
  recordScratch : List.Vector UInt8 fabricRecordBytes
  usage : GatewayUsage

namespace FabricUdpClient

/-- The constructor and `begin`. -/
def start (gateway : Transport.Endpoint) (usage : GatewayUsage) : FabricUdpClient where
  gateway := gateway
  nextRequestId := 1
  lastStatus := gwBadRequest
  rx := List.Vector.replicate _ 0
  recordScratch := List.Vector.replicate _ 0
  usage := usage

inductive Call where
  /-- Read and drop the packets that wait in the socket. -/
  | discardPending
  | hmacSha256 (data : Bytes)
  | micros
  /-- `beginPacket`, `write` and `endPacket`; false if one of them reports an error. -/
  | sendPacket (request : Bytes)
  /-- The rounds of the wait loop until the timeout. -/
  | pollRounds
  | parsePacket

def calls : Signature where
  Call := Call
  Answer
    | .discardPending => Unit
    | .hmacSha256 _ => Option Digest
    | .micros => UInt32
    | .sendPacket _ => Bool
    | .pollRounds => Nat
    | .parsePacket => Option Transport.Packet

/-- A method of the client; one that returns false fails. -/
abbrev Method (α : Type) := Routine calls FabricUdpClient α

section Calls

def discardPending : Method Unit := @Routine.perform calls _ .discardPending

def micros : Method UInt32 := @Routine.perform calls _ .micros

def sendPacket (request : Bytes) : Method Bool := @Routine.perform calls _ (.sendPacket request)

def pollRounds : Method Nat := @Routine.perform calls _ .pollRounds

def parsePacket : Method (Option Transport.Packet) := @Routine.perform calls _ .parsePacket

/-- `CryptoHelpers::hmacSha256`; an error makes the caller return false. -/
def computeTag (data : Bytes) : Method Digest := do
  let some tag ← @Routine.perform calls _ (.hmacSha256 data) | failure
  pure tag

end Calls

section Records

def serializeCredential (credential : FabricCredential) : Bytes :=
  credential.identityHash.toList ++ credential.tid.toList ++ credential.publicKey.toList ++
    credential.w.toList ++ credential.verifyHash.toList

def parseCredential (record : List.Vector UInt8 fabricRecordBytes) : FabricCredential where
  identityHash := block record 0 32 (by decide)
  tid := block record 32 32 (by decide)
  publicKey := block record 64 800 (by decide)
  w := block record 864 32 (by decide)
  verifyHash := block record 896 32 (by decide)

end Records

section Transactions

/-- The authenticated part of a request. -/
def requestBody (op : UInt8) (requestId : UInt32) (slot : UInt16) (payload : Bytes) : Bytes :=
  putU16 gatewayMagic ++ [gatewayVersion, op] ++ putU32 requestId ++ putU16 slot ++
    putU16 (.ofNat payload.length) ++ payload

variable (op : UInt8) (requestId : UInt32) (responseCapacity : Nat) (beginUs : UInt32)

/-- The fields of an answer of `got` bytes that are compared before its tag. -/
def Matches (got : Nat) (answer : Bytes) : Prop :=
  getU16 (slice answer 0 2) = gatewayMagic ∧ readByte answer 2 = gatewayVersion ∧
    readByte answer 3 = op ||| 0x80 ∧ getU32 (slice answer 4 4) = requestId ∧
    gatewayResponseHeaderBytes + (getU16 (slice answer 17 2)).toNat + gatewayTagBytes = got

instance (got : Nat) (answer : Bytes) : Decidable (Matches op requestId got answer) :=
  inferInstanceAs (Decidable (_ ∧ _ ∧ _ ∧ _ ∧ _))

/-- The body of the wait loop for one packet: the payload of the answer, or nothing where the
loop continues. -/
def examine (packet : Transport.Packet) : Method (Option Bytes) := do
  let got := packet.bytes.length
  if got > gatewayMaxResponseBytes then return none
  modify fun client => { client with rx := overwrite client.rx packet.bytes }
  if got < gatewayResponseHeaderBytes + gatewayTagBytes then return none
  let client ← get
  if packet.source ≠ client.gateway then return none
  let answer := client.rx.toList
  if ¬ Matches op requestId got answer then return none
  let receivedPayloadLength := (getU16 (slice answer 17 2)).toNat
  let authenticated := gatewayResponseHeaderBytes + receivedPayloadLength
  let expectedTag ← computeTag (answer.take authenticated)
  if ¬ Puav.constantTimeEqual expectedTag.toList (slice answer authenticated gatewayTagBytes)
      gatewayTagBytes then return none
  let now ← micros
  modify fun client => { client with
    lastStatus := readByte answer 8
    usage := { client.usage with
      wallUs := client.usage.wallUs + (now.toUInt64 - beginUs.toUInt64)
      appRx := client.usage.appRx + .ofNat got
      fabricUs := client.usage.fabricUs + getU64 (slice answer 9 8) } }
  guard (readByte answer 8 = gwOk)
  guard (receivedPayloadLength ≤ responseCapacity)
  return some (slice answer gatewayResponseHeaderBytes receivedPayloadLength)

/-- The wait loop of one attempt. -/
def awaitAnswer : Nat → Method (Option Bytes)
  | 0 => pure none
  | rounds + 1 => do
      match ← parsePacket with
      | none => awaitAnswer rounds
      | some packet =>
          match ← examine op requestId responseCapacity beginUs packet with
          | none => awaitAnswer rounds
          | some payload => pure (some payload)

def attempt (request : Bytes) : Method (Option Bytes) := do
  discardPending
  let beginUs ← micros
  let sent ← sendPacket request
  guard (sent = true)
  modify fun client => { client with
    usage := { client.usage with appTx := client.usage.appTx + .ofNat request.length } }
  let rounds ← pollRounds
  awaitAnswer op requestId responseCapacity beginUs rounds

/-- The loop over the attempts. -/
def attempts (request : Bytes) : Nat → Method Bytes
  | 0 => failure
  | retries + 1 => do
      match ← attempt op requestId responseCapacity request with
      | some payload => pure payload
      | none => attempts request retries

/-- `transact`, which returns the payload of the answer. -/
def transact (slot : UInt16) (payload : Bytes) : Method Bytes := do
  guard (gatewayRequestHeaderBytes + payload.length + gatewayTagBytes ≤ gatewayMaxRequestBytes)
  let client ← get
  let requestId := client.nextRequestId
  modify fun client => { client with nextRequestId := client.nextRequestId + 1 }
  let body := requestBody op requestId slot payload
  let tag ← computeTag body
  attempts op requestId responseCapacity (body ++ tag.toList) gatewayRetries

end Transactions

section Operations

/-- A caller that keeps only the time of the ledger. -/
def keepingFabricUs {α : Type} (r : Method α) : Method α := do
  let before ← get
  let result ← Routine.attempt r
  modify fun client => { client with
    usage := { before.usage with fabricUs := client.usage.fabricUs } }
  let some value := result | failure
  pure value

def ping : Method Unit := do
  let _ ← keepingFabricUs (transact gwPing 0 0 [])

def putCredential (slot : UInt16) (credential : FabricCredential) : Method Unit := do
  modify fun client => { client with
    recordScratch := overwrite client.recordScratch (serializeCredential credential) }
  let client ← get
  let _ ← keepingFabricUs (transact gwPutCredential 0 slot client.recordScratch.toList)

/-- The end of both queries: the payload goes to the scratch record first. -/
def credentialOf (payload : Bytes) : Method FabricCredential := do
  modify fun client => { client with recordScratch := overwrite client.recordScratch payload }
  guard (payload.length = fabricRecordBytes)
  let client ← get
  pure (parseCredential client.recordScratch)

def queryByIdentitySlot (identityHash : Block) (slot : UInt16) : Method FabricCredential := do
  let payload ← transact gwQueryIdSlot fabricRecordBytes slot identityHash.toList
  credentialOf payload

def queryByTid (tid : Block) : Method FabricCredential := do
  let payload ← transact gwQueryTid fabricRecordBytes 0 tid.toList
  credentialOf payload

end Operations

end FabricUdpClient

end Apqe
