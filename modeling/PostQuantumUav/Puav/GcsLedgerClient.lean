import PostQuantumUav.Library.Bytes.Buffer
import PostQuantumUav.Library.Interaction.Routine
import PostQuantumUav.Puav.Lms.Basic
import PostQuantumUav.Transport.Basic

/-!
# The client of the ledger server

`GcsLedgerClient.cpp` as routines over the client object. The socket, the clock
and HMAC-SHA256 under the shared ledger key are calls. The clock enters only
through the number of rounds of the wait loop that fit into the timeout.

A reply is read into `m_buffer`, which keeps older bytes behind a shorter reply;
requests are built in a zeroed buffer of their size.
-/

namespace Puav

open Interaction Cell Buffer

abbrev Identity := List.Vector UInt8 idBytes

/-- `PeerPublicRecord`. -/
structure PeerPublicRecord where
  ready : Bool
  version : UInt32
  identifier : Identifier
  root : Digest
  suiteId : UInt32
  status : UInt8
  expiryUnix : UInt64

/-- `RepositoryOperationMetrics`. -/
structure RepositoryOperationMetrics where
  elapsedUs : UInt64
  txBytes : UInt32
  rxBytes : UInt32

abbrev maxGcsPacketBytes : Nat := 400

structure GcsLedgerClient where
  gcs : Transport.Endpoint
  deviceId : Identity
  peerId : Identity
  buffer : List.Vector UInt8 maxGcsPacketBytes
  txBytes : UInt32
  rxBytes : UInt32

namespace GcsLedgerClient

def magic : Bytes := [0x47, 0x43, 0x53, 0x32]

def opEnrollRoot : UInt8 := 1
def opEnrollPath : UInt8 := 2
def opGetRoot : UInt8 := 3
def opGetPath : UInt8 := 4
def opRootRecord : UInt8 := 5
def opPathRecord : UInt8 := 6
def opAck : UInt8 := 7
def opNotFound : UInt8 := 8

abbrev rootRecordBytes : Nat := 140
abbrev pathRecordBytes : Nat := 400
abbrev getRootBytes : Nat := 108
abbrev getPathBytes : Nat := 112
abbrev ackBytes : Nat := 84

abbrev gcsRetries : Nat := 4
abbrev waitRounds : Nat := 120

/-- `UINT32_MAX` as an expected leaf index: the reply's index is not compared. -/
def anyQ : UInt32 := 0xffffffff

inductive Call where
  /-- Read and drop the packets that wait in the socket. -/
  | discardPending
  | hmacSha256 (data : Bytes)
  /-- `beginPacket`, `write` and `endPacket`; false if one of them reports an error. -/
  | sendPacket (request : Bytes)
  /-- The rounds of the wait loop until the timeout. -/
  | pollRounds
  | parsePacket
  | espTimer

/-- The calls that a client makes. -/
def calls : Signature where
  Call := Call
  Answer
    | .discardPending => Unit
    | .hmacSha256 _ => Option Digest
    | .sendPacket _ => Bool
    | .pollRounds => Nat
    | .parsePacket => Option Transport.Packet
    | .espTimer => UInt64

/-- A method of the client; one that returns false fails. -/
abbrev Method (α : Type) := Routine calls GcsLedgerClient α

section Calls

def discardPending : Method Unit := @Routine.perform calls _ .discardPending

def computeTag (data : Bytes) : Method (Option Digest) :=
  @Routine.perform calls _ (.hmacSha256 data)

def sendPacket (request : Bytes) : Method Bool := @Routine.perform calls _ (.sendPacket request)

def pollRounds : Method Nat := @Routine.perform calls _ .pollRounds

def parsePacket : Method (Option Transport.Packet) := @Routine.perform calls _ .parsePacket

def espTimer : Method UInt64 := @Routine.perform calls _ .espTimer

end Calls

section Waiting

variable (expectedOp : UInt8) (expectedVersion expectedQ : UInt32)

/-- The checks on an authenticated reply; a field that its op does not carry counts as zero. -/
def Expected (reply : Bytes) : Prop :=
  let receivedOp := readByte reply 4
  let receivedVersion : UInt32 :=
    if receivedOp = opAck ∨ receivedOp = opRootRecord ∨ receivedOp = opPathRecord then
      getU32 (slice reply 40 4)
    else 0
  let receivedQ : UInt32 :=
    if receivedOp = opAck ∨ receivedOp = opPathRecord then getU32 (slice reply 44 4) else 0
  receivedOp = expectedOp ∧ receivedVersion = expectedVersion ∧
    (expectedQ = anyQ ∨ receivedQ = expectedQ)

instance (reply : Bytes) : Decidable (Expected expectedOp expectedVersion expectedQ reply) :=
  inferInstanceAs (Decidable (_ ∧ _ ∧ _))

/-- The body of the wait loop for one packet: its length if it is the expected reply,
nothing where the loop continues, a failure for NOT_FOUND. -/
def examine (packet : Transport.Packet) : Method (Option Nat) := do
  let readLength := packet.bytes.length
  if readLength > maxGcsPacketBytes then return none
  modify fun client => { client with buffer := overwrite client.buffer packet.bytes }
  if readLength < 8 + hmacBytes then return none
  modify fun client => { client with rxBytes := client.rxBytes + .ofNat readLength }
  let client ← get
  let reply := client.buffer.toList
  if packet.source ≠ client.gcs ∨ slice reply 0 4 ≠ magic then return none
  let expectedTag ← computeTag (reply.take (readLength - hmacBytes))
  let authentic := expectedTag.any fun tag =>
    constantTimeEqual (slice reply (readLength - hmacBytes) hmacBytes) tag.toList hmacBytes
  if ¬ authentic then return none
  if readByte reply 4 = opNotFound then failure
  if Expected expectedOp expectedVersion expectedQ reply then return some readLength
  else return none

/-- The wait loop of one attempt. -/
def awaitReply : Nat → Method (Option Nat)
  | 0 => pure none
  | rounds + 1 => do
      match ← parsePacket with
      | none => awaitReply rounds
      | some packet =>
          match ← examine expectedOp expectedVersion expectedQ packet with
          | none => awaitReply rounds
          | some responseLength => pure (some responseLength)

def attempt (request : Bytes) : Method (Option Nat) := do
  let sent ← sendPacket request
  guard (sent = true)
  modify fun client => { client with txBytes := client.txBytes + .ofNat request.length }
  let rounds ← pollRounds
  awaitReply expectedOp expectedVersion expectedQ rounds

/-- The loop over the attempts. -/
def attempts (request : Bytes) : Nat → Method Nat
  | 0 => failure
  | retries + 1 => do
      match ← attempt expectedOp expectedVersion expectedQ request with
      | some responseLength => pure responseLength
      | none => attempts request retries

/-- `sendAndReceive`, which returns the length of the reply that `m_buffer` then holds. -/
def sendAndReceive (request : Bytes) : Method Nat := do
  discardPending
  attempts expectedOp expectedVersion expectedQ request gcsRetries

end Waiting

section Requests

variable (deviceId : Identity)

/-- The common head of all requests. -/
def requestHead (length : Nat) (op : UInt8) : Bytes :=
  let request := zeros length
  let request := memcpy request 0 magic
  let request := memcpy request 4 [op]
  memcpy request 8 deviceId.toList

def enrollRootRequest (version : UInt32) (identifier : Identifier) (root : Digest)
    (suiteId : UInt32) (status : UInt8) (expiryUnix : UInt64) : Bytes :=
  let request := requestHead deviceId rootRecordBytes opEnrollRoot
  let request := memcpy request 40 (putU32 version)
  let request := memcpy request 44 identifier.toList
  let request := memcpy request 60 root.toList
  let request := memcpy request 92 (putU32 suiteId)
  let request := memcpy request 96 [status]
  memcpy request 100 (putU64 expiryUnix)

def enrollPathRequest (version q : UInt32) (path : Path) : Bytes :=
  let request := requestHead deviceId pathRecordBytes opEnrollPath
  let request := memcpy request 40 (putU32 version)
  let request := memcpy request 44 (putU32 q)
  memcpy request 48 path.toList

def getRootRequest (peerId : Identity) (version : UInt32) : Bytes :=
  let request := requestHead deviceId getRootBytes opGetRoot
  let request := memcpy request 40 peerId.toList
  memcpy request 72 (putU32 version)

def getPathRequest (peerId : Identity) (version q : UInt32) : Bytes :=
  let request := requestHead deviceId getPathBytes opGetPath
  let request := memcpy request 40 peerId.toList
  let request := memcpy request 72 (putU32 version)
  memcpy request 76 (putU32 q)

/-- Write a tag over the last 32 bytes of a request. -/
def withTag (request : Bytes) (tag : Digest) : Bytes :=
  memcpy request (request.length - hmacBytes) tag.toList

section Fields

variable (tag : Digest)

theorem length_enrollRootRequest (version : UInt32) (identifier : Identifier) (root : Digest)
    (suiteId : UInt32) (status : UInt8) (expiryUnix : UInt64) :
    (enrollRootRequest deviceId version identifier root suiteId status expiryUnix).length =
      rootRecordBytes := by
  simp [enrollRootRequest, requestHead]

theorem length_enrollPathRequest (version q : UInt32) (path : Path) :
    (enrollPathRequest deviceId version q path).length = pathRecordBytes := by
  simp [enrollPathRequest, requestHead]

/-- The tag covers no field of a root request. -/
theorem enrollRootRequest_fields (version : UInt32) (identifier : Identifier) (root : Digest)
    (suiteId : UInt32) (status : UInt8) (expiryUnix : UInt64) :
    let request := withTag
      (enrollRootRequest deviceId version identifier root suiteId status expiryUnix) tag
    slice request 0 4 = magic ∧ slice request 4 1 = [opEnrollRoot] ∧
      slice request 8 idBytes = deviceId.toList ∧ slice request 40 4 = putU32 version ∧
      slice request 44 16 = identifier.toList ∧ slice request 60 hashBytes = root.toList ∧
      slice request 92 4 = putU32 suiteId ∧ slice request 96 1 = [status] ∧
      slice request 100 8 = putU64 expiryUnix := by
  simp [withTag, enrollRootRequest, requestHead, rootRecordBytes, hmacBytes, idBytes, hashBytes,
    magic]

/-- The tag covers no field of a path request. -/
theorem enrollPathRequest_fields (version q : UInt32) (path : Path) :
    let request := withTag (enrollPathRequest deviceId version q path) tag
    slice request 0 4 = magic ∧ slice request 4 1 = [opEnrollPath] ∧
      slice request 8 idBytes = deviceId.toList ∧ slice request 40 4 = putU32 version ∧
      slice request 44 4 = putU32 q ∧ slice request 48 lmsPathBytes = path.toList := by
  simp [withTag, enrollPathRequest, requestHead, pathRecordBytes, hmacBytes, idBytes,
    lmsPathBytes, magic]

theorem length_getRootRequest (peerId : Identity) (version : UInt32) :
    (getRootRequest deviceId peerId version).length = getRootBytes := by
  simp [getRootRequest, requestHead]

theorem length_getPathRequest (peerId : Identity) (version q : UInt32) :
    (getPathRequest deviceId peerId version q).length = getPathBytes := by
  simp [getPathRequest, requestHead]

/-- The tag covers no field of a root query. -/
theorem getRootRequest_fields (peerId : Identity) (version : UInt32) :
    let request := withTag (getRootRequest deviceId peerId version) tag
    slice request 0 4 = magic ∧ slice request 4 1 = [opGetRoot] ∧
      slice request 8 idBytes = deviceId.toList ∧ slice request 40 idBytes = peerId.toList ∧
      slice request 72 4 = putU32 version := by
  simp [withTag, getRootRequest, requestHead, getRootBytes, hmacBytes, idBytes, magic]

/-- The tag covers no field of a path query. -/
theorem getPathRequest_fields (peerId : Identity) (version q : UInt32) :
    let request := withTag (getPathRequest deviceId peerId version q) tag
    slice request 0 4 = magic ∧ slice request 4 1 = [opGetPath] ∧
      slice request 8 idBytes = deviceId.toList ∧ slice request 40 idBytes = peerId.toList ∧
      slice request 72 4 = putU32 version ∧ slice request 76 4 = putU32 q := by
  simp [withTag, getPathRequest, requestHead, getPathBytes, hmacBytes, idBytes, magic]

end Fields

end Requests

/-- Tag everything before the last 32 bytes of a request. -/
def authenticate (request : Bytes) : Method Bytes := do
  let some tag ← computeTag (request.take (request.length - hmacBytes)) | failure
  return withTag request tag

/-- The end of both enrolments: a full acknowledgement of status zero. -/
def acknowledge (version q : UInt32) (request : Bytes) : Method Unit := do
  let responseLength ← sendAndReceive opAck version q request
  let client ← get
  guard (responseLength = ackBytes ∧ readByte client.buffer.toList 48 = 0)

/-- `enrollOwnRoot`; the code reads through a missing tree, which provisioning excludes. -/
def enrollOwnRoot (lms : LmotsLms) (version suiteId : UInt32) (status : UInt8)
    (expiryUnix : UInt64) : Method Unit := do
  let client ← get
  let some root := lms.root | failure
  let request ← authenticate
    (enrollRootRequest client.deviceId version lms.identifier root suiteId status expiryUnix)
  acknowledge version anyQ request

/-- The loop body of `enrollOwnPaths`. -/
def enrollPath (lms : LmotsLms) (version q : UInt32) : Method Unit := do
  let client ← get
  let some path := lms.extractPath q.toNat | failure
  let request ← authenticate (enrollPathRequest client.deviceId version q path)
  acknowledge version q request

def enrollOwnPaths (lms : LmotsLms) (version firstQ count : UInt32) : Method Unit := do
  guard (¬ (count = 0 ∨ firstQ + count > .ofNat lmsLeaves))
  (List.range count.toNat).forM fun i => enrollPath lms version (firstQ + .ofNat i)

/-- The record that `fetchPeerRoot` reads from a reply. -/
def peerRecord (reply : List.Vector UInt8 maxGcsPacketBytes) : PeerPublicRecord where
  ready := true
  version := getU32 (slice reply.toList 40 4)
  identifier := block reply 44 16
  root := block reply 60 hashBytes
  suiteId := getU32 (slice reply.toList 92 4)
  status := readByte reply.toList 96
  expiryUnix := getU64 (slice reply.toList 100 8)

/-- The waiting rounds of `fetchPeerRoot`; a reply about another device ends them. -/
def fetchRounds (version : UInt32) (request : Bytes) : Nat → Method PeerPublicRecord
  | 0 => failure
  | rounds + 1 => do
      match ← Routine.attempt (sendAndReceive opRootRecord version anyQ request) with
      | none => fetchRounds version request rounds
      | some responseLength =>
          let client ← get
          guard (responseLength = rootRecordBytes ∧
            constantTimeEqual (slice client.buffer.toList 8 idBytes) client.peerId.toList idBytes)
          return peerRecord client.buffer

def fetchPeerRoot (version : UInt32) : Method PeerPublicRecord := do
  let client ← get
  let request ← authenticate (getRootRequest client.deviceId client.peerId version)
  fetchRounds version request waitRounds

/-- `fetchPeerPath`: the path unless it returns false, and the operation's metrics
unless it returns before measuring. -/
def fetchPeerPath (version q : UInt32) : Method (Option Path × RepositoryOperationMetrics) := do
  guard (q < .ofNat lmsLeaves)
  let client ← get
  let request ← authenticate (getPathRequest client.deviceId client.peerId version q)
  let start ← espTimer
  let received ← Routine.attempt (sendAndReceive opPathRecord version q request)
  let stop ← espTimer
  let after ← get
  let metrics := ⟨stop - start, after.txBytes - client.txBytes, after.rxBytes - client.rxBytes⟩
  let path := block after.buffer 48 lmsPathBytes
  if received = some pathRecordBytes ∧
      constantTimeEqual (slice after.buffer.toList 8 idBytes) after.peerId.toList idBytes then
    return (some path, metrics)
  else return (none, metrics)

end GcsLedgerClient

end Puav
