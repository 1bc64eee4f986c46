import Mathlib.Data.Vector.Basic
import Mathlib.Logic.Function.Basic
import PostQuantumUav.Library.Bytes.Buffer
import PostQuantumUav.Library.Bytes.Cell

/-!
# The root ledger and path repository

`gcs_ledger_server.py`: the packet formats, the two tables, and one turn of the
main loop. The transport tag is an arbitrary function of the tagged bytes. Python
integers are natural numbers; SQLite refuses those from 2^63 on with an error that
the loop does not catch.

The tables keep the columns that some query reads. The audit file is not read by
the loop and is left out.
-/

namespace Gcs

open Cell Buffer

def magic : Bytes := [0x47, 0x43, 0x53, 0x32]

abbrev tagBytes : Nat := 32
abbrev idBytes : Nat := 32
abbrev pathBytes : Nat := 320

abbrev Tag := List.Vector UInt8 tagBytes

def opEnrollRoot : UInt8 := 1
def opEnrollPath : UInt8 := 2
def opGetRoot : UInt8 := 3
def opGetPath : UInt8 := 4
def opRootRecord : UInt8 := 5
def opPathRecord : UInt8 := 6
def opAck : UInt8 := 7
def opNotFound : UInt8 := 8

abbrev rootRecordBytes : Nat := 140
abbrev pathRecordBytes : Nat := 400
abbrev getRootBytes : Nat := 108
abbrev getPathBytes : Nat := 112
abbrev ackBytes : Nat := 84

def u32be (packet : Bytes) (offset : Nat) : Nat := (getU32 (slice packet offset 4)).toNat

def u64be (packet : Bytes) (offset : Nat) : Nat := (getU64 (slice packet offset 8)).toNat

section Tags

variable (hmac : Bytes → Tag)

def verifyTag (packet : Bytes) : Bool :=
  if packet.length < tagBytes then false
  else
    packet.drop (packet.length - tagBytes) ==
      (hmac (packet.take (packet.length - tagBytes))).toList

/-- Write the tag of everything before them over the last 32 bytes. -/
def withTag (packet : Bytes) : Bytes :=
  memcpy packet (packet.length - tagBytes) (hmac (packet.take (packet.length - tagBytes))).toList

@[simp] theorem length_withTag (packet : Bytes) : (withTag hmac packet).length = packet.length :=
  length_memcpy _ _ _

/-- The tag is written behind every field. -/
theorem slice_withTag {packet : Bytes} {offset length : Nat}
    (before : offset + length ≤ packet.length - tagBytes) :
    slice (withTag hmac packet) offset length = slice packet offset length :=
  slice_memcpy_before before

/-- The tag is that of the bytes before it. -/
theorem drop_withTag {packet : Bytes} (room : tagBytes ≤ packet.length) :
    (withTag hmac packet).drop (packet.length - tagBytes) =
      (hmac ((withTag hmac packet).take (packet.length - tagBytes))).toList := by
  have front : (withTag hmac packet).take (packet.length - tagBytes) =
      packet.take (packet.length - tagBytes) := by
    simpa only [slice, List.drop_zero] using slice_withTag hmac (Nat.le_of_eq (Nat.zero_add _))
  have back : slice (withTag hmac packet) (packet.length - tagBytes) tagBytes =
      (hmac (packet.take (packet.length - tagBytes))).toList :=
    slice_memcpy_self (by omega) (List.Vector.toList_length _)
  rw [front, ← back, slice, List.take_of_length_le]
  rw [List.length_drop, length_withTag]
  omega

theorem verifyTag_withTag {packet : Bytes} (room : tagBytes ≤ packet.length) :
    verifyTag hmac (withTag hmac packet) = true := by
  rw [verifyTag, length_withTag, if_neg (Nat.not_lt.mpr room), drop_withTag hmac room]
  exact beq_self_eq_true _

end Tags

structure RootRecord where
  identifier : Bytes
  root : Bytes
  suiteId : Nat
  status : Nat
  expiryUnix : Nat
  deriving DecidableEq, Repr

/-- The tables `credential_roots` and `lms_paths` by primary key. -/
@[ext] structure Ledger where
  roots : Bytes × Nat → Option RootRecord
  paths : Bytes × Nat × Nat → Option Bytes

/-- The texts of the rejections that the loop prints. -/
abbrev ValueError := String

section Parsing

variable (hmac : Bytes → Tag)

def parseRootRecord (packet : Bytes) : Except ValueError (Bytes × Nat × RootRecord) :=
  if packet.length ≠ rootRecordBytes ∨ packet.take 4 ≠ magic ∨
      readByte packet 4 ≠ opEnrollRoot then .error "invalid root-record format"
  else if ¬ verifyTag hmac packet then .error "invalid root-record HMAC"
  else if (readByte packet 96).toNat > 3 then .error "invalid status"
  else .ok (slice packet 8 32, u32be packet 40,
    ⟨slice packet 44 16, slice packet 60 32, u32be packet 92, (readByte packet 96).toNat,
      u64be packet 100⟩)

def parsePathRecord (packet : Bytes) : Except ValueError (Bytes × Nat × Nat × Bytes) :=
  if packet.length ≠ pathRecordBytes ∨ packet.take 4 ≠ magic ∨
      readByte packet 4 ≠ opEnrollPath then .error "invalid path-record format"
  else if ¬ verifyTag hmac packet then .error "invalid path-record HMAC"
  else
    let path := slice packet 48 320
    if u32be packet 44 ≥ 1024 ∨ path.length ≠ pathBytes then .error "invalid LMS path"
    else .ok (slice packet 8 32, u32be packet 40, u32be packet 44, path)

def parseGetRoot (packet : Bytes) : Except ValueError (Bytes × Bytes × Nat) :=
  if packet.length ≠ getRootBytes ∨ packet.take 4 ≠ magic ∨ readByte packet 4 ≠ opGetRoot then
    .error "invalid GET_ROOT format"
  else if ¬ verifyTag hmac packet then .error "invalid GET_ROOT HMAC"
  else .ok (slice packet 8 32, slice packet 40 32, u32be packet 72)

def parseGetPath (packet : Bytes) : Except ValueError (Bytes × Bytes × Nat × Nat) :=
  if packet.length ≠ getPathBytes ∨ packet.take 4 ≠ magic ∨ readByte packet 4 ≠ opGetPath then
    .error "invalid GET_PATH format"
  else if ¬ verifyTag hmac packet then .error "invalid GET_PATH HMAC"
  else if u32be packet 76 ≥ 1024 then .error "q outside h=10 tree"
  else .ok (slice packet 8 32, slice packet 40 32, u32be packet 72, u32be packet 76)

end Parsing

section Building

variable (hmac : Bytes → Tag)

/-- The common form of `build_ack` and `build_not_found`. -/
def statusPacket (op : UInt8) (id : Bytes) (version q : Nat) (status : UInt8) : Bytes :=
  let packet := zeros ackBytes
  let packet := memcpy packet 0 magic
  let packet := memcpy packet 4 [op]
  let packet := memcpy packet 8 id
  let packet := memcpy packet 40 (putU32 (.ofNat version))
  let packet := memcpy packet 44 (putU32 (.ofNat q))
  let packet := memcpy packet 48 [status]
  withTag hmac packet

def buildAck (deviceId : Bytes) (version q : Nat) (status : UInt8) : Bytes :=
  statusPacket hmac opAck deviceId version q status

def buildNotFound (targetId : Bytes) (version q : Nat) : Bytes :=
  statusPacket hmac opNotFound targetId version q 1

def buildRootResponse (deviceId : Bytes) (version : Nat) (record : RootRecord) : Bytes :=
  let packet := zeros rootRecordBytes
  let packet := memcpy packet 0 magic
  let packet := memcpy packet 4 [opRootRecord]
  let packet := memcpy packet 8 deviceId
  let packet := memcpy packet 40 (putU32 (.ofNat version))
  let packet := memcpy packet 44 record.identifier
  let packet := memcpy packet 60 record.root
  let packet := memcpy packet 92 (putU32 (.ofNat record.suiteId))
  let packet := memcpy packet 96 [.ofNat record.status]
  let packet := memcpy packet 100 (putU64 (.ofNat record.expiryUnix))
  withTag hmac packet

def buildPathResponse (deviceId : Bytes) (version q : Nat) (path : Bytes) : Bytes :=
  let packet := zeros pathRecordBytes
  let packet := memcpy packet 0 magic
  let packet := memcpy packet 4 [opPathRecord]
  let packet := memcpy packet 8 deviceId
  let packet := memcpy packet 40 (putU32 (.ofNat version))
  let packet := memcpy packet 44 (putU32 (.ofNat q))
  let packet := memcpy packet 48 path
  withTag hmac packet

theorem length_statusPacket (op : UInt8) (id : Bytes) (version q : Nat) (status : UInt8) :
    (statusPacket hmac op id version q status).length = ackBytes := by
  simp [statusPacket]

theorem length_buildAck (deviceId : Bytes) (version q : Nat) (status : UInt8) :
    (buildAck hmac deviceId version q status).length = ackBytes :=
  length_statusPacket hmac opAck deviceId version q status

/-- The fields of an acknowledgement or a refusal are read back. -/
theorem slice_statusPacket (op : UInt8) (id : Bytes) (version q : Nat) (status : UInt8) :
    let packet := statusPacket hmac op id version q status
    slice packet 0 4 = magic ∧ slice packet 4 1 = [op] ∧
      slice packet 40 4 = putU32 (.ofNat version) ∧ slice packet 44 4 = putU32 (.ofNat q) ∧
      slice packet 48 1 = [status] := by
  refine ⟨?_, ?_, ?_, ?_, ?_⟩ <;> rw [statusPacket, slice_withTag] <;>
    simp [ackBytes, tagBytes, magic]

theorem slice_buildAck (deviceId : Bytes) (version q : Nat) (status : UInt8) :
    let packet := buildAck hmac deviceId version q status
    slice packet 0 4 = magic ∧ slice packet 4 1 = [opAck] ∧
      slice packet 40 4 = putU32 (.ofNat version) ∧ slice packet 44 4 = putU32 (.ofNat q) ∧
      slice packet 48 1 = [status] :=
  slice_statusPacket hmac opAck deviceId version q status

/-- The fields of a root record that fits its packet are read back. -/
theorem slice_buildRootResponse {deviceId : Bytes} (sized : deviceId.length = 32) (version : Nat)
    {record : RootRecord} (identifier : record.identifier.length = 16)
    (root : record.root.length = 32) :
    let packet := buildRootResponse hmac deviceId version record
    slice packet 0 4 = magic ∧ slice packet 4 1 = [opRootRecord] ∧ slice packet 8 32 = deviceId ∧
      slice packet 40 4 = putU32 (.ofNat version) ∧ slice packet 44 16 = record.identifier ∧
      slice packet 60 32 = record.root ∧ slice packet 92 4 = putU32 (.ofNat record.suiteId) ∧
      slice packet 96 1 = [.ofNat record.status] ∧
      slice packet 100 8 = putU64 (.ofNat record.expiryUnix) := by
  refine ⟨?_, ?_, ?_, ?_, ?_, ?_, ?_, ?_, ?_⟩ <;> rw [buildRootResponse, slice_withTag] <;>
    simp [rootRecordBytes, tagBytes, magic, sized, identifier, root]

/-- The fields of a path record that fits its packet are read back. -/
theorem slice_buildPathResponse {deviceId : Bytes} (sized : deviceId.length = 32)
    (version q : Nat) {path : Bytes} (long : path.length = pathBytes) :
    let packet := buildPathResponse hmac deviceId version q path
    slice packet 0 4 = magic ∧ slice packet 4 1 = [opPathRecord] ∧ slice packet 8 32 = deviceId ∧
      slice packet 40 4 = putU32 (.ofNat version) ∧ slice packet 44 4 = putU32 (.ofNat q) ∧
      slice packet 48 pathBytes = path := by
  refine ⟨?_, ?_, ?_, ?_, ?_, ?_⟩ <;> rw [buildPathResponse, slice_withTag] <;>
    simp [pathRecordBytes, pathBytes, tagBytes, magic, sized, long]

theorem length_buildRootResponse (deviceId : Bytes) (version : Nat) (record : RootRecord) :
    (buildRootResponse hmac deviceId version record).length = rootRecordBytes := by
  simp [buildRootResponse]

theorem length_buildPathResponse (deviceId : Bytes) (version q : Nat) (path : Bytes) :
    (buildPathResponse hmac deviceId version q path).length = pathRecordBytes := by
  simp [buildPathResponse]

/-- A reply of known size ends in the tag of the bytes before it. -/
theorem drop_withTag_of_length {packet : Bytes} {size : Nat} (sized : packet.length = size)
    (room : tagBytes ≤ size) :
    (withTag hmac packet).drop ((withTag hmac packet).length - tagBytes) =
      (hmac ((withTag hmac packet).take ((withTag hmac packet).length - tagBytes))).toList := by
  rw [length_withTag]
  exact drop_withTag hmac (sized ▸ room)

theorem drop_statusPacket (op : UInt8) (id : Bytes) (version q : Nat) (status : UInt8) :
    let packet := statusPacket hmac op id version q status
    packet.drop (ackBytes - tagBytes) = (hmac (packet.take (ackBytes - tagBytes))).toList := by
  have sized : ∀ packet : Bytes, packet.length = ackBytes →
      (withTag hmac packet).drop (ackBytes - tagBytes) =
        (hmac ((withTag hmac packet).take (ackBytes - tagBytes))).toList := by
    intro packet length
    rw [← length]
    exact drop_withTag hmac (by rw [length]; decide)
  exact sized _ (by simp)

theorem drop_buildAck (deviceId : Bytes) (version q : Nat) (status : UInt8) :
    let packet := buildAck hmac deviceId version q status
    packet.drop (ackBytes - tagBytes) = (hmac (packet.take (ackBytes - tagBytes))).toList :=
  drop_statusPacket hmac opAck deviceId version q status

end Building

namespace Ledger

/-- The largest integer that SQLite stores. -/
abbrev sqliteMax : Nat := 9223372036854775807

/-- `Ledger.upsert_root`: none is the `OverflowError` of an integer SQLite cannot store. -/
def upsertRoot (ledger : Ledger) (deviceId : Bytes) (version : Nat) (record : RootRecord) :
    Option Ledger :=
  if ledger.roots (deviceId, version) = some record then some ledger
  else if record.expiryUnix > sqliteMax then none
  else some { ledger with roots := Function.update ledger.roots (deviceId, version) (some record) }

/-- `Ledger.upsert_path`. -/
def upsertPath (ledger : Ledger) (deviceId : Bytes) (version q : Nat) (path : Bytes) : Ledger :=
  if ledger.paths (deviceId, version, q) = some path then ledger
  else { ledger with paths := Function.update ledger.paths (deviceId, version, q) (some path) }

section Writes

variable {ledger : Ledger} {deviceId : Bytes} {version : Nat}

theorem paths_upsertRoot {record : RootRecord} {ledger' : Ledger}
    (stored : ledger.upsertRoot deviceId version record = some ledger') :
    ledger'.paths = ledger.paths := by
  rw [upsertRoot] at stored
  split at stored
  · rw [← Option.some.inj stored]
  · split at stored
    · nomatch stored
    · rw [← Option.some.inj stored]

/-- A root that is stored is there afterwards, whether or not the row had to be written. -/
theorem roots_upsertRoot {record : RootRecord} {ledger' : Ledger}
    (stored : ledger.upsertRoot deviceId version record = some ledger') :
    ledger'.roots = Function.update ledger.roots (deviceId, version) (some record) := by
  rw [upsertRoot] at stored
  split at stored
  · rename_i present
    rw [← Option.some.inj stored, ← present, Function.update_eq_self]
  · split at stored
    · nomatch stored
    · rw [← Option.some.inj stored]

theorem roots_upsertPath (ledger : Ledger) (deviceId : Bytes) (version q : Nat) (path : Bytes) :
    (ledger.upsertPath deviceId version q path).roots = ledger.roots := by
  rw [upsertPath]
  split <;> rfl

/-- SQLite stores every expiry below its bound. -/
theorem exists_upsertRoot (ledger : Ledger) (deviceId : Bytes) (version : Nat)
    {record : RootRecord} (small : record.expiryUnix ≤ sqliteMax) :
    ∃ ledger', ledger.upsertRoot deviceId version record = some ledger' := by
  rw [upsertRoot]
  split
  · exact ⟨_, rfl⟩
  · rw [if_neg (Nat.not_lt.mpr small)]
    exact ⟨_, rfl⟩

/-- A new root with an expiry that SQLite can store is stored. -/
theorem upsertRoot_of_absent {record : RootRecord}
    (absent : ledger.roots (deviceId, version) = none) (small : record.expiryUnix ≤ sqliteMax) :
    ledger.upsertRoot deviceId version record = some { ledger with
      roots := Function.update ledger.roots (deviceId, version) (some record) } := by
  rw [upsertRoot, absent, if_neg (Option.some_ne_none _).symm, if_neg (Nat.not_lt.mpr small)]

/-- A path is stored whether or not the row has to be written. -/
theorem paths_upsertPath (ledger : Ledger) (deviceId : Bytes) (version q : Nat) (path : Bytes) :
    (ledger.upsertPath deviceId version q path).paths =
      Function.update ledger.paths (deviceId, version, q) (some path) := by
  rw [upsertPath]
  split
  · rename_i present
    rw [← present, Function.update_eq_self]
  · rfl

end Writes

end Ledger

/-- How one turn of the main loop ends. -/
inductive Turn where
  | ignored
  | rejected (error : ValueError)
  | stopped
  | replied (ledger : Ledger) (reply : Bytes)

/-- One turn of the main loop for a received packet. -/
def handle (hmac : Bytes → Tag) (ledger : Ledger) (packet : Bytes) : Turn :=
  if packet.length < 5 ∨ packet.take 4 ≠ magic then .ignored
  else
    let op := readByte packet 4
    if op = opEnrollRoot then
      match parseRootRecord hmac packet with
      | .error error => .rejected error
      | .ok (deviceId, version, record) =>
          match ledger.upsertRoot deviceId version record with
          | none => .stopped
          | some ledger => .replied ledger (buildAck hmac deviceId version 0 0)
    else if op = opEnrollPath then
      match parsePathRecord hmac packet with
      | .error error => .rejected error
      | .ok (deviceId, version, q, path) =>
          .replied (ledger.upsertPath deviceId version q path) (buildAck hmac deviceId version q 0)
    else if op = opGetRoot then
      match parseGetRoot hmac packet with
      | .error error => .rejected error
      | .ok (_, target, version) =>
          match ledger.roots (target, version) with
          | none => .replied ledger (buildNotFound hmac target version 0)
          | some record => .replied ledger (buildRootResponse hmac target version record)
    else if op = opGetPath then
      match parseGetPath hmac packet with
      | .error error => .rejected error
      | .ok (_, target, version, q) =>
          match ledger.paths (target, version, q) with
          | none => .replied ledger (buildNotFound hmac target version q)
          | some path => .replied ledger (buildPathResponse hmac target version q path)
    else .ignored

section Turns

variable {hmac : Bytes → Tag} {ledger ledger' : Ledger} {packet reply : Bytes}

theorem parseRootRecord_ok {deviceId : Bytes} {version : Nat} {record : RootRecord}
    (parsed : parseRootRecord hmac packet = .ok (deviceId, version, record)) :
    deviceId = slice packet 8 32 ∧ version = u32be packet 40 := by
  rw [parseRootRecord] at parsed
  split at parsed
  · nomatch parsed
  split at parsed
  · nomatch parsed
  split at parsed
  · nomatch parsed
  · cases parsed
    exact ⟨rfl, rfl⟩

theorem parsePathRecord_ok {deviceId path : Bytes} {version q : Nat}
    (parsed : parsePathRecord hmac packet = .ok (deviceId, version, q, path)) :
    deviceId = slice packet 8 32 ∧ version = u32be packet 40 ∧ q = u32be packet 44 ∧
      path = slice packet 48 320 := by
  rw [parsePathRecord] at parsed
  split at parsed
  · nomatch parsed
  split at parsed
  · nomatch parsed
  dsimp only at parsed
  split at parsed
  · nomatch parsed
  · cases parsed
    exact ⟨rfl, rfl, rfl, rfl⟩

/-- A parsed root record is stored and acknowledged. -/
theorem handle_rootRecord {deviceId : Bytes} {version : Nat} {record : RootRecord}
    (parsed : parseRootRecord hmac packet = .ok (deviceId, version, record))
    (stored : ledger.upsertRoot deviceId version record = some ledger') :
    handle hmac ledger packet = .replied ledger' (buildAck hmac deviceId version 0 0) := by
  have format : ¬ (packet.length ≠ rootRecordBytes ∨ packet.take 4 ≠ magic ∨
      readByte packet 4 ≠ opEnrollRoot) := by
    intro malformed
    rw [parseRootRecord, if_pos malformed] at parsed
    nomatch parsed
  obtain ⟨sized, head, op⟩ : packet.length = rootRecordBytes ∧ packet.take 4 = magic ∧
      readByte packet 4 = opEnrollRoot := by tauto
  rw [handle, if_neg (by rw [sized, head]; decide)]
  dsimp only
  rw [if_pos op, parsed]
  dsimp only
  rw [stored]

/-- A parsed path record is stored and acknowledged. -/
theorem handle_pathRecord {deviceId path : Bytes} {version q : Nat}
    (parsed : parsePathRecord hmac packet = .ok (deviceId, version, q, path)) :
    handle hmac ledger packet = .replied (ledger.upsertPath deviceId version q path)
      (buildAck hmac deviceId version q 0) := by
  have format : ¬ (packet.length ≠ pathRecordBytes ∨ packet.take 4 ≠ magic ∨
      readByte packet 4 ≠ opEnrollPath) := by
    intro malformed
    rw [parsePathRecord, if_pos malformed] at parsed
    nomatch parsed
  obtain ⟨sized, head, op⟩ : packet.length = pathRecordBytes ∧ packet.take 4 = magic ∧
      readByte packet 4 = opEnrollPath := by tauto
  rw [handle, if_neg (by rw [sized, head]; decide)]
  dsimp only
  rw [if_neg (by rw [op]; decide), if_pos op, parsed]

/-- A parsed root query is answered from the table. -/
theorem handle_getRoot {deviceId target : Bytes} {version : Nat}
    (parsed : parseGetRoot hmac packet = .ok (deviceId, target, version)) :
    handle hmac ledger packet = .replied ledger (match ledger.roots (target, version) with
      | none => buildNotFound hmac target version 0
      | some record => buildRootResponse hmac target version record) := by
  have format : ¬ (packet.length ≠ getRootBytes ∨ packet.take 4 ≠ magic ∨
      readByte packet 4 ≠ opGetRoot) := by
    intro malformed
    rw [parseGetRoot, if_pos malformed] at parsed
    nomatch parsed
  obtain ⟨sized, head, op⟩ : packet.length = getRootBytes ∧ packet.take 4 = magic ∧
      readByte packet 4 = opGetRoot := by tauto
  rw [handle, if_neg (by rw [sized, head]; decide)]
  dsimp only
  rw [if_neg (by rw [op]; decide), if_neg (by rw [op]; decide), if_pos op, parsed]
  dsimp only
  cases ledger.roots (target, version) <;> rfl

/-- A parsed path query is answered from the table. -/
theorem handle_getPath {deviceId target : Bytes} {version q : Nat}
    (parsed : parseGetPath hmac packet = .ok (deviceId, target, version, q)) :
    handle hmac ledger packet = .replied ledger (match ledger.paths (target, version, q) with
      | none => buildNotFound hmac target version q
      | some path => buildPathResponse hmac target version q path) := by
  have format : ¬ (packet.length ≠ getPathBytes ∨ packet.take 4 ≠ magic ∨
      readByte packet 4 ≠ opGetPath) := by
    intro malformed
    rw [parseGetPath, if_pos malformed] at parsed
    nomatch parsed
  obtain ⟨sized, head, op⟩ : packet.length = getPathBytes ∧ packet.take 4 = magic ∧
      readByte packet 4 = opGetPath := by tauto
  rw [handle, if_neg (by rw [sized, head]; decide)]
  dsimp only
  rw [if_neg (by rw [op]; decide), if_neg (by rw [op]; decide), if_neg (by rw [op]; decide),
    if_pos op, parsed]
  dsimp only
  cases ledger.paths (target, version, q) <;> rfl

/-- What a turn that replies does: it enrols a root, enrols a path, or looks one up. -/
theorem handle_cases (turn : handle hmac ledger packet = .replied ledger' reply) :
    (readByte packet 4 = opEnrollRoot ∧ ∃ deviceId version record,
      parseRootRecord hmac packet = .ok (deviceId, version, record) ∧
      ledger.upsertRoot deviceId version record = some ledger' ∧
      reply = buildAck hmac deviceId version 0 0) ∨
    (readByte packet 4 = opEnrollPath ∧ ∃ deviceId version q path,
      parsePathRecord hmac packet = .ok (deviceId, version, q, path) ∧
      ledger' = ledger.upsertPath deviceId version q path ∧
      reply = buildAck hmac deviceId version q 0) ∨
    (readByte packet 4 = opGetRoot ∧ ledger' = ledger ∧ ∃ deviceId target version,
      parseGetRoot hmac packet = .ok (deviceId, target, version) ∧
      reply = match ledger.roots (target, version) with
        | none => buildNotFound hmac target version 0
        | some record => buildRootResponse hmac target version record) ∨
    (readByte packet 4 = opGetPath ∧ ledger' = ledger ∧ ∃ deviceId target version q,
      parseGetPath hmac packet = .ok (deviceId, target, version, q) ∧
      reply = match ledger.paths (target, version, q) with
        | none => buildNotFound hmac target version q
        | some path => buildPathResponse hmac target version q path) := by
  have whole := turn
  rw [handle] at turn
  split at turn
  · nomatch turn
  dsimp only at turn
  split at turn
  · rename_i op
    split at turn
    · nomatch turn
    · rename_i parsed
      split at turn
      · nomatch turn
      · rename_i stored
        cases turn
        exact .inl ⟨op, _, _, _, parsed, stored, rfl⟩
  split at turn
  · rename_i op
    split at turn
    · nomatch turn
    · rename_i parsed
      cases turn
      exact .inr (.inl ⟨op, _, _, _, _, parsed, rfl, rfl⟩)
  split at turn
  · rename_i op
    split at turn
    · nomatch turn
    · rename_i parsed
      rw [handle_getRoot parsed] at whole
      cases whole
      exact .inr (.inr (.inl ⟨op, rfl, _, _, _, parsed, rfl⟩))
  split at turn
  · rename_i op
    split at turn
    · nomatch turn
    · rename_i parsed
      rw [handle_getPath parsed] at whole
      cases whole
      exact .inr (.inr (.inr ⟨op, rfl, _, _, _, _, parsed, rfl⟩))
  · nomatch turn

/-- What a turn that replies wrote: a parsed root, a parsed path, or nothing. -/
theorem handle_writes (turn : handle hmac ledger packet = .replied ledger' reply) :
    (∃ deviceId version record, parseRootRecord hmac packet = .ok (deviceId, version, record) ∧
      ledger.upsertRoot deviceId version record = some ledger') ∨
    (∃ deviceId version q path, parsePathRecord hmac packet = .ok (deviceId, version, q, path) ∧
      ledger' = ledger.upsertPath deviceId version q path) ∨
    ledger' = ledger := by
  rcases handle_cases turn with ⟨_, _, _, _, parsed, stored, _⟩ | ⟨_, _, _, _, _, parsed, same, _⟩ |
    ⟨_, same, _⟩ | ⟨_, same, _⟩
  · exact .inl ⟨_, _, _, parsed, stored⟩
  · exact .inr (.inl ⟨_, _, _, _, parsed, same⟩)
  · exact .inr (.inr same)
  · exact .inr (.inr same)

/-- What a turn that replies did: it enrolled a root, enrolled a path, or only read. -/
theorem handle_replied (turn : handle hmac ledger packet = .replied ledger' reply) :
    (readByte packet 4 = opEnrollRoot ∧ ledger'.paths = ledger.paths ∧
      reply = buildAck hmac (slice packet 8 32) (u32be packet 40) 0 0) ∨
    (readByte packet 4 = opEnrollPath ∧
      ledger' = ledger.upsertPath (slice packet 8 32) (u32be packet 40) (u32be packet 44)
        (slice packet 48 320) ∧
      reply = buildAck hmac (slice packet 8 32) (u32be packet 40) (u32be packet 44) 0) ∨
    ((readByte packet 4 = opGetRoot ∨ readByte packet 4 = opGetPath) ∧ ledger' = ledger) := by
  rcases handle_cases turn with ⟨op, _, _, _, parsed, stored, ack⟩ |
    ⟨op, _, _, _, _, parsed, same, ack⟩ | ⟨op, same, _⟩ | ⟨op, same, _⟩
  · obtain ⟨device, version⟩ := parseRootRecord_ok parsed
    rw [device, version] at ack
    exact .inl ⟨op, Ledger.paths_upsertRoot stored, ack⟩
  · obtain ⟨device, version, index, path⟩ := parsePathRecord_ok parsed
    rw [device, version, index] at same ack
    rw [path] at same
    exact .inr (.inl ⟨op, same, ack⟩)
  · exact .inr (.inr ⟨.inl op, same⟩)
  · exact .inr (.inr ⟨.inr op, same⟩)

end Turns

end Gcs
