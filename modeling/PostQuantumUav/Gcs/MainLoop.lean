import PostQuantumUav.Gcs.Requests

/-!
# What can leave the server's loop body

The loop body of `gcs_ledger_server.py` once more, with every exception that its
Python steps can raise: a missing byte, a field past the end, a number that does
not fit its field or its column. Only `ValueError` is caught. A bytearray slice
takes data of another length and grows or shrinks with it.

On the tables that the server itself has filled, the body does what `handle`
says, and the one exception that escapes is SQLite's refusal of an expiry.
-/

namespace Gcs

open Cell Buffer

/-- What every row of `credential_roots` satisfies. -/
structure RootRecord.Valid (record : RootRecord) : Prop where
  identifier : record.identifier.length = 16
  root : record.root.length = 32
  suiteId : record.suiteId < 2 ^ 32
  status : record.status ≤ 3
  expiryUnix : record.expiryUnix ≤ Ledger.sqliteMax

/-- What the rows of both tables satisfy. -/
structure Ledger.Valid (ledger : Ledger) : Prop where
  roots : ∀ key record, ledger.roots key = some record → record.Valid
  paths : ∀ key path, ledger.paths key = some path → path.length = pathBytes

/-- The tables that `Ledger.__init__` creates. -/
def Ledger.empty : Ledger := ⟨fun _ => none, fun _ => none⟩

theorem Ledger.valid_empty : Ledger.empty.Valid where
  roots _ _ held := by cases held
  paths _ _ held := by cases held

namespace MainLoop

inductive Exception where
  | valueError (error : ValueError)
  | indexError
  | structError
  | overflowError
  deriving DecidableEq, Repr

section Primitives

/-- `packet[index]`. -/
def getItem (packet : Bytes) (index : Nat) : Except Exception Nat :=
  if index < packet.length then .ok (readByte packet index).toNat else .error .indexError

/-- `struct.unpack_from(">I", packet, offset)`. -/
def unpackU32 (packet : Bytes) (offset : Nat) : Except Exception Nat :=
  if offset + 4 ≤ packet.length then .ok (u32be packet offset) else .error .structError

def unpackU64 (packet : Bytes) (offset : Nat) : Except Exception Nat :=
  if offset + 8 ≤ packet.length then .ok (u64be packet offset) else .error .structError

def packU32 (value : Nat) : Except Exception Bytes :=
  if value < 2 ^ 32 then .ok (putU32 (.ofNat value)) else .error .structError

def packU64 (value : Nat) : Except Exception Bytes :=
  if value < 2 ^ 64 then .ok (putU64 (.ofNat value)) else .error .structError

/-- `packet[start:stop] = data`. -/
def setSlice (packet : Bytes) (start stop : Nat) (data : Bytes) : Bytes :=
  packet.take start ++ data ++ packet.drop stop

/-- `packet[index] = value`. -/
def setItem (packet : Bytes) (index value : Nat) : Except Exception Bytes :=
  if value ≥ 256 then .error (.valueError "byte must be in range(0, 256)")
  else if index < packet.length then .ok (packet.set index (.ofNat value))
  else .error .indexError

/-- An integer given to `connection.execute`. -/
def bindInteger (value : Nat) : Except Exception Unit :=
  if value > Ledger.sqliteMax then .error .overflowError else .ok ()

section Success

variable {packet data : Bytes} {index start stop offset value : Nat}

theorem getItem_ok (inside : index < packet.length) :
    getItem packet index = .ok (readByte packet index).toNat := if_pos inside

theorem unpackU32_ok (inside : offset + 4 ≤ packet.length) :
    unpackU32 packet offset = .ok (u32be packet offset) := if_pos inside

theorem unpackU64_ok (inside : offset + 8 ≤ packet.length) :
    unpackU64 packet offset = .ok (u64be packet offset) := if_pos inside

theorem packU32_ok (small : value < 2 ^ 32) : packU32 value = .ok (putU32 (.ofNat value)) :=
  if_pos small

theorem packU64_ok (small : value < 2 ^ 64) : packU64 value = .ok (putU64 (.ofNat value)) :=
  if_pos small

theorem bindInteger_ok (small : value ≤ Ledger.sqliteMax) : bindInteger value = .ok () :=
  if_neg (Nat.not_lt.mpr small)

/-- Data of the slice's own length are written in place. -/
theorem setSlice_eq (room : start + data.length = stop) (inside : stop ≤ packet.length) :
    setSlice packet start stop data = memcpy packet start data := by
  have sized : (packet.take start ++ data ++ packet.drop stop).length ≤ packet.length := by
    simp only [List.length_append, List.length_take, List.length_drop]
    omega
  rw [memcpy, room, List.take_of_length_le sized]
  rfl

theorem setItem_ok (small : value < 256) (inside : index < packet.length) :
    setItem packet index value = .ok (memcpy packet index [.ofNat value]) := by
  rw [setItem, if_neg (Nat.not_le.mpr small), if_pos inside]
  congr 1
  apply List.ext_getElem?
  intro i
  rw [getElem?_memcpy, List.getElem?_set]
  by_cases same : index = i
  · subst same
    simp [inside]
  · rw [if_neg same, if_neg]
    simp only [List.length_singleton]
    omega

end Success

end Primitives

section Parsing

variable (hmac : Bytes → Tag)

/-- The first test of every parser; the op is read only from a packet of the right length. -/
def malformed (packet : Bytes) (length : Nat) (op : UInt8) : Except Exception Bool := do
  if packet.length ≠ length ∨ packet.take 4 ≠ magic then return true
  return (← getItem packet 4) ≠ op.toNat

def parseRootRecord (packet : Bytes) : Except Exception (Bytes × Nat × RootRecord) := do
  if ← malformed packet rootRecordBytes opEnrollRoot then
    throw (.valueError "invalid root-record format")
  if ¬ verifyTag hmac packet then throw (.valueError "invalid root-record HMAC")
  let version ← unpackU32 packet 40
  let suiteId ← unpackU32 packet 92
  let status ← getItem packet 96
  let expiryUnix ← unpackU64 packet 100
  if status > 3 then throw (.valueError "invalid status")
  return (slice packet 8 32, version,
    ⟨slice packet 44 16, slice packet 60 32, suiteId, status, expiryUnix⟩)

def parsePathRecord (packet : Bytes) : Except Exception (Bytes × Nat × Nat × Bytes) := do
  if ← malformed packet pathRecordBytes opEnrollPath then
    throw (.valueError "invalid path-record format")
  if ¬ verifyTag hmac packet then throw (.valueError "invalid path-record HMAC")
  let version ← unpackU32 packet 40
  let q ← unpackU32 packet 44
  let path := slice packet 48 320
  if q ≥ 1024 ∨ path.length ≠ pathBytes then throw (.valueError "invalid LMS path")
  return (slice packet 8 32, version, q, path)

def parseGetRoot (packet : Bytes) : Except Exception (Bytes × Bytes × Nat) := do
  if ← malformed packet getRootBytes opGetRoot then
    throw (.valueError "invalid GET_ROOT format")
  if ¬ verifyTag hmac packet then throw (.valueError "invalid GET_ROOT HMAC")
  return (slice packet 8 32, slice packet 40 32, ← unpackU32 packet 72)

def parseGetPath (packet : Bytes) : Except Exception (Bytes × Bytes × Nat × Nat) := do
  if ← malformed packet getPathBytes opGetPath then
    throw (.valueError "invalid GET_PATH format")
  if ¬ verifyTag hmac packet then throw (.valueError "invalid GET_PATH HMAC")
  let q ← unpackU32 packet 76
  if q ≥ 1024 then throw (.valueError "q outside h=10 tree")
  return (slice packet 8 32, slice packet 40 32, ← unpackU32 packet 72, q)

variable {hmac} {packet : Bytes}

theorem malformed_eq {length : Nat} (room : 4 < length) (op : UInt8) :
    malformed packet length op =
      .ok (packet.length ≠ length ∨ packet.take 4 ≠ magic ∨ readByte packet 4 ≠ op) := by
  rw [malformed]
  by_cases form : packet.length ≠ length ∨ packet.take 4 ≠ magic
  · rw [if_pos form]
    exact congrArg Except.ok (decide_eq_true (by tauto)).symm
  · obtain ⟨sized, head⟩ : packet.length = length ∧ packet.take 4 = magic := by tauto
    rw [if_neg form, getItem_ok (by omega)]
    refine congrArg Except.ok (decide_eq_decide.mpr ?_)
    rw [Ne, UInt8.toNat_inj]
    tauto

/-- The parsers raise nothing but `ValueError`, where the total ones report an error. -/
theorem parseRootRecord_eq :
    parseRootRecord hmac packet = (Gcs.parseRootRecord hmac packet).mapError .valueError := by
  rw [parseRootRecord, malformed_eq (by decide), Gcs.parseRootRecord]
  simp only [Except.bind, bind, decide_eq_true_eq]
  by_cases form : packet.length ≠ rootRecordBytes ∨ packet.take 4 ≠ magic ∨
      readByte packet 4 ≠ opEnrollRoot
  · rw [if_pos form, if_pos form]
    rfl
  have sized : packet.length = rootRecordBytes := by tauto
  rw [if_neg form, if_neg form]
  by_cases tag : verifyTag hmac packet = true
  · rw [if_neg (not_not_intro tag), if_neg (not_not_intro tag),
      unpackU32_ok (by rw [sized]; decide), unpackU32_ok (by rw [sized]; decide),
      getItem_ok (by rw [sized]; decide),
      unpackU64_ok (by rw [sized]; decide)]
    by_cases status : (readByte packet 96).toNat > 3
    · simp only [if_pos status]
      rfl
    · simp only [if_neg status]
      rfl
  · rw [if_pos tag, if_pos tag]
    rfl

theorem parsePathRecord_eq :
    parsePathRecord hmac packet = (Gcs.parsePathRecord hmac packet).mapError .valueError := by
  rw [parsePathRecord, malformed_eq (by decide), Gcs.parsePathRecord]
  simp only [Except.bind, bind, decide_eq_true_eq]
  by_cases form : packet.length ≠ pathRecordBytes ∨ packet.take 4 ≠ magic ∨
      readByte packet 4 ≠ opEnrollPath
  · rw [if_pos form, if_pos form]
    rfl
  have sized : packet.length = pathRecordBytes := by tauto
  rw [if_neg form, if_neg form]
  by_cases tag : verifyTag hmac packet = true
  · rw [if_neg (not_not_intro tag), if_neg (not_not_intro tag),
      unpackU32_ok (by rw [sized]; decide), unpackU32_ok (by rw [sized]; decide)]
    by_cases valid : u32be packet 44 ≥ 1024 ∨ (slice packet 48 320).length ≠ pathBytes
    · simp only [if_pos valid]
      rfl
    · simp only [if_neg valid]
      rfl
  · rw [if_pos tag, if_pos tag]
    rfl

theorem parseGetRoot_eq :
    parseGetRoot hmac packet = (Gcs.parseGetRoot hmac packet).mapError .valueError := by
  rw [parseGetRoot, malformed_eq (by decide), Gcs.parseGetRoot]
  simp only [Except.bind, bind, decide_eq_true_eq]
  by_cases form : packet.length ≠ getRootBytes ∨ packet.take 4 ≠ magic ∨
      readByte packet 4 ≠ opGetRoot
  · rw [if_pos form, if_pos form]
    rfl
  have sized : packet.length = getRootBytes := by tauto
  rw [if_neg form, if_neg form]
  by_cases tag : verifyTag hmac packet = true
  · rw [if_neg (not_not_intro tag), if_neg (not_not_intro tag),
      unpackU32_ok (by rw [sized]; decide)]
    rfl
  · rw [if_pos tag, if_pos tag]
    rfl

theorem parseGetPath_eq :
    parseGetPath hmac packet = (Gcs.parseGetPath hmac packet).mapError .valueError := by
  rw [parseGetPath, malformed_eq (by decide), Gcs.parseGetPath]
  simp only [Except.bind, bind, decide_eq_true_eq]
  by_cases form : packet.length ≠ getPathBytes ∨ packet.take 4 ≠ magic ∨
      readByte packet 4 ≠ opGetPath
  · rw [if_pos form, if_pos form]
    rfl
  have sized : packet.length = getPathBytes := by tauto
  rw [if_neg form, if_neg form]
  by_cases tag : verifyTag hmac packet = true
  · rw [if_neg (not_not_intro tag), if_neg (not_not_intro tag),
      unpackU32_ok (by rw [sized]; decide), unpackU32_ok (by rw [sized]; decide)]
    by_cases outside : u32be packet 76 ≥ 1024
    · simp only [if_pos outside]
      rfl
    · simp only [if_neg outside]
      rfl
  · rw [if_pos tag, if_pos tag]
    rfl

end Parsing

section Building

variable (hmac : Bytes → Tag)

/-- `packet[-TAG_BYTES:] = compute_tag(packet[:-TAG_BYTES])`. -/
def sealPacket (packet : Bytes) : Bytes :=
  setSlice packet (packet.length - tagBytes) packet.length
    (hmac (packet.take (packet.length - tagBytes))).toList

/-- The common form of `build_ack` and `build_not_found`. -/
def statusPacket (op : UInt8) (id : Bytes) (version q status : Nat) : Except Exception Bytes := do
  let packet := setSlice (zeros ackBytes) 0 4 magic
  let packet ← setItem packet 4 op.toNat
  let packet := setSlice packet 8 40 id
  let packet := setSlice packet 40 44 (← packU32 version)
  let packet := setSlice packet 44 48 (← packU32 q)
  let packet ← setItem packet 48 status
  return sealPacket hmac packet

def buildAck (deviceId : Bytes) (version q status : Nat) : Except Exception Bytes :=
  statusPacket hmac opAck deviceId version q status

def buildNotFound (targetId : Bytes) (version q : Nat) : Except Exception Bytes :=
  statusPacket hmac opNotFound targetId version q 1

def buildRootResponse (deviceId : Bytes) (version : Nat) (record : RootRecord) :
    Except Exception Bytes := do
  let packet := setSlice (zeros rootRecordBytes) 0 4 magic
  let packet ← setItem packet 4 opRootRecord.toNat
  let packet := setSlice packet 8 40 deviceId
  let packet := setSlice packet 40 44 (← packU32 version)
  let packet := setSlice packet 44 60 record.identifier
  let packet := setSlice packet 60 92 record.root
  let packet := setSlice packet 92 96 (← packU32 record.suiteId)
  let packet ← setItem packet 96 record.status
  let packet := setSlice packet 100 108 (← packU64 record.expiryUnix)
  return sealPacket hmac packet

def buildPathResponse (deviceId : Bytes) (version q : Nat) (path : Bytes) :
    Except Exception Bytes := do
  let packet := setSlice (zeros pathRecordBytes) 0 4 magic
  let packet ← setItem packet 4 opPathRecord.toNat
  let packet := setSlice packet 8 40 deviceId
  let packet := setSlice packet 40 44 (← packU32 version)
  let packet := setSlice packet 44 48 (← packU32 q)
  let packet := setSlice packet 48 368 path
  return sealPacket hmac packet

variable {hmac} {id : Bytes} {version q : Nat}

theorem sealPacket_eq {packet : Bytes} (room : tagBytes ≤ packet.length) :
    sealPacket hmac packet = withTag hmac packet :=
  setSlice_eq (by rw [List.Vector.toList_length]; omega) (Nat.le_refl _)

/-- Where every number fits its field, the builders raise nothing. -/
theorem statusPacket_eq (op : UInt8) (sized : id.length = 32) (versions : version < 2 ^ 32)
    (index : q < 2 ^ 32) {status : Nat} (small : status < 256) :
    statusPacket hmac op id version q status =
      .ok (Gcs.statusPacket hmac op id version q (.ofNat status)) := by
  have op_small : op.toNat < 256 := op.toNat_lt
  simp (disch := simp [*, magic, ackBytes, tagBytes]) only [statusPacket, packU32_ok versions,
    packU32_ok index, setSlice_eq, setItem_ok, Except.bind, bind, sealPacket_eq]
  simp only [UInt8.ofNat_toNat]
  rfl

theorem buildRootResponse_eq {record : RootRecord} (sized : id.length = 32)
    (versions : version < 2 ^ 32) (valid : record.Valid) :
    buildRootResponse hmac id version record =
      .ok (Gcs.buildRootResponse hmac id version record) := by
  obtain ⟨identifier, root, suiteId, status, expiryUnix⟩ := valid
  have status_small : record.status < 256 := by omega
  have expiry_small : record.expiryUnix < 2 ^ 64 := by
    simp only [Ledger.sqliteMax] at expiryUnix
    omega
  have op_small : opRootRecord.toNat < 256 := by decide
  simp (disch := simp [*, magic, rootRecordBytes, tagBytes]) only [buildRootResponse,
    packU32_ok versions, packU32_ok suiteId, packU64_ok expiry_small, setSlice_eq, setItem_ok,
    Except.bind, bind, sealPacket_eq]
  rfl

theorem buildPathResponse_eq {path : Bytes} (sized : id.length = 32)
    (versions : version < 2 ^ 32) (index : q < 2 ^ 32) (long : path.length = pathBytes) :
    buildPathResponse hmac id version q path =
      .ok (Gcs.buildPathResponse hmac id version q path) := by
  have op_small : opPathRecord.toNat < 256 := by decide
  simp (disch := simp [*, magic, pathRecordBytes, pathBytes, tagBytes]) only [buildPathResponse,
    packU32_ok versions, packU32_ok index, setSlice_eq, setItem_ok, Except.bind, bind,
    sealPacket_eq]
  rfl

end Building

section Tables

/-- `Ledger.get_root`. -/
def getRoot (ledger : Ledger) (deviceId : Bytes) (version : Nat) :
    Except Exception (Option RootRecord) := do
  bindInteger version
  return ledger.roots (deviceId, version)

/-- `Ledger.get_path`. -/
def getPath (ledger : Ledger) (deviceId : Bytes) (version q : Nat) :
    Except Exception (Option Bytes) := do
  bindInteger version
  bindInteger q
  return ledger.paths (deviceId, version, q)

/-- `Ledger.upsert_root`; the audit line is written. -/
def upsertRoot (ledger : Ledger) (deviceId : Bytes) (version : Nat) (record : RootRecord) :
    Except Exception Ledger := do
  if (← getRoot ledger deviceId version) = some record then return ledger
  bindInteger version
  bindInteger record.suiteId
  bindInteger record.status
  bindInteger record.expiryUnix
  return { ledger with roots := Function.update ledger.roots (deviceId, version) (some record) }

/-- `Ledger.upsert_path`. -/
def upsertPath (ledger : Ledger) (deviceId : Bytes) (version q : Nat) (path : Bytes) :
    Except Exception Ledger := do
  if (← getPath ledger deviceId version q) = some path then return ledger
  bindInteger version
  bindInteger q
  return { ledger with paths := Function.update ledger.paths (deviceId, version, q) (some path) }

variable {ledger : Ledger} {deviceId : Bytes} {version q : Nat}

theorem bindInteger_u32 (small : version < 2 ^ 32) : bindInteger version = .ok () :=
  bindInteger_ok (by simp only [Ledger.sqliteMax]; omega)

theorem upsertRoot_eq {record : RootRecord} (versions : version < 2 ^ 32)
    (suite : record.suiteId < 2 ^ 32) (status : record.status ≤ 3) :
    upsertRoot ledger deviceId version record =
      match ledger.upsertRoot deviceId version record with
      | some ledger => .ok ledger
      | none => .error .overflowError := by
  have small : bindInteger record.status = .ok () := bindInteger_u32 (by omega)
  simp only [upsertRoot, getRoot, bindInteger_u32 versions, bindInteger_u32 suite, small,
    Except.bind, bind, pure, Except.pure, Ledger.upsertRoot]
  by_cases same : ledger.roots (deviceId, version) = some record
  · rw [if_pos same, if_pos same]
  · rw [if_neg same, if_neg same]
    by_cases large : record.expiryUnix > Ledger.sqliteMax
    · simp only [bindInteger, if_pos large]
    · simp only [bindInteger, if_neg large]

theorem upsertPath_eq {path : Bytes} (versions : version < 2 ^ 32) (index : q < 2 ^ 32) :
    upsertPath ledger deviceId version q path =
      .ok (ledger.upsertPath deviceId version q path) := by
  simp only [upsertPath, getPath, bindInteger_u32 versions, bindInteger_u32 index, Except.bind,
    bind, pure, Except.pure, Ledger.upsertPath]
  split <;> rfl

end Tables

/-- How the loop body ends when no exception leaves it. -/
inductive Served where
  | ignored
  | rejected (error : ValueError)
  | sent (datagrams : List Bytes)

section Body

variable (hmac : Bytes → Tag) (copies : Nat)

/-- `send_reply`. -/
def sendReply (reply : Bytes) : Served := .sent ((List.range copies).map fun _ => reply)

/-- The branch of an op that changes no table. -/
def answer (ledger : Ledger) (reply : Except Exception Bytes) : Except Exception Served × Ledger :=
  (reply.map (sendReply copies), ledger)

/-- The branch of an op that stores a record and acknowledges it. -/
def enroll {α : Type} (ledger : Ledger) (parsed : Except Exception α)
    (upsert : α → Except Exception Ledger) (ack : α → Except Exception Bytes) :
    Except Exception Served × Ledger :=
  match parsed with
  | .error e => (.error e, ledger)
  | .ok values =>
      match upsert values with
      | .error e => (.error e, ledger)
      | .ok ledger => answer copies ledger (ack values)

/-- The body of the `try` statement, with the tables as they are when it ends. -/
def attempt (packet : Bytes) (ledger : Ledger) : Except Exception Served × Ledger :=
  match getItem packet 4 with
  | .error e => (.error e, ledger)
  | .ok op =>
      if op = opEnrollRoot.toNat then
        enroll copies ledger (parseRootRecord hmac packet)
          (fun values => upsertRoot ledger values.1 values.2.1 values.2.2)
          (fun values => buildAck hmac values.1 values.2.1 0 0)
      else if op = opEnrollPath.toNat then
        enroll copies ledger (parsePathRecord hmac packet)
          (fun values => upsertPath ledger values.1 values.2.1 values.2.2.1 values.2.2.2)
          (fun values => buildAck hmac values.1 values.2.1 values.2.2.1 0)
      else if op = opGetRoot.toNat then
        answer copies ledger (do
          let (_, target, version) ← parseGetRoot hmac packet
          match ← getRoot ledger target version with
          | none => buildNotFound hmac target version 0
          | some record => buildRootResponse hmac target version record)
      else if op = opGetPath.toNat then
        answer copies ledger (do
          let (_, target, version, q) ← parseGetPath hmac packet
          match ← getPath ledger target version q with
          | none => buildNotFound hmac target version q
          | some path => buildPathResponse hmac target version q path)
      else (.ok .ignored, ledger)

/-- The loop body for a received packet: `ValueError` is printed, any other exception leaves. -/
def loopBody (packet : Bytes) (ledger : Ledger) : Except Exception Served × Ledger :=
  if packet.length < 5 ∨ packet.take 4 ≠ magic then (.ok .ignored, ledger)
  else
    match attempt hmac copies packet ledger with
    | (.error (.valueError error), ledger) => (.ok (.rejected error), ledger)
    | ended => ended

/-- The tables after a history of packets. The service is started again on the same database
whenever an exception ended it. -/
def ledgerAfter (history : List Bytes) : Ledger :=
  history.foldl (fun ledger packet => (loopBody hmac copies packet ledger).2) .empty

end Body

section Ranges

variable {hmac : Bytes → Tag} {packet : Bytes} {deviceId target path : Bytes} {version q : Nat}

theorem u32be_lt (packet : Bytes) (offset : Nat) : u32be packet offset < 2 ^ 32 :=
  UInt32.toNat_lt _

/-- A parsed record fits its fields and, but for the expiry, its columns. -/
theorem parseRootRecord_ranges {record : RootRecord}
    (parsed : Gcs.parseRootRecord hmac packet = .ok (deviceId, version, record)) :
    deviceId.length = 32 ∧ version < 2 ^ 32 ∧
      (record.expiryUnix ≤ Ledger.sqliteMax → record.Valid) ∧
      record.suiteId < 2 ^ 32 ∧ record.status ≤ 3 := by
  rw [Gcs.parseRootRecord] at parsed
  split at parsed
  · cases parsed
  rename_i form
  have sized : packet.length = rootRecordBytes := by tauto
  split at parsed
  · cases parsed
  split at parsed
  · cases parsed
  rename_i status
  cases parsed
  have inside : ∀ offset length, offset + length ≤ rootRecordBytes →
      (slice packet offset length).length = length := by
    intro offset length fits
    exact length_slice (sized ▸ fits)
  refine ⟨inside 8 32 (by decide), u32be_lt _ _, fun small => ?_, u32be_lt _ _,
    Nat.not_lt.mp status⟩
  exact ⟨inside 44 16 (by decide), inside 60 32 (by decide), u32be_lt _ _, Nat.not_lt.mp status,
    small⟩

theorem parsePathRecord_ranges
    (parsed : Gcs.parsePathRecord hmac packet = .ok (deviceId, version, q, path)) :
    deviceId.length = 32 ∧ version < 2 ^ 32 ∧ q < 2 ^ 32 ∧ path.length = pathBytes := by
  rw [Gcs.parsePathRecord] at parsed
  split at parsed
  · cases parsed
  rename_i form
  have sized : packet.length = pathRecordBytes := by tauto
  split at parsed
  · cases parsed
  dsimp only at parsed
  split at parsed
  · cases parsed
  cases parsed
  exact ⟨length_slice (by rw [sized]; decide), u32be_lt _ _, u32be_lt _ _,
    length_slice (by rw [sized]; decide)⟩

theorem parseGetRoot_ranges
    (parsed : Gcs.parseGetRoot hmac packet = .ok (deviceId, target, version)) :
    target.length = 32 ∧ version < 2 ^ 32 := by
  rw [Gcs.parseGetRoot] at parsed
  split at parsed
  · cases parsed
  rename_i form
  have sized : packet.length = getRootBytes := by tauto
  split at parsed
  · cases parsed
  cases parsed
  exact ⟨length_slice (by rw [sized]; decide), u32be_lt _ _⟩

theorem parseGetPath_ranges
    (parsed : Gcs.parseGetPath hmac packet = .ok (deviceId, target, version, q)) :
    target.length = 32 ∧ version < 2 ^ 32 ∧ q < 2 ^ 32 := by
  rw [Gcs.parseGetPath] at parsed
  split at parsed
  · cases parsed
  rename_i form
  have sized : packet.length = getPathBytes := by tauto
  split at parsed
  · cases parsed
  split at parsed
  · cases parsed
  cases parsed
  exact ⟨length_slice (by rw [sized]; decide), u32be_lt _ _, u32be_lt _ _⟩

end Ranges

section Refinement

variable {hmac : Bytes → Tag} {copies : Nat} {ledger : Ledger} {packet : Bytes}

/-- How the loop body ends where `handle` describes the turn. -/
def ending (copies : Nat) (ledger : Ledger) : Turn → Except Exception Served × Ledger
  | .ignored => (.ok .ignored, ledger)
  | .rejected error => (.ok (.rejected error), ledger)
  | .stopped => (.error .overflowError, ledger)
  | .replied ledger reply => (.ok (sendReply copies reply), ledger)

/-- On tables that the server filled, `handle` is the loop body: no step of it raises
anything but the `ValueError` of a rejection and the `OverflowError` of a stop. -/
theorem loopBody_eq (valid : ledger.Valid) :
    loopBody hmac copies packet ledger = ending copies ledger (handle hmac ledger packet) := by
  rw [loopBody, handle]
  split
  · rfl
  rename_i long
  have present : 4 < packet.length := by omega
  simp only [attempt, getItem_ok present, UInt8.toNat_inj]
  by_cases root : readByte packet 4 = opEnrollRoot
  · simp only [if_pos root]
    rw [parseRootRecord_eq]
    cases parsed : Gcs.parseRootRecord hmac packet with
    | error error => rfl
    | ok values =>
        obtain ⟨deviceId, version, record⟩ := values
        obtain ⟨sized, versions, -, suite, status⟩ := parseRootRecord_ranges parsed
        simp only [Except.mapError, enroll, upsertRoot_eq versions suite status]
        cases ledger.upsertRoot deviceId version record with
        | none => rfl
        | some ledger' =>
            simp only [answer, buildAck,
              statusPacket_eq opAck sized versions (by decide : 0 < 2 ^ 32) (by decide : 0 < 256)]
            rfl
  by_cases path : readByte packet 4 = opEnrollPath
  · simp only [if_neg root, if_pos path]
    rw [parsePathRecord_eq]
    cases parsed : Gcs.parsePathRecord hmac packet with
    | error error => rfl
    | ok values =>
        obtain ⟨deviceId, version, q, path⟩ := values
        obtain ⟨sized, versions, index, -⟩ := parsePathRecord_ranges parsed
        simp only [Except.mapError, enroll, upsertPath_eq versions index, answer, buildAck,
          statusPacket_eq opAck sized versions index (by decide : 0 < 256)]
        rfl
  by_cases getRootOp : readByte packet 4 = opGetRoot
  · simp only [if_neg root, if_neg path, if_pos getRootOp]
    rw [parseGetRoot_eq]
    cases parsed : Gcs.parseGetRoot hmac packet with
    | error error => rfl
    | ok values =>
        obtain ⟨deviceId, target, version⟩ := values
        obtain ⟨sized, versions⟩ := parseGetRoot_ranges parsed
        simp only [Except.mapError, Except.bind, bind, getRoot, bindInteger_u32 versions, pure,
          Except.pure]
        cases held : ledger.roots (target, version) with
        | none =>
            simp only [answer, buildNotFound, statusPacket_eq opNotFound sized versions
              (by decide : 0 < 2 ^ 32) (by decide : 1 < 256)]
            rfl
        | some record =>
            simp only [answer, buildRootResponse_eq sized versions (valid.roots _ _ held)]
            rfl
  by_cases getPathOp : readByte packet 4 = opGetPath
  · simp only [if_neg root, if_neg path, if_neg getRootOp, if_pos getPathOp]
    rw [parseGetPath_eq]
    cases parsed : Gcs.parseGetPath hmac packet with
    | error error => rfl
    | ok values =>
        obtain ⟨deviceId, target, version, q⟩ := values
        obtain ⟨sized, versions, index⟩ := parseGetPath_ranges parsed
        simp only [Except.mapError, Except.bind, bind, getPath, bindInteger_u32 versions,
          bindInteger_u32 index, pure, Except.pure]
        cases held : ledger.paths (target, version, q) with
        | none =>
            simp only [answer, buildNotFound, statusPacket_eq opNotFound sized versions index
              (by decide : 1 < 256)]
            rfl
        | some path =>
            simp only [answer, buildPathResponse_eq sized versions index (valid.paths _ _ held)]
            rfl
  · simp only [if_neg root, if_neg path, if_neg getRootOp, if_neg getPathOp]
    rfl

end Refinement

section Turns

variable {hmac : Bytes → Tag} {ledger ledger' : Ledger} {packet reply : Bytes}

theorem parseRootRecord_form {values : Bytes × Nat × RootRecord}
    (parsed : Gcs.parseRootRecord hmac packet = .ok values) :
    packet.length = rootRecordBytes ∧ packet.take 4 = magic ∧ readByte packet 4 = opEnrollRoot ∧
      values.2.2.expiryUnix = u64be packet 100 := by
  rw [Gcs.parseRootRecord] at parsed
  split at parsed
  · cases parsed
  rename_i form
  split at parsed
  · cases parsed
  split at parsed
  · cases parsed
  cases parsed
  exact ⟨by tauto, by tauto, by tauto, rfl⟩

/-- A turn stops the service exactly for a root record whose expiry SQLite cannot store. -/
theorem handle_stopped_iff (valid : ledger.Valid) :
    handle hmac ledger packet = .stopped ↔
      (∃ values, Gcs.parseRootRecord hmac packet = .ok values) ∧
        u64be packet 100 > Ledger.sqliteMax := by
  constructor
  · intro stopped
    rw [handle] at stopped
    split at stopped
    · cases stopped
    dsimp only at stopped
    split at stopped
    · split at stopped
      · cases stopped
      · rename_i deviceId version record parsed
        refine ⟨⟨_, parsed⟩, (parseRootRecord_form parsed).2.2.2 ▸ ?_⟩
        split at stopped
        · rename_i refused
          rw [Ledger.upsertRoot] at refused
          split at refused
          · cases refused
          · split at refused
            · assumption
            · cases refused
        · cases stopped
    split at stopped
    · split at stopped <;> cases stopped
    split at stopped
    · split at stopped
      · cases stopped
      · split at stopped <;> cases stopped
    split at stopped
    · split at stopped
      · cases stopped
      · split at stopped <;> cases stopped
    · cases stopped
  · rintro ⟨⟨⟨deviceId, version, record⟩, parsed⟩, large⟩
    obtain ⟨sized, head, op, expiry⟩ := parseRootRecord_form parsed
    have unstored : ledger.roots (deviceId, version) ≠ some record := by
      intro held
      have small := (valid.roots _ _ held).expiryUnix
      dsimp only at expiry
      omega
    have refused : ledger.upsertRoot deviceId version record = none := by
      rw [Ledger.upsertRoot, if_neg unstored, if_pos (expiry ▸ large)]
    rw [handle, if_neg (by rw [sized, head]; decide)]
    simp only [if_pos op, parsed, refused]

/-- A turn that replies keeps the tables valid and sends a reply of one of three sizes. -/
theorem handle_replied_valid (valid : ledger.Valid)
    (turn : handle hmac ledger packet = .replied ledger' reply) :
    ledger'.Valid ∧
      (reply.length = ackBytes ∨ reply.length = rootRecordBytes ∨
        reply.length = pathRecordBytes) := by
  rw [handle] at turn
  split at turn
  · cases turn
  dsimp only at turn
  split at turn
  · split at turn
    · cases turn
    · rename_i deviceId version record parsed
      obtain ⟨-, -, stores, -⟩ := parseRootRecord_ranges parsed
      split at turn
      · cases turn
      · rename_i stored
        cases turn
        refine ⟨?_, .inl (length_buildAck ..)⟩
        rw [Ledger.upsertRoot] at stored
        split at stored
        · exact Option.some.inj stored ▸ valid
        · split at stored
          · cases stored
          · rename_i small
            rw [← Option.some.inj stored]
            refine ⟨fun key held present => ?_, valid.paths⟩
            dsimp only at present
            by_cases own : key = (deviceId, version)
            · rw [own, Function.update_self, Option.some.injEq] at present
              exact present ▸ stores (Nat.not_lt.mp small)
            · rw [Function.update_of_ne own] at present
              exact valid.roots _ _ present
  split at turn
  · split at turn
    · cases turn
    · rename_i deviceId version q path parsed
      cases turn
      refine ⟨⟨?_, fun key held present => ?_⟩, .inl (length_buildAck ..)⟩
      · rw [Ledger.upsertPath]
        split
        · exact valid.roots
        · exact valid.roots
      · rw [Ledger.paths_upsertPath] at present
        by_cases own : key = (deviceId, version, q)
        · rw [own, Function.update_self, Option.some.injEq] at present
          exact present ▸ (parsePathRecord_ranges parsed).2.2.2
        · rw [Function.update_of_ne own] at present
          exact valid.paths _ _ present
  split at turn
  · split at turn
    · cases turn
    · split at turn <;> cases turn
      · exact ⟨valid, .inl (by simp [Gcs.buildNotFound, Gcs.statusPacket])⟩
      · exact ⟨valid, .inr (.inl (by simp [Gcs.buildRootResponse]))⟩
  split at turn
  · split at turn
    · cases turn
    · split at turn <;> cases turn
      · exact ⟨valid, .inl (by simp [Gcs.buildNotFound, Gcs.statusPacket])⟩
      · exact ⟨valid, .inr (.inr (by simp [Gcs.buildPathResponse]))⟩
  · cases turn

end Turns

section Service

variable {hmac : Bytes → Tag} {copies : Nat}

theorem valid_loopBody {ledger : Ledger} (valid : ledger.Valid) (packet : Bytes) :
    (loopBody hmac copies packet ledger).2.Valid := by
  rw [loopBody_eq valid]
  cases turn : handle hmac ledger packet with
  | replied ledger' reply => exact (handle_replied_valid valid turn).1
  | ignored => exact valid
  | rejected error => exact valid
  | stopped => exact valid

/-- Whatever was received, the tables hold valid rows. -/
theorem valid_ledgerAfter (history : List Bytes) : (ledgerAfter hmac copies history).Valid := by
  suffices from_valid : ∀ (ledger : Ledger), ledger.Valid →
      (history.foldl (fun ledger packet => (loopBody hmac copies packet ledger).2)
        ledger).Valid from
    from_valid _ Ledger.valid_empty
  induction history with
  | nil => exact fun _ valid => valid
  | cons packet rest ih => exact fun _ valid => ih _ (valid_loopBody valid packet)

/-- The packet was ignored, rejected with the tables unchanged, or answered by `copies`
datagrams of one reply. -/
def Answers (copies : Nat) (ledger : Ledger) : Except Exception Served × Ledger → Prop
  | (.ok .ignored, after) => after = ledger
  | (.ok (.rejected _), after) => after = ledger
  | (.ok (.sent datagrams), _) => ∃ reply, datagrams = List.replicate copies reply ∧
      (reply.length = ackBytes ∨ reply.length = rootRecordBytes ∨ reply.length = pathRecordBytes)
  | (.error _, _) => False

/-- No exception leaves the loop body, after any history of packets, exactly when the packet is
not an accepted root record whose expiry is 2^63 or later. -/
theorem loopBody_answers_iff (hmac : Bytes → Tag) (copies : Nat) (history : List Bytes)
    (packet : Bytes) :
    Answers copies (ledgerAfter hmac copies history)
        (loopBody hmac copies packet (ledgerAfter hmac copies history)) ↔
      ((∃ values, Gcs.parseRootRecord hmac packet = .ok values) → u64be packet 100 < 2 ^ 63) := by
  have valid : (ledgerAfter hmac copies history).Valid := valid_ledgerAfter history
  have stops : handle hmac (ledgerAfter hmac copies history) packet = .stopped ↔ _ :=
    handle_stopped_iff valid
  have continues : handle hmac (ledgerAfter hmac copies history) packet ≠ .stopped →
      ((∃ values, Gcs.parseRootRecord hmac packet = .ok values) → u64be packet 100 < 2 ^ 63) := by
    intro ongoing accepted
    have small := not_and.mp (mt stops.mpr ongoing) accepted
    simp only [Ledger.sqliteMax] at small
    omega
  rw [loopBody_eq valid]
  cases turn : handle hmac (ledgerAfter hmac copies history) packet with
  | ignored => exact iff_of_true rfl (continues (by rw [turn]; exact Turn.noConfusion))
  | rejected error => exact iff_of_true rfl (continues (by rw [turn]; exact Turn.noConfusion))
  | replied ledger reply =>
      refine iff_of_true ⟨reply, ?_, (handle_replied_valid valid turn).2⟩
        (continues (by rw [turn]; exact Turn.noConfusion))
      rw [List.map_const', List.length_range]
  | stopped =>
      obtain ⟨accepted, large⟩ := stops.mp turn
      refine iff_of_false id fun small => ?_
      have bound := small accepted
      simp only [Ledger.sqliteMax] at large
      omega

section Expiry

/-- A tag function under which every packet that ends in 32 zero bytes is authentic. -/
def zeroTag (_ : Bytes) : Tag := List.Vector.replicate tagBytes 0

/-- A well-formed root enrolment with an expiry of 2^63. -/
def distantExpiry : Bytes :=
  tagged zeroTag (Puav.GcsLedgerClient.enrollRootRequest (List.Vector.replicate 32 0x41) 1
    (List.Vector.replicate 16 0) (List.Vector.replicate 32 0x52) 0x00010001 1 0x8000000000000000)

/-- Its first packet can end the service. -/
theorem distantExpiry_leaves_loop :
    ¬ Answers 1 (ledgerAfter zeroTag 1 []) (loopBody zeroTag 1 distantExpiry
      (ledgerAfter zeroTag 1 [])) := by
  have parsed : Gcs.parseRootRecord zeroTag distantExpiry = .ok (_, _, _) :=
    parseRootRecord_request (List.Vector.replicate 32 0x41) 1 (List.Vector.replicate 16 0)
      (List.Vector.replicate 32 0x52) 0x00010001 0x8000000000000000
      (by decide : (1 : UInt8) ≤ 3) rfl
  have expiry : u64be distantExpiry 100 = 2 ^ 63 := (parseRootRecord_form parsed).2.2.2.symm
  have stopped : handle zeroTag (ledgerAfter zeroTag 1 []) distantExpiry = .stopped :=
    (handle_stopped_iff (valid_ledgerAfter [])).mpr ⟨⟨_, parsed⟩, by rw [expiry]; decide⟩
  rw [loopBody_eq (valid_ledgerAfter []), stopped]
  exact id

end Expiry

end Service

end MainLoop

end Gcs
