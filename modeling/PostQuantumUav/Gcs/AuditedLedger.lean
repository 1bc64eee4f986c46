import PostQuantumUav.Gcs.AuditChain
import PostQuantumUav.Library.LastWrite

/-!
# The database and its audit file

An upsert that changes a row commits it first and appends the audit event then,
and returns at once when the row is already the one it is given. The process may
stop between any two of these steps, and starts again with what is on disk.

The file accounts for the tables as long as every commit is followed by its event.
A row that was committed without one is never accounted for by a retry, because
the retry finds the row unchanged.
-/

namespace Gcs

open Json

/-- A server process: the committed tables and the audit file with the hash that the process
keeps. -/
structure AuditedLedger where
  ledger : Ledger
  log : AuditLog

/-- Where the process may stop in an upsert: before the row is committed, before anything is
appended, or after some characters of the line. -/
inductive Stop where
  | beforeCommit
  | beforeAppend
  | appending (written : Nat)
  deriving DecidableEq

namespace AuditedLedger

variable (sha256 : Bytes → List.Vector UInt8 32)

/-- The process is gone; the disk stays. -/
def down (server : AuditedLedger) : AuditedLedger :=
  { server with log := { server.log with previousHash := none } }

/-- The row that an event is about is already the one that it names. -/
def unchanged (ledger : Ledger) : AuditEvent → Bool
  | .root deviceId version record _ => ledger.roots (deviceId, version) = some record
  | .path deviceId version q stored _ => ledger.paths (deviceId, version, q) = some stored

/-- The tables with the row that an event is about. -/
def execute (ledger : Ledger) : AuditEvent → Option Ledger
  | .root deviceId version record _ => ledger.upsertRoot deviceId version record
  | .path deviceId version q stored _ => some (ledger.upsertPath deviceId version q stored)

/-- Commit the row, then append the event. -/
def commit (server : AuditedLedger) (ledger : Ledger) (event : AuditEvent) (timestamp : Timestamp) :
    Option Stop → AuditedLedger
  | none => ⟨ledger, server.log.step sha256 (.append event timestamp none)⟩
  | some .beforeCommit => server.down
  | some .beforeAppend => down ⟨ledger, server.log⟩
  | some (.appending written) =>
      ⟨ledger, server.log.step sha256 (.append event timestamp (some written))⟩

/-- The body of both upserts. An integer that SQLite cannot store ends the process. -/
def upsert (server : AuditedLedger) (event : AuditEvent) (timestamp : Timestamp)
    (stop : Option Stop) : AuditedLedger :=
  if server.log.previousHash = none then server
  else if unchanged server.ledger event then if stop = none then server else server.down
  else
    match execute server.ledger event with
    | none => server.down
    | some ledger => commit sha256 server ledger event timestamp stop

def upsertRoot (server : AuditedLedger) (deviceId : Bytes) (version : Nat) (record : RootRecord)
    (sourceIp : PlainText) : Timestamp → Option Stop → AuditedLedger :=
  server.upsert sha256 (.root deviceId version record sourceIp)

def upsertPath (server : AuditedLedger) (deviceId : Bytes) (version q : Nat) (path : Bytes)
    (sourceIp : PlainText) : Timestamp → Option Stop → AuditedLedger :=
  server.upsert sha256 (.path deviceId version q path sourceIp)

inductive Action where
  | upsert (event : AuditEvent) (timestamp : Timestamp) (stop : Option Stop)
  | restart

/-- The arguments of an upsert are those of its event. -/
def step (server : AuditedLedger) : Action → AuditedLedger
  | .upsert (.root deviceId version record sourceIp) timestamp stop =>
      server.upsertRoot sha256 deviceId version record sourceIp timestamp stop
  | .upsert (.path deviceId version q path sourceIp) timestamp stop =>
      server.upsertPath sha256 deviceId version q path sourceIp timestamp stop
  | .restart => { server with log := server.log.step sha256 .restart }

/-- A run from an empty database without an audit file. -/
def run (actions : List Action) : AuditedLedger :=
  actions.foldl (step sha256) ⟨⟨fun _ => none, fun _ => none⟩, AuditLog.run sha256 []⟩

end AuditedLedger

section Replay

/-- The members of a line that is an object. -/
def lineFields (line : Text) : Option (List (Text × Json)) :=
  match loads pythonWords line with
  | some (.object fields) => some fields
  | _ => none

def textOf (fields : List (Text × Json)) (name : Text) : Option Text :=
  match get? fields name with
  | some (.string value) => some value
  | _ => none

def bytesOf (fields : List (Text × Json)) (name : Text) : Option Bytes :=
  (textOf fields name).bind Hex.decode

def naturalOf (fields : List (Text × Json)) (name : Text) : Option Nat :=
  match get? fields name with
  | some (.number token) =>
      if token.all Char.isDigit then some (Nat.ofDigitChars 10 token 0) else none
  | _ => none

/-- The row that a line says was written to `credential_roots`. -/
def rootEntry (line : Text) : Option ((Bytes × Nat) × RootRecord) := do
  let fields ← lineFields line
  guard (textOf fields "event".toList = some "root".toList)
  let deviceId ← bytesOf fields "device_id".toList
  let version ← naturalOf fields "version".toList
  let identifier ← bytesOf fields "identifier".toList
  let root ← bytesOf fields "root".toList
  let suiteId ← naturalOf fields "suite_id".toList
  let status ← naturalOf fields "status".toList
  let expiryUnix ← naturalOf fields "expiry_unix".toList
  return ((deviceId, version), ⟨identifier, root, suiteId, status, expiryUnix⟩)

/-- The row that a line says was written to `lms_paths`, with the hash of its path. -/
def pathEntry (line : Text) : Option ((Bytes × Nat × Nat) × Text) := do
  let fields ← lineFields line
  guard (textOf fields "event".toList = some "path".toList)
  let deviceId ← bytesOf fields "device_id".toList
  let version ← naturalOf fields "version".toList
  let q ← naturalOf fields "q".toList
  let pathSha256 ← textOf fields "path_sha256".toList
  return ((deviceId, version, q), pathSha256)

/-- The audit file accounts for the tables: its root events build `credential_roots`, and the last
event of every stored path carries its hash. -/
structure AuditedLedger.Agrees (sha256 : Bytes → List.Vector UInt8 32) (server : AuditedLedger) :
    Prop where
  roots : ((server.log.file.splitOn '\n').filterMap rootEntry).foldl LastWrite.apply
    (fun _ => none) = server.ledger.roots
  paths : ∀ key path, server.ledger.paths key = some path →
    LastWrite.last ((server.log.file.splitOn '\n').filterMap pathEntry) key =
      some (hexdigest sha256 path)

end Replay

section Entries

variable {sha256 : Bytes → List.Vector UInt8 32} (timestamp : Timestamp) {previousHash : Text}

theorem textOf_of_get? {fields : List (Text × Json)} {name value : Text}
    (found : get? fields name = some (.string value)) : textOf fields name = some value := by
  rw [textOf, found]

theorem bytesOf_of_get? {fields : List (Text × Json)} {name : Text} {bytes : Bytes}
    (found : get? fields name = some (hex bytes)) : bytesOf fields name = some bytes := by
  rw [bytesOf, textOf_of_get? found, Option.bind_some, Hex.decode_encode]

theorem naturalOf_of_get? {fields : List (Text × Json)} {name : Text} {n : Nat}
    (found : get? fields name = some (integer n)) : naturalOf fields name = some n := by
  have digits : (Nat.toDigits 10 n).all Char.isDigit = true :=
    List.all_eq_true.mpr fun c mem => Nat.isDigit_of_mem_toDigits (by decide) (by decide) mem
  rw [naturalOf, found]
  simp only [integer, digits, if_true, Nat.ofDigitChars_toDigits (by decide : 1 < 10)
    (by decide : 10 ≤ 10)]

/-- The line of an event is an object with the members of the event. -/
theorem lineFields_recordText (event : AuditEvent) (plain : previousHash.all isPlain = true) :
    ∃ fields, lineFields (recordText sha256 (body sha256 event timestamp previousHash)) =
        some fields ∧
      ∀ name v, (name, v) ∈ event.fields sha256 → get? fields name = some v := by
  obtain ⟨fields, text, perm, flat, nodup⟩ := @recordText_eq sha256 event timestamp _ plain
  have read := @loads_object pythonWords [' '] fields [] (by decide) rfl flat nodup
  rw [List.append_nil, ← text] at read
  refine ⟨fields, by rw [lineFields, read], ?_⟩
  intro name v mem
  refine get?_of_mem nodup (perm.mem_iff.mpr (List.mem_append_left _ ?_))
  rw [body_eq]
  exact List.mem_append_left _ mem

/-- The line of a root event names its row, and no path. -/
theorem entries_root (plain : previousHash.all isPlain = true) (deviceId : Bytes) (version : Nat)
    (record : RootRecord) (sourceIp : PlainText) :
    let line := recordText sha256
      (body sha256 (.root deviceId version record sourceIp) timestamp previousHash)
    rootEntry line = some ((deviceId, version), record) ∧ pathEntry line = none := by
  obtain ⟨fields, read, found⟩ := @lineFields_recordText sha256 timestamp previousHash
    (.root deviceId version record sourceIp) plain
  have event : textOf fields "event".toList = some "root".toList :=
    textOf_of_get? (found _ _ (by simp [AuditEvent.fields]))
  dsimp only
  rw [rootEntry, pathEntry, read]
  simp only [Option.bind_eq_bind, Option.bind_some, event,
    bytesOf_of_get? (found "device_id".toList (hex deviceId) (by simp [AuditEvent.fields])),
    naturalOf_of_get? (found "version".toList (integer version) (by simp [AuditEvent.fields])),
    bytesOf_of_get? (found "identifier".toList (hex record.identifier)
      (by simp [AuditEvent.fields])),
    bytesOf_of_get? (found "root".toList (hex record.root) (by simp [AuditEvent.fields])),
    naturalOf_of_get? (found "suite_id".toList (integer record.suiteId)
      (by simp [AuditEvent.fields])),
    naturalOf_of_get? (found "status".toList (integer record.status)
      (by simp [AuditEvent.fields])),
    naturalOf_of_get? (found "expiry_unix".toList (integer record.expiryUnix)
      (by simp [AuditEvent.fields]))]
  exact ⟨rfl, rfl⟩

/-- The line of a path event names its row, and no root. -/
theorem entries_path (plain : previousHash.all isPlain = true) (deviceId : Bytes) (version q : Nat)
    (path : Bytes) (sourceIp : PlainText) :
    let line := recordText sha256
      (body sha256 (.path deviceId version q path sourceIp) timestamp previousHash)
    rootEntry line = none ∧
      pathEntry line = some ((deviceId, version, q), hexdigest sha256 path) := by
  obtain ⟨fields, read, found⟩ := @lineFields_recordText sha256 timestamp previousHash
    (.path deviceId version q path sourceIp) plain
  have event : textOf fields "event".toList = some "path".toList :=
    textOf_of_get? (found _ _ (by simp [AuditEvent.fields]))
  have digest : textOf fields "path_sha256".toList = some (hexdigest sha256 path) :=
    textOf_of_get? (found _ _ (by simp [AuditEvent.fields]))
  dsimp only
  rw [rootEntry, pathEntry, read]
  simp only [Option.bind_eq_bind, Option.bind_some, event, digest,
    bytesOf_of_get? (found "device_id".toList (hex deviceId) (by simp [AuditEvent.fields])),
    naturalOf_of_get? (found "version".toList (integer version) (by simp [AuditEvent.fields])),
    naturalOf_of_get? (found "q".toList (integer q) (by simp [AuditEvent.fields]))]
  exact ⟨rfl, rfl⟩

end Entries

namespace AuditedLedger

variable {sha256 : Bytes → List.Vector UInt8 32} {server : AuditedLedger}

/-- The records of the file are whole lines, and they account for the tables. -/
structure Accounted (sha256 : Bytes → List.Vector UInt8 32) (server : AuditedLedger) : Prop where
  linked : Linked sha256 server.log.attempts
  tidy : server.log.Tidy sha256
  roots : ((texts sha256 server.log.attempts).filterMap rootEntry).foldl LastWrite.apply
    (fun _ => none) = server.ledger.roots
  paths : ∀ key path, server.ledger.paths key = some path →
    LastWrite.last ((texts sha256 server.log.attempts).filterMap pathEntry) key =
      some (hexdigest sha256 path)

theorem Accounted.agrees (accounted : Accounted sha256 server) : server.Agrees sha256 := by
  have lines : server.log.file.splitOn '\n' = texts sha256 server.log.attempts ++ [[]] := by
    rw [accounted.tidy.file, ← List.append_nil (whole sha256 _), whole,
      splitOn_lines accounted.linked.newline_notMem]
    rfl
  have blank : ([[]] : List Text).filterMap rootEntry = [] ∧
      ([[]] : List Text).filterMap pathEntry = [] := by
    constructor <;> rfl
  constructor
  · rw [lines, List.filterMap_append, blank.1, List.append_nil]
    exact accounted.roots
  · rw [lines, List.filterMap_append, blank.2, List.append_nil]
    exact accounted.paths

theorem Accounted.down (accounted : Accounted sha256 server) : Accounted sha256 server.down :=
  ⟨accounted.linked, ⟨accounted.tidy.file, nofun⟩, accounted.roots, accounted.paths⟩

/-- A committed row whose event follows as a whole line is accounted for. -/
theorem Accounted.committed (accounted : Accounted sha256 server) {hash : Text}
    (running : server.log.previousHash = some hash) {event : AuditEvent} (timestamp : Timestamp)
    {cut : Option Nat} (all : ∀ written, cut = some written →
      (recordLine sha256 (body sha256 event timestamp hash)).length ≤ written) {ledger : Ledger}
    (executed : execute server.ledger event = some ledger) :
    Accounted sha256 ⟨ledger, server.log.step sha256 (.append event timestamp cut)⟩ := by
  obtain ⟨linked, tidy, lines⟩ :=
    accounted.tidy.append_whole accounted.linked running event timestamp all
  have plain : hash.all isPlain = true := by
    rw [accounted.tidy.previousHash hash running]
    exact plain_lastHash
  refine ⟨linked, tidy, ?_, ?_⟩
  · rw [lines, List.filterMap_append, List.foldl_append, accounted.roots]
    cases event with
    | root deviceId version record sourceIp =>
        rw [Ledger.roots_upsertRoot executed]
        simp only [List.filterMap_cons, List.filterMap_nil,
          (entries_root timestamp plain deviceId version record sourceIp).1]
        rfl
    | path deviceId version q path sourceIp =>
        obtain rfl := Option.some.inj executed
        simp only [List.filterMap_cons, List.filterMap_nil,
          (entries_path timestamp plain deviceId version q path sourceIp).1]
        exact (Ledger.roots_upsertPath ..).symm
  · intro key stored present
    rw [lines, List.filterMap_append]
    cases event with
    | root deviceId version record sourceIp =>
        rw [Ledger.paths_upsertRoot executed] at present
        simp only [List.filterMap_cons, List.filterMap_nil, List.append_nil,
          (entries_root timestamp plain deviceId version record sourceIp).2]
        exact accounted.paths key stored present
    | path deviceId version q path sourceIp =>
        obtain rfl := Option.some.inj executed
        rw [Ledger.paths_upsertPath] at present
        simp only [List.filterMap_cons, List.filterMap_nil,
          (entries_path timestamp plain deviceId version q path sourceIp).2]
        rw [LastWrite.last_append]
        by_cases same : (deviceId, version, q) = key
        · rw [if_pos same]
          rw [← same, Function.update_self] at present
          rw [Option.some.inj present]
        · rw [if_neg same]
          rw [Function.update_of_ne (Ne.symm same)] at present
          exact accounted.paths key stored present

/-- An upsert of this event writes a row. -/
def Writes (server : AuditedLedger) (event : AuditEvent) : Prop :=
  server.log.previousHash ≠ none ∧ unchanged server.ledger event = false ∧
    (execute server.ledger event).isSome

/-- The process does not stop between the commit of a row and the end of its event's line. -/
def Logged (sha256 : Bytes → List.Vector UInt8 32) (server : AuditedLedger) (event : AuditEvent)
    (timestamp : Timestamp) : Option Stop → Prop
  | some .beforeAppend => False
  | some (.appending written) => ∀ hash, server.log.previousHash = some hash →
      (recordLine sha256 (body sha256 event timestamp hash)).length ≤ written
  | _ => True

/-- In no state does an upsert that writes a row stop before its event is logged. -/
def CommitsLogged (sha256 : Bytes → List.Vector UInt8 32) (actions : List Action) : Prop :=
  ∀ front event timestamp stop back, actions = front ++ .upsert event timestamp stop :: back →
    (run sha256 front).Writes event → (run sha256 front).Logged sha256 event timestamp stop

theorem Accounted.upsert (accounted : Accounted sha256 server) {event : AuditEvent}
    {timestamp : Timestamp} {stop : Option Stop}
    (logged : server.Writes event → server.Logged sha256 event timestamp stop) :
    Accounted sha256 (server.upsert sha256 event timestamp stop) := by
  rw [AuditedLedger.upsert]
  cases running : server.log.previousHash with
  | none =>
      rw [if_pos rfl]
      exact accounted
  | some hash =>
      rw [if_neg (Option.some_ne_none hash)]
      cases changed : unchanged server.ledger event with
      | true =>
          rw [if_pos rfl]
          split
          · exact accounted
          · exact accounted.down
      | false =>
          rw [if_neg Bool.false_ne_true]
          cases executed : execute server.ledger event with
          | none => exact accounted.down
          | some ledger =>
              have complete := logged ⟨by rw [running]; exact Option.some_ne_none hash, changed,
                by rw [executed]; rfl⟩
              match stop, complete with
              | none, _ =>
                  exact @committed _ _ accounted _ running _ timestamp none
                    (fun _ cut => nomatch cut) _ executed
              | some .beforeCommit, _ => exact accounted.down
              | some (.appending written), complete =>
                  refine accounted.committed running timestamp ?_ executed
                  rintro _ ⟨⟩
                  exact complete hash running

theorem accounted_run {actions : List Action} (logged : CommitsLogged sha256 actions) :
    Accounted sha256 (run sha256 actions) := by
  induction actions using List.reverseRecOn with
  | nil =>
      obtain ⟨linked, tidy | ⟨front, a, split, -⟩⟩ := @AuditLog.run_linked sha256 []
        fun front _ _ _ _ split => absurd split (by simp)
      · refine ⟨linked, tidy, rfl, ?_⟩
        rintro _ _ ⟨⟩
      · exact absurd split (by simp [AuditLog.run])
  | append_singleton actions action ih =>
      have accounted := ih (by
        rintro front event timestamp stop back rfl
        exact logged front event timestamp stop (back ++ [action]) (by simp))
      have last : run sha256 (actions ++ [action]) = (run sha256 actions).step sha256 action := by
        simp [run]
      rw [last]
      cases action with
      | restart =>
          exact ⟨accounted.linked, accounted.tidy.restart accounted.linked, accounted.roots,
            accounted.paths⟩
      | upsert event timestamp stop =>
          have kept := accounted.upsert (logged actions event timestamp stop [] rfl)
          cases event <;> exact kept

/-- The audit file accounts for the tables in every run in which each committed row is logged
before the process stops. -/
theorem agrees_of_commitsLogged (sha256 : Bytes → List.Vector UInt8 32) (actions : List Action)
    (logged : CommitsLogged sha256 actions) : (run sha256 actions).Agrees sha256 :=
  (accounted_run logged).agrees

def enrolledRoot : RootRecord := ⟨List.replicate 16 3, List.replicate 32 5, 0x00010001, 1, 0⟩

/-- A device enrols version 1 of its root. -/
def enrolment : AuditEvent :=
  .root enrolledDevice 1 enrolledRoot ⟨"10.0.0.2".toList, isPlain_address⟩

theorem agrees_of_commitsLogged_retry : (run ones [.upsert enrolment clock (some .beforeCommit),
    .restart, .upsert enrolment clock none]).Agrees ones := by
  refine agrees_of_commitsLogged ones _ ?_
  intro front event timestamp stop back split _
  match front, split with
  | [], split => cases split; trivial
  | [_], split => cases split
  | [_, _], split => cases split; trivial
  | _ :: _ :: _ :: _, split => simp at split

/-- A row that is committed before a stop stays without an event, also after the retry. -/
theorem retry_leaves_row_unlogged : ¬ (run ones [.upsert enrolment clock (some .beforeAppend),
    .restart, .upsert enrolment clock none]).Agrees ones := by
  have state : run ones [.upsert enrolment clock (some .beforeAppend), .restart,
      .upsert enrolment clock none] = ⟨⟨Function.update (fun _ => none)
        (enrolledDevice, 1) (some enrolledRoot), fun _ => none⟩, ⟨[], some zeroHash, []⟩⟩ := by
    have storable : ¬ Ledger.sqliteMax < enrolledRoot.expiryUnix := by decide
    simp [storable, run, step, upsertRoot, upsert, enrolment, unchanged, execute, Ledger.upsertRoot,
      commit, down, AuditLog.run, AuditLog.step, loadLastAuditHash_nil]
  intro agrees
  have row := congrFun agrees.roots (enrolledDevice, 1)
  rw [state] at row
  have replayed : (([] : Text).splitOn '\n').filterMap rootEntry = [] := rfl
  simp only [replayed, List.foldl_nil, Function.update_self] at row
  cases row

end AuditedLedger

end Gcs
