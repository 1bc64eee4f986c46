import PostQuantumUav.Gcs.LedgerServer
import PostQuantumUav.Library.Hex
import PostQuantumUav.Library.Json.RoundTrip

/-!
# The audit file

`Ledger._append_audit` and `Ledger._load_last_audit_hash`: every event is written
as one line of JSON that carries the hash of the line before it, and a restart
takes this hash from the last line. A stop may cut the line that is being written
at any byte.

The file is the text it holds; a file that does not exist yet is empty. SHA-256 is
an arbitrary function of the encoded text.
-/

namespace Gcs

open Json

/-- The words that `json.loads` reads. -/
def pythonWords : List (Text × Json) :=
  [("null".toList, .null), ("true".toList, .bool true), ("false".toList, .bool false),
    ("NaN".toList, .number "NaN".toList), ("Infinity".toList, .number "Infinity".toList),
    ("-Infinity".toList, .number "-Infinity".toList)]

/-- The text of an address, which needs no escapes. -/
abbrev PlainText := {text : Text // text.all isPlain = true}

/-- The text of `time.time()`. -/
abbrev Timestamp := {token : Text // isNumber token = true}

def hex (bytes : Bytes) : Json := .string (Hex.encode bytes)

def integer (n : Nat) : Json := .number (Nat.toDigits 10 n)

/-- Python's `str`, as far as the server uses it: of texts, of plain integers and of the words.
Other numbers, lists and objects, which it never writes there, keep their JSON spelling. -/
def str : Json → Text
  | .string value => value
  | .null => "None".toList
  | .bool true => "True".toList
  | .bool false => "False".toList
  | v => print [' '] v

/-- The events that the two upserts append. -/
inductive AuditEvent where
  | root (deviceId : Bytes) (version : Nat) (record : RootRecord) (sourceIp : PlainText)
  | path (deviceId : Bytes) (version q : Nat) (path : Bytes) (sourceIp : PlainText)

section Records

variable (sha256 : Bytes → List.Vector UInt8 32)

def hexdigest (data : Bytes) : Text := Hex.encode (sha256 data).toList

def AuditEvent.fields : AuditEvent → List (Text × Json)
  | .root deviceId version record sourceIp => [
      ("event".toList, .string "root".toList),
      ("device_id".toList, hex deviceId),
      ("version".toList, integer version),
      ("identifier".toList, hex record.identifier),
      ("root".toList, hex record.root),
      ("suite_id".toList, integer record.suiteId),
      ("status".toList, integer record.status),
      ("expiry_unix".toList, integer record.expiryUnix),
      ("source_ip".toList, .string sourceIp.val)]
  | .path deviceId version q stored sourceIp => [
      ("event".toList, .string "path".toList),
      ("device_id".toList, hex deviceId),
      ("version".toList, integer version),
      ("q".toList, integer q),
      ("path_sha256".toList, .string (hexdigest sha256 stored)),
      ("source_ip".toList, .string sourceIp.val)]

/-- `str.encode` of a text without characters above 127. -/
def encode (text : Text) : Bytes := text.map fun c => .ofNat c.toNat

/-- `json.dumps` with sorted keys and no spaces. -/
def canonical (body : List (Text × Json)) : Text := print [] (.object (sortKeys body))

def zeroHash : Text := List.replicate 64 '0'

/-- The members that are hashed. -/
def body (event : AuditEvent) (timestamp : Timestamp) (previousHash : Text) : List (Text × Json) :=
  Json.set (Json.set (event.fields sha256) "timestamp".toList (.number timestamp.val))
    "previous_hash".toList (.string previousHash)

def blockHash (body : List (Text × Json)) : Text := hexdigest sha256 (encode (canonical body))

/-- The JSON text of a record. -/
def recordText (body : List (Text × Json)) : Text :=
  print [' ']
    (.object (sortKeys (Json.set body "block_hash".toList (.string (blockHash sha256 body)))))

def recordLine (body : List (Text × Json)) : Text := recordText sha256 body ++ ['\n']

end Records

/-- `Ledger._load_last_audit_hash`; none is the `TypeError` of a line that is not an object. -/
def loadLastAuditHash (audit : Text) : Option Text :=
  match ((audit.splitOn '\n').filter fun line => line.any fun c => ! isSpace c).getLast? with
  | none => some zeroHash
  | some last =>
      match loads pythonWords last with
      | none => some zeroHash
      | some (.object fields) =>
          match get? fields "block_hash".toList with
          | none => some zeroHash
          | some v => some (str v)
      | some _ => none

/-- `Ledger._append_audit`: what the file holds then, and the hash that the process keeps. A stop
after `cut` characters leaves no process. -/
def appendAudit (sha256 : Bytes → List.Vector UInt8 32) (audit previousHash : Text)
    (event : AuditEvent) (timestamp : Timestamp) (cut : Option Nat) : Text × Option Text :=
  let body := body sha256 event timestamp previousHash
  match cut with
  | none => (audit ++ recordLine sha256 body, some (blockHash sha256 body))
  | some written => (audit ++ (recordLine sha256 body).take written, none)

end Gcs
