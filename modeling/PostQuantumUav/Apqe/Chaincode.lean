import Mathlib.Logic.Function.Basic
import Mathlib.Data.List.Basic
import Mathlib.Tactic.Common

/-!
# The credential chaincode

`PutCredential`, `DeleteCredential` and the two queries of `main.go` over a world
state that maps keys to committed values. A transaction that returns an error
writes nothing.

A value is either the JSON text of a credential or the text of a key. Encoding
and decoding a credential lose nothing, so comparing two JSON texts is comparing
the credentials; decoding a key text as a credential is an error.
-/

namespace Apqe.Chaincode

structure Credential where
  identityHash : String
  slot : UInt16
  tid : String
  publicKey : String
  w : String
  verifyHash : String
  deriving DecidableEq, Repr

inductive StateValue where
  | credential (value : Credential)
  | key (text : String)
  deriving DecidableEq, Repr

/-- The committed values; keys that were never written or deleted have none. -/
abbrev WorldState := String → Option StateValue

inductive HexError where
  | invalidByte
  | length
  deriving DecidableEq, Repr

inductive Failure where
  | notValidHex (name : String) (reason : HexError)
  | wrongLength (name : String) (bytes got : Nat)
  | decodePreviousCredential
  | credentialNotFound
  | temporaryIdentityNotFound
  | indexedCredentialMissing
  | decodeCredential
  deriving DecidableEq, Repr

/-- The value of a hexadecimal digit of either case. -/
def hexValue (c : Char) : Option UInt8 :=
  if '0' ≤ c ∧ c ≤ '9' then some (.ofNat (c.toNat - '0'.toNat))
  else if 'a' ≤ c ∧ c ≤ 'f' then some (.ofNat (c.toNat - 'a'.toNat + 10))
  else if 'A' ≤ c ∧ c ≤ 'F' then some (.ofNat (c.toNat - 'A'.toNat + 10))
  else none

/-- `hex.DecodeString`: pairs are read in order, and a bad digit is reported before an
odd length. -/
def decodeString : List Char → Except HexError (List UInt8)
  | [] => .ok []
  | [c] => if (hexValue c).isSome then .error .length else .error .invalidByte
  | a :: b :: rest =>
      match hexValue a, hexValue b with
      | some high, some low => do
          let bytes ← decodeString rest
          return (high <<< 4 ||| low) :: bytes
      | _, _ => .error .invalidByte

def validateHex (name value : String) (bytes : Nat) : Except Failure Unit :=
  match decodeString value.toList with
  | .error reason => .error (.notValidHex name reason)
  | .ok raw => if raw.length ≠ bytes then .error (.wrongLength name bytes raw.length) else .ok ()

def credentialKey (identityHash : String) (slot : UInt16) : String :=
  "cred:" ++ identityHash ++ ":" ++ slot.toNat.repr

def tidIndexKey (tid : String) : String := "tid:" ++ tid

/-- The checks at the start of `PutCredential`. -/
def validateCredential (c : Credential) : Except Failure Unit := do
  validateHex "identityHash" c.identityHash 32
  validateHex "tid" c.tid 32
  validateHex "publicKey" c.publicKey 800
  validateHex "w" c.w 32
  validateHex "verifyHash" c.verifyHash 32

/-- `PutCredential`; the arguments are the fields of `credential`. -/
def putCredential (world : WorldState) (credential : Credential) : Except Failure WorldState := do
  validateCredential credential
  let key := credentialKey credential.identityHash credential.slot
  let write := fun world : WorldState =>
    Function.update (Function.update world key (some (.credential credential)))
      (tidIndexKey credential.tid) (some (.key key))
  match world key with
  | none => return write world
  | some (.key _) => throw .decodePreviousCredential
  | some (.credential previous) =>
      let world := if previous.tid ≠ credential.tid then
        Function.update world (tidIndexKey previous.tid) none else world
      if previous = credential then return world else return write world

def queryByIdentitySlot (world : WorldState) (identityHash : String) (slot : UInt16) :
    Except Failure Credential := do
  validateHex "identityHash" identityHash 32
  match world (credentialKey identityHash slot) with
  | none => throw .credentialNotFound
  | some (.key _) => throw .decodeCredential
  | some (.credential credential) => return credential

def queryByTemporaryIdentity (world : WorldState) (tid : String) : Except Failure Credential := do
  validateHex "tid" tid 32
  match world (tidIndexKey tid) with
  | none => throw .temporaryIdentityNotFound
  | some (.credential _) =>
      -- The text of a credential is not the key of anything that is ever written.
      throw .indexedCredentialMissing
  | some (.key key) =>
      match world key with
      | none => throw .indexedCredentialMissing
      | some (.key _) => throw .decodeCredential
      | some (.credential credential) => return credential

def deleteCredential (world : WorldState) (identityHash : String) (slot : UInt16) :
    Except Failure WorldState := do
  let credential ← queryByIdentitySlot world identityHash slot
  return Function.update (Function.update world (credentialKey identityHash slot) none)
    (tidIndexKey credential.tid) none

/-- A submitted transaction. -/
inductive Call where
  | putCredential (credential : Credential)
  | deleteCredential (identityHash : String) (slot : UInt16)

/-- Commit a transaction: its writes when it returns nil, nothing otherwise. -/
def submit (world : WorldState) (call : Call) : WorldState :=
  let result := match call with
    | .putCredential credential => putCredential world credential
    | .deleteCredential identityHash slot => deleteCredential world identityHash slot
  match result with
  | .ok next => next
  | .error _ => world

/-- The world state after a sequence of transactions on the empty one. -/
def run (calls : List Call) : WorldState := calls.foldl submit fun _ => none

end Apqe.Chaincode
