import Mathlib.Data.List.Infix
import PostQuantumUav.Apqe.Constants
import PostQuantumUav.Apqe.CredentialJson
import PostQuantumUav.Library.Bytes.Buffer
import PostQuantumUav.Library.Interaction.Execution

/-!
# The ledger gateway

`gateway-go/main.go`: parsing a request, answering it through the chaincode, and
building the answer. The contract of the Fabric network and the clock are calls; a
transaction returns a text or an error with a text.

A packet that is not a request gets no answer, because `parseRequest` returns no
request with any of its errors. The three copies of an answer are one value here;
the network decides how often it arrives.
-/

namespace Apqe.Gateway

open Interaction Cell Buffer Chaincode

abbrev Tag := List.Vector UInt8 gatewayTagBytes

structure Request where
  op : UInt8
  requestID : UInt32
  slot : UInt16
  payload : Bytes
  deriving DecidableEq, Repr

section Packets

variable (hmac : Bytes → Tag)

/-- `parseRequest`; an error is the status that comes with it. -/
def parseRequest (packet : Bytes) : Except UInt8 Request :=
  if packet.length < gatewayRequestHeaderBytes + gatewayTagBytes then .error gwBadRequest
  else if getU16 (slice packet 0 2) ≠ gatewayMagic ∨ readByte packet 2 ≠ gatewayVersion then
    .error gwBadRequest
  else
    let payloadLength := (getU16 (slice packet 10 2)).toNat
    if gatewayRequestHeaderBytes + payloadLength + gatewayTagBytes ≠ packet.length then
      .error gwBadRequest
    else if packet.drop (gatewayRequestHeaderBytes + payloadLength) ≠
        (hmac (packet.take (gatewayRequestHeaderBytes + payloadLength))).toList then
      .error gwAuthError
    else .ok ⟨readByte packet 3, getU32 (slice packet 4 4), getU16 (slice packet 8 2),
      slice packet 12 payloadLength⟩

/-- The authenticated part of an answer. -/
def responseBody (op : UInt8) (requestID : UInt32) (status : UInt8) (fabricUS : UInt64)
    (payload : Bytes) : Bytes :=
  putU16 gatewayMagic ++ [gatewayVersion, op ||| 0x80] ++ putU32 requestID ++ [status] ++
    putU64 fabricUS ++ putU16 (.ofNat payload.length) ++ payload

def buildResponse (op : UInt8) (requestID : UInt32) (status : UInt8) (fabricUS : UInt64)
    (payload : Bytes) : Bytes :=
  let body := responseBody op requestID status fabricUS payload
  body ++ (hmac body).toList

end Packets

section Credentials

/-- `hex.EncodeToString`. -/
def encodeToString (bytes : Bytes) : String := String.ofList (Hex.encode bytes)

/-- `strconv.Itoa` of a slot. -/
def itoa (slot : UInt16) : String := slot.toNat.repr

def credentialFromPayload (payload : Bytes) (slot : UInt16) : Option Credential :=
  if payload.length ≠ fabricRecordBytes then none
  else some {
    identityHash := encodeToString (slice payload 0 32)
    slot := slot
    tid := encodeToString (slice payload 32 32)
    publicKey := encodeToString (slice payload 64 800)
    w := encodeToString (slice payload 864 32)
    verifyHash := encodeToString (slice payload 896 32) }

/-- One field of `credentialPayload`. -/
def decodedField (value : String) (size : Nat) : Option Bytes :=
  match decodeString value.toList with
  | .error _ => none
  | .ok decoded => if decoded.length ≠ size then none else some decoded

def credentialPayload (credential : Credential) : Option Bytes := do
  let identityHash ← decodedField credential.identityHash idBytes
  let tid ← decodedField credential.tid tidBytes
  let publicKey ← decodedField credential.publicKey kyberPublicKeyBytes
  let w ← decodedField credential.w pufBytes
  let verifyHash ← decodedField credential.verifyHash hashBytes
  return identityHash ++ tid ++ publicKey ++ w ++ verifyHash

def sameCredential (a b : Credential) : Bool :=
  a.identityHash = b.identityHash ∧ a.slot = b.slot ∧ a.tid = b.tid ∧ a.publicKey = b.publicKey ∧
    a.w = b.w ∧ a.verifyHash = b.verifyHash

/-- `isNotFound` of an error's text. -/
def isNotFound (error : Text) : Bool :=
  "not found".toList <:+: error.map Char.toLower ∨ "missing".toList <:+: error.map Char.toLower

end Credentials

inductive Call where
  | evaluateTransaction (function : String) (args : List String)
  | submitTransaction (function : String) (args : List String)
  /-- The microseconds since the clock was read before a transaction. -/
  | microseconds

def calls : Signature where
  Call := Call
  Answer
    | .evaluateTransaction _ _ => Except Text Text
    | .submitTransaction _ _ => Except Text Unit
    | .microseconds => UInt64

/-- What `json.Unmarshal` reports of a result that is not a credential. -/
def notJson : Text := "invalid character".toList

/-- The credential in the result of a transaction. -/
def resultCredential : Except Text Text → Except Text Credential
  | .error error => .error error
  | .ok data =>
      match Credential.unmarshal data with
      | none => .error notJson
      | some credential => .ok credential

/-- `evaluateCredential`: a credential or the text of the error, and the time it took. -/
def evaluateCredential (function : String) (args : List String) :
    Program calls (Except Text Credential × UInt64) := do
  let data ← @Program.ask calls (.evaluateTransaction function args)
  let elapsed ← @Program.ask calls .microseconds
  return (resultCredential data, elapsed)

/-- The status, the time of the ledger and the payload of an answer. -/
structure Outcome where
  status : UInt8
  fabricUS : UInt64
  payload : Bytes
  deriving DecidableEq, Repr

/-- The end of both queries. -/
def queryOutcome (result : Except Text Credential × UInt64) : Outcome :=
  match result with
  | (.error error, elapsed) =>
      if isNotFound error then ⟨gwNotFound, elapsed, []⟩ else ⟨gwFabricError, elapsed, []⟩
  | (.ok credential, elapsed) =>
      match credentialPayload credential with
      | none => ⟨gwFabricError, elapsed, []⟩
      | some payload => ⟨gwOk, elapsed, payload⟩

/-- The submission of a new record. -/
def submitCredential (credential : Credential) (slot : UInt16) : Program calls Outcome := do
  let submitted ← @Program.ask calls (.submitTransaction "PutCredential"
    [credential.identityHash, itoa slot, credential.tid, credential.publicKey, credential.w,
      credential.verifyHash])
  let elapsed ← @Program.ask calls .microseconds
  match submitted with
  | .error _ => return ⟨gwFabricError, elapsed, []⟩
  | .ok _ => return ⟨gwOk, elapsed, []⟩

/-- `handle`, without the error that is only logged. -/
def handle (request : Request) : Program calls Outcome :=
  if request.op = gwPing then return ⟨gwOk, 0, []⟩
  else if request.op = gwPutCredential then
    match credentialFromPayload request.payload request.slot with
    | none => return ⟨gwBadRequest, 0, []⟩
    | some credential => do
        let (existing, evalUS) ← evaluateCredential "QueryByIdentitySlot"
          [credential.identityHash, itoa request.slot]
        if existing.toOption.any fun existing => sameCredential existing credential then
          return ⟨gwOk, evalUS, []⟩
        else submitCredential credential request.slot
  else if request.op = gwQueryIdSlot then
    if request.payload.length ≠ idBytes then return ⟨gwBadRequest, 0, []⟩
    else do
      let result ← evaluateCredential "QueryByIdentitySlot"
        [encodeToString request.payload, itoa request.slot]
      return queryOutcome result
  else if request.op = gwQueryTid then
    if request.payload.length ≠ tidBytes then return ⟨gwBadRequest, 0, []⟩
    else do
      let result ← evaluateCredential "QueryByTemporaryIdentity" [encodeToString request.payload]
      return queryOutcome result
  else return ⟨gwBadRequest, 0, []⟩

/-- The answer to a request. -/
def response (hmac : Bytes → Tag) (request : Request) (outcome : Outcome) : Bytes :=
  buildResponse hmac request.op request.requestID outcome.status outcome.fabricUS outcome.payload

/-- One turn of `serve` for a packet, which the read cuts to the size of its buffer. -/
def serve (hmac : Bytes → Tag) (packet : Bytes) : Program calls (Option Bytes) :=
  match parseRequest hmac (packet.take gatewayMaxResponseBytes) with
  | .error _ => return none
  | .ok request => do
      let outcome ← handle request
      return some (response hmac request outcome)

section Sizes

theorem length_decodedField {value : String} {size : Nat} {bytes : Bytes}
    (decoded : decodedField value size = some bytes) : bytes.length = size := by
  rw [decodedField] at decoded
  split at decoded
  · nomatch decoded
  · split at decoded
    · nomatch decoded
    · rename_i sized
      rw [← Option.some.inj decoded]
      exact Classical.not_not.mp sized

/-- The payload of a credential fills a record. -/
theorem length_credentialPayload {credential : Credential} {payload : Bytes}
    (built : credentialPayload credential = some payload) : payload.length = fabricRecordBytes := by
  simp only [credentialPayload, Option.bind_eq_bind, Option.bind_eq_some_iff] at built
  obtain ⟨identityHash, first, tid, second, publicKey, third, w, fourth, verifyHash, fifth, rest⟩ :=
    built
  rw [← Option.some.inj rest]
  simp only [List.length_append, length_decodedField first, length_decodedField second,
    length_decodedField third, length_decodedField fourth, length_decodedField fifth]

theorem length_queryOutcome (result : Except Text Credential × UInt64) :
    (queryOutcome result).payload.length ≤ fabricRecordBytes := by
  unfold queryOutcome
  split
  · split <;> exact Nat.zero_le _
  · split
    · exact Nat.zero_le _
    · rename_i built
      exact Nat.le_of_eq (length_credentialPayload built)

section Answers

variable {σ : Type} {world : World calls σ} {s : σ}

/-- What is known after `evaluateCredential` is what is known after its two calls. -/
theorem evaluateCredential_ensures {function : String} {args : List String}
    {post : Except Text Credential × UInt64 → σ → Prop}
    (answered : ∀ data s' elapsed s'', world s ⟨.evaluateTransaction function args, data⟩ s' →
      world s' ⟨.microseconds, elapsed⟩ s'' → post (resultCredential data, elapsed) s'') :
    (evaluateCredential function args).Ensures world (fun _ => True) post s :=
  fun data s' evaluated => ⟨trivial, fun elapsed s'' read =>
    ⟨trivial, answered data s' elapsed s'' evaluated read⟩⟩

theorem submitCredential_ensures {credential : Credential} {slot : UInt16} :
    (submitCredential credential slot).Ensures world (fun _ => True)
      (fun outcome _ => outcome.payload = []) s := by
  intro submitted s' _
  refine ⟨trivial, fun elapsed s'' _ => ⟨trivial, ?_⟩⟩
  cases submitted <;> exact rfl

/-- Whatever the ledger answers, a payload is empty or a record. -/
theorem handle_ensures (request : Request) :
    (handle request).Ensures world (fun _ => True)
      (fun outcome _ => outcome.payload.length ≤ fabricRecordBytes) s := by
  have query : ∀ function args, (evaluateCredential function args >>= fun result =>
      (return queryOutcome result : Program calls Outcome)).Ensures world (fun _ => True)
        (fun outcome _ => outcome.payload.length ≤ fabricRecordBytes) s := by
    intro function args
    rw [Program.ensures_bind]
    exact evaluateCredential_ensures fun data s' elapsed s'' _ _ => length_queryOutcome _
  unfold handle
  split
  · exact Nat.zero_le _
  split
  · split
    · exact Nat.zero_le _
    · rw [Program.ensures_bind]
      refine evaluateCredential_ensures fun data s' elapsed s'' _ _ => ?_
      dsimp only
      split
      · exact Nat.zero_le _
      · refine submitCredential_ensures.mono (fun _ always => always) fun outcome _ empty => ?_
        rw [empty]
        exact Nat.zero_le _
  split
  · split
    · exact Nat.zero_le _
    · exact query _ _
  split
  · split
    · exact Nat.zero_le _
    · exact query _ _
  · exact Nat.zero_le _

end Answers

end Sizes

end Apqe.Gateway
