import PostQuantumUav.Apqe.ChaincodeTexts
import PostQuantumUav.Apqe.GatewayPackets
import PostQuantumUav.Library.Interaction.Total

/-!
# The gateway over the ledger

Transactions that are atomic and whose errors contain the message of the chaincode.
Over them the gateway stores the hexadecimal form of a record, also where it skips
the record that is stored already, and answers a query with the bytes of the record
or with the status for records that are not found.
-/

namespace Apqe.Gateway

open Interaction Cell Buffer Chaincode

/-- A transaction commits its writes and returns its result, or returns an error and writes
nothing. -/
inductive Committed (state : StateTexts) : Event calls → StateTexts → Prop where
  | evaluated {function : String} {args : List String} {next : StateTexts} {result : Text}
      (ok : state.invoke function args = .ok (next, result)) :
      Committed state ⟨.evaluateTransaction function args, .ok result⟩ state
  | evaluateFailed {function : String} {args : List String} {message error : Text}
      (failed : state.invoke function args = .error message) (contains : message <:+: error) :
      Committed state ⟨.evaluateTransaction function args, .error error⟩ state
  | submitted {function : String} {args : List String} {next : StateTexts} {result : Text}
      (ok : state.invoke function args = .ok (next, result)) :
      Committed state ⟨.submitTransaction function args, .ok ()⟩ next
  | submitFailed {function : String} {args : List String} {message : Text} (error : Text)
      (failed : state.invoke function args = .error message) :
      Committed state ⟨.submitTransaction function args, .error error⟩ state
  | microseconds (elapsed : UInt64) : Committed state ⟨.microseconds, elapsed⟩ state

/-- The contract answers every call. -/
theorem committed_responsive : World.Responsive (S := calls) Committed := by
  intro state c
  cases c with
  | microseconds => exact ⟨(0 : UInt64), state, .microseconds 0⟩
  | evaluateTransaction function args =>
      cases outcome : state.invoke function args with
      | ok result => exact ⟨.ok result.2, state, .evaluated outcome⟩
      | error message => exact ⟨.error message, state, .evaluateFailed outcome List.infix_rfl⟩
  | submitTransaction function args =>
      cases outcome : state.invoke function args with
      | ok result => exact ⟨.ok (), result.1, .submitted outcome⟩
      | error message => exact ⟨.error message, state, .submitFailed message outcome⟩

section Records

/-- The record of a credential as the gateway names it to the chaincode. -/
def hexCredential (c : FabricCredential) (slot : UInt16) : Credential where
  identityHash := encodeToString c.identityHash.toList
  slot := slot
  tid := encodeToString c.tid.toList
  publicKey := encodeToString c.publicKey.toList
  w := encodeToString c.w.toList
  verifyHash := encodeToString c.verifyHash.toList

variable (c : FabricCredential) (slot : UInt16)

theorem decodeString_encode (bytes : Bytes) : decodeString (Hex.encode bytes) = .ok bytes := by
  have value : ∀ v : UInt8, v < 16 → hexValue (Hex.digit v) = some v := Hex.digitValue_digit
  induction bytes with
  | nil => rfl
  | cons byte rest ih =>
      simp only [Hex.encode, decodeString, value _ (Hex.digit_lt byte).1,
        value _ (Hex.digit_lt byte).2, ih]
      change Except.ok _ = _
      rw [Hex.join_digits]

theorem encodeToString_inj {bytes bytes' : Bytes} :
    encodeToString bytes = encodeToString bytes' ↔ bytes = bytes' := by
  rw [encodeToString, encodeToString, ← String.toList_inj, String.toList_ofList,
    String.toList_ofList, Hex.encode_inj]

theorem validateHex_encodeToString (name : String) {bytes : Bytes} {count : Nat}
    (sized : bytes.length = count) : validateHex name (encodeToString bytes) count = .ok () := by
  rw [validateHex, encodeToString, String.toList_ofList, decodeString_encode]
  exact if_neg (not_not_intro sized)

theorem decodedField_encodeToString {bytes : Bytes} {size : Nat} (sized : bytes.length = size) :
    decodedField (encodeToString bytes) size = some bytes := by
  rw [decodedField, encodeToString, String.toList_ofList, decodeString_encode]
  exact if_neg (not_not_intro sized)

theorem validate_hexCredential : validateCredential (hexCredential c slot) = .ok () := by
  have valid : ∀ name {count} (field : List.Vector UInt8 count),
      validateHex name (encodeToString field.toList) count = .ok () :=
    fun name _ field => validateHex_encodeToString name field.toList_length
  simp only [validateCredential, hexCredential, valid]
  rfl

theorem credentialPayload_hexCredential :
    credentialPayload (hexCredential c slot) = some (FabricUdpClient.serializeCredential c) := by
  have decoded : ∀ {count} (field : List.Vector UInt8 count),
      decodedField (encodeToString field.toList) count = some field.toList :=
    fun field => decodedField_encodeToString field.toList_length
  simp only [credentialPayload, hexCredential, decoded, Option.bind_eq_bind, Option.bind_some]
  rfl

theorem length_serializeCredential :
    (FabricUdpClient.serializeCredential c).length = fabricRecordBytes := by
  simp only [FabricUdpClient.serializeCredential, List.length_append, List.Vector.toList_length]

/-- Every field stands where it was written. -/
theorem slice_serializeCredential :
    slice (FabricUdpClient.serializeCredential c) 0 32 = c.identityHash.toList ∧
      slice (FabricUdpClient.serializeCredential c) 32 32 = c.tid.toList ∧
      slice (FabricUdpClient.serializeCredential c) 64 800 = c.publicKey.toList ∧
      slice (FabricUdpClient.serializeCredential c) 864 32 = c.w.toList ∧
      slice (FabricUdpClient.serializeCredential c) 896 32 = c.verifyHash.toList := by
  have read : ∀ {count offset : Nat} (front : Bytes) (field : List.Vector UInt8 count)
      (back : Bytes), FabricUdpClient.serializeCredential c = front ++ (field.toList ++ back) →
        front.length = offset → slice (FabricUdpClient.serializeCredential c) offset count =
          field.toList := by
    intro count offset front field back parts before
    rw [parts]
    exact slice_middle before field.toList_length
  refine ⟨read [] _ (c.tid.toList ++ c.publicKey.toList ++ c.w.toList ++ c.verifyHash.toList) ?_ ?_,
    read c.identityHash.toList _ (c.publicKey.toList ++ c.w.toList ++ c.verifyHash.toList) ?_ ?_,
    read (c.identityHash.toList ++ c.tid.toList) _ (c.w.toList ++ c.verifyHash.toList) ?_ ?_,
    read (c.identityHash.toList ++ c.tid.toList ++ c.publicKey.toList) _ c.verifyHash.toList ?_ ?_,
    read (c.identityHash.toList ++ c.tid.toList ++ c.publicKey.toList ++ c.w.toList) _ [] ?_ ?_⟩
  all_goals simp [FabricUdpClient.serializeCredential, kyberPublicKeyBytes]

theorem credentialFromPayload_serializeCredential :
    credentialFromPayload (FabricUdpClient.serializeCredential c) slot =
      some (hexCredential c slot) := by
  obtain ⟨identityHash, tid, publicKey, w, verifyHash⟩ := slice_serializeCredential c
  rw [credentialFromPayload, if_neg (not_not_intro (length_serializeCredential c)), identityHash,
    tid, publicKey, w, verifyHash]
  rfl

end Records

section Transactions

variable {state : StateTexts} {ledger : Ledger}

/-- The decimal text of a slot is read back by the contract. -/
theorem slotParameter_itoa (slot : UInt16) : StateTexts.slotParameter (itoa slot) = some slot := by
  have text : (itoa slot).toList = Nat.toDigits 10 slot.toNat := by
    rw [itoa, Nat.repr, String.toList_ofList]
  have some_digit : itoa slot ≠ "" := by
    intro empty
    rw [empty] at text
    exact Nat.toDigits_ne_nil text.symm
  have digits : (itoa slot).toList.all Char.isDigit = true := by
    rw [text]
    exact List.all_eq_true.mpr fun c mem => Nat.isDigit_of_mem_toDigits (by decide) (by decide) mem
  have number : Nat.ofDigitChars 10 (itoa slot).toList 0 = slot.toNat := by
    rw [text]
    exact Nat.ofDigitChars_toDigits (by decide) (by decide)
  rw [StateTexts.slotParameter, if_pos ⟨some_digit, digits, number ▸ slot.toNat_lt⟩, number,
    UInt16.ofNat_toNat]

theorem invoke_putCredential (stores : Stores state ledger) (c : FabricCredential) (slot : UInt16) :
    ∃ next, state.invoke "PutCredential" [(hexCredential c slot).identityHash, itoa slot,
        (hexCredential c slot).tid, (hexCredential c slot).publicKey, (hexCredential c slot).w,
        (hexCredential c slot).verifyHash] = .ok (next, []) ∧
      Stores next
        (ledger.store Credential.tid (hexCredential c slot).place (hexCredential c slot)) := by
  obtain ⟨next, written, stores'⟩ := stores.putCredential (validate_hexCredential c slot)
  refine ⟨next, ?_, stores'⟩
  simp only [StateTexts.invoke, slotParameter_itoa]
  change Except.bind (Except.mapError _ (state.putCredential (hexCredential c slot))) _ = _
  rw [written]
  rfl

theorem invoke_queryByIdentitySlot (stores : Stores state ledger) (id : Block) (slot : UInt16) :
    state.invoke "QueryByIdentitySlot" [encodeToString id.toList, itoa slot] =
      (ledger.record (encodeToString id.toList, slot)).elim
        (.error Failure.credentialNotFound.message) fun c => .ok (state, c.marshal) := by
  have valid := validateHex_encodeToString "identityHash" id.toList_length
  simp only [StateTexts.invoke, slotParameter_itoa, stores.queryByIdentitySlot slot valid]
  cases ledger.record (encodeToString id.toList, slot) <;> rfl

theorem invoke_queryByTemporaryIdentity (stores : Stores state ledger) (tid : Block) :
    state.invoke "QueryByTemporaryIdentity" [encodeToString tid.toList] =
      (ledger.index (encodeToString tid.toList)).elim
        (.error Failure.temporaryIdentityNotFound.message) fun place =>
          (ledger.record place).elim (.error Failure.indexedCredentialMissing.message)
            fun c => .ok (state, c.marshal) := by
  have valid := validateHex_encodeToString "tid" tid.toList_length
  simp only [StateTexts.invoke, stores.queryByTemporaryIdentity valid]
  cases ledger.index (encodeToString tid.toList) with
  | none => rfl
  | some place =>
      simp only [Option.elim_some]
      cases ledger.record place <;> rfl

end Transactions

section Answers

variable {state : StateTexts} {ledger : Ledger}

/-- A found record is evaluated to its credential. -/
theorem evaluateCredential_found {function : String} {args : List String} {c : Credential}
    (found : state.invoke function args = .ok (state, c.marshal))
    (read : Credential.unmarshal c.marshal = some c) :
    (evaluateCredential function args).Ensures Committed (fun _ => True)
      (fun result state' => result.1 = .ok c ∧ state' = state) state := by
  apply evaluateCredential_ensures
  intro data state' elapsed state'' evaluated timed
  cases timed with
  | microseconds =>
      cases evaluated with
      | evaluated ok =>
          rw [found] at ok
          cases ok
          refine ⟨?_, rfl⟩
          simp only [resultCredential, read]
      | evaluateFailed failed contains =>
          rw [found] at failed
          cases failed

/-- A failed evaluation leaves an error that contains the message. -/
theorem evaluateCredential_failed {function : String} {args : List String} {message : Text}
    (failed : state.invoke function args = .error message) :
    (evaluateCredential function args).Ensures Committed (fun _ => True)
      (fun result state' => (∃ error, result.1 = .error error ∧ message <:+: error) ∧
        state' = state) state := by
  apply evaluateCredential_ensures
  intro data state' elapsed state'' evaluated timed
  cases timed with
  | microseconds =>
      cases evaluated with
      | evaluated ok =>
          rw [failed] at ok
          cases ok
      | evaluateFailed failed' contains =>
          rw [failed] at failed'
          cases failed'
          exact ⟨⟨_, rfl, contains⟩, rfl⟩

theorem isNotFound_iff {error : Text} : isNotFound error = true ↔
    "not found".toList <:+: error.map Char.toLower ∨ "missing".toList <:+: error.map Char.toLower :=
  decide_eq_true_iff

/-- An error that contains the message of one is recognised as that one is. -/
theorem isNotFound_of_contains {message error : Text} (named : isNotFound message = true)
    (contains : message <:+: error) : isNotFound error = true := by
  have lower := contains.map Char.toLower
  exact isNotFound_iff.mpr ((isNotFound_iff.mp named).imp (fun found => found.trans lower)
    fun missing => missing.trans lower)

/-- The messages about records that are not there. -/
theorem isNotFound_message {failure : Failure} (absent : failure = .credentialNotFound ∨
    failure = .temporaryIdentityNotFound ∨ failure = .indexedCredentialMissing) :
    isNotFound failure.message = true := by
  apply isNotFound_iff.mpr
  obtain rfl | rfl | rfl := absent
  · exact .inl ⟨"credential ".toList, [], rfl⟩
  · exact .inl ⟨"temporary identity ".toList, [], rfl⟩
  · exact .inr ⟨"indexed credential ".toList, [], rfl⟩

theorem sameCredential_iff {a b : Credential} : sameCredential a b = true ↔ a = b := by
  obtain ⟨identityHash, slot, tid, publicKey, w, verifyHash⟩ := a
  obtain ⟨identityHash', slot', tid', publicKey', w', verifyHash'⟩ := b
  simp only [sameCredential, decide_eq_true_eq, Credential.mk.injEq]

theorem handle_put_eq (requestID : UInt32) (c : FabricCredential) (slot : UInt16) :
    handle ⟨gwPutCredential, requestID, slot, FabricUdpClient.serializeCredential c⟩ = (do
      let (existing, evalUS) ← evaluateCredential "QueryByIdentitySlot"
        [encodeToString c.identityHash.toList, itoa slot]
      if existing.toOption.any fun existing => sameCredential existing (hexCredential c slot) then
        return ⟨gwOk, evalUS, []⟩
      else submitCredential (hexCredential c slot) slot) := by
  unfold handle
  simp only [credentialFromPayload_serializeCredential]
  rfl

theorem submitCredential_stores (stores : Stores state ledger) (c : FabricCredential)
    (slot : UInt16) :
    (submitCredential (hexCredential c slot) slot).Ensures Committed (fun _ => True)
      (fun outcome state' => (outcome.status = gwOk ∧ outcome.payload = []) ∧
        Stores state' (ledger.store Credential.tid (hexCredential c slot).place
          (hexCredential c slot))) state := by
  obtain ⟨next, written, stores'⟩ := invoke_putCredential stores c slot
  intro answer state' submitted
  refine ⟨trivial, fun elapsed state'' timed => ⟨trivial, ?_⟩⟩
  cases timed with
  | microseconds =>
      cases submitted with
      | submitted ok =>
          rw [written] at ok
          cases ok
          exact ⟨⟨rfl, rfl⟩, stores'⟩
      | submitFailed error failed =>
          rw [written] at failed
          cases failed

/-- A put stores the record, also where the gateway finds it stored already and skips it. -/
theorem handle_putCredential (stores : Stores state ledger) (requestID : UInt32)
    (c : FabricCredential) (slot : UInt16) :
    (handle ⟨gwPutCredential, requestID, slot, FabricUdpClient.serializeCredential c⟩).Ensures
      Committed (fun _ => True)
      (fun outcome state' => (outcome.status = gwOk ∧ outcome.payload = []) ∧
        Stores state' (ledger.store Credential.tid (hexCredential c slot).place
          (hexCredential c slot))) state := by
  have asked := invoke_queryByIdentitySlot stores c.identityHash slot
  rw [handle_put_eq, Program.ensures_bind]
  cases held : ledger.record (encodeToString c.identityHash.toList, slot) with
  | none =>
      rw [held] at asked
      refine (evaluateCredential_failed asked).mono (fun _ always => always) ?_
      rintro ⟨_, elapsed⟩ state' ⟨⟨error, rfl, -⟩, rfl⟩
      exact submitCredential_stores stores c slot
  | some d =>
      rw [held] at asked
      refine (evaluateCredential_found asked (stores.stored held).2.2).mono
        (fun _ always => always) ?_
      rintro ⟨_, elapsed⟩ state' ⟨rfl, rfl⟩
      dsimp only
      split
      · rename_i same
        obtain rfl := sameCredential_iff.mp same
        refine ⟨⟨rfl, rfl⟩, ?_⟩
        have unchanged := @IndexedStore.store_unchanged _ _ _ _ _ _ Credential.tid ledger
          (hexCredential c slot).place _ held
        rwa [unchanged]
      · exact submitCredential_stores stores c slot

/-- What a query answers: the record, or that it is not found. -/
def QueryAnswered (held : Option FabricCredential) (outcome : Outcome) : Prop :=
  match held with
  | none => outcome.status = gwNotFound ∧ outcome.payload = []
  | some c => outcome.status = gwOk ∧ outcome.payload = FabricUdpClient.serializeCredential c

/-- A query whose evaluation fails for a missing record, or returns one. -/
theorem query_answered {function : String} {args : List String}
    {held : Option (FabricCredential × UInt16)} {message : Text}
    (named : isNotFound message = true)
    (evaluated : state.invoke function args =
      (held.map fun entry => hexCredential entry.1 entry.2).elim (.error message)
        fun c => .ok (state, c.marshal)) :
    (evaluateCredential function args >>= fun result =>
      (return queryOutcome result : Program calls Outcome)).Ensures Committed (fun _ => True)
        (fun outcome state' => QueryAnswered (held.map Prod.fst) outcome ∧ state' = state)
        state := by
  rw [Program.ensures_bind]
  cases held with
  | none =>
      refine (evaluateCredential_failed evaluated).mono (fun _ always => always) ?_
      rintro ⟨_, elapsed⟩ state' ⟨⟨error, rfl, contains⟩, rfl⟩
      refine ⟨?_, rfl⟩
      simp only [queryOutcome, isNotFound_of_contains named contains, if_true]
      exact ⟨rfl, rfl⟩
  | some entry =>
      have read := Credential.unmarshal_marshal
        (plain_of_valid (validate_hexCredential entry.1 entry.2))
      refine (evaluateCredential_found evaluated read).mono (fun _ always => always) ?_
      rintro ⟨_, elapsed⟩ state' ⟨rfl, rfl⟩
      refine ⟨?_, rfl⟩
      simp only [queryOutcome, credentialPayload_hexCredential]
      exact ⟨rfl, rfl⟩

/-- A query by identity and slot answers the record that the ledger holds there. -/
theorem handle_queryIdSlot (stores : Stores state ledger) (requestID : UInt32) (id : Block)
    (slot : UInt16) {held : Option (FabricCredential × UInt16)}
    (holds : ledger.record (encodeToString id.toList, slot) =
      held.map fun entry => hexCredential entry.1 entry.2) :
    (handle ⟨gwQueryIdSlot, requestID, slot, id.toList⟩).Ensures Committed (fun _ => True)
      (fun outcome state' => QueryAnswered (held.map Prod.fst) outcome ∧ state' = state) state := by
  have asked := invoke_queryByIdentitySlot stores id slot
  rw [holds] at asked
  have handled : handle ⟨gwQueryIdSlot, requestID, slot, id.toList⟩ =
      (evaluateCredential "QueryByIdentitySlot" [encodeToString id.toList, itoa slot] >>=
        fun result => (return queryOutcome result : Program calls Outcome)) := by
    unfold handle
    exact if_neg (not_not_intro id.toList_length)
  rw [handled]
  exact query_answered (isNotFound_message (.inl rfl)) asked

/-- A query by temporary identity answers the record that the index points to. -/
theorem handle_queryTid (stores : Stores state ledger) (requestID : UInt32) (slot : UInt16)
    (tid : Block) {held : Option (FabricCredential × UInt16)}
    (holds : (ledger.index (encodeToString tid.toList)).bind ledger.record =
      held.map fun entry => hexCredential entry.1 entry.2) :
    (handle ⟨gwQueryTid, requestID, slot, tid.toList⟩).Ensures Committed (fun _ => True)
      (fun outcome state' => QueryAnswered (held.map Prod.fst) outcome ∧ state' = state) state := by
  have asked := invoke_queryByTemporaryIdentity stores tid
  have handled : handle ⟨gwQueryTid, requestID, slot, tid.toList⟩ =
      (evaluateCredential "QueryByTemporaryIdentity" [encodeToString tid.toList] >>=
        fun result => (return queryOutcome result : Program calls Outcome)) := by
    unfold handle
    exact if_neg (not_not_intro tid.toList_length)
  rw [handled]
  cases entry : ledger.index (encodeToString tid.toList) with
  | none =>
      rw [entry] at asked holds
      rw [Option.bind_none] at holds
      refine query_answered (isNotFound_message (.inr (.inl rfl))) ?_
      rw [← holds]
      exact asked
  | some place =>
      rw [entry] at asked holds
      rw [Option.bind_some] at holds
      rw [Option.elim_some, holds] at asked
      exact query_answered (isNotFound_message (.inr (.inr rfl))) asked

end Answers

end Apqe.Gateway
