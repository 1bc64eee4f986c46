import PostQuantumUav.Apqe.CredentialIndex
import PostQuantumUav.Apqe.CredentialJson

/-!
# The chaincode over committed texts

`GetState`, `PutState` and `DelState` of the stub keep texts: the JSON of a
credential or the text of a key. A key without a value has the empty text, which is
how the chaincode recognises it. The error of a transaction is a text too.

The operations on texts compute what the operations on values compute, as long as
the texts are those of a world state that represents a ledger.
-/

namespace Apqe.Chaincode

open Json

/-- The text of an error, up to the byte that a hexadecimal text is refused for. -/
def Failure.message : Failure → Text
  | .notValidHex name .invalidByte =>
      (name ++ " is not valid hex: encoding/hex: invalid byte").toList
  | .notValidHex name .length =>
      (name ++ " is not valid hex: encoding/hex: odd length hex string").toList
  | .wrongLength name bytes got =>
      (name ++ " must be " ++ bytes.repr ++ " bytes, got " ++ got.repr).toList
  | .decodePreviousCredential => "decode previous credential".toList
  | .credentialNotFound => "credential not found".toList
  | .temporaryIdentityNotFound => "temporary identity not found".toList
  | .indexedCredentialMissing => "indexed credential missing".toList
  | .decodeCredential => "decode credential".toList

/-- The committed texts of all keys. -/
abbrev StateTexts := String → Text

namespace StateTexts

/-- `PutCredential`. -/
def putCredential (state : StateTexts) (credential : Credential) : Except Failure StateTexts := do
  validateCredential credential
  let key := credentialKey credential.identityHash credential.slot
  let existing := state key
  let encoded := credential.marshal
  let write := fun state : StateTexts =>
    Function.update (Function.update state key encoded) (tidIndexKey credential.tid) key.toList
  if existing = [] then return write state
  let some previous := Credential.unmarshal existing | throw .decodePreviousCredential
  let state := if previous.tid ≠ credential.tid then
    Function.update state (tidIndexKey previous.tid) [] else state
  if existing = encoded then return state else return write state

/-- The credential in a text that is not empty. -/
def decodeCredential (data : Text) : Except Failure Credential :=
  match Credential.unmarshal data with
  | none => .error .decodeCredential
  | some credential => .ok credential

def queryByIdentitySlot (state : StateTexts) (identityHash : String) (slot : UInt16) :
    Except Failure Credential := do
  validateHex "identityHash" identityHash 32
  let data := state (credentialKey identityHash slot)
  if data = [] then throw .credentialNotFound
  decodeCredential data

def queryByTemporaryIdentity (state : StateTexts) (tid : String) : Except Failure Credential := do
  validateHex "tid" tid 32
  let key := state (tidIndexKey tid)
  if key = [] then throw .temporaryIdentityNotFound
  let data := state (String.ofList key)
  if data = [] then throw .indexedCredentialMissing
  decodeCredential data

def deleteCredential (state : StateTexts) (identityHash : String) (slot : UInt16) :
    Except Failure StateTexts := do
  let credential ← queryByIdentitySlot state identityHash slot
  return Function.update (Function.update state (credentialKey identityHash slot) [])
    (tidIndexKey credential.tid) []

/-- A parameter of type `uint16`. -/
def slotParameter (arg : String) : Option UInt16 :=
  if arg ≠ "" ∧ arg.toList.all Char.isDigit ∧ Nat.ofDigitChars 10 arg.toList 0 < 2 ^ 16 then
    some (.ofNat (Nat.ofDigitChars 10 arg.toList 0))
  else none

/-- What the runtime reports of a call that fits no function of the contract. -/
def noFunction : Text := "no such function or parameters".toList

/-- A transaction by the name of its function: the texts after it and its result. -/
def invoke (state : StateTexts) (function : String) (args : List String) :
    Except Text (StateTexts × Text) :=
  let reported {α : Type} (result : Except Failure α) : Except Text α :=
    result.mapError Failure.message
  match function, args with
  | "PutCredential", [identityHash, slot, tid, publicKey, w, verifyHash] => do
      let some slot := slotParameter slot | throw noFunction
      let next ← reported (putCredential state ⟨identityHash, slot, tid, publicKey, w, verifyHash⟩)
      return (next, [])
  | "QueryByIdentitySlot", [identityHash, slot] => do
      let some slot := slotParameter slot | throw noFunction
      let credential ← reported (queryByIdentitySlot state identityHash slot)
      return (state, credential.marshal)
  | "QueryByTemporaryIdentity", [tid] => do
      let credential ← reported (queryByTemporaryIdentity state tid)
      return (state, credential.marshal)
  | "DeleteCredential", [identityHash, slot] => do
      let some slot := slotParameter slot | throw noFunction
      let next ← reported (deleteCredential state identityHash slot)
      return (next, [])
  | _, _ => throw noFunction

end StateTexts

/-- The text that is committed for a value. -/
def StateValue.text : StateValue → Text
  | .credential value => value.marshal
  | .key text => text.toList

/-- The texts are those of the values. -/
def Encodes (state : StateTexts) (world : WorldState) : Prop :=
  ∀ key, state key = (world key).elim [] StateValue.text

section Plain

theorem isPlain_of_hexValue {c : Char} (digit : (hexValue c).isSome = true) : isPlain c = true := by
  have ranges : '0' ≤ c ∧ c ≤ '9' ∨ 'a' ≤ c ∧ c ≤ 'f' ∨ 'A' ≤ c ∧ c ≤ 'F' := by
    unfold hexValue at digit
    split at digit
    · exact .inl ‹_›
    split at digit
    · exact .inr (.inl ‹_›)
    split at digit
    · exact .inr (.inr ‹_›)
    · cases digit
  have quote : c ≠ '"' := by
    rintro rfl
    revert ranges
    decide
  have backslash : c ≠ '\\' := by
    rintro rfl
    revert ranges
    decide
  simp only [isPlain, quote, backslash, ne_eq, not_false_eq_true, and_true, decide_eq_true_eq]
  obtain ⟨low, high⟩ | ⟨low, high⟩ | ⟨low, high⟩ := ranges
  · exact ⟨Char.le_trans (by decide) low, Char.le_trans high (by decide)⟩
  · exact ⟨Char.le_trans (by decide) low, Char.le_trans high (by decide)⟩
  · exact ⟨Char.le_trans (by decide) low, Char.le_trans high (by decide)⟩

theorem all_isPlain_of_decodeString {value : List Char} {bytes : List UInt8}
    (decoded : decodeString value = .ok bytes) : value.all isPlain = true := by
  induction value using decodeString.induct generalizing bytes with
  | case1 => rfl
  | case2 c digit =>
      rw [decodeString, if_pos digit] at decoded
      cases decoded
  | case3 c other =>
      rw [decodeString, if_neg other] at decoded
      cases decoded
  | case4 a b rest high low second first ih =>
      rw [decodeString, first, second] at decoded
      have plain : isPlain a = true ∧ isPlain b = true :=
        ⟨isPlain_of_hexValue (by rw [first]; rfl), isPlain_of_hexValue (by rw [second]; rfl)⟩
      cases tail : decodeString rest with
      | error reason =>
          rw [tail] at decoded
          cases decoded
      | ok bytes' => rw [List.all_cons, List.all_cons, plain.1, plain.2, ih tail]; rfl
  | case5 a b rest other =>
      rw [decodeString] at decoded
      split at decoded
      · rename_i high low first second
        exact (other high low first second).elim
      · cases decoded

theorem all_isPlain_of_valid {name value : String} {bytes : Nat}
    (valid : validateHex name value bytes = .ok ()) : value.toList.all isPlain = true := by
  rw [validateHex] at valid
  cases decoded : decodeString value.toList with
  | error reason =>
      rw [decoded] at valid
      cases valid
  | ok raw => exact all_isPlain_of_decodeString decoded

/-- A sequence of checks passes only if each of them does. -/
theorem ok_of_bind {check : Except Failure Unit} {rest : Except Failure Unit}
    (passed : (do check; rest) = .ok ()) : check = .ok () ∧ rest = .ok () := by
  cases check with
  | error failure => cases passed
  | ok _ => exact ⟨rfl, passed⟩

/-- A credential that passes the checks needs no escapes. -/
theorem plain_of_valid {c : Credential} (valid : validateCredential c = .ok ()) : c.Plain := by
  obtain ⟨identityHash, valid⟩ := ok_of_bind valid
  obtain ⟨tid, valid⟩ := ok_of_bind valid
  obtain ⟨publicKey, valid⟩ := ok_of_bind valid
  obtain ⟨w, verifyHash⟩ := ok_of_bind valid
  intro text mem
  simp only [List.mem_cons, List.not_mem_nil, or_false] at mem
  obtain rfl | rfl | rfl | rfl | rfl := mem
  · exact all_isPlain_of_valid identityHash
  · exact all_isPlain_of_valid tid
  · exact all_isPlain_of_valid publicKey
  · exact all_isPlain_of_valid w
  · exact all_isPlain_of_valid verifyHash

theorem marshal_ne_nil (c : Credential) : c.marshal ≠ [] := nofun

/-- Two credentials without escapes have one text only if they are one. -/
theorem marshal_inj {c d : Credential} (first : c.Plain) (second : d.Plain) :
    c.marshal = d.marshal ↔ c = d := by
  constructor
  · intro same
    have read := congrArg Credential.unmarshal same
    rw [Credential.unmarshal_marshal first, Credential.unmarshal_marshal second] at read
    exact Option.some.inj read
  · rintro rfl
    rfl

end Plain

section Update

variable {state : StateTexts} {world : WorldState}

theorem Encodes.update (h : Encodes state world) (key : String) (value : Option StateValue)
    {text : Text} (same : value.elim [] StateValue.text = text) :
    Encodes (Function.update state key text) (Function.update world key value) := by
  intro other
  by_cases own : other = key
  · subst own
    rw [Function.update_self, Function.update_self, same]
  · rw [Function.update_of_ne own, Function.update_of_ne own]
    exact h other

end Update

/-- The texts of a world state that represents a ledger. -/
def Stores (state : StateTexts) (ledger : Ledger) : Prop :=
  ∃ world, Represents world ledger ∧ Encodes state world

theorem stores_empty : Stores (fun _ => []) IndexedStore.empty :=
  ⟨_, represents_empty, fun _ => rfl⟩

namespace Stores

variable {state : StateTexts} {ledger : Ledger}

theorem record (h : Stores state ledger) (id : String) (slot : UInt16) :
    state (credentialKey id slot) = (ledger.record (id, slot)).elim [] Credential.marshal := by
  obtain ⟨world, represents, encodes⟩ := h
  rw [encodes, represents.record]
  cases ledger.record (id, slot) <;> rfl

theorem index (h : Stores state ledger) (tid : String) :
    state (tidIndexKey tid) =
      (ledger.index tid).elim [] fun place => (credentialKey place.1 place.2).toList := by
  obtain ⟨world, represents, encodes⟩ := h
  rw [encodes, represents.index]
  cases ledger.index tid <;> rfl

theorem stored (h : Stores state ledger) {place : String × UInt16} {c : Credential}
    (held : ledger.record place = some c) :
    c.place = place ∧ validateCredential c = .ok () ∧ Credential.unmarshal c.marshal = some c := by
  obtain ⟨world, represents, -⟩ := h
  obtain ⟨own, valid⟩ := represents.stored place c held
  exact ⟨own, valid, Credential.unmarshal_marshal (plain_of_valid valid)⟩

/-- `PutCredential` takes every valid credential, and is the store operation. -/
theorem putCredential (h : Stores state ledger) {c : Credential}
    (valid : validateCredential c = .ok ()) :
    ∃ next, state.putCredential c = .ok next ∧
      Stores next (ledger.store Credential.tid c.place c) := by
  have existing := h.record c.identityHash c.slot
  change _ = (ledger.record c.place).elim _ _ at existing
  obtain ⟨world, represents, encodes⟩ := h
  obtain ⟨world', written, represents'⟩ := represents.putCredential valid
  have value := represents.record c.identityHash c.slot
  change _ = (ledger.record c.place).map _ at value
  have write : ∀ {state : StateTexts} {world : WorldState}, Encodes state world →
      Encodes (Function.update (Function.update state (credentialKey c.identityHash c.slot)
        c.marshal) (tidIndexKey c.tid) (credentialKey c.identityHash c.slot).toList)
      (Function.update (Function.update world (credentialKey c.identityHash c.slot)
        (some (.credential c))) (tidIndexKey c.tid)
          (some (.key (credentialKey c.identityHash c.slot)))) := by
    intro state world encodes
    exact (encodes.update _ (some (.credential c)) rfl).update _ (some (.key _)) rfl
  rw [Chaincode.putCredential, valid] at written
  dsimp only [bind, Except.bind] at written
  rw [StateTexts.putCredential, valid]
  change ∃ next, (if state (credentialKey c.identityHash c.slot) = [] then _ else _) =
    Except.ok next ∧ _
  cases before : ledger.record c.place with
  | none =>
      rw [before] at existing value
      rw [Option.elim_none] at existing
      rw [value] at written
      rw [if_pos existing]
      refine ⟨_, rfl, world', represents', ?_⟩
      rw [← Except.ok.inj written]
      exact write encodes
  | some previous =>
      rw [before] at existing value
      rw [Option.elim_some] at existing
      obtain ⟨-, validPrevious, decoded⟩ := stored ⟨world, represents, encodes⟩ before
      rw [value] at written
      simp only [Option.map_some] at written
      rw [if_neg (existing ▸ marshal_ne_nil previous), existing]
      simp only [decoded,
        marshal_inj (plain_of_valid validPrevious) (plain_of_valid valid)]
      have erased : Encodes
          (if previous.tid ≠ c.tid then Function.update state (tidIndexKey previous.tid) []
            else state)
          (if previous.tid ≠ c.tid then Function.update world (tidIndexKey previous.tid) none
            else world) := by
        split
        · exact encodes.update _ none rfl
        · exact encodes
      split at written
      · rename_i same
        rw [if_pos same]
        refine ⟨_, rfl, world', represents', ?_⟩
        rw [← Except.ok.inj written]
        exact erased
      · rename_i differ
        rw [if_neg differ]
        refine ⟨_, rfl, world', represents', ?_⟩
        rw [← Except.ok.inj written]
        exact write erased

theorem queryByIdentitySlot (h : Stores state ledger) {id : String} (slot : UInt16)
    (valid : validateHex "identityHash" id 32 = .ok ()) :
    state.queryByIdentitySlot id slot =
      (ledger.record (id, slot)).elim (.error .credentialNotFound) .ok := by
  have data := h.record id slot
  rw [StateTexts.queryByIdentitySlot, valid]
  change (if state (credentialKey id slot) = [] then _ else _) = _
  cases held : ledger.record (id, slot) with
  | none =>
      rw [held, Option.elim_none] at data
      rw [if_pos data]
      rfl
  | some c =>
      rw [held, Option.elim_some] at data
      rw [if_neg (data ▸ marshal_ne_nil c), data]
      change StateTexts.decodeCredential c.marshal = .ok c
      rw [StateTexts.decodeCredential, (h.stored held).2.2]

theorem credentialKey_ne_nil (id : String) (slot : UInt16) :
    (credentialKey id slot).toList ≠ [] := by
  rw [credentialKey, String.toList_append, String.toList_append, String.toList_append]
  exact List.cons_ne_nil _ _

/-- A query by temporary identity follows the index to the record. -/
theorem queryByTemporaryIdentity (h : Stores state ledger) {tid : String}
    (valid : validateHex "tid" tid 32 = .ok ()) :
    state.queryByTemporaryIdentity tid =
      (ledger.index tid).elim (.error .temporaryIdentityNotFound) fun place =>
        (ledger.record place).elim (.error .indexedCredentialMissing) .ok := by
  have entry := h.index tid
  rw [StateTexts.queryByTemporaryIdentity, valid]
  change (if state (tidIndexKey tid) = [] then _ else _) = _
  cases found : ledger.index tid with
  | none =>
      rw [found, Option.elim_none] at entry
      rw [if_pos entry]
      rfl
  | some place =>
      rw [found] at entry
      change state (tidIndexKey tid) = (credentialKey place.1 place.2).toList at entry
      rw [if_neg (entry ▸ credentialKey_ne_nil place.1 place.2), entry]
      have data := h.record place.1 place.2
      change (if state (String.ofList (credentialKey place.1 place.2).toList) = [] then _
        else _) = _
      rw [String.ofList_toList]
      cases held : ledger.record place with
      | none =>
          rw [show ledger.record (place.1, place.2) = none from held, Option.elim_none] at data
          rw [if_pos data, Option.elim_some, held]
          rfl
      | some c =>
          rw [show ledger.record (place.1, place.2) = some c from held,
            Option.elim_some] at data
          rw [if_neg (data ▸ marshal_ne_nil c), data, Option.elim_some, held]
          change StateTexts.decodeCredential c.marshal = .ok c
          rw [StateTexts.decodeCredential, (h.stored held).2.2]

end Stores

end Apqe.Chaincode
