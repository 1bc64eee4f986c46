import Mathlib.Algebra.Order.Ring.Nat
import PostQuantumUav.Apqe.Chaincode
import PostQuantumUav.Library.Hex
import PostQuantumUav.Library.Json.RoundTrip

/-!
# The JSON text of a credential

`json.Marshal` and `json.Unmarshal` for the `Credential` that the chaincode and the
gateway declare alike. Members that are missing leave the zero value, others are
ignored, and a member of the wrong kind is an error.

Every credential that the chaincode stores has hexadecimal strings, and is read back
from its text.
-/

namespace Apqe.Chaincode

open Json

/-- The words of the grammar. -/
def goWords : List (Text × Json) :=
  [("null".toList, .null), ("true".toList, .bool true), ("false".toList, .bool false)]

def Credential.members (c : Credential) : List (Text × Json) := [
  ("identityHash".toList, .string c.identityHash.toList),
  ("slot".toList, .number (Nat.toDigits 10 c.slot.toNat)),
  ("tid".toList, .string c.tid.toList),
  ("publicKey".toList, .string c.publicKey.toList),
  ("w".toList, .string c.w.toList),
  ("verifyHash".toList, .string c.verifyHash.toList)]

/-- `json.Marshal(credential)`. -/
def Credential.marshal (c : Credential) : Text := print [] (.object c.members)

/-- A member of type `string`. -/
def stringMember (fields : List (Text × Json)) (name : Text) : Option String :=
  match get? fields name with
  | none | some .null => some ""
  | some (.string value) => some (String.ofList value)
  | _ => none

/-- A member of type `uint16`. -/
def uint16Member (fields : List (Text × Json)) (name : Text) : Option UInt16 :=
  match get? fields name with
  | none | some .null => some 0
  | some (.number token) =>
      if token.all Char.isDigit ∧ Nat.ofDigitChars 10 token 0 < 2 ^ 16 then
        some (.ofNat (Nat.ofDigitChars 10 token 0))
      else none
  | _ => none

/-- `json.Unmarshal(text, &credential)`. -/
def Credential.unmarshal (text : Text) : Option Credential :=
  match loads goWords text with
  | some (.object fields) => do
      let identityHash ← stringMember fields "identityHash".toList
      let slot ← uint16Member fields "slot".toList
      let tid ← stringMember fields "tid".toList
      let publicKey ← stringMember fields "publicKey".toList
      let w ← stringMember fields "w".toList
      let verifyHash ← stringMember fields "verifyHash".toList
      return ⟨identityHash, slot, tid, publicKey, w, verifyHash⟩
  | some .null => some ⟨"", 0, "", "", "", ""⟩
  | _ => none

/-- A credential whose strings need no escapes. -/
def Credential.Plain (c : Credential) : Prop :=
  ∀ text ∈ [c.identityHash, c.tid, c.publicKey, c.w, c.verifyHash],
    text.toList.all isPlain = true

section RoundTrip

variable {fields : List (Text × Json)} {name : Text}

theorem stringMember_of_get? {text : String}
    (found : get? fields name = some (.string text.toList)) :
    stringMember fields name = some text := by
  rw [stringMember, found]
  exact congrArg some String.ofList_toList

theorem uint16Member_of_get? {n : UInt16}
    (found : get? fields name = some (.number (Nat.toDigits 10 n.toNat))) :
    uint16Member fields name = some n := by
  have digits : (Nat.toDigits 10 n.toNat).all Char.isDigit = true :=
    List.all_eq_true.mpr fun c mem => Nat.isDigit_of_mem_toDigits (by decide) (by decide) mem
  have number : Nat.ofDigitChars 10 (Nat.toDigits 10 n.toNat) 0 = n.toNat :=
    Nat.ofDigitChars_toDigits (by decide) (by decide)
  rw [uint16Member, found]
  simp only [number, digits, true_and]
  rw [if_pos n.toNat_lt, UInt16.ofNat_toNat]

/-- A credential is read back from its text. -/
theorem Credential.unmarshal_marshal {c : Credential} (plain : c.Plain) :
    Credential.unmarshal c.marshal = some c := by
  have nodup : (c.members.map Prod.fst).Nodup := (by decide : List.Nodup ["identityHash".toList,
    "slot".toList, "tid".toList, "publicKey".toList, "w".toList, "verifyHash".toList])
  have flat : isFlat c.members = true := by
    have string : ∀ text ∈ [c.identityHash, c.tid, c.publicKey, c.w, c.verifyHash],
        isScalar (.string text.toList) = true := plain
    have number : isScalar (.number (Nat.toDigits 10 c.slot.toNat)) = true := isNumber_toDigits _
    simp only [Credential.members, isFlat, List.all_cons, List.all_nil, number,
      string c.identityHash (by simp), string c.tid (by simp), string c.publicKey (by simp),
      string c.w (by simp), string c.verifyHash (by simp)]
    decide
  have read := @loads_object goWords [] c.members [] rfl rfl flat nodup
  rw [List.append_nil] at read
  have text : ∀ name (value : String), (name, Json.string value.toList) ∈ c.members →
      stringMember c.members name = some value :=
    fun name value mem => stringMember_of_get? (get?_of_mem nodup mem)
  have slot : uint16Member c.members "slot".toList = some c.slot :=
    uint16Member_of_get? (get?_of_mem nodup (by simp [Credential.members]))
  rw [Credential.unmarshal, Credential.marshal, read]
  simp only [Option.bind_eq_bind, Option.bind_some, slot,
    text "identityHash".toList c.identityHash (by simp [Credential.members]),
    text "tid".toList c.tid (by simp [Credential.members]),
    text "publicKey".toList c.publicKey (by simp [Credential.members]),
    text "w".toList c.w (by simp [Credential.members]),
    text "verifyHash".toList c.verifyHash (by simp [Credential.members])]
  rfl

end RoundTrip

end Apqe.Chaincode
