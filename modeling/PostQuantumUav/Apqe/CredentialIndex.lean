import Mathlib.Data.List.Infix
import PostQuantumUav.Apqe.Chaincode
import PostQuantumUav.Library.IndexedStore

/-!
# The temporary-identity index of the chaincode

The world state represents an indexed store: credentials under their identity and
slot, and an index from temporary identities to these keys. Both key spaces are
text with different prefixes, and a key text determines its identity and slot.

`PutCredential` and `DeleteCredential` are the store's two operations, so the
index finds every credential exactly in the runs whose accepted puts never use a
temporary identity that another live credential carries.
-/

namespace Apqe.Chaincode

section Keys

/-- What stands before the first separator is determined, whatever follows it. -/
theorem append_cons_inj {separator : Char} {a a' b b' : List Char} (ha : separator ∉ a)
    (ha' : separator ∉ a') (same : a ++ separator :: b = a' ++ separator :: b') :
    a = a' ∧ b = b' := by
  induction a generalizing a' with
  | nil =>
      cases a' with
      | nil => exact ⟨rfl, (List.cons.inj same).2⟩
      | cons c rest => exact absurd ((List.cons.inj same).1 ▸ List.mem_cons_self) ha'
  | cons c rest ih =>
      cases a' with
      | nil => exact absurd ((List.cons.inj same).1 ▸ List.mem_cons_self) ha
      | cons c' rest' =>
          obtain ⟨rfl, tails⟩ := List.cons.inj same
          obtain ⟨rfl, after⟩ := ih (fun mem => ha (List.mem_cons_of_mem _ mem))
            (fun mem => ha' (List.mem_cons_of_mem _ mem)) tails
          exact ⟨rfl, after⟩

/-- Decimal digits are read back as the number they were written for. -/
theorem repr_inj {n n' : Nat} (same : n.repr = n'.repr) : n = n' := by
  have digits := congrArg (fun text => Nat.ofDigitChars 10 text.toList 0) same
  simpa only [Nat.repr, String.toList_ofList, Nat.ofDigitChars_toDigits (by decide : 1 < 10)
    (by decide : 10 ≤ 10)] using digits

theorem credentialKey_inj {id id' : String} {slot slot' : UInt16} :
    credentialKey id slot = credentialKey id' slot' ↔ id = id' ∧ slot = slot' := by
  constructor
  · intro same
    have digits : ∀ n : Nat, ':' ∉ n.repr.toList := by
      intro n colon
      have digit := Nat.isDigit_of_mem_toDigits (by decide) (by decide)
        (by rwa [Nat.repr, String.toList_ofList] at colon : ':' ∈ Nat.toDigits 10 n)
      exact absurd digit (by decide)
    -- Read backwards, a key starts with the digits of the slot and a separator.
    have texts := congrArg (fun text => text.toList.reverse) same
    simp only [credentialKey, String.toList_append, show ":".toList = [':'] from rfl,
      List.reverse_append, List.reverse_singleton, List.singleton_append] at texts
    obtain ⟨back, front⟩ := append_cons_inj (by rw [List.mem_reverse]; exact digits _)
      (by rw [List.mem_reverse]; exact digits _) texts
    have slots := String.toList_inj.mp (List.reverse_injective back)
    have ids := List.reverse_injective (List.append_cancel_right front)
    exact ⟨String.toList_inj.mp ids, UInt16.toNat_inj.mp (repr_inj slots)⟩
  · rintro ⟨rfl, rfl⟩
    rfl

theorem tidIndexKey_inj {tid tid' : String} : tidIndexKey tid = tidIndexKey tid' ↔ tid = tid' := by
  constructor
  · intro same
    have texts := congrArg String.toList same
    simp only [tidIndexKey, String.toList_append] at texts
    exact String.toList_inj.mp (List.append_cancel_left texts)
  · rintro rfl
    rfl

theorem credentialKey_ne_tidIndexKey (id tid : String) (slot : UInt16) :
    credentialKey id slot ≠ tidIndexKey tid := by
  intro same
  have texts := congrArg String.toList same
  simp only [credentialKey, tidIndexKey, String.toList_append] at texts
  cases texts

end Keys

abbrev Ledger := IndexedStore (String × UInt16) Credential String

/-- The key under which a credential is stored. -/
def Credential.place (c : Credential) : String × UInt16 := (c.identityHash, c.slot)

/-- A world state that holds exactly the records and index entries of a ledger. -/
structure Represents (world : WorldState) (ledger : Ledger) : Prop where
  record : ∀ id slot,
    world (credentialKey id slot) = (ledger.record (id, slot)).map .credential
  index : ∀ tid, world (tidIndexKey tid) =
    (ledger.index tid).map fun place => .key (credentialKey place.1 place.2)
  stored : ∀ place c, ledger.record place = some c →
    c.place = place ∧ validateCredential c = .ok ()

theorem represents_empty : Represents (fun _ => none) IndexedStore.empty where
  record _ _ := rfl
  index _ := rfl
  stored place c held := by cases held

section Operations

variable {world : WorldState} {ledger : Ledger}

theorem validate_parts {c : Credential} (valid : validateCredential c = .ok ()) :
    validateHex "identityHash" c.identityHash 32 = .ok () ∧
      validateHex "tid" c.tid 32 = .ok () := by
  unfold validateCredential at valid
  cases first : validateHex "identityHash" c.identityHash 32 with
  | error failure =>
      rw [first] at valid
      cases valid
  | ok _ =>
      rw [first] at valid
      refine ⟨rfl, ?_⟩
      cases second : validateHex "tid" c.tid 32 with
      | error failure =>
          change (validateHex "tid" c.tid 32 >>= _) = _ at valid
          rw [second] at valid
          cases valid
      | ok _ => rfl

/-- The world state after a written credential. -/
theorem Represents.update_record (h : Represents world ledger) {place : String × UInt16}
    {c : Option Credential} (own : ∀ d, c = some d → d.place = place ∧
      validateCredential d = .ok ()) :
    Represents
      (Function.update world (credentialKey place.1 place.2) (c.map .credential))
      { ledger with record := Function.update ledger.record place c } where
  record id slot := by
    by_cases same : place = (id, slot)
    · subst same
      simp only [Function.update_self]
    · have differ : credentialKey id slot ≠ credentialKey place.1 place.2 := by
        intro equal
        obtain ⟨hi, hs⟩ := credentialKey_inj.mp equal
        exact same (Prod.ext hi.symm hs.symm)
      simp only [Function.update_of_ne differ, Function.update_of_ne (Ne.symm same), h.record]
  index tid := by
    rw [Function.update_of_ne (credentialKey_ne_tidIndexKey _ _ _).symm]
    exact h.index tid
  stored other d held := by
    by_cases same : other = place
    · subst same
      exact own d (by simpa only [Function.update_self] using held)
    · exact h.stored other d (by simpa only [Function.update_of_ne same] using held)

/-- The world state after a written or deleted index entry. -/
theorem Represents.update_index (h : Represents world ledger) (tid : String)
    (place : Option (String × UInt16)) :
    Represents
      (Function.update world (tidIndexKey tid)
        (place.map fun place => .key (credentialKey place.1 place.2)))
      { ledger with index := Function.update ledger.index tid place } where
  record id slot := by
    rw [Function.update_of_ne (credentialKey_ne_tidIndexKey _ _ _)]
    exact h.record id slot
  index other := by
    by_cases same : other = tid
    · subst same
      simp only [Function.update_self]
    · have differ : tidIndexKey other ≠ tidIndexKey tid := fun equal =>
        same (tidIndexKey_inj.mp equal)
      simp only [Function.update_of_ne differ, Function.update_of_ne same, h.index]
  stored := h.stored

/-- `PutCredential` refuses invalid arguments and otherwise is the store operation. -/
theorem Represents.putCredential (h : Represents world ledger) {c : Credential}
    (valid : validateCredential c = .ok ()) :
    ∃ next, putCredential world c = .ok next ∧
      Represents next (ledger.store Credential.tid c.place c) := by
  have own : ∀ d, some c = some d → d.place = c.place ∧ validateCredential d = .ok () := by
    rintro d ⟨⟩
    exact ⟨rfl, valid⟩
  rw [Chaincode.putCredential, valid]
  dsimp only [bind, Except.bind]
  have held := h.record c.identityHash c.slot
  cases before : ledger.record c.place with
  | none =>
      rw [show ledger.record (c.identityHash, c.slot) = none from before] at held
      rw [held]
      refine ⟨_, rfl, ?_⟩
      rw [IndexedStore.store, if_neg (by rw [before]; exact fun same => by cases same)]
      simp only [IndexedStore.withoutOld, before]
      exact (h.update_record own).update_index c.tid (some c.place)
  | some previous =>
      rw [show ledger.record (c.identityHash, c.slot) = some previous from before] at held
      rw [held]
      by_cases same : previous = c
      · subst same
        refine ⟨world, ?_, ?_⟩
        · simp only [Option.map_some, ne_eq, not_true_eq_false, if_false, if_true]
          rfl
        · rwa [IndexedStore.store_unchanged before]
      · rw [IndexedStore.store, if_neg (by rw [before, Option.some.injEq]; exact same)]
        simp only [Option.map_some, if_neg same, IndexedStore.withoutOld, before]
        refine ⟨_, rfl, ?_⟩
        split
        · exact ((h.update_index previous.tid none).update_record own).update_index c.tid
            (some c.place)
        · exact (h.update_record own).update_index c.tid (some c.place)

theorem putCredential_invalid {c : Credential} {failure : Failure}
    (invalid : validateCredential c = .error failure) :
    submit world (.putCredential c) = world := by
  simp only [submit, Chaincode.putCredential, invalid]
  rfl

/-- A credential is found under its identity and slot exactly when the ledger holds it. -/
theorem Represents.queryByIdentitySlot (h : Represents world ledger) (id : String)
    (slot : UInt16) (c : Credential) :
    queryByIdentitySlot world id slot = .ok c ↔ ledger.record (id, slot) = some c := by
  constructor
  · intro found
    unfold Chaincode.queryByIdentitySlot at found
    cases checked : validateHex "identityHash" id 32 with
    | error failure =>
        rw [checked] at found
        cases found
    | ok _ =>
        rw [checked, h.record] at found
        cases held : ledger.record (id, slot) with
        | none =>
            rw [held] at found
            cases found
        | some d =>
            rw [held] at found
            cases found
            rfl
  · intro held
    obtain ⟨place, valid⟩ := h.stored _ c held
    obtain ⟨rfl, rfl⟩ := Prod.mk.inj place
    rw [Chaincode.queryByIdentitySlot, (validate_parts valid).1, h.record, held]
    rfl

/-- The answer to a query by temporary identity, read off the ledger. -/
theorem Represents.temporaryIdentity_answer (h : Represents world ledger) {tid : String}
    (valid : validateHex "tid" tid 32 = .ok ()) :
    Chaincode.queryByTemporaryIdentity world tid =
      (ledger.index tid).elim (.error .temporaryIdentityNotFound) fun place =>
        (ledger.record place).elim (.error .indexedCredentialMissing) .ok := by
  rw [Chaincode.queryByTemporaryIdentity, valid]
  dsimp only [bind, Except.bind]
  rw [h.index]
  cases ledger.index tid with
  | none => rfl
  | some place =>
      simp only [Option.map_some, Option.elim_some, h.record place.1 place.2]
      cases ledger.record place <;> rfl

/-- A query by temporary identity follows the index to the ledger's record. -/
theorem Represents.queryByTemporaryIdentity (h : Represents world ledger) {tid : String}
    (valid : validateHex "tid" tid 32 = .ok ()) (c : Credential) :
    queryByTemporaryIdentity world tid = .ok c ↔
      ∃ place, ledger.index tid = some place ∧ ledger.record place = some c := by
  rw [h.temporaryIdentity_answer valid]
  cases entry : ledger.index tid with
  | none =>
      constructor
      · intro found
        cases found
      · rintro ⟨_, ⟨⟩, _⟩
  | some place =>
      rw [Option.elim_some]
      constructor
      · intro found
        cases held : ledger.record place with
        | none =>
            rw [held] at found
            cases found
        | some d =>
            rw [held] at found
            cases found
            exact ⟨place, rfl, held⟩
      · rintro ⟨_, ⟨⟩, held⟩
        rw [held, Option.elim_some]

/-- `DeleteCredential` is the remove operation; it refuses keys that hold nothing. -/
theorem Represents.deleteCredential (h : Represents world ledger) (id : String) (slot : UInt16) :
    Represents (submit world (.deleteCredential id slot))
      (ledger.remove Credential.tid (id, slot)) := by
  rw [submit, Chaincode.deleteCredential, IndexedStore.remove]
  cases held : ledger.record (id, slot) with
  | none =>
      cases found : Chaincode.queryByIdentitySlot world id slot with
      | error failure => exact h
      | ok c =>
          rw [h.queryByIdentitySlot, held] at found
          cases found
  | some c =>
      rw [(h.queryByIdentitySlot id slot c).mpr held]
      exact (@Represents.update_record _ _ h (id, slot) none (fun _ impossible => by
        cases impossible)).update_index c.tid none

end Operations

section Runs

/-- What a transaction does to the ledger that the world state represents. -/
def perform (ledger : Ledger) : Call → Ledger
  | .putCredential c =>
      match validateCredential c with
      | .ok _ => ledger.store Credential.tid c.place c
      | .error _ => ledger
  | .deleteCredential id slot => ledger.remove Credential.tid (id, slot)

/-- The ledger after a sequence of transactions. -/
def ledgerAfter (calls : List Call) : Ledger := calls.foldl perform .empty

theorem Represents.submit {world : WorldState} {ledger : Ledger} (h : Represents world ledger)
    (call : Call) : Represents (submit world call) (perform ledger call) := by
  cases call with
  | putCredential c =>
      rw [perform]
      cases checked : validateCredential c with
      | ok _ =>
          obtain ⟨next, written, represented⟩ := h.putCredential checked
          rwa [Chaincode.submit, written]
      | error failure => rwa [putCredential_invalid checked]
  | deleteCredential id slot => exact h.deleteCredential id slot

/-- Every reachable world state represents the ledger after the same transactions. -/
theorem run_represents (calls : List Call) : Represents (run calls) (ledgerAfter calls) := by
  induction calls using List.reverseRecOn with
  | nil => exact represents_empty
  | append_singleton calls call ih =>
      rw [run, ledgerAfter, List.foldl_append, List.foldl_append]
      exact ih.submit call

/-- Every credential found under its identity and slot is found by its temporary identity. -/
def NoneLost (world : WorldState) : Prop :=
  ∀ id slot c, queryByIdentitySlot world id slot = .ok c →
    queryByTemporaryIdentity world c.tid = .ok c

/-- No other live credential carries the temporary identity of `c`. -/
def FreshTid (world : WorldState) (c : Credential) : Prop :=
  ∀ id slot held, queryByIdentitySlot world id slot = .ok held → held.tid = c.tid →
    id = c.identityHash ∧ slot = c.slot

variable {world : WorldState} {ledger : Ledger}

theorem Represents.noneLost_iff (h : Represents world ledger) :
    NoneLost world ↔ ledger.Complete Credential.tid := by
  constructor
  · intro found place c held
    obtain ⟨own, valid⟩ := h.stored place c held
    have answer := found place.1 place.2 c ((h.queryByIdentitySlot _ _ c).mpr held)
    obtain ⟨other, entry, same⟩ :=
      (h.queryByTemporaryIdentity (validate_parts valid).2 c).mp answer
    rw [entry, ← own, (h.stored other c same).1]
  · intro complete id slot c answer
    have held := (h.queryByIdentitySlot id slot c).mp answer
    obtain ⟨-, valid⟩ := h.stored _ c held
    exact (h.queryByTemporaryIdentity (validate_parts valid).2 c).mpr
      ⟨(id, slot), complete _ c held, held⟩

theorem Represents.freshTid_iff (h : Represents world ledger) (c : Credential) :
    FreshTid world c ↔ ledger.Fresh Credential.tid c.place c := by
  constructor
  · intro fresh place held stored same
    obtain ⟨hi, hs⟩ := fresh place.1 place.2 held ((h.queryByIdentitySlot _ _ held).mpr stored) same
    exact Prod.ext hi hs
  · intro fresh id slot held answer same
    exact Prod.mk.inj (fresh (id, slot) held ((h.queryByIdentitySlot id slot held).mp answer) same)

/-- Nothing is lost along a run: in every state reached each credential is found by its
temporary identity, and a put that returns nil is answered by both queries. -/
structure KeepsCredentials (calls : List Call) : Prop where
  found : ∀ front, front <+: calls → NoneLost (run front)
  answered : ∀ front c next, front ++ [.putCredential c] <+: calls →
    putCredential (run front) c = .ok next →
    queryByIdentitySlot next c.identityHash c.slot = .ok c ∧
      queryByTemporaryIdentity next c.tid = .ok c

theorem perform_put {c : Credential} (valid : validateCredential c = .ok ()) (ledger : Ledger) :
    perform ledger (.putCredential c) = ledger.store Credential.tid c.place c := by
  rw [perform, valid]

/-- Accepted puts that are fresh when they happen keep every credential in the index. -/
theorem complete_of_fresh {calls : List Call}
    (fresh : ∀ front c, front ++ [.putCredential c] <+: calls →
      validateCredential c = .ok () → FreshTid (run front) c) :
    (ledgerAfter calls).Complete Credential.tid := by
  induction calls using List.reverseRecOn with
  | nil =>
      intro place c held
      cases held
  | append_singleton calls call ih =>
      have before := ih fun front c first =>
        fresh front c (first.trans (List.prefix_append _ _))
      rw [ledgerAfter, List.foldl_append]
      change (perform (ledgerAfter calls) call).Complete Credential.tid
      cases call with
      | putCredential c =>
          cases valid : validateCredential c with
          | ok _ =>
              rw [perform_put valid]
              exact before.store (((run_represents calls).freshTid_iff c).mp
                (fresh calls c (List.prefix_refl _) valid))
          | error failure => rwa [perform, valid]
      | deleteCredential id slot => exact before.remove (id, slot)

/-- Along a run no credential is lost from the index exactly when every accepted put uses a
temporary identity that no other live credential carries at that moment. -/
theorem keepsCredentials_iff (calls : List Call) :
    KeepsCredentials calls ↔
      ∀ front c, front ++ [.putCredential c] <+: calls → validateCredential c = .ok () →
        FreshTid (run front) c := by
  constructor
  · intro keeps front c first valid
    have after := (run_represents (front ++ [.putCredential c])).noneLost_iff.mp
      (keeps.found _ first)
    rw [ledgerAfter, List.foldl_append] at after
    change (perform (ledgerAfter front) (.putCredential c)).Complete Credential.tid at after
    rw [perform_put valid] at after
    exact ((run_represents front).freshTid_iff c).mpr after.fresh
  · intro fresh
    have found : ∀ front, front <+: calls → NoneLost (run front) := fun front first =>
      (run_represents front).noneLost_iff.mpr (complete_of_fresh fun before c more =>
        fresh before c (more.trans first))
    refine ⟨found, fun front c next first written => ?_⟩
    have reached : run (front ++ [.putCredential c]) = next := by
      rw [run, List.foldl_append]
      change submit (run front) (.putCredential c) = next
      rw [submit, written]
    have valid : validateCredential c = .ok () := by
      by_contra invalid
      cases checked : validateCredential c with
      | ok _ => exact invalid checked
      | error failure =>
          rw [putCredential, checked] at written
          cases written
    have represented := run_represents (front ++ [.putCredential c])
    have stored : queryByIdentitySlot next c.identityHash c.slot = .ok c := by
      rw [← reached, represented.queryByIdentitySlot, ledgerAfter, List.foldl_append]
      change (perform (ledgerAfter front) (.putCredential c)).record c.place = some c
      rw [perform_put valid, IndexedStore.record_store_self]
    exact ⟨stored, by
      rw [← reached] at stored ⊢
      exact found _ first _ _ c stored⟩

/-- The hexadecimal text of `bytes` zero bytes. -/
def zeros (bytes : Nat) : String := String.ofList (List.replicate (2 * bytes) '0')

theorem validateHex_zeros (name : String) (bytes : Nat) :
    validateHex name (zeros bytes) bytes = .ok () := by
  have decoded : ∀ n, decodeString (List.replicate (2 * n) '0') = .ok (List.replicate n 0) := by
    intro n
    induction n with
    | zero => rfl
    | succ n ih =>
        rw [Nat.mul_succ, List.replicate_succ, List.replicate_succ, decodeString, ih]
        rfl
  rw [validateHex, zeros, String.toList_ofList, decoded]
  simp only [List.length_replicate, ne_eq, not_true_eq_false, if_false]

/-- A credential whose texts are all zero. -/
def zeroCredential (slot : UInt16) : Credential :=
  ⟨zeros 32, slot, zeros 32, zeros 800, zeros 32, zeros 32⟩

theorem validate_zeroCredential (slot : UInt16) :
    validateCredential (zeroCredential slot) = .ok () := by
  simp only [validateCredential, zeroCredential, validateHex_zeros]
  rfl

/-- Two slots of one identity put under one temporary identity: the second put takes the
index entry of the first credential, which its temporary identity no longer finds. -/
theorem shared_tid_loses_credential :
    ¬ KeepsCredentials [.putCredential (zeroCredential 0), .putCredential (zeroCredential 1)] := by
  intro keeps
  have complete := (run_represents _).noneLost_iff.mp (keeps.found _ (List.prefix_refl _))
  have state : ledgerAfter [.putCredential (zeroCredential 0), .putCredential (zeroCredential 1)] =
      (IndexedStore.empty.store Credential.tid (zeroCredential 0).place (zeroCredential 0)).store
        Credential.tid (zeroCredential 1).place (zeroCredential 1) := by
    simp only [ledgerAfter, List.foldl_cons, List.foldl_nil,
      perform_put (validate_zeroCredential _)]
  rw [state] at complete
  have places : (zeroCredential 0).place ≠ (zeroCredential 1).place := by
    intro same
    exact absurd (congrArg Prod.snd same) (by decide)
  exact places (complete.fresh _ _ (IndexedStore.record_store_self _ _ _) rfl)

end Runs

end Apqe.Chaincode
