import PostQuantumUav.Apqe.CredentialIndex
import PostQuantumUav.Apqe.GatewayLedger

/-!
# What lookups return, and how arguments are spelled

The index never points to a missing credential or to one with another temporary
identity, whatever is put and deleted: each operation of the indexed store keeps it
sound.

Keys and index entries are the caller's texts, while the checks look at the bytes
that these texts decode to. One byte string has many spellings, so the chaincode is a
map of bytes exactly as far as its callers spell equal bytes alike. The gateway does,
since it writes every argument with `hex.EncodeToString`.
-/

namespace Apqe.Chaincode

section Lookups

/-- What a lookup by temporary identity relies on. -/
structure LookupsSound (world : WorldState) : Prop where
  entry : ∀ tid value, world (tidIndexKey tid) = some value → ∃ id slot c,
    value = .key (credentialKey id slot) ∧
      world (credentialKey id slot) = some (.credential c) ∧ c.tid = tid
  answer : ∀ tid, validateHex "tid" tid 32 = .ok () →
    queryByTemporaryIdentity world tid = .error .temporaryIdentityNotFound ∨
      ∃ c, queryByTemporaryIdentity world tid = .ok c ∧ c.tid = tid
  present : ∀ tid, queryByTemporaryIdentity world tid ≠ .error .indexedCredentialMissing

/-- Transactions leave no index entry without a credential that carries its identity. -/
theorem sound_perform {ledger : Ledger} (sound : ledger.Sound Credential.tid) (call : Call) :
    (perform ledger call).Sound Credential.tid := by
  cases call with
  | putCredential c =>
      rw [perform]
      cases validateCredential c with
      | ok _ => exact sound.store c.place c
      | error failure => exact sound
  | deleteCredential id slot => exact sound.remove (id, slot)

theorem sound_ledgerAfter (calls : List Call) : (ledgerAfter calls).Sound Credential.tid := by
  induction calls using List.reverseRecOn with
  | nil =>
      intro tid place entry
      cases entry
  | append_singleton calls call ih =>
      rw [ledgerAfter, List.foldl_append]
      exact sound_perform ih call

variable {world : WorldState} {ledger : Ledger}

/-- The index entry of a represented ledger, with the credential it points to. -/
theorem index_entry (h : Represents world ledger) (sound : ledger.Sound Credential.tid)
    {tid : String} {value : StateValue} (held : world (tidIndexKey tid) = some value) :
    ∃ id slot c, value = .key (credentialKey id slot) ∧
      world (credentialKey id slot) = some (.credential c) ∧ c.tid = tid := by
  rw [h.index] at held
  obtain ⟨place, entry, rfl⟩ := Option.map_eq_some_iff.mp held
  obtain ⟨c, stored, tagged⟩ := sound tid place entry
  refine ⟨place.1, place.2, c, rfl, ?_, tagged⟩
  rw [h.record, stored]
  rfl

/-- A lookup whose argument is well formed finds nothing or a credential that carries it. -/
theorem lookup_answer (h : Represents world ledger) (sound : ledger.Sound Credential.tid)
    {tid : String} (valid : validateHex "tid" tid 32 = .ok ()) :
    queryByTemporaryIdentity world tid = .error .temporaryIdentityNotFound ∨
      ∃ c, queryByTemporaryIdentity world tid = .ok c ∧ c.tid = tid := by
  cases entry : ledger.index tid with
  | none =>
      left
      rw [h.temporaryIdentity_answer valid, entry, Option.elim_none]
  | some place =>
      obtain ⟨c, stored, tagged⟩ := sound tid place entry
      exact Or.inr ⟨c, (h.queryByTemporaryIdentity valid c).mpr ⟨place, entry, stored⟩, tagged⟩

theorem lookup_present (h : Represents world ledger) (sound : ledger.Sound Credential.tid)
    (tid : String) : queryByTemporaryIdentity world tid ≠ .error .indexedCredentialMissing := by
  intro missing
  cases valid : validateHex "tid" tid 32 with
  | ok _ =>
      obtain absent | ⟨c, found, _⟩ := lookup_answer h sound valid
      · rw [absent] at missing
        cases missing
      · rw [found] at missing
        cases missing
  | error failure =>
      rw [queryByTemporaryIdentity, valid] at missing
      change Except.error failure = _ at missing
      cases missing
      unfold validateHex at valid
      split at valid
      · cases valid
      · split at valid <;> cases valid

/-- After any transactions every index entry points to a credential with its identity, so
a lookup returns such a credential or reports that there is none. -/
theorem lookups_sound (calls : List Call) : LookupsSound (run calls) where
  entry _ _ held := index_entry (run_represents calls) (sound_ledgerAfter calls) held
  answer _ valid := lookup_answer (run_represents calls) (sound_ledgerAfter calls) valid
  present := lookup_present (run_represents calls) (sound_ledgerAfter calls)

end Lookups

section Bytes

/-- `text` is a spelling of `bytes`. -/
abbrev Decodes (text : String) (bytes : List UInt8) : Prop := decodeString text.toList = .ok bytes

/-- Texts among which every byte string has one spelling. -/
def SpelledAlike (spelled : String → Prop) : Prop :=
  ∀ text text' bytes, spelled text → spelled text' → Decodes text bytes → Decodes text' bytes →
    text = text'

/-- The identities that a transaction names are spelled as the texts of a set. -/
def Call.Spelled (spelled : String → Prop) : Call → Prop
  | .putCredential c => spelled c.identityHash ∧ spelled c.tid
  | .deleteCredential id _ => spelled id

/-- The hexadecimal arguments of a transaction pass their checks. -/
def Call.Valid : Call → Prop
  | .putCredential c => validateCredential c = .ok ()
  | .deleteCredential id _ => validateHex "identityHash" id 32 = .ok ()

/-- The bytes that a text spells. -/
def bytesOf (text : String) : List UInt8 :=
  match decodeString text.toList with
  | .ok bytes => bytes
  | .error _ => []

/-- Credentials under the bytes of their identity and slot, indexed by the bytes of their
temporary identity. -/
abbrev ByteLedger := IndexedStore (List UInt8 × UInt16) Credential (List UInt8)

namespace ByteLedger

def perform (ledger : ByteLedger) : Call → ByteLedger
  | .putCredential c =>
      match validateCredential c with
      | .ok _ => ledger.store (bytesOf ∘ Credential.tid) (bytesOf c.identityHash, c.slot) c
      | .error _ => ledger
  | .deleteCredential id slot =>
      match validateHex "identityHash" id 32 with
      | .ok _ => ledger.remove (bytesOf ∘ Credential.tid) (bytesOf id, slot)
      | .error _ => ledger

/-- The map of bytes after a sequence of transactions. -/
def after (calls : List Call) : ByteLedger := calls.foldl perform .empty

def queryByIdentitySlot (ledger : ByteLedger) (bytes : List UInt8) (slot : UInt16) :
    Except Failure Credential :=
  if bytes.length ≠ 32 then .error (.wrongLength "identityHash" 32 bytes.length)
  else match ledger.record (bytes, slot) with
    | none => .error .credentialNotFound
    | some c => .ok c

def queryByTemporaryIdentity (ledger : ByteLedger) (bytes : List UInt8) :
    Except Failure Credential :=
  if bytes.length ≠ 32 then .error (.wrongLength "tid" 32 bytes.length)
  else match (ledger.index bytes).bind ledger.record with
    | none => .error .temporaryIdentityNotFound
    | some c => .ok c

end ByteLedger

/-- The world state after some transactions is a map of bytes to callers whose arguments
are spelled as the texts of a set. -/
structure KeyedByBytes (spelled : String → Prop) (calls : List Call) : Prop where
  oneCredential : ∀ id id' slot value value' bytes, run calls (credentialKey id slot) = some value →
    run calls (credentialKey id' slot) = some value' → Decodes id bytes → Decodes id' bytes →
    id = id'
  oneEntry : ∀ tid tid' value value' bytes, run calls (tidIndexKey tid) = some value →
    run calls (tidIndexKey tid') = some value' → Decodes tid bytes → Decodes tid' bytes →
    tid = tid'
  byIdentity : ∀ id slot bytes, spelled id → Decodes id bytes →
    queryByIdentitySlot (run calls) id slot =
      (ByteLedger.after calls).queryByIdentitySlot bytes slot
  byTid : ∀ tid bytes, spelled tid → Decodes tid bytes →
    queryByTemporaryIdentity (run calls) tid =
      (ByteLedger.after calls).queryByTemporaryIdentity bytes

theorem Decodes.bytesOf {text : String} {bytes : List UInt8} (h : Decodes text bytes) :
    bytesOf text = bytes := by
  rw [Chaincode.bytesOf, h]

/-- A checked text decodes to as many bytes as the check asks for. -/
theorem validateHex_ok {name text : String} {count : Nat} :
    validateHex name text count = .ok () ↔
      Decodes text (bytesOf text) ∧ (bytesOf text).length = count := by
  unfold validateHex bytesOf Decodes
  cases decoded : decodeString text.toList with
  | error reason =>
      constructor
      · intro impossible
        cases impossible
      · rintro ⟨impossible, _⟩
        cases impossible
  | ok bytes =>
      by_cases sized : bytes.length = count
      · simp only [sized, ne_eq, not_true_eq_false, if_false, and_self]
      · simp only [sized, ne_eq, not_false_eq_true, if_true, and_false, reduceCtorEq]

theorem validateHex_decodes {text : String} {bytes : List UInt8} (name : String) (count : Nat)
    (h : Decodes text bytes) : validateHex name text count =
      if bytes.length ≠ count then .error (.wrongLength name count bytes.length) else .ok () := by
  rw [validateHex, h]

variable {spelled : String → Prop}

/-- A key in use: a spelled identity that passed its check. -/
abbrev KeyUsed (spelled : String → Prop) (key : String × UInt16) : Prop :=
  spelled key.1 ∧ validateHex "identityHash" key.1 32 = .ok ()

abbrev TidUsed (spelled : String → Prop) (tid : String) : Prop :=
  spelled tid ∧ validateHex "tid" tid 32 = .ok ()

/-- A key's bytes. -/
abbrev keyBytes (key : String × UInt16) : List UInt8 × UInt16 := (bytesOf key.1, key.2)

theorem SpelledAlike.key (alike : SpelledAlike spelled) (k k' : String × UInt16)
    (used : KeyUsed spelled k) (used' : KeyUsed spelled k') (same : keyBytes k = keyBytes k') :
    k = k' := by
  obtain ⟨ids, slots⟩ := Prod.mk.inj same
  have first := (validateHex_ok.mp used.2).1
  have second := (validateHex_ok.mp used'.2).1
  rw [ids] at first
  exact Prod.ext (alike k.1 k'.1 _ used.1 used'.1 first second) slots

theorem SpelledAlike.tid (alike : SpelledAlike spelled) (t t' : String)
    (used : TidUsed spelled t) (used' : TidUsed spelled t') (same : bytesOf t = bytesOf t') :
    t = t' := by
  have first := (validateHex_ok.mp used.2).1
  have second := (validateHex_ok.mp used'.2).1
  rw [same] at first
  exact alike t t' _ used.1 used'.1 first second

/-- The byte ledger is the ledger of texts with the bytes of its keys for the keys. -/
abbrev Refines (spelled : String → Prop) (ledger : Ledger) (bytes : ByteLedger) : Prop :=
  ledger.Renames Credential.tid (KeyUsed spelled) (TidUsed spelled) keyBytes bytesOf bytes

/-- A transaction whose identities are spelled alike is one of the byte ledger. -/
theorem Refines.perform {ledger : Ledger} {bytes : ByteLedger} (alike : SpelledAlike spelled)
    (h : Refines spelled ledger bytes) {call : Call} (uses : call.Spelled spelled)
    (stored : ∀ place c, ledger.record place = some c →
      validateHex "identityHash" place.1 32 = .ok ()) :
    Refines spelled (perform ledger call) (bytes.perform call) := by
  cases call with
  | putCredential c =>
      rw [Chaincode.perform, ByteLedger.perform]
      cases valid : validateCredential c with
      | ok _ =>
          obtain ⟨validId, validTid⟩ := validate_parts valid
          have used : KeyUsed spelled c.place := ⟨uses.1, validId⟩
          exact h.store alike.key alike.tid used ⟨uses.2, validTid⟩
      | error failure => exact h
  | deleteCredential id slot =>
      rw [Chaincode.perform, ByteLedger.perform]
      cases valid : validateHex "identityHash" id 32 with
      | ok _ =>
          have used : KeyUsed spelled (id, slot) := ⟨uses, valid⟩
          exact h.remove alike.key alike.tid used
      | error failure =>
          have absent : ledger.record (id, slot) = none := by
            by_contra present
            obtain ⟨c, held⟩ := Option.ne_none_iff_exists'.mp present
            rw [stored (id, slot) c held] at valid
            cases valid
          rw [IndexedStore.remove, absent]
          exact h

theorem refines_after (alike : SpelledAlike spelled) {calls : List Call}
    (uses : ∀ call ∈ calls, call.Spelled spelled) :
    Refines spelled (ledgerAfter calls) (ByteLedger.after calls) := by
  induction calls using List.reverseRecOn with
  | nil => exact IndexedStore.renames_empty
  | append_singleton calls call ih =>
      rw [ledgerAfter, ByteLedger.after, List.foldl_append, List.foldl_append]
      have earlier := ih fun c member => uses c (List.mem_append_left _ member)
      refine earlier.perform alike (uses call (by simp)) fun place c held => ?_
      obtain ⟨rfl, valid⟩ := (run_represents calls).stored place c held
      exact (validate_parts valid).1

section Queries

variable {world : WorldState} {ledger : Ledger} {bytes : ByteLedger}

/-- Stored credentials whose identities decode alike are stored under one key. -/
theorem Refines.oneCredential (h : Refines spelled ledger bytes)
    (represents : Represents world ledger) (alike : SpelledAlike spelled) {id id' : String}
    {slot : UInt16} {value value' : StateValue} {spelt : List UInt8}
    (held : world (credentialKey id slot) = some value)
    (held' : world (credentialKey id' slot) = some value') (first : Decodes id spelt)
    (second : Decodes id' spelt) : id = id' := by
  rw [represents.record] at held held'
  obtain ⟨c, stored, -⟩ := Option.map_eq_some_iff.mp held
  obtain ⟨c', stored', -⟩ := Option.map_eq_some_iff.mp held'
  exact alike id id' spelt (h.usedRecord _ c stored).1.1 (h.usedRecord _ c' stored').1.1 first
    second

theorem Refines.oneEntry (h : Refines spelled ledger bytes)
    (represents : Represents world ledger) (alike : SpelledAlike spelled) {tid tid' : String}
    {value value' : StateValue} {spelt : List UInt8} (held : world (tidIndexKey tid) = some value)
    (held' : world (tidIndexKey tid') = some value') (first : Decodes tid spelt)
    (second : Decodes tid' spelt) : tid = tid' := by
  rw [represents.index] at held held'
  obtain ⟨place, entry, -⟩ := Option.map_eq_some_iff.mp held
  obtain ⟨place', entry', -⟩ := Option.map_eq_some_iff.mp held'
  exact alike tid tid' spelt (h.usedEntry _ place entry).1.1 (h.usedEntry _ place' entry').1.1
    first second

/-- A query by identity is answered by the bytes that its argument spells. -/
theorem Refines.byIdentity (h : Refines spelled ledger bytes)
    (represents : Represents world ledger) {id : String} {spelt : List UInt8} (uses : spelled id)
    (decodes : Decodes id spelt) (slot : UInt16) :
    queryByIdentitySlot world id slot = bytes.queryByIdentitySlot spelt slot := by
  have checked := validateHex_decodes "identityHash" 32 decodes
  rw [queryByIdentitySlot, ByteLedger.queryByIdentitySlot]
  by_cases sized : spelt.length = 32
  · rw [if_neg (not_not_intro sized)] at checked ⊢
    have used : KeyUsed spelled (id, slot) := ⟨uses, checked⟩
    have record := h.record (id, slot) used
    rw [keyBytes, decodes.bytesOf] at record
    rw [checked, record]
    dsimp only [bind, Except.bind]
    rw [represents.record]
    cases ledger.record (id, slot) <;> rfl
  · rw [if_pos sized] at checked ⊢
    rw [checked]
    rfl

/-- A query by temporary identity is answered by the bytes that its argument spells. -/
theorem Refines.byTid (h : Refines spelled ledger bytes) (represents : Represents world ledger)
    (sound : ledger.Sound Credential.tid) {tid : String} {spelt : List UInt8} (uses : spelled tid)
    (decodes : Decodes tid spelt) :
    queryByTemporaryIdentity world tid = bytes.queryByTemporaryIdentity spelt := by
  have checked := validateHex_decodes "tid" 32 decodes
  rw [ByteLedger.queryByTemporaryIdentity]
  by_cases sized : spelt.length = 32
  · rw [if_neg (not_not_intro sized)] at checked ⊢
    have index := h.index tid ⟨uses, checked⟩
    rw [decodes.bytesOf] at index
    rw [represents.temporaryIdentity_answer checked, index]
    cases entry : ledger.index tid with
    | none => rfl
    | some place =>
        obtain ⟨c, stored, -⟩ := sound tid place entry
        have record := h.record place (h.usedEntry tid place entry).2
        simp only [Option.map_some, Option.elim_some, Option.bind_some, record, stored]
  · rw [if_pos sized] at checked ⊢
    rw [queryByTemporaryIdentity, checked]
    rfl

end Queries

open Gateway

/-- The chaincode is a map of bytes to callers that spell equal bytes alike. -/
theorem keyedByBytes_of_spelledAlike (alike : SpelledAlike spelled) {calls : List Call}
    (uses : ∀ call ∈ calls, call.Spelled spelled) : KeyedByBytes spelled calls := by
  have refines := refines_after alike uses
  have represents := run_represents calls
  refine ⟨?_, ?_, ?_, ?_⟩
  · intro id id' slot value value' bytes held held' first second
    exact refines.oneCredential represents alike held held' first second
  · intro tid tid' value value' bytes held held' first second
    exact refines.oneEntry represents alike held held' first second
  · intro id slot bytes used decodes
    exact refines.byIdentity represents used decodes slot
  · intro tid bytes used decodes
    exact refines.byTid represents (sound_ledgerAfter calls) used decodes

/-- The gateway's texts are spelled alike. -/
theorem spelledAlike_encodeToString :
    SpelledAlike fun text => ∃ bytes, text = encodeToString bytes := by
  rintro _ _ spelt ⟨bytes, rfl⟩ ⟨bytes', rfl⟩ first second
  have decoded : ∀ b, Decodes (encodeToString b) b := fun b => by
    rw [Decodes, encodeToString, String.toList_ofList, decodeString_encode]
  rw [Decodes, decoded bytes] at first
  rw [Decodes, decoded bytes', Except.ok.injEq] at second
  rw [second, Except.ok.inj first]

/-- What the gateway makes of a record with these bytes, repeated. -/
def repeated (identity tid : UInt8) : Credential :=
  hexCredential ⟨.replicate 32 identity, .replicate 32 tid, .replicate 800 3, .replicate 32 4,
    .replicate 32 5⟩ 0

/-- Two identities are put, the first one is updated with a new temporary identity, and the second
one is deleted. -/
def replacedAndDeleted : List Call :=
  [.putCredential (repeated 0xab 0xc1), .putCredential (repeated 0xcd 0xc2),
    .putCredential (repeated 0xab 0xc3),
    .deleteCredential (encodeToString (List.replicate 32 0xcd)) 0]

/-- What the gateway puts and deletes is a map of bytes to the gateway. -/
theorem gateway_keyedByBytes :
    KeyedByBytes (fun text => ∃ bytes, text = encodeToString bytes) replacedAndDeleted := by
  refine keyedByBytes_of_spelledAlike spelledAlike_encodeToString ?_
  have put : ∀ identity tid, (Call.putCredential (repeated identity tid)).Spelled
      fun text => ∃ bytes, text = encodeToString bytes := fun _ _ => ⟨⟨_, rfl⟩, ⟨_, rfl⟩⟩
  simp only [replacedAndDeleted, List.forall_mem_cons]
  exact ⟨put _ _, put _ _, put _ _, ⟨_, rfl⟩, nofun⟩

/-- A credential whose identity starts with one digit and is zero otherwise. -/
def headedCredential (digit : Char) : Credential :=
  { zeroCredential 0 with identityHash := String.ofList (digit :: List.replicate 63 '0') }

theorem decodes_headed {digit : Char} {value : UInt8} (reads : hexValue digit = some value) :
    Decodes (headedCredential digit).identityHash ((value <<< 4 ||| 0) :: List.replicate 31 0) := by
  have zero : hexValue '0' = some 0 := rfl
  have rest := (validateHex_ok.mp (validateHex_zeros "" 31)).1
  rw [Decodes, headedCredential, String.toList_ofList, List.replicate_succ, decodeString, reads,
    zero]
  rfl

theorem validate_headed {digit : Char} {value : UInt8} (reads : hexValue digit = some value) :
    validateCredential (headedCredential digit) = .ok () := by
  have checked : validateHex "identityHash" (headedCredential digit).identityHash 32 = .ok () := by
    rw [validateHex_decodes _ _ (decodes_headed reads), List.length_cons, List.length_replicate]
    exact if_neg (not_not_intro rfl)
  rw [validateCredential, checked]
  simp only [headedCredential, zeroCredential, validateHex_zeros]
  rfl

/-- An identity that is put twice, its first digit once in lower and once in upper case, is
stored under two keys. -/
theorem two_spellings_two_credentials :
    (∀ call ∈ [Call.putCredential (headedCredential 'a'), .putCredential (headedCredential 'A')],
      call.Valid) ∧
    ¬ KeyedByBytes (fun _ => True)
      [.putCredential (headedCredential 'a'), .putCredential (headedCredential 'A')] := by
  have lower : hexValue 'a' = some 10 := rfl
  have upper : hexValue 'A' = some 10 := rfl
  have differ : (headedCredential 'a').identityHash ≠ (headedCredential 'A').identityHash := by
    intro same
    have heads := congrArg (fun text => text.toList.head?) same
    simp only [headedCredential, String.toList_ofList, List.head?_cons] at heads
    exact absurd heads (by decide)
  have places : (headedCredential 'a').place ≠ (headedCredential 'A').place := fun same =>
    differ (congrArg Prod.fst same)
  refine ⟨?_, fun keyed => ?_⟩
  · simp only [List.forall_mem_cons, Call.Valid, validate_headed lower, validate_headed upper]
    exact ⟨trivial, trivial, nofun⟩
  · have represents := run_represents
      [.putCredential (headedCredential 'a'), .putCredential (headedCredential 'A')]
    have first := represents.record (headedCredential 'a').identityHash 0
    have second := represents.record (headedCredential 'A').identityHash 0
    simp only [ledgerAfter, List.foldl_cons, List.foldl_nil, perform_put (validate_headed lower),
      perform_put (validate_headed upper)] at first second
    change _ = Option.map _ (IndexedStore.record _ (headedCredential 'a').place) at first
    change _ = Option.map _ (IndexedStore.record _ (headedCredential 'A').place) at second
    rw [IndexedStore.record_store_of_ne places, IndexedStore.record_store_self] at first
    rw [IndexedStore.record_store_self] at second
    exact differ (keyed.oneCredential _ _ 0 _ _ _ first second (decodes_headed lower)
      (decodes_headed upper))

end Bytes

end Apqe.Chaincode
