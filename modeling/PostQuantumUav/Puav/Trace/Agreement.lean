import PostQuantumUav.Puav.CanonicalEncodings
import PostQuantumUav.Puav.Honest.History

/-!
# Agreement of both sides

In the symbolic model a tag that a session receives was sent by a session that computed
it. A tag names its purpose and the transcript, and its key the shared secret, so both
sides hold the same view: the same messages, transcript hash and keys.

The nonce of each side is part of the view, and a session signs once, so no view belongs
to two sessions of one device and no session has two views.
-/

namespace Puav.ProposedUavProtocol

open Interaction Cell Buffer Symbolic

variable {κ : Type}

section Views

theorem hashInput_domain {domain domain' : UInt8} {hash hash' : Hash Symbol}
    (same : hashInput domain hash = hashInput domain' hash') : domain = domain' := by
  have second := congrArg (fun cells => readByte cells 1) same
  have reads : ∀ (d : UInt8) (h : Hash Symbol), readByte (hashInput d h) 1 = d :=
    fun d h => toByte_ofByte d
  rwa [reads, reads] at second

/-- A field of the key material. -/
def keyOf (sharedSecret transcriptHash : Hash Symbol) (offset : Nat) : List Symbol :=
  slice (hkdfOf sharedSecret.toList transcriptHash.toList (hashInput domainUavAke transcriptHash)
    sessionKeyMaterialBytes).toList offset hashBytes

theorem mem_keyOf {sharedSecret transcriptHash : Hash Symbol} {offset : Nat} {key : Hash Symbol}
    (is : key.toList = keyOf sharedSecret transcriptHash offset) :
    ∃ i, Symbol.hkdf sharedSecret.toList transcriptHash.toList
      (hashInput domainUavAke transcriptHash) i ∈ key.toList := by
  obtain ⟨x, mem⟩ := List.exists_mem_of_length_pos
    (show 0 < key.toList.length from key.toList_length.symm ▸ (by decide))
  obtain ⟨i, rfl⟩ := mem_cells (mem_of_mem_slice (is ▸ mem))
  exact ⟨i, mem⟩

/-- A field of the key material has one secret and one transcript. -/
theorem keyOf_inj {sharedSecret sharedSecret' transcriptHash transcriptHash' key : Hash Symbol}
    {offset offset' : Nat} (is : key.toList = keyOf sharedSecret transcriptHash offset)
    (is' : key.toList = keyOf sharedSecret' transcriptHash' offset') :
    sharedSecret = sharedSecret' ∧ transcriptHash = transcriptHash' := by
  obtain ⟨i, mem⟩ := mem_keyOf is
  obtain ⟨i', same⟩ := mem_cells (mem_of_mem_slice (is' ▸ mem))
  injection same with ikm salt
  exact ⟨List.Vector.toList_injective ikm, List.Vector.toList_injective salt⟩

/-- The view of a session in the symbolic model. -/
structure Symbolized (sharedSecret : Hash Symbol) (view : View Symbol) : Prop where
  short : view.m2.length ≤ 65535 ∧ view.inner.length ≤ 65535
  transcriptHash : view.transcriptHash =
    shaOf (transcriptInput view.sid view.m0 view.m1 view.m2 view.inner)
  sessionKey : view.sessionKey.toList = keyOf sharedSecret view.transcriptHash 0
  confirmA : view.confirmA.toList = keyOf sharedSecret view.transcriptHash hashBytes
  confirmB : view.confirmB.toList = keyOf sharedSecret view.transcriptHash (2 * hashBytes)

/-- The transcript hash and the secret determine the view. -/
theorem Symbolized.view_eq {sharedSecret : Hash Symbol} {view view' : View Symbol}
    (h : Symbolized sharedSecret view) (h' : Symbolized sharedSecret view')
    (same : view.transcriptHash = view'.transcriptHash) : view = view' := by
  have inputs := shaOf_inj (h.transcriptHash.symm.trans (same.trans h'.transcriptHash))
  obtain ⟨sids, m0s, m1s, m2s, inners⟩ :=
    Encoded.transcriptInput_inj h.short.1 h'.short.1 h.short.2 h'.short.2 inputs
  have sessionKeys : view.sessionKey = view'.sessionKey :=
    List.Vector.toList_injective (h.sessionKey.trans (same ▸ h'.sessionKey.symm))
  have confirmAs : view.confirmA = view'.confirmA :=
    List.Vector.toList_injective (h.confirmA.trans (same ▸ h'.confirmA.symm))
  have confirmBs : view.confirmB = view'.confirmB :=
    List.Vector.toList_injective (h.confirmB.trans (same ▸ h'.confirmB.symm))
  cases view
  cases view'
  simp only [View.mk.injEq]
  exact ⟨m0s, m1s, m2s, inners, sids, same, sessionKeys, confirmAs, confirmBs⟩

end Views

variable {network : Network Symbol κ} {history front back : History Symbol κ}

section Holders

variable (ideal : Ideal network history)

include ideal

theorem Ideal.symbolized {session : Session} {sharedSecret : Hash Symbol} {view : View Symbol}
    (derived : Derived (own session history) sharedSecret view)
    (short : view.m2.length ≤ 65535 ∧ view.inner.length ≤ 65535) :
    Symbolized sharedSecret view := by
  obtain ⟨material, mem, sessionKey, confirmA, confirmB⟩ := derived.keys
  have hashed := ideal.sha _ _ _ (mem_own.mp derived.hashed)
  rw [ideal.hkdf _ _ _ _ _ _ (mem_own.mp mem)] at sessionKey confirmA confirmB
  exact ⟨short, hashed, sessionKey, confirmA, confirmB⟩

/-- What a session of the responder knows that has derived its keys. -/
theorem Ideal.keyed (happens : network.Happens history) {n : Nat} {view : View Symbol}
    (noted : ((.responder, n), notes .keysDerived view) ∈ history) :
    ∃ sharedSecret, Symbolized sharedSecret view := by
  obtain ⟨_, _, sharedSecret, answering, composed, derived⟩ := happens.keyed noted
  exact ⟨sharedSecret, ideal.symbolized derived ⟨answering.checked.short, composed.short⟩⟩

theorem Ideal.confirmed (happens : network.Happens history) {n : Nat} {view : View Symbol}
    (noted : ((.initiator, n), notes .tauBVerified view) ∈ history) :
    ∃ sharedSecret, Symbolized sharedSecret view := by
  obtain ⟨_, _, _, _, sharedSecret, _, requested, responded, _, derived, _⟩ :=
    happens.confirmed noted
  exact ⟨sharedSecret, ideal.symbolized derived ⟨requested.short, responded.short⟩⟩

/-- A tag that was received under a key of a protected secret was sent by a session. -/
theorem Ideal.tag_sent (happens : network.Happens history) (split : history = front ++ back)
    {publicKey : KemPublicKey Symbol} {ciphertext : KemCiphertext Symbol}
    (safe : Transported history publicKey.toList ciphertext.toList) {key : Hash Symbol}
    (fromShared : ∃ salt info i,
      Symbol.hkdf (sharedOf publicKey ciphertext).toList salt info i ∈ key.toList)
    {data : List Symbol} {session : Session}
    (received : ∀ x ∈ (hmacOf key.toList data).toList, TakenIn (own session front) x) :
    ¬ Untagged front key.toList data := by
  intro untagged
  have delivered := (ideal.untold happens safe fromShared split untagged).2
  have first := cell_mem (Symbol.hmac key.toList data) (0 : Fin hashBytes)
  exact open_received delivered (received _ first) (.hmac _)

section Tags

variable (happens : network.Happens history) (split : history = front ++ back)
  {publicKey : KemPublicKey Symbol} {ciphertext : KemCiphertext Symbol}
  (safe : Transported history publicKey.toList ciphertext.toList) {view : View Symbol}
  (is : Symbolized (sharedOf publicKey ciphertext) view) {session : Session}

include happens split safe is

/-- Whoever receives tau_B for a view has it from a responder with this view. -/
theorem Ideal.responder_has (received : ∀ x ∈ (hmacOf view.confirmB.toList
      (hashInput domainBConfirm view.transcriptHash)).toList, TakenIn (own session front) x) :
    ∃ n, ((.responder, n), notes .keysDerived view) ∈ front := by
  by_contra none
  obtain ⟨i, mem⟩ := mem_keyOf is.confirmB
  refine ideal.tag_sent happens split safe ⟨_, _, i, mem⟩ received ⟨?_, ?_⟩
  · rintro n view' noted ⟨keys, -⟩
    obtain ⟨sharedSecret, is'⟩ := ideal.keyed happens (split ▸ List.mem_append_left _ noted)
    obtain ⟨rfl, transcripts⟩ := keyOf_inj is.confirmB (keys ▸ is'.confirmB)
    obtain rfl := is.view_eq is' transcripts
    exact none ⟨n, noted⟩
  · rintro n view' - ⟨-, strings⟩
    exact absurd (hashInput_domain strings) (by decide)

/-- Whoever receives tau_A for a view has it from an initiator with this view. -/
theorem Ideal.initiator_has (received : ∀ x ∈ (hmacOf view.confirmA.toList
      (hashInput domainAConfirm view.transcriptHash)).toList, TakenIn (own session front) x) :
    ∃ n, ((.initiator, n), notes .tauBVerified view) ∈ front := by
  by_contra none
  obtain ⟨i, mem⟩ := mem_keyOf is.confirmA
  refine ideal.tag_sent happens split safe ⟨_, _, i, mem⟩ received ⟨?_, ?_⟩
  · rintro n view' - ⟨-, strings⟩
    exact absurd (hashInput_domain strings) (by decide)
  · rintro n view' noted ⟨keys, -⟩
    obtain ⟨sharedSecret, is'⟩ := ideal.confirmed happens (split ▸ List.mem_append_left _ noted)
    obtain ⟨rfl, transcripts⟩ := keyOf_inj is.confirmA (keys ▸ is'.confirmA)
    obtain rfl := is.view_eq is' transcripts
    exact none ⟨n, noted⟩

end Tags

section Exchange

variable (happens : network.Happens history)

include happens

/-- The key exchange behind a view of the initiator. -/
theorem Ideal.initiator_exchange {n : Nat} {view : View Symbol}
    (noted : ((.initiator, n), notes .tauBVerified view) ∈ history) :
    ∃ publicKey ciphertext, Transported history publicKey.toList ciphertext.toList ∧
      Symbolized (sharedOf publicKey ciphertext) view := by
  obtain ⟨key, publicKey, hashM2, ciphertext, sharedSecret, offering, requested, responded,
    decapsulated, derived, -⟩ := happens.confirmed noted
  have is := ideal.symbolized derived ⟨requested.short, responded.short⟩
  have secret := ideal.decapsulated _ _ _ _ _ (mem_own.mp offering.exported)
    (mem_own.mp decapsulated)
  obtain ⟨version, q, signature, path, verified⟩ := responded.verified
  obtain ⟨front, back, split⟩ := List.append_of_mem (mem_own.mp verified)
  obtain ⟨m, q', runtimeSeed, signature', signed⟩ := ideal.responderSigned _ _ _ _ _ _ _ split
  obtain ⟨front', back', split'⟩ := List.append_of_mem
    (show _ ∈ history from split ▸ List.mem_append_left _ signed)
  obtain ⟨m0, m1, sid', m2, hashM2', ciphertext', sharedSecret', version', same, answering⟩ :=
    happens.responderReason split'
  obtain ⟨objects, -⟩ := Encoded.signedInput_inj same
  obtain ⟨rfl, rfl, -, -, -, rfl⟩ := Encoded.muB_inj objects
  have answering := answering.mono (own_mono ⟨_, split'.symm⟩)
  obtain ⟨publicKey', key', field, imported, encapsulated⟩ := answering.encapsulated.done
  -- The M2 whose hash the responder signed is the one that the initiator hashed.
  have m2s : m2 = view.m2 := by
    refine shaOf_inj ((ideal.sha _ _ _ (mem_own.mp answering.checked.hashed)).symm.trans ?_)
    exact ideal.sha _ _ _ (mem_own.mp requested.hashed)
  obtain ⟨_, _, _, _, _, parts, -⟩ := requested.parts
  rw [m2s, parts, slice_publicKey] at field
  obtain rfl := List.Vector.toList_injective field
  refine ⟨publicKey', ciphertext, ⟨publicKey', ciphertext, rfl, rfl, ?_, ?_⟩, secret ▸ is⟩
  · exact ⟨n, key, mem_own.mp offering.exported⟩
  · exact ⟨m, key', sharedSecret', mem_own.mp imported, mem_own.mp encapsulated⟩

/-- The key exchange behind a view of the responder. -/
theorem Ideal.responder_exchange {n : Nat} {view : View Symbol}
    (noted : ((.responder, n), notes .keysDerived view) ∈ history) :
    ∃ publicKey ciphertext, Transported history publicKey.toList ciphertext.toList ∧
      Symbolized (sharedOf publicKey ciphertext) view := by
  obtain ⟨hashM2, ciphertext, sharedSecret, answering, composed, derived⟩ := happens.keyed noted
  have is := ideal.symbolized derived ⟨answering.checked.short, composed.short⟩
  obtain ⟨publicKey, key, field, imported, encapsulated⟩ := answering.encapsulated.done
  obtain ⟨version, q, publicKey', signature, path, field', verified⟩ := answering.checked.verified
  obtain rfl := List.Vector.toList_injective (field'.trans field.symm)
  obtain ⟨front, back, split⟩ := List.append_of_mem (mem_own.mp verified)
  obtain ⟨m, q', runtimeSeed, signature', signed⟩ := ideal.initiatorSigned _ _ _ _ _ _ _ split
  obtain ⟨front', back', split'⟩ := List.append_of_mem
    (show _ ∈ history from split ▸ List.mem_append_left _ signed)
  obtain ⟨m0, m1, sid', key', publicKey'', version', same, offering⟩ :=
    happens.initiatorReason split'
  obtain ⟨objects, -⟩ := Encoded.signedInput_inj same
  obtain ⟨-, -, -, -, rfl⟩ := Encoded.muA_inj objects
  have exported := mem_own.mp (offering.mono (own_mono ⟨_, split'.symm⟩)).exported
  have secret := ideal.encapsulated _ _ _ _ _ (mem_own.mp imported) (mem_own.mp encapsulated)
    ⟨m, key', exported⟩
  refine ⟨publicKey', ciphertext, ⟨publicKey', ciphertext, rfl, rfl, ⟨m, key', exported⟩, ?_⟩,
    secret ▸ is⟩
  exact ⟨n, key, sharedSecret, mem_own.mp imported, mem_own.mp encapsulated⟩

/-- The challenge in a view belongs to one session of the responder. -/
theorem Ideal.responder_unique {n n' : Nat} {view view' : View Symbol}
    (noted : ((.responder, n), notes .keysDerived view) ∈ history)
    (noted' : ((.responder, n'), notes .keysDerived view') ∈ history) (same : view.m1 = view'.m1) :
    n = n' := by
  obtain ⟨_, _, _, answering, -⟩ := happens.keyed noted
  obtain ⟨_, _, _, answering', -⟩ := happens.keyed noted'
  obtain ⟨nonceB, drawn, m1⟩ := answering.challenged.drawn
  obtain ⟨nonceB', drawn', m1'⟩ := answering'.challenged.drawn
  obtain ⟨-, rfl⟩ := m1Message_inj (m1.symm.trans (same.trans m1'))
  exact congrArg Prod.snd (ideal.fresh _ _ _ (mem_own.mp drawn) (mem_own.mp drawn'))

/-- The request in a view belongs to one session of the initiator. -/
theorem Ideal.initiator_unique {n n' : Nat} {view view' : View Symbol}
    (noted : ((.initiator, n), notes .tauBVerified view) ∈ history)
    (noted' : ((.initiator, n'), notes .tauBVerified view') ∈ history)
    (same : view.m0 = view'.m0) : n = n' := by
  obtain ⟨_, _, _, _, _, offering, -⟩ := happens.confirmed noted
  obtain ⟨_, _, _, _, _, offering', -⟩ := happens.confirmed noted'
  obtain ⟨nonceA, drawn, m0, -⟩ := offering.opened.drawn
  obtain ⟨nonceA', drawn', m0', -⟩ := offering'.opened.drawn
  obtain rfl := m0Message_inj (m0.symm.trans (same.trans m0'))
  exact congrArg Prod.snd (ideal.fresh _ _ _ (mem_own.mp drawn) (mem_own.mp drawn'))

omit ideal in
/-- A session has one signature. -/
theorem signed_unique {session : Session} {q q' : UInt32} {message message' : List Symbol}
    {runtimeSeed runtimeSeed' : Hash Symbol} {signature signature' : SignatureCells Symbol}
    (signed : signs q message runtimeSeed signature ∈ own session history)
    (signed' : signs q' message' runtimeSeed' signature' ∈ own session history) :
    message = message' := by
  have same := eq_of_countP_le_one (happens.uses session).2 signed rfl signed' rfl
  injection same with calls
  injection calls

/-- A session of the responder derives keys for one challenge. -/
theorem Ideal.responder_view {n : Nat} {view view' : View Symbol}
    (noted : ((.responder, n), notes .keysDerived view) ∈ history)
    (noted' : ((.responder, n), notes .keysDerived view') ∈ history) :
    view.m0 = view'.m0 ∧ view.m1 = view'.m1 := by
  obtain ⟨_, _, _, answering, composed, -⟩ := happens.keyed noted
  obtain ⟨_, _, _, answering', composed', -⟩ := happens.keyed noted'
  obtain ⟨_, _, _, _, _, -, signed, -⟩ := composed.parts
  obtain ⟨_, _, _, _, _, -, signed', -⟩ := composed'.parts
  obtain ⟨objects, -⟩ := Encoded.signedInput_inj (signed_unique happens signed signed')
  obtain ⟨sids, -⟩ := Encoded.muB_inj objects
  have hashed := ideal.sha _ _ _ (mem_own.mp answering.challenged.hashed)
  have hashed' := ideal.sha _ _ _ (mem_own.mp answering'.challenged.hashed)
  exact Encoded.sid0Input_inj (shaOf_inj (hashed.symm.trans (sids.trans hashed')))

/-- A session of the initiator accepts tau_B for one request and challenge. -/
theorem Ideal.initiator_view {n : Nat} {view view' : View Symbol}
    (noted : ((.initiator, n), notes .tauBVerified view) ∈ history)
    (noted' : ((.initiator, n), notes .tauBVerified view') ∈ history) :
    view.m0 = view'.m0 ∧ view.m1 = view'.m1 := by
  obtain ⟨_, _, _, _, _, offering, requested, -⟩ := happens.confirmed noted
  obtain ⟨_, _, _, _, _, offering', requested', -⟩ := happens.confirmed noted'
  obtain ⟨_, _, _, _, _, -, signed, -⟩ := requested.parts
  obtain ⟨_, _, _, _, _, -, signed', -⟩ := requested'.parts
  obtain ⟨objects, -⟩ := Encoded.signedInput_inj (signed_unique happens signed signed')
  obtain ⟨sids, -⟩ := Encoded.muA_inj objects
  have hashed := ideal.sha _ _ _ (mem_own.mp offering.opened.hashed)
  have hashed' := ideal.sha _ _ _ (mem_own.mp offering'.opened.hashed)
  exact Encoded.sid0Input_inj (shaOf_inj (hashed.symm.trans (sids.trans hashed')))

section Partners

variable {n : Nat} {view : View Symbol}

/-- A responder with the same view had derived its keys when the initiator accepted tau_B. -/
theorem Ideal.responder_before
    (split : history = front ++ ((.initiator, n), notes .tauBVerified view) :: back) :
    ∃ j, ((.responder, j), notes .keysDerived view) ∈ front := by
  have noted : ((.initiator, n), notes .tauBVerified view) ∈ history :=
    split ▸ List.mem_append_right _ List.mem_cons_self
  obtain ⟨publicKey, ciphertext, safe, is⟩ := ideal.initiator_exchange happens noted
  have confirmed : Confirmed _ _ _ view := happens.initiatorReason split
  obtain ⟨_, _, _, _, _, _, _, _, _, _, tauB, tagged, received⟩ := confirmed
  have tag := ideal.hmac _ _ _ _ (split ▸ List.mem_append_left _ (mem_own.mp tagged))
  exact ideal.responder_has happens split safe is (tag ▸ received)

omit ideal in
/-- A session that accepts has derived its keys. -/
theorem derived_of_accepted (accepted : ((.responder, n), notes .accepted view) ∈ history) :
    ((.responder, n), notes .keysDerived view) ∈ history := by
  obtain ⟨front, back, split⟩ := List.append_of_mem accepted
  have reason := happens.responderReason split
  exact split ▸ List.mem_append_left _ (mem_own.mp reason.1)

/-- An initiator with the same view had accepted tau_B when the responder accepted. -/
theorem Ideal.initiator_before
    (split : history = front ++ ((.responder, n), notes .accepted view) :: back) :
    ∃ i, ((.initiator, i), notes .tauBVerified view) ∈ front := by
  have accepted : ((.responder, n), notes .accepted view) ∈ history :=
    split ▸ List.mem_append_right _ List.mem_cons_self
  obtain ⟨publicKey, ciphertext, safe, is⟩ :=
    ideal.responder_exchange happens (derived_of_accepted happens accepted)
  obtain ⟨-, tauA, tagged, received⟩ := happens.responderReason split
  have tag := ideal.hmac _ _ _ _ (split ▸ List.mem_append_left _ (mem_own.mp tagged))
  exact ideal.initiator_has happens split safe is (tag ▸ received)

/-- Sessions of the initiator that share a request with one session of the responder are one. -/
theorem Ideal.initiator_matched {i i' j : Nat} {view₁ view₂ : View Symbol}
    (noted : ((.initiator, i), notes .tauBVerified view) ∈ history)
    (derived : ((.responder, j), notes .keysDerived view) ∈ history)
    (noted' : ((.initiator, i'), notes .tauBVerified view₁) ∈ history)
    (derived' : ((.responder, j), notes .keysDerived view₂) ∈ history)
    (same : view₁.m0 = view₂.m0) : i' = i :=
  ideal.initiator_unique happens noted' noted
    (same.trans (ideal.responder_view happens derived' derived).1)

/-- Sessions of the responder that share a challenge with one session of the initiator are one. -/
theorem Ideal.responder_matched {i j j' : Nat} {view₁ view₂ : View Symbol}
    (noted : ((.initiator, i), notes .tauBVerified view) ∈ history)
    (derived : ((.responder, j), notes .keysDerived view) ∈ history)
    (noted' : ((.initiator, i), notes .tauBVerified view₁) ∈ history)
    (derived' : ((.responder, j'), notes .keysDerived view₂) ∈ history)
    (same : view₁.m1 = view₂.m1) : j' = j :=
  ideal.responder_unique happens derived' derived
    (same.symm.trans (ideal.initiator_view happens noted' noted).2)

end Partners

end Exchange

end Holders

/-- When the initiator's comparison of tau_B succeeds, exactly one session of the responder has
derived the keys of the same view, and no other session of the initiator holds a view of it. -/
theorem initiator_agreement (network : Network Symbol κ) (history : History Symbol κ)
    (happens : network.Happens history) (ideal : Ideal network history)
    {front back : History Symbol κ}
    {i : Nat} {view : View Symbol}
    (split : history = front ++ ((.initiator, i), notes .tauBVerified view) :: back) :
    ∃ j, ((.responder, j), notes .keysDerived view) ∈ front ∧
      (∀ j', ((.responder, j'), notes .keysDerived view) ∈ history → j' = j) ∧
      ∀ i' view', ((.initiator, i'), notes .tauBVerified view') ∈ history →
        ((.responder, j), notes .keysDerived view') ∈ history → i' = i := by
  have noted : ((.initiator, i), notes .tauBVerified view) ∈ history :=
    split ▸ List.mem_append_right _ List.mem_cons_self
  obtain ⟨j, held⟩ := ideal.responder_before happens split
  have held' : ((.responder, j), notes .keysDerived view) ∈ history :=
    split ▸ List.mem_append_left _ held
  refine ⟨j, held, fun j' other => ideal.responder_unique happens other held' rfl, ?_⟩
  intro i' view' noted' matched
  exact ideal.initiator_matched happens noted held' noted' matched rfl

/-- Both sides of an honest session. -/
theorem initiator_agreement_honest :
    ∃ (history : History Symbol Unit) (view : View Symbol) (j : Nat),
      symbolicHandshake.network.Happens history ∧ Ideal symbolicHandshake.network history ∧
        ((.initiator, 0), notes .tauBVerified view) ∈ history ∧
        ((.responder, j), notes .keysDerived view) ∈ history := by
  obtain ⟨record, history, enacted⟩ := exists_symbolic
  have ideal := symbolic_ideal enacted
  obtain ⟨front, back, split⟩ := List.append_of_mem enacted.tauBVerified
  obtain ⟨j, derived, -⟩ := initiator_agreement symbolicHandshake.network history enacted.happens
    ideal split
  exact ⟨history, _, j, enacted.happens, ideal, enacted.tauBVerified,
    split ▸ List.mem_append_left _ derived⟩

/-- When the responder accepts, a session of the initiator has already accepted tau_B for the same
view, and no session of the initiator holds the views of two accepting sessions. -/
theorem responder_agreement (network : Network Symbol κ) (history : History Symbol κ)
    (happens : network.Happens history) (ideal : Ideal network history)
    {front back : History Symbol κ}
    {j : Nat} {view : View Symbol}
    (split : history = front ++ ((.responder, j), notes .accepted view) :: back) :
    (∃ i, ((.initiator, i), notes .tauBVerified view) ∈ front) ∧
      ∀ i j' view', ((.responder, j'), notes .accepted view') ∈ history →
        ((.initiator, i), notes .tauBVerified view) ∈ history →
        ((.initiator, i), notes .tauBVerified view') ∈ history → j' = j := by
  have accepted : ((.responder, j), notes .accepted view) ∈ history :=
    split ▸ List.mem_append_right _ List.mem_cons_self
  have held := derived_of_accepted happens accepted
  refine ⟨ideal.initiator_before happens split, ?_⟩
  intro i j' view' accepted' noted noted'
  exact ideal.responder_matched happens noted held noted' (derived_of_accepted happens accepted')
    rfl

/-- Both sides of an honest session. -/
theorem responder_agreement_honest :
    ∃ (history : History Symbol Unit) (view : View Symbol) (i : Nat),
      symbolicHandshake.network.Happens history ∧ Ideal symbolicHandshake.network history ∧
        ((.responder, 0), notes .accepted view) ∈ history ∧
        ((.initiator, i), notes .tauBVerified view) ∈ history := by
  obtain ⟨record, history, enacted⟩ := exists_symbolic
  have ideal := symbolic_ideal enacted
  obtain ⟨front, back, split⟩ := List.append_of_mem enacted.accepted
  obtain ⟨⟨i, noted⟩, -⟩ := responder_agreement symbolicHandshake.network history enacted.happens
    ideal split
  exact ⟨history, _, i, enacted.happens, ideal, enacted.accepted,
    split ▸ List.mem_append_left _ noted⟩

section Messages

/-- The sessions of two views exchanged the same messages. -/
structure SameMessages (view view' : View Symbol) : Prop where
  m0 : view.m0 = view'.m0
  m1 : view.m1 = view'.m1
  m2 : view.m2 = view'.m2
  inner : view.inner = view'.inner

/-- When the initiator's comparison of tau_B succeeds, one session of the responder has derived the
same keys from the same messages. No other session of the responder has these messages, and no
other session of the initiator has accepted tau_B for messages of that one. -/
theorem initiator_injective_agreement (network : Network Symbol κ) (history : History Symbol κ)
    (happens : network.Happens history) (ideal : Ideal network history)
    {front back : History Symbol κ} {i : Nat} {view : View Symbol}
    (split : history = front ++ ((.initiator, i), notes .tauBVerified view) :: back) :
    ∃ j, ((.responder, j), notes .keysDerived view) ∈ front ∧
      (∀ j' view', ((.responder, j'), notes .keysDerived view') ∈ history →
        SameMessages view view' → j' = j) ∧
      ∀ i' viewA viewB, ((.initiator, i'), notes .tauBVerified viewA) ∈ history →
        ((.responder, j), notes .keysDerived viewB) ∈ history → SameMessages viewA viewB →
        i' = i := by
  have noted : ((.initiator, i), notes .tauBVerified view) ∈ history :=
    split ▸ List.mem_append_right _ List.mem_cons_self
  obtain ⟨j, held⟩ := ideal.responder_before happens split
  have derived : ((.responder, j), notes .keysDerived view) ∈ history :=
    split ▸ List.mem_append_left _ held
  refine ⟨j, held, fun j' view' derived' same => ?_, fun i' viewA viewB noted' derived' same => ?_⟩
  · exact ideal.responder_matched happens noted derived noted derived' same.m1
  · exact ideal.initiator_matched happens noted derived noted' derived' same.m0

/-- When the responder accepts, a session of the initiator has already accepted tau_B for the same
messages and keys. No other session of the initiator has these messages, and no other session of
the responder has accepted messages of that one. -/
theorem responder_injective_agreement (network : Network Symbol κ) (history : History Symbol κ)
    (happens : network.Happens history) (ideal : Ideal network history)
    {front back : History Symbol κ} {j : Nat} {view : View Symbol}
    (split : history = front ++ ((.responder, j), notes .accepted view) :: back) :
    ∃ i, ((.initiator, i), notes .tauBVerified view) ∈ front ∧
      (∀ i' view', ((.initiator, i'), notes .tauBVerified view') ∈ history →
        SameMessages view' view → i' = i) ∧
      ∀ j' viewA viewB, ((.initiator, i), notes .tauBVerified viewA) ∈ history →
        ((.responder, j'), notes .accepted viewB) ∈ history → SameMessages viewA viewB →
        j' = j := by
  have accepted : ((.responder, j), notes .accepted view) ∈ history :=
    split ▸ List.mem_append_right _ List.mem_cons_self
  have derived := derived_of_accepted happens accepted
  obtain ⟨i, held⟩ := ideal.initiator_before happens split
  have noted : ((.initiator, i), notes .tauBVerified view) ∈ history :=
    split ▸ List.mem_append_left _ held
  refine ⟨i, held, fun i' view' noted' same => ?_, fun j' viewA viewB noted' accepted' same => ?_⟩
  · exact ideal.initiator_matched happens noted derived noted' derived same.m0
  · exact ideal.responder_matched happens noted derived noted'
      (derived_of_accepted happens accepted') same.m1

/-- The partner of the initiator in an honest session. -/
theorem initiator_injective_agreement_honest :
    ∃ (history : History Symbol Unit) (view : View Symbol),
      symbolicHandshake.network.Happens history ∧ Ideal symbolicHandshake.network history ∧
      ((.initiator, 0), notes .tauBVerified view) ∈ history ∧
      ∃ j, ((.responder, j), notes .keysDerived view) ∈ history ∧
        ∀ j' view', ((.responder, j'), notes .keysDerived view') ∈ history →
          SameMessages view view' → j' = j := by
  obtain ⟨record, history, enacted⟩ := exists_symbolic
  have ideal := symbolic_ideal enacted
  obtain ⟨front, back, split⟩ := List.append_of_mem enacted.tauBVerified
  obtain ⟨j, derived, unique, -⟩ := initiator_injective_agreement symbolicHandshake.network history
    enacted.happens ideal split
  exact ⟨history, _, enacted.happens, ideal, enacted.tauBVerified, j,
    split ▸ List.mem_append_left _ derived, unique⟩

/-- The partner of the responder in an honest session. -/
theorem responder_injective_agreement_honest :
    ∃ (history : History Symbol Unit) (view : View Symbol),
      symbolicHandshake.network.Happens history ∧ Ideal symbolicHandshake.network history ∧
      ((.responder, 0), notes .accepted view) ∈ history ∧
      ∃ i, ((.initiator, i), notes .tauBVerified view) ∈ history ∧
        ∀ j' viewA viewB, ((.initiator, i), notes .tauBVerified viewA) ∈ history →
          ((.responder, j'), notes .accepted viewB) ∈ history → SameMessages viewA viewB →
          j' = 0 := by
  obtain ⟨record, history, enacted⟩ := exists_symbolic
  have ideal := symbolic_ideal enacted
  obtain ⟨front, back, split⟩ := List.append_of_mem enacted.accepted
  obtain ⟨i, noted, -, unique⟩ := responder_injective_agreement symbolicHandshake.network history
    enacted.happens ideal split
  exact ⟨history, _, enacted.happens, ideal, enacted.accepted, i,
    split ▸ List.mem_append_left _ noted, unique⟩

end Messages

end Puav.ProposedUavProtocol
