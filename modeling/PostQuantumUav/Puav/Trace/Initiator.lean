import PostQuantumUav.Puav.MessageFields
import PostQuantumUav.Puav.Trace.Methods

/-!
# Traces of the initiator

What a trace of `runInitiatorSession` shows at the points where others depend on it: the
signed object names a key of this session, the comparison of tau_B follows the acceptance
of a signature over this session's own M2, and every message that is sent consists of
parts whose origin the trace shows.
-/

namespace Puav.ProposedUavProtocol

open Interaction Cell Buffer

variable {α κ : Type} [Cell α]

section Facts

/-- The initiator received M1 as the answer to an M0 of its own nonce, and hashed both. -/
structure Opened (config : NodeConfig) (t : List (Step α κ)) (m0 : List.Vector α m0Bytes)
    (m1 : List.Vector α m1Bytes) (sid : Hash α) : Prop where
  drawn : ∃ nonceA, draws nonceA ∈ t ∧ m0 = m0Message config nonceA ∧ ValidM1 config m1 nonceA
  hashed : hashes (sid0Input m0 m1) sid ∈ t

/-- The initiator generated a key, and signs for it in the session. -/
structure Offering (config : NodeConfig) (t : List (Step α κ)) (m0 : List.Vector α m0Bytes)
    (m1 : List.Vector α m1Bytes) (sid : Hash α) (key : κ) (publicKey : KemPublicKey α) : Prop where
  opened : Opened config t m0 m1 sid
  generated : generates key ∈ t
  exported : exports key publicKey ∈ t

/-- M2 with the signature and the path of the initiator. -/
structure Requested (config : NodeConfig) (t : List (Step α κ)) (sid : Hash α)
    (publicKey : KemPublicKey α) (m2 : List α) (hashM2 : Hash α) : Prop where
  short : m2.length ≤ 65535
  parts : ∃ version q signature path runtimeSeed,
    m2 = m2Message sid version q publicKey signature path ∧
    signs q (signedInput (muA sid config.idA config.idB version publicKey) q).toList runtimeSeed
      signature ∈ t ∧ ∀ p, path = some p → attaches q p ∈ t
  hashed : hashes m2 hashM2 ∈ t

/-- The initiator accepted the signature of an inner M3 over the session and its M2. -/
structure Responded (config : NodeConfig) (record : PeerPublicRecord) (t : List (Step α κ))
    (sid hashM2 : Hash α) (ciphertext : KemCiphertext α) (inner : List α) : Prop where
  short : inner.length ≤ 65535
  field : ciphertext.toList = slice inner 42 mlkemCiphertextBytes
  verified : ∃ version q signature path,
    verifies q (signedInput (muB sid hashM2 config.idA config.idB version ciphertext) q).toList
      signature record path ∈ t

/-- All that the initiator has done when its comparison of tau_B succeeds. -/
def Confirmed (config : NodeConfig) (record : PeerPublicRecord) (t : List (Step α κ))
    (view : View α) : Prop :=
  ∃ key publicKey hashM2 ciphertext sharedSecret,
    Offering config t view.m0 view.m1 view.sid key publicKey ∧
      Requested config t view.sid publicKey view.m2 hashM2 ∧
      Responded config record t view.sid hashM2 ciphertext view.inner ∧
      decapsulates key ciphertext sharedSecret ∈ t ∧ Derived t sharedSecret view ∧
      ∃ tauB, tags view.confirmB.toList (hashInput domainBConfirm view.transcriptHash) tauB ∈ t ∧
        ∀ x ∈ tauB.toList, TakenIn t x

/-- Where a message of the initiator comes from. -/
inductive InitiatesWith (config : NodeConfig) (t : List (Step α κ)) : List α → Prop where
  | m0 {nonceA : Nonce α} (drawn : draws nonceA ∈ t) :
      InitiatesWith config t (m0Message config nonceA).toList
  | m2 {m0 : List.Vector α m0Bytes} {m1 : List.Vector α m1Bytes} {sid : Hash α} {key : κ}
      {publicKey : KemPublicKey α} {m2 : List α} {hashM2 : Hash α}
      (offering : Offering config t m0 m1 sid key publicKey)
      (requested : Requested config t sid publicKey m2 hashM2) : InitiatesWith config t m2
  | m4 {view : View α} {tauA : Hash α} (verified : notes .tauBVerified view ∈ t)
      (tagged : tags view.confirmA.toList (hashInput domainAConfirm view.transcriptHash) tauA ∈ t) :
      InitiatesWith config t (m4Message view.sid tauA).toList

/-- The reasons of an initiator's events. -/
def InitiatorReason (config : NodeConfig) (record : PeerPublicRecord) (t : List (Step α κ)) :
    Step α κ → Prop
  | ⟨.sign q message _, _⟩ => ∃ m0 m1 sid key publicKey version,
      message = (signedInput (muA sid config.idA config.idB version publicKey) q).toList ∧
        Offering config t m0 m1 sid key publicKey
  | ⟨.sendMessage _ _ _ data, _⟩ => InitiatesWith config t data
  | ⟨.note .tauBVerified view, _⟩ => Confirmed config record t view
  | ⟨.note .keysDerived _, _⟩ => False
  | ⟨.note .accepted _, _⟩ => False
  | _ => True

theorem initiatorReason_quiet {config : NodeConfig} {record : PeerPublicRecord}
    (t : List (Step α κ)) (c : Call α κ) (a : (calls α κ).Answer c) (h : c.Quiet) :
    InitiatorReason config record t ⟨c, a⟩ := by
  cases c <;> first | exact h.elim | exact trivial

section Mono

variable {config : NodeConfig} {record : PeerPublicRecord} {t t' : List (Step α κ)}
  (more : t <+: t') {m0 : List.Vector α m0Bytes} {m1 : List.Vector α m1Bytes}
  {sid hashM2 : Hash α} {key : κ} {publicKey : KemPublicKey α} {m2 : List α}

include more

theorem Opened.mono (h : Opened config t m0 m1 sid) : Opened config t' m0 m1 sid := by
  obtain ⟨nonceA, drawn, rest⟩ := h.drawn
  exact ⟨⟨nonceA, more.subset drawn, rest⟩, more.subset h.hashed⟩

theorem Offering.mono (h : Offering config t m0 m1 sid key publicKey) :
    Offering config t' m0 m1 sid key publicKey :=
  ⟨h.opened.mono more, more.subset h.generated, more.subset h.exported⟩

theorem Requested.mono (h : Requested config t sid publicKey m2 hashM2) :
    Requested config t' sid publicKey m2 hashM2 := by
  obtain ⟨version, q, signature, path, runtimeSeed, parts, signed, attached⟩ := h.parts
  exact ⟨h.short, ⟨version, q, signature, path, runtimeSeed, parts, more.subset signed,
    fun p is => more.subset (attached p is)⟩, more.subset h.hashed⟩

theorem Responded.mono {ciphertext : KemCiphertext α} {inner : List α}
    (h : Responded config record t sid hashM2 ciphertext inner) :
    Responded config record t' sid hashM2 ciphertext inner := by
  obtain ⟨version, q, signature, path, verified⟩ := h.verified
  exact ⟨h.short, h.field, version, q, signature, path, more.subset verified⟩

theorem Confirmed.mono {view : View α} (h : Confirmed config record t view) :
    Confirmed config record t' view := by
  obtain ⟨key, publicKey, hashM2, ciphertext, sharedSecret, offering, requested, responded,
    decapsulated, derived, tauB, tagged, received⟩ := h
  exact ⟨key, publicKey, hashM2, ciphertext, sharedSecret, offering.mono more, requested.mono more,
    responded.mono more, more.subset decapsulated, derived.mono more, tauB, more.subset tagged,
    fun x mem => (received x mem).mono more⟩

end Mono

end Facts

variable {config : NodeConfig} {record : PeerPublicRecord} {object : ProposedUavProtocol α κ}
  {t : List (Step α κ)}

section Methods

variable [DecidableEq α]

omit [DecidableEq α] in
theorem emits_buildM0 (configured : Configured config record object) :
    Routine.Emits (InitiatorReason config record) (fun nonceA object' t' =>
      object' = { object with m0 := m0Message config nonceA } ∧ draws nonceA ∈ t')
      (buildM0 : Method α κ _) object t := by
  obtain ⟨rfl, rfl⟩ := configured
  refine Routine.Emits.perform (fun a => trivial) fun (nonceA : Nonce α) => Routine.Emits.modify ?_
  exact Routine.emits_pure ⟨rfl, List.mem_append_right _ List.mem_cons_self⟩

/-- M1 is checked against the nonce of M0. -/
theorem emits_receiveM1 (session : UInt32) (nonceA : Nonce α) :
    Routine.Emits (InitiatorReason config record) (fun _ object' _ =>
      ∃ m1, Kept { object with m1 := m1 } object' ∧ ValidM1 object.config m1 nonceA)
      (receiveM1 session nonceA : Method α κ _) object t := by
  refine (emits_receiveProtocolMessage initiatorReason_quiet).bind ?_
  rintro packet object₁ t₁ _ ⟨cells, kept₁, -, -⟩
  refine Routine.Emits.get (Routine.Emits.guard fun valid => ?_)
  rw [kept₁.config, kept₁.m1] at valid
  exact Routine.emits_pure ⟨_, kept₁, valid⟩

omit [DecidableEq α] in
/-- The signature of M2 is for a key of the session. -/
theorem emits_sendM2 (configured : Configured config record object) {sid : Hash α} {key : κ}
    {publicKey : KemPublicKey α}
    (offering : Offering config t object.m0 object.m1 sid key publicKey)
    (session : UInt32) (destination : Transport.Endpoint) :
    Routine.Emits (InitiatorReason config record) (fun hashM2 object' t' => ∃ m2,
      Kept { object with m2 := m2 } object' ∧
        Requested config t' sid publicKey object'.sentM2 hashM2)
      (sendM2 session destination sid publicKey : Method α κ _) object t := by
  obtain ⟨rfl, rfl⟩ := configured
  apply Routine.Emits.get
  refine (emits_reserveQ initiatorReason_quiet fun t' value a more => trivial).bind ?_
  rintro qA object t₁ more₁ rfl
  refine (emits_timedRuntimeSeed initiatorReason_quiet).bind fun seed object₂ t₂ more₂ kept₂ => ?_
  refine (emits_buildM2SignedInput _ _ _ _).bind ?_
  rintro _ object₃ t₃ more₃ ⟨kept₃, built⟩
  rw [kept₂.config] at built
  have until₃ := more₁.trans (more₂.trans more₃)
  refine (emits_timedSign initiatorReason_quiet fun t' a more => ?_).bind ?_
  · exact ⟨_, _, _, _, _, _, congrArg List.Vector.toList built, offering.mono (until₃.trans more)⟩
  rintro signature object₄ t₄ more₄ ⟨kept₄, signed⟩
  refine (emits_attachPath initiatorReason_quiet qA).bind ?_
  rintro path object₅ t₅ more₅ ⟨kept₅, carries, attached⟩
  have kept : Kept object object₅ := kept₂.trans (kept₃.trans (kept₄.trans kept₅))
  rw [kept₄.config, kept₃.config, kept₂.config] at carries
  have sized := length_m2Message carries sid object.config.credentialVersion qA publicKey signature
  have message : slice (overwrite object₅.m2 (m2Message sid object.config.credentialVersion qA
      publicKey signature path)).toList 0 (m2BytesForMode object₅.config.pathMode) =
        m2Message sid object.config.credentialVersion qA publicKey signature path := by
    rw [kept.config]
    exact slice_overwrite_front sized (by cases object.config.pathMode <;> decide)
  refine Routine.Emits.modify (Routine.Emits.get ?_)
  simp only [sentM2, message]
  refine (emits_timedSha initiatorReason_quiet _).bind ?_
  rintro hashM2 object₆ t₆ more₆ ⟨kept₆, hashed⟩
  have requested : Requested object.config t₆ sid publicKey
      (m2Message sid object.config.credentialVersion qA publicKey signature path) hashM2 := by
    refine ⟨?_, ⟨_, _, _, _, seed, rfl, ?_, fun p is => more₆.subset (attached p is)⟩, hashed⟩
    · rw [sized]
      cases object.config.pathMode <;> decide
    · rw [← built]
      exact (more₅.trans more₆).subset signed
  have until₆ := until₃.trans (more₄.trans (more₅.trans more₆))
  refine (emits_sendProtocolMessage fun a => .m2 (offering.mono until₆) requested).bind ?_
  intro _ object₇ t₇ more₇ kept₇
  refine Routine.emits_pure ⟨_, (kept.withM2 _).trans (kept₆.trans kept₇), ?_⟩
  rw [kept₇.m2, kept₇.config, kept₆.m2, kept₆.config, message]
  exact requested.mono more₇

/-- M3 is accepted only with a signature over this session's M2. -/
theorem emits_receiveM3 (configured : Configured config record object)
    (empty : object.m3 = .replicate _ (ofByte 0)) (session : UInt32) (sid hashM2 : Hash α) :
    Routine.Emits (InitiatorReason config record) (fun _ object' t' => ∃ m3,
      Kept { object with m3 := m3 } object' ∧ (∀ x ∈ m3.toList, TakenIn t' x) ∧
        Responded config record t' sid hashM2 (block object'.m3 78 mlkemCiphertextBytes)
          object'.innerM3)
      (receiveM3 session sid hashM2 : Method α κ _) object t := by
  apply Routine.Emits.get
  refine (emits_receiveProtocolMessage initiatorReason_quiet).bind ?_
  rintro packet object₁ t₁ _ ⟨cells, kept₁, received, -⟩
  refine Routine.Emits.get (Routine.Emits.guard fun _ => Routine.Emits.guard fun _ => ?_)
  refine Routine.Emits.guard fun _ => ?_
  refine (emits_validatePeerRecord initiatorReason_quiet _).bind fun _ object₂ t₂ more₂ kept₂ => ?_
  refine (emits_obtainPeerPath initiatorReason_quiet _ _ _).bind ?_
  intro path object₃ t₃ more₃ kept₃
  refine (emits_buildM3SignedInput _ _ _ _ _).bind ?_
  rintro _ object₄ t₄ more₄ ⟨kept₄, built⟩
  refine (emits_timedVerify initiatorReason_quiet _ _ _).bind ?_
  rintro _ object₅ t₅ more₅ ⟨kept₅, verified⟩
  have before : Kept object₁ object₃ := kept₂.trans kept₃
  have kept : Kept object₁ object₅ := before.trans (kept₄.trans kept₅)
  have same : object₁.config = config := kept₁.config.trans configured.config
  have peer : object₁.peerRecord = record := kept₁.peerRecord.trans configured.peerRecord
  refine Routine.emits_pure ⟨_, kept₁.trans kept, fun x mem => ?_, ?_⟩
  · rcases mem_memcpy mem with old | new
    · rw [empty] at old
      exact .inl (List.eq_of_mem_replicate old)
    · have until₅ := more₂.trans (more₃.trans (more₄.trans more₅))
      exact .inr ⟨_, _, _, _, _, cells, until₅.subset received, new⟩
  rw [built, before.config, same, kept₄.peerRecord, before.peerRecord, peer] at verified
  rw [innerM3, kept.m3, kept.config]
  refine ⟨?_, ?_, _, _, _, _, verified⟩
  · refine Nat.le_trans (List.length_take_le _ _) ?_
    cases object₁.config.pathMode <;> decide
  · rw [toList_block]
    refine (@slice_slice _ object₁.m3.toList 36 _ 42 mlkemCiphertextBytes ?_).symm
    cases object₁.config.pathMode <;> decide

/-- What the comparison of tau_B is made with. -/
theorem emits_confirmB {sid : Hash α} {key : κ}
    {publicKey : KemPublicKey α} {hashM2 : Hash α} (held : object.kemKey = some key)
    (offering : Offering config t object.m0 object.m1 sid key publicKey)
    (requested : Requested config t sid publicKey object.sentM2 hashM2)
    (responded : Responded config record t sid hashM2
      (block object.m3 78 mlkemCiphertextBytes) object.innerM3)
    (received : ∀ x ∈ object.m3.toList, TakenIn t x) :
    Routine.Emits (InitiatorReason config record) (fun view object' t' =>
      Kept object object' ∧ view.sid = sid ∧ notes .tauBVerified view ∈ t')
      (confirmB sid : Method α κ _) object t := by
  apply Routine.Emits.get
  refine (emits_timedDecapsulate initiatorReason_quiet _).bind ?_
  rintro sharedSecret object₁ t₁ more₁ ⟨kept₁, key', held', decapsulated⟩
  obtain rfl : key = key' := Option.some.inj (held.symm.trans held')
  refine (emits_deriveView initiatorReason_quiet _ _ _).bind ?_
  rintro view object₂ t₂ more₂ ⟨kept₂, derived, ofSid, ofM0, ofM1, ofM2, ofInner⟩
  refine (emits_computeConfirmationTag initiatorReason_quiet _ _ _).bind ?_
  rintro tauB object₃ t₃ more₃ ⟨kept₃, tagged⟩
  refine Routine.Emits.guard fun same => ?_
  have until₃ := more₁.trans (more₂.trans more₃)
  have sent : object₁.sentM2 = object.sentM2 := by
    rw [sentM2, sentM2, kept₁.m2, kept₁.config]
  have confirmed : Confirmed config record t₃ view := by
    refine ⟨key, publicKey, hashM2, block object.m3 78 mlkemCiphertextBytes, sharedSecret, ?_, ?_,
      ?_,
      (more₂.trans more₃).subset decapsulated, derived.mono more₃, tauB, tagged, fun x mem => ?_⟩
    · rw [ofM0, ofM1, ofSid, kept₁.m0, kept₁.m1]
      exact offering.mono until₃
    · rw [ofM2, ofSid, sent]
      exact requested.mono until₃
    · rw [ofInner, ofSid]
      exact responded.mono until₃
    · rw [same] at mem
      exact (received x (mem_of_mem_slice mem)).mono until₃
  refine Routine.Emits.perform (fun a => confirmed) fun _ => ?_
  exact Routine.emits_pure ⟨kept₁.trans (kept₂.trans kept₃), ofSid,
    List.mem_append_right _ List.mem_cons_self⟩

omit [DecidableEq α] in
theorem emits_sendM4 {view : View α} (verified : notes .tauBVerified view ∈ t) (session : UInt32)
    (destination : Transport.Endpoint) :
    Routine.Emits (InitiatorReason config record) (fun _ _ _ => True)
      (sendM4 session destination view : Method α κ Unit) object t := by
  refine (emits_computeConfirmationTag initiatorReason_quiet _ _ _).bind ?_
  rintro tauA object₁ t₁ more₁ ⟨-, tagged⟩
  refine Routine.Emits.modify (Routine.Emits.get ?_)
  refine (emits_sendProtocolMessage fun a => ?_).mono fun _ _ _ _ _ => trivial
  exact .m4 (more₁.subset verified) tagged

omit [DecidableEq α] in
theorem emits_receiveResult (session : UInt32) :
    Routine.Emits (InitiatorReason config record) (fun _ _ _ => True)
      (receiveResult session : Method α κ Unit) object t := by
  refine (emits_receiveProtocolMessage initiatorReason_quiet).bind fun _ object₁ t₁ _ _ => ?_
  refine Routine.Emits.perform (fun a => trivial) fun (now : UInt64) => Routine.Emits.modify ?_
  exact Routine.Emits.get (Routine.emits_guard fun _ => trivial)

/-- The whole session. -/
theorem emits_initiatorSession (configured : Configured config record object)
    (empty : object.m3 = .replicate _ (ofByte 0)) (session : UInt32) :
    Routine.Emits (InitiatorReason config record) (fun _ _ _ => True)
      (initiatorSession session : Method α κ (View α)) object t := by
  refine (emits_buildM0 configured).bind ?_
  rintro nonceA _ t₁ _ ⟨rfl, drawn⟩
  refine Routine.Emits.perform (fun a => trivial) fun (start : UInt64) => ?_
  have sent : Routine.Emits (InitiatorReason config record) (fun _ object' _ =>
      Kept { object with m0 := m0Message config nonceA } object') (sendM0 session : Method α κ Unit)
      { object with m0 := m0Message config nonceA } (t₁ ++ [⟨.espTimer, start⟩]) :=
    Routine.Emits.get (emits_sendProtocolMessage fun a => .m0 (List.mem_append_left _ drawn))
  refine sent.bind fun _ object₂ t₂ more₂ kept₂ => ?_
  refine (emits_receiveM1 session nonceA).bind ?_
  rintro packet object₃ t₃ more₃ ⟨m1, kept₃, valid⟩
  refine (emits_computeSid0 initiatorReason_quiet).bind ?_
  rintro sid object₄ t₄ more₄ ⟨kept₄, hashed⟩
  have drawn₄ : draws nonceA ∈ t₄ :=
    (more₂.trans (more₃.trans more₄)).subset (List.mem_append_left _ drawn)
  have ofConfig : object₃.config = config :=
    kept₃.config.trans (kept₂.config.trans configured.config)
  have ofM0 : object₃.m0 = m0Message config nonceA := kept₃.m0.trans kept₂.m0
  have ofM1 : object₃.m1 = m1 := kept₃.m1
  rw [ofM0, ofM1] at hashed
  rw [(kept₂.config.trans configured.config : object₂.config = config)] at valid
  have opened : Opened config t₄ (m0Message config nonceA) m1 sid :=
    ⟨⟨nonceA, drawn₄, rfl, valid⟩, hashed⟩
  refine (emits_initializeKem initiatorReason_quiet).bind ?_
  rintro _ object₅ t₅ more₅ ⟨kemKey, kept₅⟩
  refine (emits_timedMakeKey initiatorReason_quiet).bind ?_
  rintro publicKey object₆ t₆ more₆ ⟨key, kept₆, generated, exported⟩
  have kept₆ : Kept { object₄ with kemKey := some key } object₆ :=
    (kept₅.withKemKey (some key)).trans kept₆
  have configured₆ : Configured config record object₆ := by
    refine ⟨kept₆.config.trans (kept₄.config.trans ofConfig), kept₆.peerRecord.trans ?_⟩
    refine kept₄.peerRecord.trans (kept₃.peerRecord.trans ?_)
    exact kept₂.peerRecord.trans configured.peerRecord
  have offering : Offering config t₆ object₆.m0 object₆.m1 sid key publicKey := by
    rw [kept₆.m0, kept₆.m1]
    change Offering config t₆ object₄.m0 object₄.m1 sid key publicKey
    rw [kept₄.m0, kept₄.m1, ofM0, ofM1]
    exact ⟨opened.mono (more₅.trans more₆), generated, exported⟩
  refine (emits_sendM2 configured₆ offering _ _).bind ?_
  rintro hashM2 object₇ t₇ more₇ ⟨m2, kept₇, requested⟩
  have configured₇ : Configured config record object₇ :=
    ⟨kept₇.config.trans configured₆.config, kept₇.peerRecord.trans configured₆.peerRecord⟩
  have empty₇ : object₇.m3 = .replicate _ (ofByte 0) := by
    refine kept₇.m3.trans (kept₆.m3.trans (kept₄.m3.trans ?_))
    exact kept₃.m3.trans (kept₂.m3.trans empty)
  refine (emits_receiveM3 configured₇ empty₇ session sid hashM2).bind ?_
  rintro packet' object₈ t₈ more₈ ⟨m3, kept₈, inside, responded⟩
  have before₈ : Kept { object₆ with m2 := m2, m3 := m3 } object₈ :=
    (kept₇.withM3 m3).trans kept₈
  have offering₈ : Offering config t₈ object₈.m0 object₈.m1 sid key publicKey := by
    rw [before₈.m0, before₈.m1]
    exact offering.mono (more₇.trans more₈)
  have requested₈ : Requested config t₈ sid publicKey object₈.sentM2 hashM2 := by
    rw [sentM2, kept₈.m2, kept₈.config]
    exact requested.mono more₈
  refine (emits_confirmB (before₈.kemKey.trans kept₆.kemKey) offering₈ requested₈ responded ?_).bind
    ?_
  · rw [before₈.m3]
    exact inside
  rintro view object₉ t₉ more₉ ⟨-, -, verified⟩
  refine (emits_sendM4 verified _ _).bind fun _ object₁₀ t₁₀ _ _ => ?_
  refine Routine.Emits.perform (fun a => trivial) fun (now : UInt64) => Routine.Emits.modify ?_
  exact (emits_receiveResult session).bind fun _ _ _ _ _ => Routine.emits_pure trivial

/-- Every event of `runInitiatorSession` has its reason, from whatever object it starts. -/
theorem emits_runInitiatorSession (configured : Configured config record object) :
    Routine.Emits (InitiatorReason config record) (fun _ _ _ => True)
      (runInitiatorSession : Method α κ (View α)) object [] := by
  refine Routine.Emits.perform (fun a => trivial) fun (random : UInt32) => Routine.Emits.modify ?_
  have configured' : Configured config record (cleared object) :=
    ⟨configured.config, configured.peerRecord⟩
  exact emits_cleaned initiatorReason_quiet (emits_initiatorSession configured' rfl _)

end Methods

end Puav.ProposedUavProtocol
