import PostQuantumUav.Library.Bytes.Within
import PostQuantumUav.Puav.MessageFields
import PostQuantumUav.Puav.ProtocolRoutines
import PostQuantumUav.Puav.ResultRecord
import PostQuantumUav.Puav.Trace.Methods

/-!
# Traces of the responder

What a trace of `runResponderOnce` shows at the points where others depend on it: the
reservation of an index follows the acceptance of a signature over this session's own
challenge, the signed object names a ciphertext of this session, and every message that is
sent consists of parts whose origin the trace shows.

Nothing is assumed of the answers: the trace may be one with any messages, any hash values
and any results of the verification.
-/

namespace Puav.ProposedUavProtocol

open Interaction Cell Buffer

variable {α κ : Type} [Cell α]

section Facts

/-- The responder answered M0 with an M1 of its own nonce, and hashed both. -/
structure Challenged (config : NodeConfig) (t : List (Step α κ)) (m0 : List.Vector α m0Bytes)
    (m1 : List.Vector α m1Bytes) (sid : Hash α) : Prop where
  valid : ValidM0 config m0 (block m0 66 nonceBytes nonceA_fits)
  received : ∀ x ∈ m0.toList, TakenIn t x
  drawn : ∃ nonceB, draws nonceB ∈ t ∧
    m1 = m1Message config (block m0 66 nonceBytes nonceA_fits) nonceB
  hashed : hashes (sid0Input m0 m1) sid ∈ t

/-- The responder hashed M2 and accepted its signature over the session. -/
structure Checked (config : NodeConfig) (record : PeerPublicRecord) (t : List (Step α κ))
    (sid : Hash α) (m2 : List α) (hashM2 : Hash α) : Prop where
  short : m2.length ≤ 65535
  hashed : hashes m2 hashM2 ∈ t
  verified : ∃ version q publicKey signature path,
    publicKey.toList = slice m2 42 mlkemPublicKeyBytes ∧
      verifies q (signedInput (muA sid config.idA config.idB version publicKey) q).toList
        signature record path ∈ t

/-- The responder encapsulated to the key in M2. -/
structure Encapsulated (t : List (Step α κ)) (m2 : List α) (ciphertext : KemCiphertext α)
    (sharedSecret : Hash α) : Prop where
  done : ∃ publicKey key, publicKey.toList = slice m2 42 mlkemPublicKeyBytes ∧
    imports publicKey key ∈ t ∧ encapsulates key ciphertext sharedSecret ∈ t

/-- All that the responder has done by the time it signs. -/
structure Answering (config : NodeConfig) (record : PeerPublicRecord) (t : List (Step α κ))
    (m0 : List.Vector α m0Bytes) (m1 : List.Vector α m1Bytes) (sid : Hash α) (m2 : List α)
    (hashM2 : Hash α) (ciphertext : KemCiphertext α) (sharedSecret : Hash α) : Prop where
  challenged : Challenged config t m0 m1 sid
  checked : Checked config record t sid m2 hashM2
  encapsulated : Encapsulated t m2 ciphertext sharedSecret

/-- The inner part of M3 with the signature and the path of the responder. -/
structure Composed (config : NodeConfig) (t : List (Step α κ)) (sid hashM2 : Hash α)
    (ciphertext : KemCiphertext α) (inner : List α) : Prop where
  short : inner.length ≤ 65535
  parts : ∃ version q signature path runtimeSeed,
    inner = m3Inner sid version q ciphertext signature path ∧
    signs q (signedInput (muB sid hashM2 config.idA config.idB version ciphertext) q).toList
      runtimeSeed signature ∈ t ∧ ∀ p, path = some p → attaches q p ∈ t

/-- The responder has the keys of the view. -/
def Keyed (config : NodeConfig) (record : PeerPublicRecord) (t : List (Step α κ)) (view : View α) :
    Prop :=
  ∃ hashM2 ciphertext sharedSecret,
    Answering config record t view.m0 view.m1 view.sid view.m2 hashM2 ciphertext sharedSecret ∧
      Composed config t view.sid hashM2 ciphertext view.inner ∧ Derived t sharedSecret view

/-- Where a message of the responder comes from. -/
inductive RespondsWith (config : NodeConfig) (t : List (Step α κ)) : List α → Prop where
  | m1 {m0 : List.Vector α m0Bytes} {m1 : List.Vector α m1Bytes} {sid : Hash α}
      (challenged : Challenged config t m0 m1 sid) : RespondsWith config t m1.toList
  | m3 {view : View α} {tauB : Hash α} (derived : notes .keysDerived view ∈ t)
      (tagged : tags view.confirmB.toList (hashInput domainBConfirm view.transcriptHash) tauB ∈ t) :
      RespondsWith config t (m3Message view.sid view.inner tauB)
  | result {data : List α} (bytes : Within (fun x => ∃ b, x = ofByte b) data) :
      RespondsWith config t data

/-- The reasons of a responder's events. -/
def ResponderReason (config : NodeConfig) (record : PeerPublicRecord) (t : List (Step α κ)) :
    Step α κ → Prop
  | ⟨.putUInt _, _⟩ => ∃ m0 m1 sid m2 hashM2, Challenged config t m0 m1 sid ∧
      Checked config record t sid m2 hashM2
  | ⟨.sign q message _, _⟩ => ∃ m0 m1 sid m2 hashM2 ciphertext sharedSecret version,
      message = (signedInput (muB sid hashM2 config.idA config.idB version ciphertext) q).toList ∧
        Answering config record t m0 m1 sid m2 hashM2 ciphertext sharedSecret
  | ⟨.sendMessage _ _ _ data, _⟩ => RespondsWith config t data
  | ⟨.note .keysDerived view, _⟩ => Keyed config record t view
  | ⟨.note .tauBVerified _, _⟩ => False
  | ⟨.note .accepted view, _⟩ => notes .keysDerived view ∈ t ∧ ∃ tauA,
      tags view.confirmA.toList (hashInput domainAConfirm view.transcriptHash) tauA ∈ t ∧
        ∀ x ∈ tauA.toList, TakenIn t x
  | _ => True

theorem responderReason_quiet {config : NodeConfig} {record : PeerPublicRecord}
    (t : List (Step α κ)) (c : Call α κ) (a : (calls α κ).Answer c) (h : c.Quiet) :
    ResponderReason config record t ⟨c, a⟩ := by
  cases c <;> first | exact h.elim | exact trivial

section Mono

variable {config : NodeConfig} {record : PeerPublicRecord} {t t' : List (Step α κ)}
  (more : t <+: t') {m0 : List.Vector α m0Bytes} {m1 : List.Vector α m1Bytes}
  {sid hashM2 sharedSecret : Hash α} {m2 : List α} {ciphertext : KemCiphertext α}

include more

theorem Challenged.mono (h : Challenged config t m0 m1 sid) : Challenged config t' m0 m1 sid := by
  obtain ⟨nonceB, drawn, m1⟩ := h.drawn
  exact ⟨h.valid, fun x mem => (h.received x mem).mono more, ⟨nonceB, more.subset drawn, m1⟩,
    more.subset h.hashed⟩

theorem Checked.mono (h : Checked config record t sid m2 hashM2) :
    Checked config record t' sid m2 hashM2 := by
  obtain ⟨version, q, publicKey, signature, path, field, verified⟩ := h.verified
  exact ⟨h.short, more.subset h.hashed, version, q, publicKey, signature, path, field,
    more.subset verified⟩

omit [Cell α] in
theorem Encapsulated.mono (h : Encapsulated t m2 ciphertext sharedSecret) :
    Encapsulated t' m2 ciphertext sharedSecret := by
  obtain ⟨publicKey, key, field, imported, encapsulated⟩ := h.done
  exact ⟨publicKey, key, field, more.subset imported, more.subset encapsulated⟩

theorem Answering.mono (h : Answering config record t m0 m1 sid m2 hashM2 ciphertext sharedSecret) :
    Answering config record t' m0 m1 sid m2 hashM2 ciphertext sharedSecret :=
  ⟨h.challenged.mono more, h.checked.mono more, h.encapsulated.mono more⟩

theorem Composed.mono {inner : List α} (h : Composed config t sid hashM2 ciphertext inner) :
    Composed config t' sid hashM2 ciphertext inner := by
  obtain ⟨version, q, signature, path, runtimeSeed, parts, signed, attached⟩ := h.parts
  exact ⟨h.short, version, q, signature, path, runtimeSeed, parts, more.subset signed,
    fun p is => more.subset (attached p is)⟩

theorem Keyed.mono {view : View α} (h : Keyed config record t view) :
    Keyed config record t' view := by
  obtain ⟨hashM2, ciphertext, sharedSecret, answering, composed, derived⟩ := h
  exact ⟨hashM2, ciphertext, sharedSecret, answering.mono more, composed.mono more,
    derived.mono more⟩

end Mono

end Facts

variable {config : NodeConfig} {record : PeerPublicRecord} {object : ProposedUavProtocol α κ}
  {t : List (Step α κ)}

section Methods

variable [DecidableEq α]

omit [DecidableEq α] in
/-- M0 is received into the empty buffer. -/
theorem emits_receiveM0 (empty : object.m0 = .replicate _ (ofByte 0)) :
    Routine.Emits (ResponderReason config record) (fun _ object' t' => ∃ m0,
      Kept { object with m0 := m0 } object' ∧ ∀ x ∈ m0.toList, TakenIn t' x)
      (receiveProtocolMessage msgM0Req 0 m0Bytes m0Bytes storeM0 true) object t := by
  refine (emits_receiveProtocolMessage responderReason_quiet).mono ?_
  rintro packet object' t' _ ⟨cells, kept, received, -⟩
  refine ⟨overwrite object.m0 cells, kept, fun x mem => ?_⟩
  rcases mem_memcpy mem with old | new
  · rw [empty] at old
    exact .inl (List.eq_of_mem_replicate old)
  · exact .inr ⟨_, _, _, _, _, cells, received, new⟩

/-- M1 is the challenge of the session. -/
theorem emits_sendM1 (configured : Configured config record object)
    (received : ∀ x ∈ object.m0.toList, TakenIn t x) (session : UInt32)
    (destination : Transport.Endpoint) :
    Routine.Emits (ResponderReason config record) (fun sid object' t' => ∃ m1,
      Kept { object with m1 := m1 } object' ∧ Challenged config t' object.m0 m1 sid)
      (sendM1 session destination : Method α κ _) object t := by
  obtain ⟨rfl, rfl⟩ := configured
  refine Routine.Emits.get (Routine.Emits.guard fun valid => ?_)
  have drawn : Routine.Emits (ResponderReason object.config object.peerRecord)
      (fun _ object' t' => ∃ nonceB, object' = { object with
        m1 := m1Message object.config (block object.m0 66 nonceBytes nonceA_fits) nonceB } ∧
          draws nonceB ∈ t')
      (buildM1 (block object.m0 66 nonceBytes nonceA_fits) : Method α κ Unit) object t := by
    refine Routine.Emits.perform (fun a => trivial) fun (nonceB : Nonce α) => ?_
    exact Routine.emits_modify ⟨nonceB, rfl, List.mem_append_right _ List.mem_cons_self⟩
  apply drawn.bind
  rintro _ _ t₁ more₁ ⟨nonceB, rfl, drawn⟩
  refine (emits_computeSid0 responderReason_quiet).bind ?_
  rintro sid object₂ t₂ more₂ ⟨kept₂, hashed⟩
  have challenged : Challenged object.config t₂ object.m0
      (m1Message object.config (block object.m0 66 nonceBytes nonceA_fits) nonceB) sid :=
    ⟨valid, fun x mem => (received x mem).mono (more₁.trans more₂),
      ⟨nonceB, more₂.subset drawn, rfl⟩, hashed⟩
  apply Routine.Emits.get
  refine (emits_sendProtocolMessage fun a => ?_).bind fun _ object₃ t₃ more₃ kept₃ => ?_
  · change RespondsWith object.config t₂ object₂.m1.toList
    rw [kept₂.m1]
    exact .m1 challenged
  · exact Routine.emits_pure ⟨_, kept₂.trans kept₃, challenged.mono more₃⟩

omit [Cell α] [DecidableEq α] in
/-- What both modes have in M2. -/
theorem slice_sentM2 (object : ProposedUavProtocol α κ) :
    slice object.sentM2 42 mlkemPublicKeyBytes =
      (block object.m2 42 mlkemPublicKeyBytes).toList := by
  apply slice_slice
  cases object.config.pathMode <;> decide

omit [Cell α] [DecidableEq α] in
theorem length_sentM2 (object : ProposedUavProtocol α κ) : object.sentM2.length ≤ 65535 := by
  refine Nat.le_trans (List.length_take_le _ _) ?_
  cases object.config.pathMode <;> decide

/-- A session goes on only with a signature over its own SID0. -/
theorem emits_receiveM2 (configured : Configured config record object) (session : UInt32)
    (sid : Hash α) :
    Routine.Emits (ResponderReason config record) (fun opened object' t' => ∃ m2,
      Kept { object with m2 := m2 } object' ∧
        Checked config record t' sid object'.sentM2 opened.2)
      (receiveM2 session sid : Method α κ _) object t := by
  apply Routine.Emits.get
  refine (emits_receiveProtocolMessage responderReason_quiet).bind ?_
  rintro packet object₁ t₁ _ ⟨cells, kept₁, -, -⟩
  refine Routine.Emits.get (Routine.Emits.guard fun _ => Routine.Emits.guard fun _ => ?_)
  refine (emits_validatePeerRecord responderReason_quiet _).bind fun _ object₂ t₂ _ kept₂ => ?_
  refine (emits_timedSha responderReason_quiet _).bind ?_
  rintro hashM2 object₃ t₃ _ ⟨kept₃, hashed⟩
  refine (emits_obtainPeerPath responderReason_quiet _ _ _).bind
    fun path object₄ t₄ more₄ kept₄ => ?_
  refine (emits_buildM2SignedInput _ _ _ _).bind ?_
  rintro _ object₅ t₅ more₅ ⟨kept₅, built⟩
  refine (emits_timedVerify responderReason_quiet _ _ _).bind ?_
  rintro _ object₆ t₆ more₆ ⟨kept₆, verified⟩
  have kept : Kept object₁ object₆ :=
    kept₂.trans (kept₃.trans (kept₄.trans (kept₅.trans kept₆)))
  have before : Kept object₁ object₄ := kept₂.trans (kept₃.trans kept₄)
  have sent : object₆.sentM2 = object₁.sentM2 := by
    rw [sentM2, sentM2, kept.m2, kept.config]
  have same : object₁.config = config := (kept₁.config.trans rfl).trans configured.config
  have peer : object₁.peerRecord = record :=
    (kept₁.peerRecord.trans rfl).trans configured.peerRecord
  refine Routine.emits_pure ⟨_, kept₁.trans kept, ?_⟩
  rw [built, before.config, same, kept₅.peerRecord, before.peerRecord, peer] at verified
  rw [sent]
  exact ⟨length_sentM2 _, (more₄.trans (more₅.trans more₆)).subset hashed, _, _, _, _, _,
    (slice_sentM2 object₁).symm, verified⟩

omit [DecidableEq α] in
/-- The index, the signature and the tag of M3, and the keys behind them. -/
theorem emits_sendM3 (configured : Configured config record object)
    {sid hashM2 sharedSecret : Hash α}
    {ciphertext : KemCiphertext α} (answering : Answering config record t object.m0 object.m1 sid
      object.sentM2 hashM2 ciphertext sharedSecret)
    (session : UInt32) (destination : Transport.Endpoint) :
    Routine.Emits (ResponderReason config record) (fun sent object' t' =>
      object'.m4 = object.m4 ∧ notes .keysDerived sent.2 ∈ t')
      (sendM3 session destination sid hashM2 ciphertext sharedSecret : Method α κ _) object t := by
  obtain ⟨rfl, rfl⟩ := configured
  apply Routine.Emits.get
  refine (emits_reserveQ responderReason_quiet fun t' value a more => ⟨_, _, _, _, _,
    answering.challenged.mono more, answering.checked.mono more⟩).bind ?_
  rintro qB object t₁ more₁ rfl
  refine (emits_timedRuntimeSeed responderReason_quiet).bind fun seed object₂ t₂ more₂ kept₂ => ?_
  refine (emits_buildM3SignedInput _ _ _ _ _).bind ?_
  rintro _ object₃ t₃ more₃ ⟨kept₃, built⟩
  rw [kept₂.config] at built
  have until₃ := more₁.trans (more₂.trans more₃)
  refine (emits_timedSign responderReason_quiet fun t' a more => ?_).bind ?_
  · exact ⟨_, _, _, _, _, _, _, _, congrArg List.Vector.toList built,
      answering.mono (until₃.trans more)⟩
  rintro signature object₄ t₄ more₄ ⟨kept₄, signed⟩
  refine (emits_attachPath responderReason_quiet qB).bind ?_
  rintro path object₅ t₅ more₅ ⟨kept₅, carries, attached⟩
  refine (emits_deriveView responderReason_quiet _ _ _).bind ?_
  rintro view object₆ t₆ more₆ ⟨kept₆, derived, ofSid, ofM0, ofM1, ofM2, ofInner⟩
  have kept : Kept object object₅ := kept₂.trans (kept₃.trans (kept₄.trans kept₅))
  have until₆ := until₃.trans (more₄.trans (more₅.trans more₆))
  rw [kept₄.config, kept₃.config, kept₂.config] at carries
  have sized := length_m3Inner carries sid object.config.credentialVersion qB ciphertext signature
  have composed : Composed object.config t₆ view.sid hashM2 ciphertext view.inner := by
    refine ⟨?_, object.config.credentialVersion, qB, signature, path, seed, ?_, ?_, ?_⟩
    · rw [ofInner, sized]
      cases object.config.pathMode <;> decide
    · rw [ofInner, ofSid]
    · rw [ofSid, ← built]
      exact (more₅.trans more₆).subset signed
    · exact fun p is => more₆.subset (attached p is)
  have keyed : Keyed object.config object.peerRecord t₆ view := by
    refine ⟨hashM2, ciphertext, sharedSecret, ?_, composed, derived⟩
    rw [ofM0, ofM1, ofM2, ofSid, sentM2, kept.m0, kept.m1, kept.m2, kept.config]
    exact answering.mono until₆
  refine Routine.Emits.perform (fun a => keyed) fun _ => ?_
  refine (emits_computeConfirmationTag responderReason_quiet _ _ _).bind ?_
  rintro tauB object₇ t₇ more₇ ⟨kept₇, tagged⟩
  have noted : notes .keysDerived view ∈ t₇ :=
    more₇.subset (List.mem_append_right _ List.mem_cons_self)
  refine Routine.Emits.modify (Routine.Emits.get ?_)
  have same : object₇.config = object.config := (kept.trans (kept₆.trans kept₇)).config
  refine (emits_sendProtocolMessage fun a => ?_).bind fun _ object₈ t₈ more₈ kept₈ => ?_
  · change RespondsWith object.config t₇ (slice (overwrite object₇.m3 (m3Message sid _ tauB)).toList
      0 (m3BytesForMode object₇.config.pathMode))
    rw [same, slice_overwrite_front (length_m3Message sized sid tauB)
      (by cases object.config.pathMode <;> decide), ← ofInner, ← ofSid]
    exact .m3 noted tagged
  · have kept₇ := kept.trans (kept₆.trans kept₇)
    exact Routine.emits_pure ⟨kept₈.m4.trans kept₇.m4, more₈.subset noted⟩

/-- The tag that the responder compares came in with M4. -/
theorem emits_receiveM4 (empty : object.m4 = .replicate _ (ofByte 0)) (session : UInt32)
    (view : View α) :
    Routine.Emits (ResponderReason config record) (fun _ _ t' => ∃ tauA,
      tags view.confirmA.toList (hashInput domainAConfirm view.transcriptHash) tauA ∈ t' ∧
        ∀ x ∈ tauA.toList, TakenIn t' x)
      (receiveM4 session view : Method α κ Unit) object t := by
  refine (emits_receiveProtocolMessage responderReason_quiet).bind ?_
  rintro packet object₁ t₁ _ ⟨cells, kept₁, received, -⟩
  refine Routine.Emits.get (Routine.Emits.guard fun _ => ?_)
  refine (emits_computeConfirmationTag responderReason_quiet _ _ _).bind ?_
  rintro tauA object₂ t₂ more₂ ⟨kept₂, tagged⟩
  refine Routine.emits_guard fun same => ⟨tauA, tagged, fun x mem => ?_⟩
  rw [same, toList_block, kept₁.m4] at mem
  rcases mem_memcpy (mem_of_mem_slice mem) with old | new
  · rw [empty] at old
    exact .inl (List.eq_of_mem_replicate old)
  · exact .inr ⟨_, _, _, _, _, cells, more₂.subset received, new⟩

omit [DecidableEq α] in
/-- RESULT has nothing but bytes. -/
theorem emits_sendResult (session : UInt32) (destination : Transport.Endpoint) (qA qB : UInt32) :
    Routine.Emits (ResponderReason config record) (fun _ _ _ => True)
      (sendResult session destination qA qB : Method α κ Unit) object t := by
  refine Routine.Emits.perform (fun a => trivial) fun (freeHeap : UInt32) => ?_
  refine Routine.Emits.perform (fun a => trivial) fun (minFreeHeap : UInt32) => ?_
  refine Routine.Emits.modify (Routine.Emits.get ?_)
  refine (emits_sendProtocolMessage fun a => ?_).attempt.bind fun _ _ _ _ _ =>
    Routine.emits_pure trivial
  change RespondsWith config _ (slice (overwrite object.result
    (resultRecord qA qB object.metrics freeHeap minFreeHeap)).toList 0 resultBytes)
  rw [slice_resultRecord]
  exact .result (within_resultRecord (fun b => ⟨b, rfl⟩) _ _ _ _ _)

/-- The whole session. -/
theorem emits_responderSession (configured : Configured config record object)
    (received : ∀ x ∈ object.m0.toList, TakenIn t x)
    (empty : object.m4 = .replicate _ (ofByte 0)) (packet : Transport.Received) :
    Routine.Emits (ResponderReason config record) (fun _ _ _ => True)
      (responderSession packet : Method α κ (View α)) object t := by
  refine Routine.Emits.perform (fun a => trivial) fun (start : UInt64) => ?_
  refine (emits_sendM1 configured (fun x mem => (received x mem).mono (List.prefix_append _ _))
    _ _).bind ?_
  rintro sid object₁ t₁ _ ⟨m1, kept₁, challenged⟩
  have configured₁ : Configured config record object₁ :=
    ⟨kept₁.config.trans configured.config, kept₁.peerRecord.trans configured.peerRecord⟩
  refine (emits_receiveM2 configured₁ _ sid).bind ?_
  rintro ⟨qA, hashM2⟩ object₂ t₂ more₂ ⟨m2, kept₂, checked⟩
  refine (emits_initializeKem responderReason_quiet).bind ?_
  rintro _ object₃ t₃ more₃ ⟨kemKey, kept₃⟩
  refine Routine.Emits.get ((emits_timedEncapsulate responderReason_quiet _).bind ?_)
  rintro ⟨ciphertext, sharedSecret⟩ object₄ t₄ more₄ ⟨key, kept₄, imported, encapsulated⟩
  have same : object₄.config = object₂.config := kept₄.config.trans kept₃.config
  have configured₄ : Configured config record object₄ := by
    refine ⟨same.trans (kept₂.config.trans configured₁.config), kept₄.peerRecord.trans ?_⟩
    exact kept₃.peerRecord.trans (kept₂.peerRecord.trans configured₁.peerRecord)
  have m2 : object₄.m2 = object₂.m2 := kept₄.m2.trans kept₃.m2
  have ofM0 : object₄.m0 = object.m0 :=
    kept₄.m0.trans (kept₃.m0.trans (kept₂.m0.trans kept₁.m0))
  have ofM1 : object₄.m1 = m1 := kept₄.m1.trans (kept₃.m1.trans (kept₂.m1.trans kept₁.m1))
  have ofM4 : object₄.m4 = object.m4 :=
    kept₄.m4.trans (kept₃.m4.trans (kept₂.m4.trans kept₁.m4))
  have sent : object₄.sentM2 = object₂.sentM2 := by
    rw [sentM2, sentM2, m2, same]
  have answering : Answering config record t₄ object₄.m0 object₄.m1 sid object₄.sentM2 hashM2
      ciphertext sharedSecret := by
    rw [ofM0, ofM1, sent]
    refine ⟨challenged.mono (more₂.trans (more₃.trans more₄)),
      checked.mono (more₃.trans more₄), _, key, ?_, imported, encapsulated⟩
    rw [slice_sentM2, toList_block, toList_block, kept₃.m2]
  refine (emits_sendM3 configured₄ answering _ _).bind ?_
  rintro ⟨qB, view⟩ object₅ t₅ more₅ ⟨kept₅, noted⟩
  refine (emits_receiveM4 (kept₅.trans (ofM4.trans empty)) _ view).bind ?_
  rintro _ object₆ t₆ more₆ ⟨tauA, tagged, received⟩
  refine Routine.Emits.perform (fun a => trivial) fun (now : UInt64) => Routine.Emits.modify ?_
  refine Routine.Emits.perform (fun a => ⟨List.mem_append_left _ (more₆.subset noted), tauA,
    List.mem_append_left _ tagged, fun x mem => (received x mem).mono (List.prefix_append _ _)⟩)
    fun _ => ?_
  exact (emits_sendResult _ _ _ _).bind fun _ _ _ _ _ => Routine.emits_pure trivial

/-- Every event of `runResponderOnce` has its reason, from whatever object it starts. -/
theorem emits_runResponderOnce (configured : Configured config record object) :
    Routine.Emits (ResponderReason config record) (fun _ _ _ => True)
      (runResponderOnce : Method α κ (View α)) object [] := by
  apply Routine.Emits.modify
  refine (emits_receiveM0 rfl).bind ?_
  rintro packet object₁ t₁ _ ⟨m0, kept₁, received⟩
  refine emits_cleaned responderReason_quiet (emits_responderSession
    ⟨kept₁.config.trans configured.config, kept₁.peerRecord.trans configured.peerRecord⟩ ?_
    kept₁.m4 packet)
  rw [kept₁.m0]
  exact received

end Methods

end Puav.ProposedUavProtocol
