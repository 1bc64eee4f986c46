import PostQuantumUav.Puav.Honest.Devices

/-!
# The values of a handshake

What two devices that are configured for each other send in a session, as functions of
their values: the five messages, the objects that they sign, and the view that both sides
reach. One object, signature and path belong to each direction.

The initiator's methods and the responder's methods compute these values, in the order of
the session.
-/

namespace Puav

open Interaction Cell Buffer ProposedUavProtocol

variable {α κ : Type} [Cell α]

/-- What a session depends on, with the signatures and paths that its devices produce. -/
structure Handshake (α κ : Type) where
  primitives : Primitives α κ
  initiator : HonestDevice α κ
  responder : HonestDevice α κ
  signatureA : SignatureCells α
  signatureB : SignatureCells α
  pathA : PathCells α
  pathB : PathCells α

namespace Handshake

variable (h : Handshake α κ)

abbrev mode : PathDeliveryMode := h.initiator.config.pathMode

/-- The number that the initiator draws for the session. -/
def session : UInt32 := h.initiator.random ||| 1

def m0 : List.Vector α m0Bytes := m0Message h.initiator.config h.initiator.nonce

def m1 : List.Vector α m1Bytes :=
  m1Message h.responder.config h.initiator.nonce h.responder.nonce

def sid : Hash α := h.primitives.sha (sid0Input h.m0 h.m1)

def publicKey : KemPublicKey α := h.primitives.encode h.initiator.key

def muA : List.Vector α muABytes :=
  Puav.muA h.sid h.initiator.config.deviceId h.responder.config.deviceId
    h.initiator.config.credentialVersion h.publicKey

/-- The object that the initiator signs. -/
def objectA : List.Vector α lmotsSignedObjectBytes := signedInput h.muA h.initiator.nextQ

def m2 : List α :=
  m2Message h.sid h.initiator.config.credentialVersion h.initiator.nextQ h.publicKey h.signatureA
    (attached h.mode h.pathA)

def hashM2 : Hash α := h.primitives.sha h.m2

def ciphertext : KemCiphertext α :=
  (h.primitives.encapsulate (h.primitives.decode h.publicKey)).1

def sharedSecret : Hash α := (h.primitives.encapsulate (h.primitives.decode h.publicKey)).2

def muB : List.Vector α muABytes :=
  Puav.muB h.sid h.hashM2 h.initiator.config.deviceId h.responder.config.deviceId
    h.responder.config.credentialVersion h.ciphertext

/-- The object that the responder signs. -/
def objectB : List.Vector α lmotsSignedObjectBytes := signedInput h.muB h.responder.nextQ

def inner : List α :=
  m3Inner h.sid h.responder.config.credentialVersion h.responder.nextQ h.ciphertext h.signatureB
    (attached h.mode h.pathB)

/-- What both sides hold at the end. -/
def view : View α := h.primitives.view h.m0 h.m1 h.m2 h.inner h.sid h.sharedSecret

def tauB : Hash α := h.primitives.tag domainBConfirm h.view.confirmB h.view.transcriptHash

def m3 : List α := m3Message h.sid h.inner h.tauB

def tauA : Hash α := h.primitives.tag domainAConfirm h.view.confirmA h.view.transcriptHash

def m4 : List.Vector α m4Bytes := m4Message h.sid h.tauA

/-- Two devices with mirrored configurations, of which each holds the other's record. -/
structure Honest : Prop where
  initiates : h.initiator.config.role = .initiator
  responds : h.responder.config.role = .responder
  modes : h.responder.config.pathMode = h.mode
  initiatorPeer : h.initiator.config.peerId = h.responder.config.deviceId
  responderPeer : h.responder.config.peerId = h.initiator.config.deviceId
  trustedA : Trusted h.primitives h.initiator h.responder h.objectA.toList h.signatureA h.pathA
  trustedB : Trusted h.primitives h.responder h.initiator h.objectB.toList h.signatureB h.pathB
  inverts : h.primitives.decapsulate h.initiator.key h.ciphertext = h.sharedSecret

variable {h}

section Lengths

omit [Cell α] in
theorem lt_of_unused {signer : HonestDevice α κ} {first last : Prop}
    (unused : ¬ (first ∨ last ∨ signer.nextQ ≥ .ofNat lmsLeaves)) :
    signer.nextQ < .ofNat lmsLeaves :=
  UInt32.not_le.mp fun leaf => unused (.inr (.inr leaf))

theorem length_m2 : h.m2.length = m2BytesForMode h.mode :=
  length_m2Message (carries_attached _ _) _ _ _ _ _

theorem length_inner : h.inner.length = m3InnerBytesForMode h.mode :=
  length_m3Inner (carries_attached _ _) _ _ _ _ _

theorem short_inner : h.inner.length ≤ 65535 := by
  rw [length_inner]
  cases h.mode <;> decide

theorem length_m3 : h.m3.length = m3BytesForMode h.mode := length_m3Message length_inner _ _

theorem m2BytesForMode_le (mode : PathDeliveryMode) : m2BytesForMode mode ≤ m2MaxBytes := by
  cases mode <;> decide

theorem m3BytesForMode_le (mode : PathDeliveryMode) : m3BytesForMode mode ≤ m3MaxBytes := by
  cases mode <;> decide

omit [Cell α] in
/-- A message of a fixed length. -/
theorem sendable_fixed {n : Nat} (type : UInt8) (session : UInt32) (data : List.Vector α n)
    (nonempty : 1 ≤ n) (short : n ≤ maxProtocolMessageBytes) :
    Message.Sendable ⟨type, session, data.toList⟩ := by
  constructor
  all_goals
    rw [List.Vector.toList_length]
    assumption

theorem sendable_m2 (session : UInt32) : Message.Sendable ⟨msgM2Init, session, h.m2⟩ := by
  constructor
  all_goals
    rw [length_m2]
    cases h.mode <;> decide

theorem sendable_m3 (session : UInt32) : Message.Sendable ⟨msgM3RespFin, session, h.m3⟩ := by
  constructor
  all_goals
    rw [length_m3]
    cases h.mode <;> decide

omit [Cell α] in
theorem sendable_result {record : List α} (sized : record.length = resultBytes)
    (session : UInt32) : Message.Sendable ⟨msgResult, session, record⟩ := by
  constructor
  all_goals
    rw [sized]
    decide

/-- The buffer of M2 holds what is sent. -/
theorem sentM2_overwrite {object : ProposedUavProtocol α κ} {buffer : List.Vector α m2MaxBytes}
    (held : object.m2 = overwrite buffer h.m2) (mode : object.config.pathMode = h.mode) :
    object.sentM2 = h.m2 := by
  rw [sentM2, held, mode]
  exact slice_overwrite_front length_m2 (m2BytesForMode_le _)

end Lengths

section Buffers

/-- M2 as the responder reads it. -/
structure ReadM2 (h : Handshake α κ) (m2 : List.Vector α m2MaxBytes) : Prop where
  header : readByte m2.toList 0 = protocolVersion ∧ readByte m2.toList 1 = msgM2Init ∧
    block m2 2 hashBytes = h.sid
  version : getU32 (slice m2.toList 34 4) = h.initiator.config.credentialVersion
  q : getU32 (slice m2.toList 38 4) = h.initiator.nextQ
  publicKey : block m2 42 mlkemPublicKeyBytes = h.publicKey
  signature : block m2 842 lmotsSignatureBytes = h.signatureA
  path : h.mode = .signerCarried → block m2 m2BaseBytes lmsPathBytes = h.pathA

omit [Cell α] in
theorem attached_of_carried {mode : PathDeliveryMode} (carried : mode = .signerCarried)
    (path : PathCells α) : attached mode path = some path := by
  rw [carried, attached]

theorem readM2 (buffer : List.Vector α m2MaxBytes) : ReadM2 h (overwrite buffer h.m2) := by
  have read := signedAt_m2 (carries_attached h.mode h.pathA) buffer h.sid
    h.initiator.config.credentialVersion h.initiator.nextQ h.publicKey h.signatureA
  refine ⟨⟨read.protocol, read.type, ?_⟩, read.version, read.q, ?_, ?_, fun carried => ?_⟩
  · exact List.Vector.toList_injective read.sid
  · exact List.Vector.toList_injective read.key
  · exact List.Vector.toList_injective read.signature
  · exact List.Vector.toList_injective (read.path _ (attached_of_carried carried _))

/-- M3 as the initiator reads it. -/
structure ReadM3 (h : Handshake α κ) (m3 : List.Vector α m3MaxBytes) : Prop where
  header : readByte m3.toList 0 = protocolVersion ∧ readByte m3.toList 1 = msgM3RespFin ∧
    block m3 2 hashBytes = h.sid ∧
    (getU16 (slice m3.toList 34 2)).toNat = m3InnerBytesForMode h.mode
  inner : readByte m3.toList 36 = protocolVersion ∧ readByte m3.toList 37 = msgM3Inner ∧
    block m3 38 hashBytes = h.sid
  version : getU32 (slice m3.toList 70 4) = h.responder.config.credentialVersion
  q : getU32 (slice m3.toList 74 4) = h.responder.nextQ
  ciphertext : block m3 78 mlkemCiphertextBytes = h.ciphertext
  signature : block m3 846 lmotsSignatureBytes = h.signatureB
  path : h.mode = .signerCarried → block m3 (36 + m3InnerBaseBytes) lmsPathBytes = h.pathB
  whole : slice m3.toList 36 (m3InnerBytesForMode h.mode) = h.inner
  tauB : slice m3.toList (36 + m3InnerBytesForMode h.mode) hmacBytes = h.tauB.toList

theorem readM3 (buffer : List.Vector α m3MaxBytes) : ReadM3 h (overwrite buffer h.m3) := by
  have read := signedAt_m3 (carries_attached h.mode h.pathB) buffer h.sid h.tauB
    h.responder.config.credentialVersion h.responder.nextQ h.ciphertext h.signatureB
  obtain ⟨protocol, type, sid, length, whole, tauB⟩ :=
    fields_m3 (@length_inner _ _ _ h) buffer h.sid h.tauB rfl
  refine ⟨⟨protocol, type, ?_, length⟩, ⟨read.protocol, read.type, ?_⟩, read.version, read.q, ?_,
    ?_, fun carried => ?_, whole, tauB⟩
  · exact List.Vector.toList_injective sid
  · exact List.Vector.toList_injective read.sid
  · exact List.Vector.toList_injective read.key
  · exact List.Vector.toList_injective read.signature
  · exact List.Vector.toList_injective (read.path _ (attached_of_carried carried _))

end Buffers

namespace Honest

variable {delivery : Delivery α} {object object' : ProposedUavProtocol α κ} {party party' : Party α}
  (honest : h.Honest)

open Party

section Initiator

include honest

theorem idA_initiator : h.initiator.config.idA = h.initiator.config.deviceId :=
  if_pos honest.initiates

theorem idB_initiator : h.initiator.config.idB = h.responder.config.deviceId :=
  (if_pos honest.initiates).trans honest.initiatorPeer

theorem responds_ne : h.responder.config.role ≠ .initiator := by
  rw [honest.responds]
  decide

theorem idA_responder : h.responder.config.idA = h.initiator.config.deviceId :=
  (if_neg honest.responds_ne).trans honest.responderPeer

theorem idB_responder : h.responder.config.idB = h.responder.config.deviceId :=
  if_neg honest.responds_ne

end Initiator

omit honest in
theorem yields_computeSid0 {device : HonestDevice α κ} (held0 : object.m0 = h.m0)
    (held1 : object.m1 = h.m1) : Yields h.primitives device delivery computeSid0 object party h.sid
      object party := by
  apply Routine.Computes.get
  rintro _ ⟨metrics, rfl, -⟩
  rw [sid, ← held0, ← held1]
  exact yields_timedSha _

section Objects

variable {device : HonestDevice α κ} (idA : object.config.idA = h.initiator.config.deviceId)
  (idB : object.config.idB = h.responder.config.deviceId)

include idA idB

omit honest in
theorem yields_buildM2SignedInput {version : UInt32}
    (current : version = h.initiator.config.credentialVersion) : Yields h.primitives device delivery
      (buildM2SignedInput h.sid version h.initiator.nextQ h.publicKey) object party .unit
      { object with mu := h.muA, signInput := h.objectA } party := by
  subst current
  apply Routine.computes_modify
  rintro _ ⟨metrics, rfl, same⟩
  simp only [idA, idB]
  exact ⟨metrics, rfl, same⟩

omit honest in
theorem yields_buildM3SignedInput {version : UInt32}
    (current : version = h.responder.config.credentialVersion) : Yields h.primitives device delivery
      (buildM3SignedInput h.sid h.hashM2 version h.responder.nextQ h.ciphertext) object party .unit
      { object with mu := h.muB, signInput := h.objectB } party := by
  subst current
  apply Routine.computes_modify
  rintro _ ⟨metrics, rfl, same⟩
  simp only [idA, idB]
  exact ⟨metrics, rfl, same⟩

end Objects

section Initiator

variable (config : object.config = h.initiator.config)

include config

theorem yields_buildM0 : Yields h.primitives h.initiator delivery buildM0 object party
    h.initiator.nonce { object with m0 := h.m0 } party := by
  refine Routine.Computes.perform fun x v step => ?_
  cases step with
  | fillNonce =>
      refine (Routine.computes_modify ?_).bind (Routine.computes_pure _)
      rintro _ ⟨metrics, rfl, same⟩
      rw [m0, ← config]
      exact ⟨_, rfl, same⟩
  | starts other => cases other

omit config in
theorem yields_sendM0 (held : object.m0 = h.m0) (session : UInt32) :
    Yields h.primitives h.initiator delivery (sendM0 session) object party .unit
      (countSent object m0Bytes) (party.does (.sent ⟨msgM0Req, session, h.m0.toList⟩)) := by
  apply Routine.Computes.get
  rintro _ ⟨metrics, rfl, -⟩
  have sent := @yields_sendProtocolMessage _ _ h.primitives h.initiator delivery object party
    object.config.responder msgM0Req session object.m0.toList
    (sendable_fixed _ _ _ (by decide) (by decide))
  rw [held, h.m0.toList_length, ← held] at sent
  rw [← held]
  exact sent

variable [DecidableEq α]

include honest

theorem reaches_receiveM1 {session : UInt32}
    (delivered : delivery party = some ⟨msgM1Chal, session, h.m1.toList⟩) :
    Routine.Reaches (Answered h.primitives h.initiator delivery) Measured
      (receiveM1 session h.initiator.nonce) object party (fun _ => True)
      (countReceived { object with m1 := h.m1 } m1Bytes)
      (party.does (.received ⟨msgM1Chal, session, h.m1.toList⟩)) := by
  have length := h.m1.toList_length
  have valid : ValidM1 object.config h.m1 h.initiator.nonce := by
    rw [config]
    exact validM1 honest.initiatorPeer honest.responderPeer honest.modes.symm _ _
  have counting : countReceived (storeM1 h.m1.toList object) h.m1.toList.length =
      countReceived { object with m1 := h.m1 } m1Bytes := by
    rw [storeM1, overwrite_toList, length]
  intro start like
  refine Routine.Reaches.ensures (reaches_receiveProtocolMessage delivered
    (sendable_fixed _ _ h.m1 (by decide) (by decide)) (by decide) (.inr rfl)
    (Nat.le_of_eq length) (.inr length) (fun _ => rfl) (if_pos rfl)) like fun packet _ => ?_
  rw [counting]
  apply Routine.Reaches.get
  rintro _ ⟨metrics, rfl, -⟩
  exact (Routine.computes_guard valid).bindReaches ((Routine.computes_pure packet).reaches trivial)

omit config [DecidableEq α] [Cell α] honest in
theorem yields_timedMakeKey : Yields h.primitives h.initiator delivery timedMakeKey object party
    h.publicKey { object with kemKey := some h.initiator.key } party := by
  refine yields_timed (fun _ _ => ⟨rfl, rfl⟩) ?_
  refine Routine.Computes.bind (t := party) (a := h.initiator.key)
    (Routine.Computes.orFail (Routine.computes_perform fun x v step => ?_)) ?_
  · cases step with
    | kemMakeKey => exact ⟨rfl, rfl⟩
    | starts other => cases other
  refine (Routine.computes_modify ?_).bind
    (Routine.Computes.orFail (Routine.computes_perform fun x v step => ?_))
  · rintro _ ⟨metrics, rfl, same⟩
    exact ⟨_, rfl, same⟩
  · cases step with
    | kemEncodePublicKey key => exact ⟨rfl, rfl⟩
    | starts other => cases other

omit [DecidableEq α] in
/-- M2 under the next index of the initiator. -/
theorem yields_sendM2 (session : UInt32) (destination : Transport.Endpoint) :
    Yields h.primitives h.initiator delivery (sendM2 session destination h.sid h.publicKey) object
      party h.hashM2 (countSent { object with
        mu := h.muA
        signInput := h.objectA
        m2 := overwrite object.m2 h.m2 } (m2BytesForMode h.mode))
      ((party.does (.signed h.objectA.toList)).does (.sent ⟨msgM2Init, session, h.m2⟩)) := by
  have trusted := honest.trustedA
  apply Routine.Computes.get
  rintro _ ⟨metrics, rfl, -⟩
  refine (yields_reserveQ config trusted.unused rfl).bind ?_
  refine (yields_timedRuntimeSeed config).bind ?_
  have idA : object.config.idA = _ := (congrArg _ config).trans honest.idA_initiator
  have idB : object.config.idB = _ := (congrArg _ config).trans honest.idB_initiator
  refine (yields_buildM2SignedInput idA idB (congrArg _ config)).bind ?_
  have configured : ProposedUavProtocol.config { object with
    mu := h.muA
    signInput := h.objectA } = h.initiator.config := config
  refine (yields_timedSign trusted.signed).bind ?_
  refine (yields_attachPath trusted.extracted configured).bind ?_
  refine (@Routine.computes_modify _ _ _ _ _ _ { object with
    mu := h.muA
    signInput := h.objectA
    m2 := overwrite object.m2 h.m2 } _ _ ?_).bind ?_
  · rintro _ ⟨metrics', rfl, same⟩
    simp only [config]
    exact ⟨metrics', rfl, same⟩
  apply Routine.Computes.get
  rintro _ ⟨metrics', rfl, -⟩
  have stored : sentM2 { object with
      mu := h.muA
      signInput := h.objectA
      m2 := overwrite object.m2 h.m2
      metrics := metrics' } = h.m2 := sentM2_overwrite rfl (congrArg _ config)
  simp only [stored]
  have sent := @yields_sendProtocolMessage _ _ h.primitives h.initiator delivery { object with
    mu := h.muA
    signInput := h.objectA
    m2 := overwrite object.m2 h.m2 } (party.does (.signed h.objectA.toList)) destination msgM2Init
    session h.m2 (sendable_m2 session)
  rw [length_m2] at sent
  exact (yields_timedSha _).bind (sent.bind (Routine.computes_pure _))

/-- The initiator accepts M3 up to the signature. -/
theorem reaches_receiveM3 {session : UInt32}
    (peerRecord : object.peerRecord = h.initiator.peerRecord)
    (delivered : delivery party = some ⟨msgM3RespFin, session, h.m3⟩) :
    Routine.Reaches (Answered h.primitives h.initiator delivery) Measured
      (receiveM3 session h.sid h.hashM2) object party (fun _ => True) (countReceived { object with
        mu := h.muB
        signInput := h.objectB
        m3 := overwrite object.m3 h.m3 } (m3BytesForMode h.mode))
      ((party.does (.received ⟨msgM3RespFin, session, h.m3⟩)).does
        (.verified h.objectB.toList h.initiator.peerRecord.root)) := by
  have trusted := honest.trustedB
  have length := @length_m3 _ _ _ h
  have mode : object.config.pathMode = h.mode := congrArg _ config
  have read := @readM3 _ _ _ h object.m3
  have header := read.header
  rw [← mode] at header
  have configured : (countReceived (storeM3 h.m3 object) h.m3.length).config =
    h.initiator.config := config
  have recorded : (countReceived (storeM3 h.m3 object) h.m3.length).peerRecord =
    h.initiator.peerRecord := peerRecord
  have idA : (countReceived (storeM3 h.m3 object) h.m3.length).config.idA = _ :=
    (congrArg _ config).trans honest.idA_initiator
  have idB : (countReceived (storeM3 h.m3 object) h.m3.length).config.idB = _ :=
    (congrArg _ config).trans honest.idB_initiator
  apply Routine.Reaches.get
  rintro _ ⟨metrics, rfl, -⟩ start like
  refine Routine.Reaches.ensures (reaches_receiveProtocolMessage delivered (sendable_m3 session)
    (by decide) (.inr rfl) ?_ ?_ (fun _ => rfl) (if_pos rfl)) like fun packet _ => ?_
  · rw [length]
    exact m3BytesForMode_le _
  · exact .inr (mode ▸ length)
  apply Routine.Reaches.get
  rintro _ ⟨metrics', rfl, -⟩
  refine (Routine.computes_guard header).bindReaches ?_
  refine (Routine.computes_guard read.inner).bindReaches ?_
  simp only [countReceived, storeM3, read.version, read.q, read.ciphertext, read.signature]
  refine (Routine.computes_guard (lt_of_unused trusted.unused)).bindReaches ?_
  refine (yields_validatePeerRecord configured recorded ⟨trusted.ready, trusted.version,
    trusted.expected, trusted.suite, trusted.active⟩).bindReaches ?_
  refine (yields_obtainPeerPath configured read.path trusted.fetched).bindReaches ?_
  refine (yields_buildM3SignedInput idA idB rfl).bindReaches ?_
  have verified := trusted.verified
  rw [← peerRecord] at verified ⊢
  rw [← length]
  exact (yields_timedVerify verified).bindReaches ((Routine.computes_pure packet).reaches trivial)

omit config [DecidableEq α] in
theorem yields_timedDecapsulate (key : object.kemKey = some h.initiator.key) :
    Yields h.primitives h.initiator delivery (timedDecapsulate h.ciphertext) object party
      h.sharedSecret object party := by
  apply Routine.Computes.get
  rintro _ ⟨metrics, rfl, -⟩
  simp only [key]
  refine yields_timed (fun _ _ => ⟨rfl, rfl⟩) ?_
  refine (Routine.computes_pure (some h.initiator.key)).orFail.bind
    (Routine.Computes.orFail (Routine.computes_perform fun x v step => ?_))
  cases step with
  | kemDecapsulate key ciphertext => exact ⟨congrArg some honest.inverts, rfl⟩
  | starts other => cases other

/-- The initiator reaches the view and accepts tau_B. -/
theorem yields_confirmB (key : object.kemKey = some h.initiator.key) (held0 : object.m0 = h.m0)
    (held1 : object.m1 = h.m1) (held2 : object.sentM2 = h.m2) (read : ReadM3 h object.m3) :
    Yields h.primitives h.initiator delivery (confirmB h.sid) object party h.view object
      (party.does (.noted .tauBVerified h.view)) := by
  have mode : object.config.pathMode = h.mode := congrArg _ config
  have whole : object.innerM3 = h.inner := by
    rw [innerM3, mode]
    exact read.whole
  have same : h.primitives.view object.m0 object.m1 object.sentM2 object.innerM3 h.sid
      h.sharedSecret = h.view := by
    rw [held0, held1, held2, whole, view]
  have tauB : h.tauB.toList =
      slice object.m3.toList (36 + m3InnerBytesForMode object.config.pathMode) hmacBytes := by
    rw [mode]
    exact read.tauB.symm
  apply Routine.Computes.get
  rintro _ ⟨metrics, rfl, -⟩
  simp only [read.ciphertext]
  refine (honest.yields_timedDecapsulate key).bind ?_
  have derived := @yields_deriveView _ _ h.primitives h.initiator delivery object party _ h.sid
    h.sharedSecret object.innerM3 (whole ▸ short_inner)
  rw [same] at derived
  refine derived.bind ((yields_computeConfirmationTag _ _ _).bind ?_)
  refine (Routine.computes_guard tauB).bind ?_
  exact (yields_note _ _).bind (Routine.computes_pure _)

omit config [DecidableEq α] honest in
theorem yields_sendM4 (session : UInt32) (destination : Transport.Endpoint) :
    Yields h.primitives h.initiator delivery (sendM4 session destination h.view) object party .unit
      (countSent { object with m4 := h.m4 } m4Bytes)
      (party.does (.sent ⟨msgM4InitFin, session, h.m4.toList⟩)) := by
  refine (yields_computeConfirmationTag _ _ _).bind ?_
  refine (@Routine.computes_modify _ _ _ _ _ _ { object with m4 := h.m4 } _ _ ?_).bind ?_
  · rintro _ ⟨metrics, rfl, same⟩
    exact ⟨metrics, rfl, same⟩
  apply Routine.Computes.get
  rintro _ ⟨metrics, rfl, -⟩
  have sent := @yields_sendProtocolMessage _ _ h.primitives h.initiator delivery
    { object with m4 := h.m4 } party destination msgM4InitFin session h.m4.toList
    (sendable_fixed _ _ _ (by decide) (by decide))
  rw [h.m4.toList_length] at sent
  exact sent

omit config honest [DecidableEq α] in
/-- Any record that reports success ends the session. -/
theorem yields_receiveResult {session : UInt32} {record : List α}
    (sized : record.length = resultBytes) (reports : readByte record 0 = resultOk)
    (delivered : delivery party = some ⟨msgResult, session, record⟩) :
    Yields h.primitives h.initiator delivery (receiveResult session : Method α κ Unit) object party
      ()
      { object with result := overwrite object.result record }
      (party.does (.received ⟨msgResult, session, record⟩)) := by
  have fits : record.length ≤ 128 := by
    rw [sized]
    decide
  have reads : readByte (overwrite object.result record).toList 0 = resultOk := by
    rw [toList_overwrite_front fits, readByte, List.getD_append _ _ _ _ (by rw [sized]; decide)]
    exact reports
  refine (reaches_receiveProtocolMessage delivered (sendable_result sized session) (by decide)
    (.inr rfl) fits (.inr sized) (fun _ => rfl) (if_neg Bool.false_ne_true)).bind fun packet _ => ?_
  refine yields_espTimer fun now => ?_
  refine (@Routine.computes_modify _ _ _ _ _ _
    { object with result := overwrite object.result record } _ _ ?_).bind ?_
  · rintro _ ⟨metrics, rfl, same⟩
    exact ⟨_, rfl, same⟩
  apply Routine.Computes.get
  rintro _ ⟨metrics, rfl, -⟩
  exact Routine.computes_guard reads

end Initiator

section Responder

variable [DecidableEq α] (config : object.config = h.responder.config)

include config

omit honest [DecidableEq α] in
theorem yields_buildM1 : Yields h.primitives h.responder delivery (buildM1 h.initiator.nonce) object
    party .unit { object with m1 := h.m1 } party := by
  refine Routine.Computes.perform fun x v step => ?_
  cases step with
  | fillNonce =>
      apply Routine.computes_modify
      rintro _ ⟨metrics, rfl, same⟩
      rw [m1, ← config]
      exact ⟨_, rfl, same⟩
  | starts other => cases other

include honest

theorem yields_sendM1 (held : object.m0 = h.m0) (session : UInt32)
    (destination : Transport.Endpoint) : Yields h.primitives h.responder delivery
      (sendM1 session destination) object party h.sid (countSent { object with m1 := h.m1 } m1Bytes)
      (party.does (.sent ⟨msgM1Chal, session, h.m1.toList⟩)) := by
  have nonceA : block object.m0 66 nonceBytes nonceA_fits = h.initiator.nonce := by
    rw [held]
    exact block_nonceA _ _
  have valid : ValidM0 object.config object.m0 h.initiator.nonce := by
    rw [config, held]
    exact validM0 honest.responderPeer honest.initiatorPeer honest.modes _
  apply Routine.Computes.get
  rintro _ ⟨metrics, rfl, -⟩
  simp only [nonceA]
  refine (Routine.computes_guard valid).bind ?_
  refine (yields_buildM1 config).bind ?_
  refine Routine.Computes.bind (yields_computeSid0 held rfl) (Routine.Computes.get ?_)
  rintro _ ⟨metrics', rfl, -⟩
  have sent := @yields_sendProtocolMessage _ _ h.primitives h.responder delivery
    { object with m1 := h.m1 } party destination msgM1Chal session h.m1.toList
    (sendable_fixed _ _ _ (by decide) (by decide))
  rw [h.m1.toList_length] at sent
  exact sent.bind (Routine.computes_pure _)

/-- The responder accepts M2 up to the signature. -/
theorem yields_receiveM2 {session : UInt32}
    (peerRecord : object.peerRecord = h.responder.peerRecord)
    (delivered : delivery party = some ⟨msgM2Init, session, h.m2⟩) :
    Yields h.primitives h.responder delivery (receiveM2 session h.sid) object party
      (h.initiator.nextQ, h.hashM2) (countReceived { object with
        mu := h.muA
        signInput := h.objectA
        m2 := overwrite object.m2 h.m2 } (m2BytesForMode h.mode))
      ((party.does (.received ⟨msgM2Init, session, h.m2⟩)).does
        (.verified h.objectA.toList h.responder.peerRecord.root)) := by
  have trusted := honest.trustedA
  have length := @length_m2 _ _ _ h
  have mode : object.config.pathMode = h.mode := (congrArg _ config).trans honest.modes
  have read := @readM2 _ _ _ h object.m2
  have carried : h.responder.config.pathMode = .signerCarried →
      block (overwrite object.m2 h.m2) m2BaseBytes lmsPathBytes = h.pathA :=
    fun carries => read.path (honest.modes.symm.trans carries)
  apply Routine.Computes.get
  rintro _ ⟨metrics, rfl, -⟩
  refine (reaches_receiveProtocolMessage delivered (sendable_m2 session) (by decide) (.inr rfl)
    ?_ ?_ (fun _ => rfl) (if_pos rfl)).bind fun packet _ => ?_
  · rw [length]
    exact m2BytesForMode_le _
  · exact .inr (mode ▸ length)
  apply Routine.Computes.get
  rintro _ ⟨metrics, rfl, -⟩
  have configured : (countReceived (storeM2 h.m2 object) h.m2.length).config =
    h.responder.config := config
  have recorded : (countReceived (storeM2 h.m2 object) h.m2.length).peerRecord =
    h.responder.peerRecord := peerRecord
  have idA : (countReceived (storeM2 h.m2 object) h.m2.length).config.idA = _ :=
    (congrArg _ config).trans honest.idA_responder
  have idB : (countReceived (storeM2 h.m2 object) h.m2.length).config.idB = _ :=
    (congrArg _ config).trans honest.idB_responder
  have stored : ∀ metrics, sentM2 { object with
      m2 := overwrite object.m2 h.m2
      metrics := metrics } = h.m2 := fun _ => sentM2_overwrite rfl mode
  refine (Routine.computes_guard read.header).bind ?_
  simp only [countReceived, storeM2, read.version, read.q, read.publicKey, read.signature, stored]
  refine (Routine.computes_guard (lt_of_unused trusted.unused)).bind ?_
  refine (yields_validatePeerRecord configured recorded ⟨trusted.ready, trusted.version,
    trusted.expected, trusted.suite, trusted.active⟩).bind ?_
  refine (yields_timedSha _).bind ?_
  refine (yields_obtainPeerPath configured carried trusted.fetched).bind ?_
  refine (yields_buildM2SignedInput idA idB rfl).bind ?_
  have verified := trusted.verified
  rw [← peerRecord] at verified ⊢
  rw [← length]
  exact (yields_timedVerify verified).bind (Routine.computes_pure _)

omit [Cell α] [DecidableEq α] config honest in
theorem yields_timedEncapsulate : Yields h.primitives h.responder delivery
    (timedEncapsulate h.publicKey) object party (h.ciphertext, h.sharedSecret)
      { object with kemKey := some (h.primitives.decode h.publicKey) } party := by
  refine yields_timed (fun _ _ => ⟨rfl, rfl⟩) ?_
  refine Routine.Computes.bind (t := party) (a := h.primitives.decode h.publicKey)
    (Routine.Computes.orFail (Routine.computes_perform fun x v step => ?_)) ?_
  · cases step with
    | kemDecodePublicKey publicKey => exact ⟨rfl, rfl⟩
    | starts other => cases other
  refine (Routine.computes_modify ?_).bind
    (Routine.Computes.orFail (Routine.computes_perform fun x v step => ?_))
  · rintro _ ⟨metrics, rfl, same⟩
    exact ⟨_, rfl, same⟩
  · cases step with
    | kemEncapsulate key => exact ⟨rfl, rfl⟩
    | starts other => cases other

omit [DecidableEq α] in
/-- M3 under the next index of the responder. -/
theorem yields_sendM3 (held0 : object.m0 = h.m0) (held1 : object.m1 = h.m1)
    (held2 : object.sentM2 = h.m2) (session : UInt32) (destination : Transport.Endpoint) :
    Yields h.primitives h.responder delivery
      (sendM3 session destination h.sid h.hashM2 h.ciphertext h.sharedSecret) object party
      (h.responder.nextQ, h.view) (countSent { object with
        mu := h.muB
        signInput := h.objectB
        m3 := overwrite object.m3 h.m3 } (m3BytesForMode h.mode))
      (((party.does (.signed h.objectB.toList)).does (.noted .keysDerived h.view)).does
        (.sent ⟨msgM3RespFin, session, h.m3⟩)) := by
  have trusted := honest.trustedB
  have idA : object.config.idA = _ := (congrArg _ config).trans honest.idA_responder
  have idB : object.config.idB = _ := (congrArg _ config).trans honest.idB_responder
  have mode : object.config.pathMode = h.mode := (congrArg _ config).trans honest.modes
  have configured : ProposedUavProtocol.config { object with
    mu := h.muB
    signInput := h.objectB } = h.responder.config := config
  have carried : m3Inner h.sid object.config.credentialVersion h.responder.nextQ h.ciphertext
      h.signatureB (attached h.responder.config.pathMode h.pathB) = h.inner := by
    rw [inner, config, honest.modes]
  have same : h.primitives.view object.m0 object.m1 object.sentM2 h.inner h.sid h.sharedSecret =
      h.view := by
    rw [held0, held1, held2, view]
  apply Routine.Computes.get
  rintro _ ⟨metrics, rfl, -⟩
  refine (yields_reserveQ config trusted.unused rfl).bind ?_
  refine (yields_timedRuntimeSeed config).bind ?_
  refine (yields_buildM3SignedInput idA idB (congrArg _ config)).bind ?_
  refine (yields_timedSign trusted.signed).bind ?_
  refine (yields_attachPath trusted.extracted configured).bind ?_
  simp only [carried]
  have derived := @yields_deriveView _ _ h.primitives h.responder delivery { object with
    mu := h.muB
    signInput := h.objectB } (party.does (.signed h.objectB.toList)) _ h.sid h.sharedSecret h.inner
    short_inner
  refine (same ▸ derived).bind ((yields_note _ _).bind ?_)
  refine (yields_computeConfirmationTag _ _ _).bind ?_
  refine (@Routine.computes_modify _ _ _ _ _ _ { object with
    mu := h.muB
    signInput := h.objectB
    m3 := overwrite object.m3 h.m3 } _ _ ?_).bind ?_
  · rintro _ ⟨metrics', rfl, same⟩
    exact ⟨metrics', rfl, same⟩
  apply Routine.Computes.get
  rintro _ ⟨metrics', rfl, -⟩
  have stored : slice (overwrite object.m3 h.m3).toList 0 (m3BytesForMode object.config.pathMode) =
      h.m3 := by
    rw [mode]
    exact slice_overwrite_front length_m3 (m3BytesForMode_le _)
  simp only [stored]
  have sent := @yields_sendProtocolMessage _ _ h.primitives h.responder delivery { object with
    mu := h.muB
    signInput := h.objectB
    m3 := overwrite object.m3 h.m3 } ((party.does (.signed h.objectB.toList)).does
      (.noted .keysDerived h.view)) destination msgM3RespFin session h.m3 (sendable_m3 session)
  rw [length_m3] at sent
  exact sent.bind (Routine.computes_pure _)

omit config honest in
/-- The responder accepts tau_A. -/
theorem yields_receiveM4 {session : UInt32}
    (delivered : delivery party = some ⟨msgM4InitFin, session, h.m4.toList⟩) :
    Yields h.primitives h.responder delivery (receiveM4 session h.view) object party ()
      (countReceived { object with m4 := h.m4 } m4Bytes)
      (party.does (.received ⟨msgM4InitFin, session, h.m4.toList⟩)) := by
  have length := h.m4.toList_length
  obtain ⟨protocol, type, sid, tauA⟩ := fields_m4 h.sid h.tauA
  have stored : storeM4 h.m4.toList object = { object with m4 := h.m4 } := by
    rw [storeM4, overwrite_toList]
  have header : readByte h.m4.toList 0 = protocolVersion ∧
      readByte h.m4.toList 1 = msgM4InitFin ∧ block h.m4 2 hashBytes = h.view.sid :=
    ⟨protocol, type, sid⟩
  refine (reaches_receiveProtocolMessage delivered
    (sendable_fixed _ _ h.m4 (by decide) (by decide)) (by decide) (.inr rfl)
    (Nat.le_of_eq length) (.inr length) (fun _ => rfl) (if_pos rfl)).bind fun packet _ => ?_
  rw [stored, length]
  apply Routine.Computes.get
  rintro _ ⟨metrics, rfl, -⟩
  refine (Routine.computes_guard header).bind ((yields_computeConfirmationTag _ _ _).bind ?_)
  exact Routine.computes_guard tauA.symm

end Responder

end Honest

end Handshake

end Puav
