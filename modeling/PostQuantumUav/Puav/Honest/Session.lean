import PostQuantumUav.Puav.Honest.Handshake
import PostQuantumUav.Puav.ResultRecord

/-!
# A session of two honest devices

What each side has done when it waits for a message of the other, and that the delivery of
that message takes it to the next of these points. Every pair of runs in which each side
receives what the other sends ends on both sides with the same view, and there is one.

Only the order of the messages of one side matters: each side waits for one message at a
time, so the other side's steps may come in any order between its own.
-/

namespace Puav

open Interaction Cell Buffer ProposedUavProtocol Party

variable {α κ : Type} [Cell α]

namespace Handshake

variable (h : Handshake α κ)

section Deeds

/-- The initiator waits for M1. -/
def requests : List (Deed α) := [.sent ⟨msgM0Req, h.session, h.m0.toList⟩]

/-- The initiator waits for M3. -/
def offers : List (Deed α) :=
  h.requests ++ [.received ⟨msgM1Chal, h.session, h.m1.toList⟩, .signed h.objectA.toList,
    .sent ⟨msgM2Init, h.session, h.m2⟩]

/-- The initiator waits for the responder's measurements. -/
def confirms : List (Deed α) :=
  h.offers ++ [.received ⟨msgM3RespFin, h.session, h.m3⟩,
    .verified h.objectB.toList h.initiator.peerRecord.root,
    .noted .tauBVerified h.view, .sent ⟨msgM4InitFin, h.session, h.m4.toList⟩]

/-- The initiator has received the responder's measurements. -/
def finishes (record : List α) : List (Deed α) :=
  h.confirms ++ [.received ⟨msgResult, h.session, record⟩]

/-- The responder has received M0. -/
def opens : List (Deed α) := [.received ⟨msgM0Req, h.session, h.m0.toList⟩]

/-- The responder waits for M2. -/
def challenges : List (Deed α) := h.opens ++ [.sent ⟨msgM1Chal, h.session, h.m1.toList⟩]

/-- The responder waits for M4. -/
def answers : List (Deed α) :=
  h.challenges ++ [.received ⟨msgM2Init, h.session, h.m2⟩,
    .verified h.objectA.toList h.responder.peerRecord.root, .signed h.objectB.toList,
    .noted .keysDerived h.view, .sent ⟨msgM3RespFin, h.session, h.m3⟩]

/-- The responder has accepted and sent its measurements. -/
def accepts (record : List α) : List (Deed α) :=
  h.answers ++ [.received ⟨msgM4InitFin, h.session, h.m4.toList⟩, .noted .accepted h.view,
    .sent ⟨msgResult, h.session, record⟩]

end Deeds

/-- The initiator's object when it waits for M1. -/
structure Requesting (object : ProposedUavProtocol α κ) : Prop where
  config : object.config = h.initiator.config
  peerRecord : object.peerRecord = h.initiator.peerRecord
  m0 : object.m0 = h.m0
  sent : object.metrics.appTxBytes = .ofNat m0Bytes
  received : object.metrics.appRxBytes = 0

/-- The initiator's object when it waits for M3. -/
structure Offering (object : ProposedUavProtocol α κ) : Prop where
  config : object.config = h.initiator.config
  peerRecord : object.peerRecord = h.initiator.peerRecord
  key : object.kemKey = some h.initiator.key
  m0 : object.m0 = h.m0
  m1 : object.m1 = h.m1
  m2 : object.sentM2 = h.m2
  sent : object.metrics.appTxBytes = .ofNat (m0Bytes + m2BytesForMode h.mode)
  received : object.metrics.appRxBytes = .ofNat m1Bytes

/-- The initiator's object when it waits for the measurements. -/
structure Confirming (object : ProposedUavProtocol α κ) : Prop where
  sent : object.metrics.appTxBytes = .ofNat (m0Bytes + m2BytesForMode h.mode + m4Bytes)
  received : object.metrics.appRxBytes = .ofNat (m1Bytes + m3BytesForMode h.mode)

/-- The responder's object when it waits for M2. -/
structure Challenging (object : ProposedUavProtocol α κ) : Prop where
  config : object.config = h.responder.config
  peerRecord : object.peerRecord = h.responder.peerRecord
  m0 : object.m0 = h.m0
  m1 : object.m1 = h.m1
  sent : object.metrics.appTxBytes = .ofNat m1Bytes
  received : object.metrics.appRxBytes = .ofNat m0Bytes

/-- The responder's object when it waits for M4. -/
structure Answering (object : ProposedUavProtocol α κ) : Prop where
  sent : object.metrics.appTxBytes = .ofNat (m1Bytes + m3BytesForMode h.mode)
  received : object.metrics.appRxBytes = .ofNat (m0Bytes + m2BytesForMode h.mode)

/-- A record of the responder's measurements with the indices of the session. -/
structure Reported (record : List α) : Prop where
  sized : record.length = resultBytes
  ok : readByte record 0 = resultOk
  qA : (readResult record).resultQa = h.initiator.nextQ
  qB : (readResult record).resultQb = h.responder.nextQ
  sent : (readResult record).appTx = .ofNat (m1Bytes + m3BytesForMode h.mode)
  received : (readResult record).appRx = .ofNat (m0Bytes + m2BytesForMode h.mode + m4Bytes)

variable {h} in
/-- What the responder writes when it has counted the five messages. -/
theorem reported {metrics : LocalMetrics} (freeHeap minFreeHeap : UInt32)
    (sent : metrics.appTxBytes = .ofNat (m1Bytes + m3BytesForMode h.mode))
    (received : metrics.appRxBytes = .ofNat (m0Bytes + m2BytesForMode h.mode + m4Bytes)) :
    Reported h (resultRecord h.initiator.nextQ h.responder.nextQ metrics freeHeap minFreeHeap) := by
  have read := @readResult_resultRecord α _ h.initiator.nextQ h.responder.nextQ metrics freeHeap
    minFreeHeap
  refine ⟨length_resultRecord _ _ _ _ _, ?_, ?_, ?_, ?_, ?_⟩
  · rw [resultRecord_fields]
    exact toByte_ofByte _
  all_goals rw [read]
  · rfl
  · rfl
  · exact sent
  · exact received

theorem publicKey_fits : 42 + mlkemPublicKeyBytes ≤ m2MaxBytes := by decide

section Rest

variable [DecidableEq α] (session : UInt32) (protocolStart : UInt64)

/-- `initiatorSession` behind M4. -/
def afterM4 (view : View α) : Method α κ (View α) := do
  let now ← espTimer
  modify fun protocol => { protocol with metrics := { protocol.metrics with
    protocolUs := now - protocolStart } }
  receiveResult session
  pure view

/-- `initiatorSession` behind M2. -/
def afterM2 (sid hashM2 : Hash α) : Method α κ (View α) := do
  let packet ← receiveM3 session sid hashM2
  let view ← confirmB sid
  sendM4 session packet.source view
  afterM4 session protocolStart view

/-- `initiatorSession` behind M0. -/
def afterM0 (nonceA : Nonce α) : Method α κ (View α) := do
  let packet ← receiveM1 session nonceA
  let sid ← computeSid0
  initializeKem
  let publicKey ← timedMakeKey
  let hashM2 ← sendM2 session packet.source sid publicKey
  afterM2 session protocolStart sid hashM2

/-- `responderSession` behind M3. -/
def afterM3 (packet : Transport.Received) (qA qB : UInt32) (view : View α) :
    Method α κ (View α) := do
  receiveM4 packet.session view
  let now ← espTimer
  modify fun protocol => { protocol with metrics := finalizeMetrics { protocol.metrics with
    protocolUs := now - protocolStart } }
  note .accepted view
  sendResult packet.session packet.source qA qB
  pure view

/-- `responderSession` behind M1. -/
def afterM1 (packet : Transport.Received) (sid : Hash α) : Method α κ (View α) := do
  let (qA, hashM2) ← receiveM2 packet.session sid
  initializeKem
  let protocol ← get
  let (ciphertext, sharedSecret) ←
    timedEncapsulate (block protocol.m2 42 mlkemPublicKeyBytes publicKey_fits)
  let (qB, view) ← sendM3 packet.session packet.source sid hashM2 ciphertext sharedSecret
  afterM3 protocolStart packet qA qB view

end Rest

variable {h} {delivery : Delivery α} {object : ProposedUavProtocol α κ} (honest : h.Honest)
  [DecidableEq α]

namespace Honest

section Initiator

variable {post : Option (View α) → ProposedUavProtocol α κ → Party α → Prop} {start : UInt64}

/-- The initiator sends M0. -/
theorem initiator_requests (config : object.config = h.initiator.config)
    (peerRecord : object.peerRecord = h.initiator.peerRecord)
    (next : ∀ start middle, Requesting h middle → Routine.Ensures
      (Answered h.primitives h.initiator delivery) (fun _ => True) post
      (afterM0 h.session start h.initiator.nonce) middle h.requests) :
    Routine.Ensures (Answered h.primitives h.initiator delivery) (fun _ => True) post
      (initiatorSession h.session) (cleared object) [] := by
  have configured : (cleared object).config = h.initiator.config := config
  refine (yields_buildM0 configured).ensures (measured_self _) fun middle like => ?_
  refine Routine.Ensures.perform fun start party step => ⟨trivial, ?_⟩
  cases step with
  | espTimer =>
      refine (yields_sendM0 rfl h.session).ensures like ?_
      rintro _ ⟨metrics, rfl, sent, received⟩
      refine next start _ ⟨config, peerRecord, rfl, sent.trans ?_, received⟩
      exact UInt32.zero_add _
  | starts other => cases other

include honest

/-- The initiator accepts M1 and sends M2. -/
theorem initiator_offers (requesting : Requesting h object)
    (delivered : delivery h.requests = some ⟨msgM1Chal, h.session, h.m1.toList⟩)
    (next : ∀ middle, Offering h middle → Routine.Ensures
      (Answered h.primitives h.initiator delivery) (fun _ => True) post
      (afterM2 h.session start h.sid h.hashM2) middle h.offers) :
    Routine.Ensures (Answered h.primitives h.initiator delivery) (fun _ => True) post
      (afterM0 h.session start h.initiator.nonce) object h.requests := by
  have config := requesting.config
  refine (honest.reaches_receiveM1 config delivered).ensures (measured_self _)
    fun packet _ middle like => ?_
  refine (yields_computeSid0 ?_ ?_).ensures like fun middle like => ?_
  · exact requesting.m0
  · rfl
  obtain ⟨kemKey, initialized⟩ := @yields_initializeKem _ _ h.primitives h.initiator delivery
    (countReceived { object with m1 := h.m1 } m1Bytes)
  refine (initialized _).ensures like fun middle like => ?_
  refine yields_timedMakeKey.ensures like fun middle like => ?_
  refine (honest.yields_sendM2 ?_ h.session packet.source).ensures like ?_
  · exact config
  rintro _ ⟨metrics, rfl, sent, received⟩
  refine next _ ⟨config, requesting.peerRecord, rfl, requesting.m0, rfl, ?_, ?_, ?_⟩
  · exact sentM2_overwrite rfl (congrArg _ config)
  · apply sent.trans
    rw [UInt32.ofNat_add, ← requesting.sent]
    rfl
  · apply received.trans
    change object.metrics.appRxBytes + .ofNat m1Bytes = _
    rw [requesting.received, UInt32.zero_add]

/-- The initiator accepts M3 and sends M4. -/
theorem initiator_confirms (offering : Offering h object)
    (delivered : delivery h.offers = some ⟨msgM3RespFin, h.session, h.m3⟩)
    (next : ∀ middle, Confirming h middle → Routine.Ensures
      (Answered h.primitives h.initiator delivery) (fun _ => True) post
      (afterM4 h.session start h.view) middle h.confirms) :
    Routine.Ensures (Answered h.primitives h.initiator delivery) (fun _ => True) post
      (afterM2 h.session start h.sid h.hashM2) object h.offers := by
  have config := offering.config
  refine (honest.reaches_receiveM3 config offering.peerRecord delivered).ensures (measured_self _)
    fun packet _ middle like => ?_
  refine (honest.yields_confirmB ?_ ?_ ?_ ?_ ?_ (readM3 object.m3)).ensures like
    fun middle like => ?_
  · exact config
  · exact offering.key
  · exact offering.m0
  · exact offering.m1
  · exact offering.m2
  refine (yields_sendM4 h.session packet.source).ensures like ?_
  rintro _ ⟨metrics, rfl, sent, received⟩
  refine next _ ⟨?_, ?_⟩
  · apply sent.trans
    rw [UInt32.ofNat_add, ← offering.sent]
    rfl
  · apply received.trans
    rw [UInt32.ofNat_add, ← offering.received]
    rfl

omit honest [DecidableEq α] in
/-- The measurements end the session, with the counts that the configuration predicts. -/
theorem initiator_finishes {record : List α} (confirming : Confirming h object)
    (sized : record.length = resultBytes) (reports : readByte record 0 = resultOk)
    (delivered : delivery h.confirms = some ⟨msgResult, h.session, record⟩)
    (next : ∀ middle : ProposedUavProtocol α κ,
      middle.metrics.appTxBytes = .ofNat (m0Bytes + m2BytesForMode h.mode + m4Bytes) →
      middle.metrics.appRxBytes = .ofNat (m1Bytes + m3BytesForMode h.mode) →
      post (some h.view) middle (h.finishes record)) :
    Routine.Ensures (Answered h.primitives h.initiator delivery) (fun _ => True) post
      (afterM4 h.session start h.view) object h.confirms := by
  have finished : ∀ middle, Measured object middle → Routine.Ensures
      (Answered h.primitives h.initiator delivery) (fun _ => True) post
      (receiveResult h.session >>= fun _ => pure h.view) middle h.confirms := by
    intro middle like
    refine (yields_receiveResult sized reports delivered).ensures like ?_
    rintro _ ⟨metrics, rfl, sent, received⟩
    exact next _ (sent.trans confirming.sent) (received.trans confirming.received)
  refine Routine.Ensures.perform fun now party step => ⟨trivial, ?_⟩
  cases step with
  | espTimer =>
      refine Routine.ensures_bind.mpr (Routine.ensures_modify.mpr ?_)
      exact finished _ ⟨_, rfl, rfl, rfl⟩
  | starts other => cases other

end Initiator

section Responder

variable {post : Option (View α) → ProposedUavProtocol α κ → Party α → Prop} {start : UInt64}
  {packet : Transport.Received} (opened : packet.session = h.session)

include honest opened

/-- The responder answers M0. -/
theorem responder_challenges (config : object.config = h.responder.config)
    (peerRecord : object.peerRecord = h.responder.peerRecord) (m0 : object.m0 = h.m0)
    (sent : object.metrics.appTxBytes = 0) (received : object.metrics.appRxBytes = .ofNat m0Bytes)
    (next : ∀ start middle, Challenging h middle → Routine.Ensures
      (Answered h.primitives h.responder delivery) (fun _ => True) post
      (afterM1 start packet h.sid) middle h.challenges) :
    Routine.Ensures (Answered h.primitives h.responder delivery) (fun _ => True) post
      (responderSession packet) object h.opens := by
  obtain ⟨type, session, length, source, framedBytes⟩ := packet
  obtain rfl : session = h.session := opened
  refine Routine.Ensures.perform fun start party step => ⟨trivial, ?_⟩
  cases step with
  | espTimer =>
      refine (honest.yields_sendM1 config m0 h.session source).ensures (measured_self _) ?_
      rintro _ ⟨metrics, rfl, sent', received'⟩
      refine next start _ ⟨?_, ?_, ?_, ?_, ?_, ?_⟩
      · exact config
      · exact peerRecord
      · exact m0
      · rfl
      · apply sent'.trans
        change object.metrics.appTxBytes + .ofNat m1Bytes = _
        rw [sent, UInt32.zero_add]
      · exact received'.trans received
  | starts other => cases other

/-- The responder accepts M2 and sends M3. -/
theorem responder_answers (challenging : Challenging h object)
    (delivered : delivery h.challenges = some ⟨msgM2Init, h.session, h.m2⟩)
    (next : ∀ middle, Answering h middle → Routine.Ensures
      (Answered h.primitives h.responder delivery) (fun _ => True) post
      (afterM3 start packet h.initiator.nextQ h.responder.nextQ h.view) middle h.answers) :
    Routine.Ensures (Answered h.primitives h.responder delivery) (fun _ => True) post
      (afterM1 start packet h.sid) object h.challenges := by
  obtain ⟨type, session, length, source, framedBytes⟩ := packet
  obtain rfl : session = h.session := opened
  have config := challenging.config
  refine (honest.yields_receiveM2 config challenging.peerRecord delivered).ensures
    (measured_self _) fun middle like => ?_
  obtain ⟨kemKey, initialized⟩ := @yields_initializeKem _ _ h.primitives h.responder delivery
    (countReceived { object with
      mu := h.muA
      signInput := h.objectA
      m2 := overwrite object.m2 h.m2 } (m2BytesForMode h.mode))
  refine (initialized _).ensures like fun middle like => ?_
  refine Routine.ensures_bind.mpr (Routine.ensures_get.mpr ?_)
  have held : block middle.m2 42 mlkemPublicKeyBytes = h.publicKey := by
    obtain ⟨metrics, rfl, -⟩ := like
    exact (@readM2 _ _ _ h object.m2).publicKey
  simp only [held]
  refine yields_timedEncapsulate.ensures like fun middle like => ?_
  refine (honest.yields_sendM3 ?_ ?_ ?_ ?_ h.session source).ensures like ?_
  · exact config
  · exact challenging.m0
  · exact challenging.m1
  · exact sentM2_overwrite rfl ((congrArg _ config).trans honest.modes)
  rintro _ ⟨metrics, rfl, sent, received⟩
  refine next _ ⟨sent.trans ?_, received.trans ?_⟩
  · rw [UInt32.ofNat_add, ← challenging.sent]
    rfl
  · rw [UInt32.ofNat_add, ← challenging.received]
    rfl

omit honest opened [DecidableEq α] in
/-- The responder's measurements are sent as they are then. -/
theorem ensures_sendResult {party : Party α} {post : Option Unit → ProposedUavProtocol α κ →
      Party α → Prop} (destination : Transport.Endpoint) (qA qB : UInt32)
    (next : ∀ (middle : ProposedUavProtocol α κ) freeHeap minFreeHeap,
      middle.metrics.appTxBytes = object.metrics.appTxBytes →
      middle.metrics.appRxBytes = object.metrics.appRxBytes → post (some ()) middle (party.does
        (.sent ⟨msgResult, h.session, resultRecord qA qB object.metrics freeHeap minFreeHeap⟩))) :
    Routine.Ensures (Answered h.primitives h.responder delivery) (fun _ => True) post
      (sendResult h.session destination qA qB) object party := by
  refine Routine.Ensures.perform fun (freeHeap : UInt32) v step => ⟨trivial, ?_⟩
  obtain rfl : party = v := by
    cases step with
    | getFreeHeap bytes => rfl
    | starts other => cases other
  refine Routine.Ensures.perform fun (minFreeHeap : UInt32) v step => ⟨trivial, ?_⟩
  obtain rfl : party = v := by
    cases step with
    | getMinFreeHeap bytes => rfl
    | starts other => cases other
  refine Routine.ensures_bind.mpr (Routine.ensures_modify.mpr ?_)
  refine Routine.ensures_bind.mpr (Routine.ensures_get.mpr ?_)
  simp only [slice_resultRecord]
  have sized := @length_resultRecord α _ qA qB object.metrics freeHeap minFreeHeap
  refine (yields_sendUncounted destination (sendable_result sized _)).attempt.ensures
    (measured_self _) ?_
  rintro _ ⟨metrics, rfl, sent, received⟩
  exact next _ freeHeap minFreeHeap sent received

omit honest in
/-- The responder accepts M4 and reports its measurements. -/
theorem responder_finishes (answering : Answering h object)
    (delivered : delivery h.answers = some ⟨msgM4InitFin, h.session, h.m4.toList⟩)
    (next : ∀ (middle : ProposedUavProtocol α κ) record,
      middle.metrics.appTxBytes = .ofNat (m1Bytes + m3BytesForMode h.mode) →
      middle.metrics.appRxBytes = .ofNat (m0Bytes + m2BytesForMode h.mode + m4Bytes) →
      Reported h record → post (some h.view) middle (h.accepts record)) :
    Routine.Ensures (Answered h.primitives h.responder delivery) (fun _ => True) post
      (afterM3 start packet h.initiator.nextQ h.responder.nextQ h.view) object h.answers := by
  obtain ⟨type, session, length, source, framedBytes⟩ := packet
  obtain rfl : session = h.session := opened
  refine (yields_receiveM4 delivered).ensures (measured_self _) fun middle like => ?_
  refine Routine.Ensures.perform fun now party step => ⟨trivial, ?_⟩
  cases step with
  | espTimer =>
      refine Routine.ensures_bind.mpr (Routine.ensures_modify.mpr ?_)
      refine (yields_note .accepted h.view).ensures (measured_self _) ?_
      rintro _ ⟨metrics, rfl, sent, received⟩
      refine Routine.ensures_bind.mpr (ensures_sendResult source _ _ ?_)
      intro middle freeHeap minFreeHeap sent' received'
      obtain ⟨times, rfl, txs, rxs⟩ := like
      have tx := sent.trans (txs.trans answering.sent)
      have rx : metrics.appRxBytes = .ofNat (m0Bytes + m2BytesForMode h.mode + m4Bytes) := by
        refine received.trans (rxs.trans ?_)
        rw [UInt32.ofNat_add, ← answering.received]
        rfl
      exact next _ _ (sent'.trans tx) (received'.trans rx) (reported freeHeap minFreeHeap tx rx)
  | starts other => cases other

end Responder

section Sessions

variable (post : Option (View α) → UInt32 → UInt32 → Party α → Prop)

omit honest in
/-- What the part of the initiator's session that may jump to the cleanup ensures. -/
theorem ensures_runInitiatorSession {object : ProposedUavProtocol α κ} {party : Party α}
    (session : Routine.Ensures (Answered h.primitives h.initiator delivery) (fun _ => True)
      (fun result object' => post result object'.metrics.appTxBytes object'.metrics.appRxBytes)
      (initiatorSession h.session) (cleared object) party) :
    Routine.Ensures (Answered h.primitives h.initiator delivery) (fun _ => True)
      (fun result object' => post result object'.metrics.appTxBytes object'.metrics.appRxBytes)
      runInitiatorSession object party := by
  refine Routine.Ensures.perform fun random v step => ⟨trivial, ?_⟩
  cases step with
  | espRandom =>
      exact Routine.ensures_bind.mpr (Routine.ensures_modify.mpr (ensures_cleaned session))
  | starts other => cases other

omit honest in
/-- M0 opens the responder's session. -/
theorem ensures_runResponderOnce
    (delivered : delivery [] = some ⟨msgM0Req, h.session, h.m0.toList⟩)
    (session : ∀ packet object', packet.session = h.session →
      object'.config = object.config → object'.peerRecord = object.peerRecord →
      object'.m0 = h.m0 → object'.metrics.appTxBytes = 0 →
      object'.metrics.appRxBytes = .ofNat m0Bytes →
      Routine.Ensures (Answered h.primitives h.responder delivery) (fun _ => True)
        (fun result object' => post result object'.metrics.appTxBytes object'.metrics.appRxBytes)
        (responderSession packet) object' h.opens) :
    Routine.Ensures (Answered h.primitives h.responder delivery) (fun _ => True)
      (fun result object' => post result object'.metrics.appTxBytes object'.metrics.appRxBytes)
      runResponderOnce object [] := by
  have length := h.m0.toList_length
  refine Routine.ensures_bind.mpr (Routine.ensures_modify.mpr ?_)
  refine (reaches_receiveProtocolMessage delivered
    (sendable_fixed _ _ h.m0 (by decide) (by decide)) (by decide) (.inl rfl)
    (Nat.le_of_eq length) (.inr length) (fun _ => rfl) (if_pos rfl)).ensures (measured_self _)
    fun packet opened => ?_
  rintro _ ⟨metrics, rfl, sent, received⟩
  refine ensures_cleaned (session packet _ opened rfl rfl ?_ sent (received.trans ?_))
  · exact overwrite_toList _ _
  · rw [length]
    exact UInt32.zero_add _

section Initiator

variable (config : object.config = h.initiator.config)
  (peerRecord : object.peerRecord = h.initiator.peerRecord)

include config peerRecord

omit honest in
/-- Whatever is delivered, the initiator sends M0. -/
theorem initiator_sends_m0 :
    Routine.Ensures (Answered h.primitives h.initiator delivery) (fun _ => True)
      (fun _ _ party => h.requests <+: party) runInitiatorSession object [] :=
  ensures_runInitiatorSession (fun _ _ _ party => h.requests <+: party)
    (initiator_requests config peerRecord fun _ middle _ =>
      ensures_deeds _ middle (List.prefix_refl _))

variable (m1 : delivery h.requests = some ⟨msgM1Chal, h.session, h.m1.toList⟩)

include honest m1

/-- An initiator that is answered signs and sends M2. -/
theorem initiator_sends_m2 :
    Routine.Ensures (Answered h.primitives h.initiator delivery) (fun _ => True)
      (fun _ _ party => h.offers <+: party) runInitiatorSession object [] :=
  ensures_runInitiatorSession (fun _ _ _ party => h.offers <+: party)
    (initiator_requests config peerRecord fun _ _ requesting =>
      honest.initiator_offers requesting m1 fun middle _ =>
        ensures_deeds _ middle (List.prefix_refl _))

variable (m3 : delivery h.offers = some ⟨msgM3RespFin, h.session, h.m3⟩)

include m3

/-- An initiator that accepts M3 sends M4. -/
theorem initiator_sends_m4 :
    Routine.Ensures (Answered h.primitives h.initiator delivery) (fun _ => True)
      (fun _ _ party => h.confirms <+: party) runInitiatorSession object [] :=
  ensures_runInitiatorSession (fun _ _ _ party => h.confirms <+: party)
    (initiator_requests config peerRecord fun _ _ requesting =>
      honest.initiator_offers requesting m1 fun _ offering =>
        honest.initiator_confirms offering m3 fun middle _ =>
          ensures_deeds _ middle (List.prefix_refl _))

/-- The whole session of the initiator. -/
theorem initiator_session {record : List α} (reported : Reported h record)
    (result : delivery h.confirms = some ⟨msgResult, h.session, record⟩) :
    Routine.Ensures (Answered h.primitives h.initiator delivery) (fun _ => True)
      (fun result object' party => result = some h.view ∧ party = h.finishes record ∧
        object'.metrics.appTxBytes = .ofNat (m0Bytes + m2BytesForMode h.mode + m4Bytes) ∧
        object'.metrics.appRxBytes = .ofNat (m1Bytes + m3BytesForMode h.mode))
      runInitiatorSession object [] :=
  ensures_runInitiatorSession (fun result tx rx party => result = some h.view ∧
      party = h.finishes record ∧ tx = .ofNat (m0Bytes + m2BytesForMode h.mode + m4Bytes) ∧
      rx = .ofNat (m1Bytes + m3BytesForMode h.mode))
    (initiator_requests config peerRecord fun _ _ requesting =>
      honest.initiator_offers requesting m1 fun _ offering =>
        honest.initiator_confirms offering m3 fun _ confirming =>
          initiator_finishes confirming reported.sized reported.ok result fun _ sent received =>
            ⟨rfl, rfl, sent, received⟩)

end Initiator

section Responder

variable (config : object.config = h.responder.config)
  (peerRecord : object.peerRecord = h.responder.peerRecord)
  (m0 : delivery [] = some ⟨msgM0Req, h.session, h.m0.toList⟩)

include honest config peerRecord m0

/-- A responder that waits for a request answers it. -/
theorem responder_sends_m1 :
    Routine.Ensures (Answered h.primitives h.responder delivery) (fun _ => True)
      (fun _ _ party => h.challenges <+: party) runResponderOnce object [] :=
  ensures_runResponderOnce (fun _ _ _ party => h.challenges <+: party) m0
    fun _ _ opened same sameRecord held sent received =>
      honest.responder_challenges opened (same.trans config) (sameRecord.trans peerRecord) held sent
        received fun _ middle _ => ensures_deeds _ middle (List.prefix_refl _)

variable (m2 : delivery h.challenges = some ⟨msgM2Init, h.session, h.m2⟩)

include m2

/-- A responder that accepts M2 sends M3. -/
theorem responder_sends_m3 :
    Routine.Ensures (Answered h.primitives h.responder delivery) (fun _ => True)
      (fun _ _ party => h.answers <+: party) runResponderOnce object [] :=
  ensures_runResponderOnce (fun _ _ _ party => h.answers <+: party) m0
    fun _ _ opened same sameRecord held sent received =>
      honest.responder_challenges opened (same.trans config) (sameRecord.trans peerRecord) held sent
        received fun _ _ challenging => honest.responder_answers opened challenging m2
          fun middle _ => ensures_deeds _ middle (List.prefix_refl _)

variable (m4 : delivery h.answers = some ⟨msgM4InitFin, h.session, h.m4.toList⟩)

include m4

/-- The whole session of the responder. -/
theorem responder_session :
    Routine.Ensures (Answered h.primitives h.responder delivery) (fun _ => True)
      (fun result object' party => result = some h.view ∧
        (∃ record, Reported h record ∧ party = h.accepts record) ∧
        object'.metrics.appTxBytes = .ofNat (m1Bytes + m3BytesForMode h.mode) ∧
        object'.metrics.appRxBytes = .ofNat (m0Bytes + m2BytesForMode h.mode + m4Bytes))
      runResponderOnce object [] :=
  ensures_runResponderOnce (fun result tx rx party => result = some h.view ∧
      (∃ record, Reported h record ∧ party = h.accepts record) ∧
      tx = .ofNat (m1Bytes + m3BytesForMode h.mode) ∧
      rx = .ofNat (m0Bytes + m2BytesForMode h.mode + m4Bytes)) m0
    fun _ _ opened same sameRecord held sent received =>
      honest.responder_challenges opened (same.trans config) (sameRecord.trans peerRecord) held sent
        received fun _ _ challenging => honest.responder_answers opened challenging m2
          fun _ answering => responder_finishes opened answering m4
            fun _ record sent received reported => ⟨rfl, ⟨record, reported, rfl⟩, sent, received⟩

end Responder

end Sessions

end Honest

section Exchange

/-- The message of a deed that sends one. -/
def sentMessage : Deed α → Option (Message α)
  | .sent message => some message
  | _ => none

def isReceived : Deed α → Bool
  | .received _ => true
  | _ => false

/-- Each message that the other party has sent, in its turn. -/
def mailbox (other : Party α) : Delivery α := fun party =>
  (other.filterMap sentMessage)[party.countP isReceived]?

omit [Cell α] [DecidableEq α] in
/-- What has been sent stays where it is. -/
theorem mailbox_of_prefix {before deeds : List (Deed α)} {party : Party α} {message : Message α}
    (sends : before <+: deeds) (found : mailbox before party = some message) :
    mailbox deeds party = some message := by
  have kept : before.filterMap sentMessage <+: deeds.filterMap sentMessage := sends.filterMap _
  obtain ⟨within, rfl⟩ := List.getElem?_eq_some_iff.mp found
  exact List.prefix_iff_getElem?.mp kept _ within

variable (worldA worldB : Delivery α → World (calls α κ) (Party α))
  (objectA objectB : ProposedUavProtocol α κ)

/-- A run of each side in which either receives in order what the other one sends. -/
structure Exchange where
  resultA : Option (View α)
  lastA : ProposedUavProtocol α κ
  partyA : Party α
  resultB : Option (View α)
  lastB : ProposedUavProtocol α κ
  partyB : Party α
  initiates : Routine.Run (worldA (mailbox partyB)) runInitiatorSession objectA [] resultA lastA
    partyA
  responds : Routine.Run (worldB (mailbox partyA)) runResponderOnce objectB [] resultB lastB partyB

variable {worldA worldB} {objectA objectB} (configA : objectA.config = h.initiator.config)
  (recordA : objectA.peerRecord = h.initiator.peerRecord)
  (configB : objectB.config = h.responder.config)
  (recordB : objectB.peerRecord = h.responder.peerRecord)
  (servesA : Serves h.primitives h.initiator worldA)
  (servesB : Serves h.primitives h.responder worldB)

include honest configA recordA configB recordB servesA servesB

/-- Two honest devices that exchange their messages: both accept with the same view, the
responder reports the indices of both, and each side has counted the bytes of the mode. -/
theorem Honest.exchange_agrees (exchange : Exchange worldA worldB objectA objectB) :
    exchange.resultA = some h.view ∧ exchange.resultB = some h.view ∧
      (∃ record, Reported h record ∧ exchange.partyA = h.finishes record ∧
        exchange.partyB = h.accepts record) ∧
      (exchange.lastA.metrics.appTxBytes + exchange.lastA.metrics.appRxBytes).toNat =
        expectedDirectApplicationBytes h.mode ∧
      exchange.lastB.metrics.appTxBytes = exchange.lastA.metrics.appRxBytes ∧
      exchange.lastB.metrics.appRxBytes = exchange.lastA.metrics.appTxBytes := by
  obtain ⟨resultA, lastA, partyA, resultB, lastB, partyB, initiates, responds⟩ := exchange
  have initiates := initiates.mono fun _ _ _ => servesA.answered
  have responds := responds.mono fun _ _ _ => servesB.answered
  -- Each message is sent because the one before it was; the other side's runs depend on it.
  have m0 : mailbox partyA [] = some ⟨msgM0Req, h.session, h.m0.toList⟩ :=
    mailbox_of_prefix ((initiator_sends_m0 configA recordA).post_of_run initiates trivial) rfl
  have m1 : mailbox partyB h.requests = some ⟨msgM1Chal, h.session, h.m1.toList⟩ :=
    mailbox_of_prefix
      ((honest.responder_sends_m1 configB recordB m0).post_of_run responds trivial) rfl
  have m2 : mailbox partyA h.challenges = some ⟨msgM2Init, h.session, h.m2⟩ :=
    mailbox_of_prefix
      ((honest.initiator_sends_m2 configA recordA m1).post_of_run initiates trivial) rfl
  have m3 : mailbox partyB h.offers = some ⟨msgM3RespFin, h.session, h.m3⟩ :=
    mailbox_of_prefix
      ((honest.responder_sends_m3 configB recordB m0 m2).post_of_run responds trivial) rfl
  have m4 : mailbox partyA h.answers = some ⟨msgM4InitFin, h.session, h.m4.toList⟩ :=
    mailbox_of_prefix
      ((honest.initiator_sends_m4 configA recordA m1 m3).post_of_run initiates trivial) rfl
  obtain ⟨rfl, ⟨record, reported, rfl⟩, sentB, receivedB⟩ :=
    (honest.responder_session configB recordB m0 m2 m4).post_of_run responds trivial
  obtain ⟨rfl, rfl, sentA, receivedA⟩ :=
    (honest.initiator_session configA recordA m1 m3 reported rfl).post_of_run initiates trivial
  refine ⟨rfl, rfl, ⟨record, reported, rfl, rfl⟩, ?_, sentB.trans receivedA.symm,
    receivedB.trans sentA.symm⟩
  rw [sentA, receivedA]
  cases h.mode <;> rfl

/-- There are such runs. -/
theorem Honest.exists_runs : ∃ record lastA lastB, Reported h record ∧
    Routine.Run (worldA (mailbox (h.accepts record))) runInitiatorSession objectA []
      (some h.view) lastA (h.finishes record) ∧
    Routine.Run (worldB (mailbox (h.finishes record))) runResponderOnce objectB []
      (some h.view) lastB (h.accepts record) := by
  have responds := @responder_session _ _ _ h (mailbox h.confirms) objectB honest _ configB recordB
    rfl rfl rfl
  obtain ⟨_, lastB, _, runB, rfl, ⟨record, reported, rfl⟩, -⟩ := servesB.exists_run responds
  have initiates := @initiator_session _ _ _ h (mailbox (h.accepts record)) objectA honest _ configA
    recordA rfl rfl _ reported rfl
  obtain ⟨_, lastA, _, runA, rfl, rfl, -⟩ := servesA.exists_run initiates
  have sent : mailbox h.confirms = mailbox (h.finishes record) := rfl
  rw [sent] at runB
  exact ⟨record, lastA, lastB, reported, runA, runB⟩

/-- There is such an exchange. -/
theorem Honest.exists_exchange : Nonempty (Exchange worldA worldB objectA objectB) := by
  obtain ⟨record, lastA, lastB, -, initiates, responds⟩ :=
    honest.exists_runs configA recordA configB recordB servesA servesB
  exact ⟨some h.view, lastA, h.finishes record, some h.view, lastB, h.accepts record, initiates,
    responds⟩

end Exchange

end Handshake

end Puav
