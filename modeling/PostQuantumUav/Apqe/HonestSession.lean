import PostQuantumUav.Apqe.ResponderSession

/-!
# A session of two enrolled devices

Two devices run a session over a ledger that returns the enrolled credentials, and
each receives what the other sends. Every such pair of runs ends on both sides with
one session key, and for all random values there is one.

The parts of the messages fit because the maps of both devices are exclusive ors:
each side reaches the same four keys by masks in another order.
-/

namespace Apqe

open Interaction Cell Buffer ApqeProtocol

/-- What a session depends on: the devices, the slot and the random values of both sides. -/
structure Handshake where
  crypto : Crypto
  initiator : NodeConfig
  responder : NodeConfig
  slot : UInt16
  initiatorRandom : Nat → Block
  responderRandom : Nat → Block

namespace Handshake

variable (h : Handshake)

def ci : Block := h.initiator.challenge h.crypto h.slot

def cj : Block := h.responder.challenge h.crypto h.slot

def ni : Block := h.initiatorRandom 0

def nj : Block := h.responderRandom 0

/-- The keys of the session, as the side computes them that needs no mask of the other. -/
def tkJ : Block := (h.responder.puf h.crypto).commutativeMap h.ci

def tkJi : Block := (h.initiator.puf h.crypto).commutativeMap h.tkJ

def tkI : Block := (h.initiator.puf h.crypto).commutativeMap h.cj

def tkIj : Block := (h.responder.puf h.crypto).commutativeMap h.tkI

def sessionKey : Block :=
  h.crypto.sha (h.tkJi.toList ++ h.tkIj.toList ++ h.ni.toList ++ h.nj.toList)

def ei : List.Vector UInt8 eiBytes :=
  eiOf (h.initiator.tid h.crypto h.slot) h.ci h.ni (h.responder.tid h.crypto h.slot)

/-- The ciphertext of a block of `ei`. -/
def ciphertext (i : Fin eiBlocks) : Ciphertext :=
  h.crypto.encrypt (eiBlock h.ei i) (h.responder.publicKey h.crypto) (h.initiatorRandom (i + 1))

def m1 : List.Vector UInt8 m1Bytes :=
  ⟨(h.ciphertext 0).toList ++ (h.ciphertext 1).toList ++ (h.ciphertext 2).toList ++
      (h.ciphertext 3).toList ++ (h.crypto.sha h.ei.toList).toList, by
    simp only [List.length_append, List.Vector.toList_length]
    rfl⟩

def h2 : Block :=
  h.crypto.sha (h.tkJi.toList ++ h.tkJ.toList ++ h.cj.toList ++ h.nj.toList)

def m2 : List.Vector UInt8 m2Bytes :=
  ⟨(xorBytes h.tkJ h.ni).toList ++ maskPair h.tkJi h.cj h.nj ++ h.h2.toList, by
    simp only [maskPair, List.length_append, List.Vector.toList_length]⟩

def h3 : Block := h.crypto.sha (h.tkIj.toList ++ h.tkI.toList ++ h.sessionKey.toList)

def m3 : List.Vector UInt8 m3Bytes :=
  ⟨(xorBytes h.tkI h.nj).toList ++ h.h3.toList, by
    simp only [List.length_append, List.Vector.toList_length]⟩

section Keys

/-- The responder reaches the key from the initiator's masked response. -/
theorem tkJi_eq : (h.responder.puf h.crypto).commutativeMap
    (h.initiator.response h.crypto h.slot) = h.tkJi := by
  simp only [tkJi, tkJ, ci, NodeConfig.response, SoftwarePuf.commutativeMap, xorBytes_assoc]
  rw [@xorBytes_comm _ (h.initiator.puf h.crypto).commutativeMask]

/-- The initiator reaches the key from the responder's masked response. -/
theorem tkIj_eq : (h.initiator.puf h.crypto).commutativeMap
    (h.responder.response h.crypto h.slot) = h.tkIj := by
  simp only [tkIj, tkI, cj, NodeConfig.response, SoftwarePuf.commutativeMap, xorBytes_assoc]
  rw [@xorBytes_comm _ (h.initiator.puf h.crypto).commutativeMask]

end Keys

/-- The ledger returns the credentials of both devices, which name each other as peers. -/
structure Enrolled (ledger : CredentialLedger) : Prop where
  initiatorPeer : h.initiator.peerId = h.responder.deviceId
  responderPeer : h.responder.peerId = h.initiator.deviceId
  initiator : ledger.record (h.initiator.identityHash h.crypto) h.slot =
    some (h.initiator.credential h.crypto h.slot)
  responder : ledger.record (h.responder.identityHash h.crypto) h.slot =
    some (h.responder.credential h.crypto h.slot)
  byTid : ledger.index (h.initiator.tid h.crypto h.slot) =
    some (h.initiator.credential h.crypto h.slot)

section Initiator

variable {h} {ledger : CredentialLedger} {object : ApqeProtocol} {inbox : List Message}

open Party

/-- The initiator's object behind M1. -/
def initiating (h : Handshake) (object : ApqeProtocol) (m1 : List.Vector UInt8 m1Bytes) :
    ApqeProtocol :=
  { object with
    publicKey := h.initiator.publicKey h.crypto
    secretKey := h.initiator.secretKey h.crypto
    runtimeOwnCredential := h.initiator.credential h.crypto h.slot
    runtimePeerCredential := h.responder.credential h.crypto h.slot
    m1 := m1 }

/-- One round of the encryption loop. -/
theorem yields_encryptBlock (m1 : List.Vector UInt8 m1Bytes) (i : Fin eiBlocks) :
    Yields h.crypto ledger (encryptBlock h.ei i) (h.initiating object m1)
      ⟨h.initiatorRandom, i + 1, inbox, []⟩ .unit
      (h.initiating object (writeAt m1 (i * kyberCiphertextBytes) (h.ciphertext i).toList))
      ⟨h.initiatorRandom, i + 2, inbox, []⟩ := by
  refine yields_randomBytes.bind (Routine.Computes.get ?_)
  rintro _ ⟨metrics, rfl⟩
  refine yields_timed (Routine.Computes.perform fun x v step => ?_)
  cases step
  apply Routine.computes_modify
  rintro _ ⟨metrics', rfl⟩
  exact ⟨_, rfl⟩

/-- The writes of the loop and of H1 fill M1. -/
theorem m1_written (m1 : List.Vector UInt8 m1Bytes) :
    writeAt (([0, 1, 2, 3] : List (Fin eiBlocks)).foldl (fun m1 (i : Fin eiBlocks) =>
      writeAt m1 (i * kyberCiphertextBytes) (h.ciphertext i).toList) m1)
      (eiBlocks * kyberCiphertextBytes) (h.crypto.sha h.ei.toList).toList = h.m1 := by
  have read : ∀ (i : Fin eiBlocks) (m1 : List.Vector UInt8 m1Bytes),
      (writeAt m1 (i * kyberCiphertextBytes) (h.ciphertext i).toList).toList.take
        ((i + 1) * kyberCiphertextBytes) =
          m1.toList.take (i * kyberCiphertextBytes) ++ (h.ciphertext i).toList := by
    intro i m1
    refine take_writeAt ?_ (by rw [List.Vector.toList_length, Nat.succ_mul])
    have bound := i.isLt
    simp only [eiBlocks, kyberCiphertextBytes, m1Bytes, hashBytes] at bound ⊢
    omega
  apply List.Vector.toList_injective
  rw [toList_writeAt_last (by rw [List.Vector.toList_length])]
  refine congrArg (· ++ _) ((read 3 _).trans (congrArg (· ++ _) ?_))
  refine (read 2 _).trans (congrArg (· ++ _) ((read 1 _).trans (congrArg (· ++ _) ?_)))
  exact read 0 m1

theorem yields_verifyCredentials (provisioned : Provisioned h.crypto h.initiator object)
    (enrolled : h.Enrolled ledger) (m1 : List.Vector UInt8 m1Bytes) {party : Party} :
    Yields h.crypto ledger verifyCredentials (h.initiating object m1) party ()
      (h.initiating object m1) party := by
  have own : same (h.initiator.identityHash h.crypto) object.identityHash :=
    same_iff.mpr provisioned.identityHash.symm
  have peer : same (h.responder.identityHash h.crypto) object.peerIdentityHash := by
    rw [provisioned.peerIdentityHash, enrolled.initiatorPeer]
    exact same_iff.mpr rfl
  apply Routine.Computes.get
  rintro _ ⟨metrics, rfl⟩
  refine (Routine.computes_guard own).bind ((Routine.computes_guard peer).bind ?_)
  refine (yields_verifyCredential h.slot).bind ((yields_verifyCredential h.slot).bind ?_)
  refine Routine.computes_guard ?_
  exact same_iff.mpr rfl

/-- The initiator sends M1. -/
theorem yields_sendM1 (provisioned : Provisioned h.crypto h.initiator object)
    (enrolled : h.Enrolled ledger) (session : UInt32) :
    Yields h.crypto ledger (sendM1 session h.slot) object ⟨h.initiatorRandom, 0, inbox, []⟩ h.ni
      (h.initiating object h.m1)
      ⟨h.initiatorRandom, 5, inbox, [⟨msgM1, session, h.m1.toList⟩]⟩ := by
  have own : ledger.record object.identityHash h.slot = _ :=
    provisioned.identityHash ▸ enrolled.initiator
  have peer : ledger.record object.peerIdentityHash h.slot =
      some (h.responder.credential h.crypto h.slot) := by
    rw [provisioned.peerIdentityHash, enrolled.initiatorPeer]
    exact enrolled.responder
  have ready : Provisioned h.crypto h.initiator (h.initiating object object.m1) :=
    ⟨provisioned.config, provisioned.puf, provisioned.identityHash, provisioned.peerIdentityHash⟩
  refine (yields_timedReconstruct provisioned).bind (yields_timedKeygen.bind ?_)
  apply Routine.Computes.get
  rintro _ ⟨metrics, rfl⟩
  refine (yields_queryByIdentitySlot own).bind ?_
  refine (@Routine.computes_modify _ _ _ _ _ _ { object with
    publicKey := h.initiator.publicKey h.crypto
    secretKey := h.initiator.secretKey h.crypto
    runtimeOwnCredential := h.initiator.credential h.crypto h.slot } _ _ ?_).bind ?_
  · rintro _ ⟨metrics, rfl⟩
    exact ⟨_, rfl⟩
  refine (yields_queryByIdentitySlot peer).bind ?_
  refine (@Routine.computes_modify _ _ _ _ _ _ (h.initiating object object.m1) _ _ ?_).bind ?_
  · rintro _ ⟨metrics, rfl⟩
    exact ⟨_, rfl⟩
  refine (yields_verifyCredentials provisioned enrolled object.m1).bind ?_
  refine (yields_timedPufInverse ready rfl h.slot).bind (yields_randomBytes.bind ?_)
  change Yields h.crypto ledger ((List.forM [0, 1, 2, 3] (encryptBlock h.ei)) >>= _) _ _ _ _ _
  refine Routine.Computes.bind (a := .unit) ((yields_encryptBlock _ 0).bind
    ((yields_encryptBlock _ 1).bind ((yields_encryptBlock _ 2).bind
    ((yields_encryptBlock _ 3).bind (Routine.computes_pure _))))) ?_
  refine (yields_timedShaParts _).bind ?_
  refine (@Routine.computes_modify _ _ _ _ _ _ (h.initiating object h.m1) _ _ ?_).bind ?_
  · rintro _ ⟨metrics, rfl⟩
    rw [← @m1_written h object.m1]
    exact ⟨_, rfl⟩
  apply Routine.Computes.get
  rintro _ ⟨metrics, rfl⟩
  exact (yields_sendCounted _ msgM1 session h.m1.toList).bind (Routine.computes_pure _)

/-- What the initiator keeps after M2. -/
def initiatorKeys (h : Handshake) : InitiatorKeys := ⟨h.tkJi, h.tkIj, h.tkI, h.nj⟩

/-- The parts of M2. -/
theorem block_m2 :
    block h.m2 0 hashBytes = xorBytes h.tkJ h.ni ∧
      block h.m2 32 hashBytes = xorBytes h.cj h.tkJi ∧
      block h.m2 64 hashBytes = xorBytes h.nj h.tkJi ∧ block h.m2 96 hashBytes = h.h2 := by
  have parts : h.m2.toList = (xorBytes h.tkJ h.ni).toList ++ ((xorBytes h.cj h.tkJi).toList ++
      ((xorBytes h.nj h.tkJi).toList ++ (h.h2.toList ++ []))) := by
    change _ ++ (_ ++ _) ++ _ = _
    simp only [List.append_assoc, List.append_nil]
  have sized : ∀ a b : Block, (a.toList ++ b.toList).length = 64 := by
    intro a b
    simp only [List.length_append, List.Vector.toList_length]
  refine ⟨@block_eq _ _ h.m2 [] _ 0 hashBytes _ parts rfl _, ?_, ?_, ?_⟩
  · exact block_eq parts (List.Vector.toList_length _) _
  · rw [← List.append_assoc] at parts
    exact block_eq parts (sized _ _) _
  · rw [← List.append_assoc, ← List.append_assoc] at parts
    exact block_eq parts (by rw [List.length_append, sized, List.Vector.toList_length]) _

/-- The initiator accepts M2. -/
theorem yields_receiveM2 (provisioned : Provisioned h.crypto h.initiator object)
    (session : UInt32) {random : Nat → Block} {drawn : Nat} {rest sent : List Message}
    (peer : object.runtimePeerCredential = h.responder.credential h.crypto h.slot) :
    Yields h.crypto ledger (receiveM2 session h.ni) object
      ⟨random, drawn, ⟨msgM2, session, h.m2.toList⟩ :: rest, sent⟩ h.initiatorKeys
      { object with m2 := h.m2 } ⟨random, drawn, rest, sent⟩ := by
  have length := h.m2.toList_length
  obtain ⟨first, second, third, fourth⟩ := @block_m2 h
  refine yields_receiveMessage (.inr rfl) (Nat.le_of_eq length) fun source framedBytes => ?_
  refine (@Routine.computes_modify _ _ _ _ _ _ { object with m2 := h.m2 } _ _ ?_).bind ?_
  · rintro _ ⟨metrics, rfl⟩
    rw [overwrite_toList]
    exact ⟨_, rfl⟩
  refine (Routine.computes_guard length).bind ((yields_countReceived _ _).bind ?_)
  have map : ∀ input, Yields h.crypto ledger (timedPufMap input) { object with m2 := h.m2 }
      ⟨random, drawn, rest, sent⟩ ((h.initiator.puf h.crypto).commutativeMap input)
      { object with m2 := h.m2 } ⟨random, drawn, rest, sent⟩ := yields_timedPufMap provisioned.puf
  have rj : xorBytes object.runtimePeerCredential.w (h.crypto.sha h.cj.toList) =
      h.responder.response h.crypto h.slot := by
    rw [peer]
    exact xorBytes_cancel (h.responder.response h.crypto h.slot) _
  apply Routine.Computes.get
  rintro _ ⟨metrics, rfl⟩
  simp only [first, second, third, fourth, xorBytes_cancel]
  refine Routine.Computes.bind (a := h.tkJi) (map h.tkJ) ?_
  simp only [xorBytes_cancel]
  refine Routine.Computes.bind (a := h.h2) (yields_timedShaParts _) ?_
  refine (Routine.computes_guard (same_iff.mpr rfl)).bind ?_
  refine (yields_timedShaParts h.cj.toList).bind ?_
  rw [rj]
  refine Routine.Computes.bind (a := h.tkI) (map h.cj) ((map _).bind ?_)
  rw [tkIj_eq]
  exact Routine.computes_pure _

/-- The initiator sends M3. -/
theorem yields_sendM3 (session : UInt32) {random : Nat → Block} {drawn : Nat}
    {inbox sent : List Message} :
    Yields h.crypto ledger (sendM3 session h.ni h.initiatorKeys) object
      ⟨random, drawn, inbox, sent⟩ h.sessionKey { object with m3 := h.m3 }
      ⟨random, drawn, inbox, sent ++ [⟨msgM3, session, h.m3.toList⟩]⟩ := by
  have written : writeAt (writeAt object.m3 0 (xorBytes h.tkI h.nj).toList) hashBytes h.h3.toList =
      h.m3 := by
    have first := @take_writeAt _ _ object.m3 0 hashBytes (xorBytes h.tkI h.nj).toList (by decide)
      (by rw [List.Vector.toList_length])
    apply List.Vector.toList_injective
    rw [toList_writeAt_last (by rw [List.Vector.toList_length]), first]
    rfl
  refine (@Routine.computes_modify _ _ _ _ _ _ { object with
    m3 := writeAt object.m3 0 (xorBytes h.tkI h.nj).toList } _ _ ?_).bind ?_
  · rintro _ ⟨metrics, rfl⟩
    exact ⟨_, rfl⟩
  refine Routine.Computes.bind (a := h.sessionKey) (yields_timedShaParts _) ?_
  refine Routine.Computes.bind (a := h.h3) (yields_timedShaParts _) ?_
  refine (@Routine.computes_modify _ _ _ _ _ _ { object with m3 := h.m3 } _ _ ?_).bind ?_
  · rintro _ ⟨metrics, rfl⟩
    rw [← written]
    exact ⟨_, rfl⟩
  apply Routine.Computes.get
  rintro _ ⟨metrics, rfl⟩
  exact (yields_sendCounted _ msgM3 session h.m3.toList).bind (Routine.computes_pure _)

/-- The initiator accepts a record with the hash of its own key. -/
theorem yields_receiveResult {session : UInt32} (protocolStart : UInt32)
    {record : List.Vector UInt8 resultBytes} {metrics : SessionMetrics}
    (decoded : decodeResult record session = some (metrics, h.crypto.sha h.sessionKey.toList))
    {random : Nat → Block} {drawn : Nat} {rest sent : List Message} :
    Yields h.crypto ledger (receiveResult session protocolStart h.sessionKey) object
      ⟨random, drawn, ⟨msgResult, session, record.toList⟩ :: rest, sent⟩ ()
      { object with result := record } ⟨random, drawn, rest, sent⟩ := by
  have length := record.toList_length
  refine yields_receiveMessage (.inr rfl) (Nat.le_of_eq length) fun source framedBytes => ?_
  refine (@Routine.computes_modify _ _ _ _ _ _ { object with result := record } _ _ ?_).bind ?_
  · rintro _ ⟨metrics', rfl⟩
    rw [overwrite_toList]
    exact ⟨_, rfl⟩
  refine (Routine.computes_guard length).bind (Routine.Computes.perform fun now v step => ?_)
  cases step
  refine (@Routine.computes_modify _ _ _ _ _ _ { object with result := record } _ _ ?_).bind ?_
  · rintro _ ⟨metrics', rfl⟩
    exact ⟨_, rfl⟩
  apply Routine.Computes.get
  rintro _ ⟨metrics', rfl⟩
  simp only [decoded]
  refine (yields_sha256 h.sessionKey.toList).bind ?_
  apply Routine.computes_guard
  exact same_iff.mpr rfl

end Initiator

section Responder

variable {h} {ledger : CredentialLedger} {object : ApqeProtocol}

open Party

/-- The responder's object while it holds M1. -/
def responding (h : Handshake) (object : ApqeProtocol) : ApqeProtocol :=
  { object with
    publicKey := h.responder.publicKey h.crypto
    secretKey := h.responder.secretKey h.crypto
    m1 := h.m1 }

/-- What the responder works with. -/
def attempt (h : Handshake) : Attempt where
  crypto := h.crypto
  responder := h.responder
  opened := ⟨h.initiator.tid h.crypto h.slot, h.ci, h.ni, h.responder.tid h.crypto h.slot⟩
  peer := h.initiator.credential h.crypto h.slot
  nj := h.nj
  tkI := h.tkI

/-- What the responder keeps after M2. -/
def responderKeys (h : Handshake) : ResponderKeys := ⟨h.tkJi, h.ni, h.nj⟩

theorem attempt_cj : h.attempt.cj = h.cj := xorBytes_cancel _ _

theorem attempt_tkJi : h.attempt.tkJi = h.tkJi := by
  rw [← tkJi_eq]
  exact congrArg _ (xorBytes_cancel (h.initiator.response h.crypto h.slot) _)

theorem attempt_m2 : h.attempt.m2 = h.m2 := by
  apply List.Vector.toList_injective
  simp only [Attempt.m2, Attempt.h2, attempt_cj, attempt_tkJi]
  rfl

theorem attempt_sessionKey : h.attempt.sessionKey = h.sessionKey := by
  rw [Attempt.sessionKey, attempt_tkJi]
  rfl

theorem attempt_m3 : h.attempt.m3 = h.m3 := by
  apply List.Vector.toList_injective
  simp only [Attempt.m3, Attempt.h3, attempt_sessionKey]
  rfl

theorem attempt_validM1 : h.attempt.ValidM1 h.m1 :=
  h.attempt.sealed_validM1 fun i => h.initiatorRandom (i + 1)

theorem attempt_validPeer (enrolled : h.Enrolled ledger) : h.attempt.ValidPeer ledger := by
  refine ⟨enrolled.byTid, ?_, rfl⟩
  change h.initiator.identityHash h.crypto = h.crypto.sha h.responder.peerId.toList
  rw [enrolled.responderPeer]
  rfl

/-- The responder opens M1. -/
theorem yields_openM1 (provisioned : Provisioned h.crypto h.responder object) {party : Party} :
    Yields h.crypto ledger openM1 { object with m1 := h.m1 } party h.attempt.opened
      (h.responding object) party := by
  have holding : Provisioned h.crypto h.responder { object with m1 := h.m1 } :=
    ⟨provisioned.config, provisioned.puf, provisioned.identityHash, provisioned.peerIdentityHash⟩
  exact Attempt.yields_openM1 (t := h.attempt) holding attempt_validM1

/-- The responder answers with M2. -/
theorem yields_sendM2 (provisioned : Provisioned h.crypto h.responder object)
    (enrolled : h.Enrolled ledger) (session : UInt32) (source : Transport.Endpoint)
    {inbox : List Message} :
    Yields h.crypto ledger (sendM2 session source h.attempt.opened)
      (h.responding object) ⟨h.responderRandom, 0, inbox, []⟩ h.responderKeys
      { h.responding object with
        runtimePeerCredential := h.initiator.credential h.crypto h.slot
        m2 := h.m2 }
      ⟨h.responderRandom, 1, inbox, [⟨msgM2, session, h.m2.toList⟩]⟩ := by
  have holding : Provisioned h.crypto h.responder { object with m1 := h.m1 } :=
    ⟨provisioned.config, provisioned.puf, provisioned.identityHash, provisioned.peerIdentityHash⟩
  have sent := @Attempt.yields_sendM2 h.attempt ledger { object with m1 := h.m1 }
    ⟨h.responderRandom, 0, inbox, []⟩ holding (attempt_validPeer enrolled) session source rfl
  rw [Attempt.answered, attempt_m2, attempt_tkJi] at sent
  exact sent

/-- The responder accepts M3. -/
theorem yields_receiveM3 (puf : object.puf = h.responder.puf h.crypto) (session : UInt32)
    {random : Nat → Block} {drawn : Nat} {rest sent : List Message} :
    Yields h.crypto ledger (receiveM3 session h.responderKeys) object
      ⟨random, drawn, ⟨msgM3, session, h.m3.toList⟩ :: rest, sent⟩ h.sessionKey
      { object with m3 := h.m3 } ⟨random, drawn, rest, sent⟩ := by
  have accepted := @Attempt.yields_receiveM3 h.attempt ledger object puf session random drawn
    rest sent
  rw [attempt_m3, attempt_sessionKey, attempt_tkJi] at accepted
  exact accepted

/-- The record confirms the session key, with some measurements. -/
def Confirms (h : Handshake) (session : UInt32) (record : Bytes) : Prop :=
  ∃ result : List.Vector UInt8 resultBytes, record = result.toList ∧ ∃ metrics,
    decodeResult result session = some (metrics, h.crypto.sha h.sessionKey.toList)

/-- The responder sends its measurements and the hash of its key. -/
theorem sendResult_confirms (session : UInt32) (source : Transport.Endpoint)
    (protocolStart : UInt32) (object : ApqeProtocol) (party : Party) :
    Routine.Ensures (Answered h.crypto ledger) (fun _ => True)
      (fun result _ party' => result = some () ∧ ∃ record, h.Confirms session record ∧
        party' = { party with sent := party.sent ++ [⟨msgResult, session, record⟩] })
      (sendResult session source protocolStart h.sessionKey) object party := by
  refine (@Attempt.ensures_sendResult h.attempt ledger object party session source protocolStart
    h.sessionKey).mono ?_
  rintro result last party' ⟨sent, _, _, record, metrics, decoded, rfl⟩
  exact ⟨sent, _, ⟨record, rfl, metrics, decoded⟩, rfl⟩

end Responder

section Runs

variable {h} {ledger : CredentialLedger} {object : ApqeProtocol} {inbox : List Message}

open Party

/-- What was sent stays sent. -/
theorem ensures_sent {α : Type} {front : List Message} (r : Method α) (object : ApqeProtocol)
    {party : Party} (start : front <+: party.sent) :
    Routine.Ensures (Answered h.crypto ledger) (fun _ => True)
      (fun _ _ party' => front <+: party'.sent) r object party := by
  have step : ∀ party event party', Answered h.crypto ledger party event party' →
      front <+: party.sent → front <+: party'.sent := by
    intro party event party' answered before
    cases answered with
    | sendMessage => exact before.trans (List.prefix_append _ _)
    | _ => exact before
  exact (Program.Ensures.of_step step (r.on object) start).mono (fun _ _ => trivial)
    fun _ _ after => after

/-- The initiator's session behind M1. -/
theorem initiator_opens (provisioned : Provisioned h.crypto h.initiator object)
    (enrolled : h.Enrolled ledger) (session : UInt32)
    {post : Option Block → ApqeProtocol → Party → Prop}
    (next : ∀ protocolStart middle, Measured (h.initiating object h.m1) middle →
      Routine.Ensures (Answered h.crypto ledger) (fun _ => True) post (do
        let keys ← receiveM2 session h.ni
        let sessionKey ← sendM3 session h.ni keys
        let now ← micros
        modify fun protocol => { protocol with metrics := { protocol.metrics with
          protocolUs := now.toUInt64 - protocolStart.toUInt64 } }
        receiveResult session protocolStart sessionKey
        pure sessionKey) middle
        ⟨h.initiatorRandom, 5, inbox, [⟨msgM1, session, h.m1.toList⟩]⟩) :
    Routine.Ensures (Answered h.crypto ledger) (fun _ => True) post
      (runInitiatorSession session h.slot) object ⟨h.initiatorRandom, 0, inbox, []⟩ := by
  rw [runInitiatorSession, Routine.ensures_bind, Routine.ensures_modify]
  refine Routine.Ensures.perform fun protocolStart v step => ⟨trivial, ?_⟩
  cases step
  exact (yields_sendM1 provisioned enrolled session).ensures ⟨_, rfl⟩ (next protocolStart)

/-- With M2 delivered the initiator sends M3. -/
theorem initiator_sends (provisioned : Provisioned h.crypto h.initiator object)
    (enrolled : h.Enrolled ledger) (session : UInt32) :
    Routine.Ensures (Answered h.crypto ledger) (fun _ => True)
      (fun _ _ party' => [⟨msgM1, session, h.m1.toList⟩, ⟨msgM3, session, h.m3.toList⟩] <+:
        party'.sent) (runInitiatorSession session h.slot) object
      ⟨h.initiatorRandom, 0, ⟨msgM2, session, h.m2.toList⟩ :: inbox, []⟩ := by
  have ready : Provisioned h.crypto h.initiator (h.initiating object h.m1) :=
    ⟨provisioned.config, provisioned.puf, provisioned.identityHash, provisioned.peerIdentityHash⟩
  refine initiator_opens provisioned enrolled session fun protocolStart middle like => ?_
  refine (yields_receiveM2 ready session rfl).ensures like fun middle like => ?_
  refine (yields_sendM3 session).ensures like fun middle like => ?_
  exact ensures_sent _ _ (List.prefix_refl _)

/-- With M2 and the result delivered the initiator finishes with the session key. -/
theorem initiator_finishes (provisioned : Provisioned h.crypto h.initiator object)
    (enrolled : h.Enrolled ledger) (session : UInt32) {record : Bytes}
    (confirms : h.Confirms session record) :
    Routine.Ensures (Answered h.crypto ledger) (fun _ => True)
      (fun result _ party' => result = some h.sessionKey ∧
        party'.sent = [⟨msgM1, session, h.m1.toList⟩, ⟨msgM3, session, h.m3.toList⟩])
      (runInitiatorSession session h.slot) object ⟨h.initiatorRandom, 0,
        ⟨msgM2, session, h.m2.toList⟩ :: ⟨msgResult, session, record⟩ :: inbox, []⟩ := by
  have ready : Provisioned h.crypto h.initiator (h.initiating object h.m1) :=
    ⟨provisioned.config, provisioned.puf, provisioned.identityHash, provisioned.peerIdentityHash⟩
  obtain ⟨result, rfl, metrics, decoded⟩ := confirms
  refine initiator_opens provisioned enrolled session fun protocolStart middle like => ?_
  refine (yields_receiveM2 ready session rfl).ensures like fun middle like => ?_
  refine (yields_sendM3 session).ensures like ?_
  rintro _ ⟨metrics', rfl⟩
  refine Routine.Ensures.perform fun now v step => ⟨trivial, ?_⟩
  cases step
  rw [Routine.ensures_bind, Routine.ensures_modify]
  refine (yields_receiveResult protocolStart decoded).ensures ⟨_, rfl⟩ fun last like => ?_
  exact ⟨rfl, rfl⟩

/-- The responder's session behind M2. -/
theorem responder_opens (provisioned : Provisioned h.crypto h.responder object)
    (enrolled : h.Enrolled ledger) (session : UInt32)
    {post : Option Block → ApqeProtocol → Party → Prop}
    (next : ∀ source protocolStart middle, middle.puf = h.responder.puf h.crypto →
      Routine.Ensures (Answered h.crypto ledger) (fun _ => True) post (do
        let sessionKey ← receiveM3 session h.responderKeys
        sendResult session source protocolStart sessionKey
        pure sessionKey) middle
        ⟨h.responderRandom, 1, inbox, [⟨msgM2, session, h.m2.toList⟩]⟩) :
    Routine.Ensures (Answered h.crypto ledger) (fun _ => True) post responderLoop object
      ⟨h.responderRandom, 0, ⟨msgM1, session, h.m1.toList⟩ :: inbox, []⟩ := by
  have length := h.m1.toList_length
  refine Routine.Ensures.perform fun x v step => ⟨trivial, ?_⟩
  cases step with
  | timedOut timeoutMs absent bytes =>
      exact absurd ⟨rfl, rfl, .inl rfl, Nat.le_of_eq length⟩ (absent _)
  | receiveMessage timeoutMs source framedBytes found =>
      cases Option.some.inj found.1
      rw [Routine.ensures_bind, Routine.ensures_modify, overwrite_toList]
      change Routine.Ensures _ _ _ (guard (h.m1.toList.length = m1Bytes) >>= fun _ =>
        runResponderSession session _) _ _
      refine (Routine.computes_guard length).ensures (measured_self _) ?_
      rintro _ ⟨metrics, rfl⟩
      rw [runResponderSession, Routine.ensures_bind, Routine.ensures_modify]
      refine Routine.Ensures.perform fun protocolStart v step => ⟨trivial, ?_⟩
      cases step
      refine (yields_openM1 provisioned).ensures ⟨_, rfl⟩ fun middle like => ?_
      refine (yields_sendM2 provisioned enrolled session source).ensures like ?_
      rintro _ ⟨metrics', rfl⟩
      exact next source protocolStart _ provisioned.puf

/-- With M3 delivered the responder finishes with the session key. -/
theorem responder_finishes (provisioned : Provisioned h.crypto h.responder object)
    (enrolled : h.Enrolled ledger) (session : UInt32) :
    Routine.Ensures (Answered h.crypto ledger) (fun _ => True)
      (fun result _ party' => result = some h.sessionKey ∧ ∃ record, h.Confirms session record ∧
        party'.sent = [⟨msgM2, session, h.m2.toList⟩, ⟨msgResult, session, record⟩])
      responderLoop object ⟨h.responderRandom, 0,
        ⟨msgM1, session, h.m1.toList⟩ :: ⟨msgM3, session, h.m3.toList⟩ :: inbox, []⟩ := by
  refine responder_opens provisioned enrolled session fun source protocolStart middle puf => ?_
  refine (yields_receiveM3 puf session).ensures (measured_self _) fun last like => ?_
  refine (sendResult_confirms session source protocolStart last _).bind ?_ ?_
  · rintro _ _ ⟨none, _⟩
    cases none
  · rintro _ _ _ ⟨_, record, confirms, rfl⟩
    exact ⟨rfl, record, confirms, rfl⟩

end Runs

end Handshake

/-- A run of both sides in which each receives the messages that the other sends. -/
def Exchanged (crypto : Crypto) (ledger : CredentialLedger) (session : UInt32) (slot : UInt16)
    (initiator responder : ApqeProtocol) (initiatorRandom responderRandom : Nat → Block)
    (resultI resultR : Option Block) : Prop :=
  ∃ initiator' responder' partyI partyR,
    Routine.Run (Party.Answered crypto ledger) (runInitiatorSession session slot) initiator
      ⟨initiatorRandom, 0, partyR.sent, []⟩ resultI initiator' partyI ∧
    Routine.Run (Party.Answered crypto ledger) responderLoop responder
      ⟨responderRandom, 0, partyI.sent, []⟩ resultR responder' partyR

namespace Handshake

variable {h : Handshake} {ledger : CredentialLedger} {initiator responder : ApqeProtocol}

open Party

/-- Whatever both sides measure, they finish with the session key. -/
theorem exchanged_key (provisionedI : Provisioned h.crypto h.initiator initiator)
    (provisionedR : Provisioned h.crypto h.responder responder) (enrolled : h.Enrolled ledger)
    (session : UInt32) {resultI resultR : Option Block}
    (exchanged : Exchanged h.crypto ledger session h.slot initiator responder h.initiatorRandom
      h.responderRandom resultI resultR) :
    resultI = some h.sessionKey ∧ resultR = some h.sessionKey := by
  obtain ⟨initiator', responder', partyI, partyR, runI, runR⟩ := exchanged
  -- Each side's next message follows from what the other has sent so far.
  have first : [⟨msgM1, session, h.m1.toList⟩] <+: partyI.sent :=
    Routine.Ensures.post_of_run (initiator_opens provisionedI enrolled session
      fun _ _ _ => ensures_sent _ _ (List.prefix_refl _)) runI trivial
  obtain ⟨afterM1, first⟩ := first
  rw [← first] at runR
  have second : [⟨msgM2, session, h.m2.toList⟩] <+: partyR.sent :=
    Routine.Ensures.post_of_run (responder_opens provisionedR enrolled session
      fun _ _ _ _ => ensures_sent _ _ (List.prefix_refl _)) runR trivial
  obtain ⟨afterM2, second⟩ := second
  rw [← second] at runI
  obtain ⟨afterM3, third⟩ :=
    (initiator_sends provisionedI enrolled session).post_of_run runI trivial
  rw [first, ← third] at runR
  obtain ⟨keyR, record, confirms, fourth⟩ :=
    (responder_finishes provisionedR enrolled session).post_of_run runR trivial
  rw [second, fourth] at runI
  exact ⟨((initiator_finishes provisionedI enrolled session confirms).post_of_run runI trivial).1,
    keyR⟩

/-- There is a run of both sides. -/
theorem exists_exchanged (provisionedI : Provisioned h.crypto h.initiator initiator)
    (provisionedR : Provisioned h.crypto h.responder responder) (enrolled : h.Enrolled ledger)
    (session : UInt32) : ∃ resultI resultR, Exchanged h.crypto ledger session h.slot initiator
      responder h.initiatorRandom h.responderRandom resultI resultR := by
  obtain ⟨⟨resultR, responder', partyR, runR⟩, endR⟩ :=
    (@responder_finishes h ledger responder [] provisionedR enrolled session).total
      (answered_responsive h.crypto ledger)
  obtain ⟨_, record, confirms, sentR⟩ := endR _ _ _ runR
  obtain ⟨⟨resultI, initiator', partyI, runI⟩, endI⟩ :=
    (@initiator_finishes h ledger initiator [] provisionedI enrolled session record confirms).total
      (answered_responsive h.crypto ledger)
  refine ⟨resultI, resultR, initiator', responder', partyI, partyR, ?_, ?_⟩
  · rw [sentR]
    exact runI
  · rw [(endI _ _ _ runI).2]
    exact runR

end Handshake

/-- The ledger returns the enrolled credentials: by identity and slot, and by temporary identity. -/
structure CredentialLedger.Returns (crypto : Crypto) (ledger : CredentialLedger)
    (enrolled : Set (NodeConfig × UInt16)) : Prop where
  record : ∀ e ∈ enrolled,
    ledger.record (e.1.identityHash crypto) e.2 = some (e.1.credential crypto e.2)
  indexed : ∀ e ∈ enrolled, (ledger.index (e.1.tid crypto e.2)).isSome
  index : ∀ tid credential, ledger.index tid = some credential →
    ∃ e ∈ enrolled, e.1.tid crypto e.2 = tid ∧ credential = e.1.credential crypto e.2

/-- Two devices that are enrolled for a slot agree on a session key. -/
theorem honest_session_agrees (crypto : Crypto) (a b : NodeConfig) (slot : UInt16)
    (mirroredA : a.peerId = b.deviceId) (mirroredB : b.peerId = a.deviceId)
    (enrolled : Set (NodeConfig × UInt16)) (enrolledA : (a, slot) ∈ enrolled)
    (enrolledB : (b, slot) ∈ enrolled)
    (distinct : enrolled.InjOn fun e => e.1.tid crypto e.2) (ledger : CredentialLedger)
    (returns : ledger.Returns crypto enrolled) (session : UInt32)
    (initiator responder : ApqeProtocol) (provisionedA : Provisioned crypto a initiator)
    (provisionedB : Provisioned crypto b responder)
    (initiatorRandom responderRandom : Nat → Block) :
    ∃ key, Exchanged crypto ledger session slot initiator responder initiatorRandom responderRandom
        (some key) (some key) ∧
      ∀ resultI resultR, Exchanged crypto ledger session slot initiator responder initiatorRandom
        responderRandom resultI resultR → resultI = some key ∧ resultR = some key := by
  let h : Handshake := ⟨crypto, a, b, slot, initiatorRandom, responderRandom⟩
  have holds : h.Enrolled ledger := by
    refine ⟨mirroredA, mirroredB, returns.record _ enrolledA, returns.record _ enrolledB, ?_⟩
    obtain ⟨credential, found⟩ := Option.isSome_iff_exists.mp (returns.indexed _ enrolledA)
    obtain ⟨e, member, same, rfl⟩ := returns.index _ _ found
    cases distinct member enrolledA same
    exact found
  have agree := @Handshake.exchanged_key h ledger initiator responder provisionedA provisionedB
    holds session
  obtain ⟨resultI, resultR, exchanged⟩ := @Handshake.exists_exchanged h ledger initiator responder
    provisionedA provisionedB holds session
  refine ⟨h.sessionKey, ?_, fun resultI resultR => agree⟩
  obtain ⟨rfl, rfl⟩ := agree exchanged
  exact exchanged

section Pair

/-- A stand-in that reads 32 bytes behind the label and encrypts by padding. -/
def paddingCrypto : Crypto where
  sha data := ⟨(data.drop 9).takeD 32 0, List.takeD_length _ _ _⟩
  keypair _ := (List.Vector.replicate _ 0, List.Vector.replicate _ 0)
  encrypt message _ _ := ⟨message.toList ++ zeros 736, by
    rw [List.length_append, message.toList_length, length_zeros]⟩
  decrypt ciphertext _ := block ciphertext 0 32
  inverts _ message _ := @block_eq _ _ _ [] (zeros 736) 0 32 message rfl rfl (by decide)

/-- One of two devices that name each other. -/
def pairedDevice (first : Bool) : NodeConfig where
  responder := ⟨0, 0⟩
  deviceId := .replicate 32 (if first then 1 else 2)
  peerId := .replicate 32 (if first then 2 else 1)
  emulatedSramRaw := .replicate 32 0
  emulatedSramHelper := .replicate 32 0
  emulatedBsPufSecret := .replicate 32 0

def pairedLedger : CredentialLedger where
  record identityHash slot :=
    if slot = 0 then
      if identityHash = (pairedDevice true).identityHash paddingCrypto then
        some ((pairedDevice true).credential paddingCrypto 0)
      else some ((pairedDevice false).credential paddingCrypto 0)
    else none
  index tid :=
    if tid = (pairedDevice true).tid paddingCrypto 0 then
      some ((pairedDevice true).credential paddingCrypto 0)
    else if tid = (pairedDevice false).tid paddingCrypto 0 then
      some ((pairedDevice false).credential paddingCrypto 0)
    else none

/-- The object of a paired device after `begin`. -/
def pairedProtocol (first : Bool) : ApqeProtocol where
  config := pairedDevice first
  puf := (pairedDevice first).puf paddingCrypto
  identityHash := (pairedDevice first).identityHash paddingCrypto
  peerIdentityHash := paddingCrypto.sha (pairedDevice first).peerId.toList
  publicKey := .replicate _ 0
  secretKey := .replicate _ 0
  m1 := .replicate _ 0
  m2 := .replicate _ 0
  m3 := .replicate _ 0
  result := .replicate _ 0
  runtimeOwnCredential := (pairedDevice first).credential paddingCrypto 0
  runtimePeerCredential := (pairedDevice first).credential paddingCrypto 0
  metrics := {}

theorem paired_tid_ne : (pairedDevice false).tid paddingCrypto 0 ≠
    (pairedDevice true).tid paddingCrypto 0 := by
  intro same
  exact absurd (congrArg List.Vector.head same) (by decide)

theorem paired_identityHash_ne : (pairedDevice false).identityHash paddingCrypto ≠
    (pairedDevice true).identityHash paddingCrypto := by
  intro same
  exact absurd (congrArg List.Vector.head same) (by decide)

theorem pairedLedger_returns : pairedLedger.Returns paddingCrypto
    {e | ∃ first, e = (pairedDevice first, 0)} := by
  refine ⟨?_, ?_, ?_⟩
  · rintro _ ⟨_ | _, rfl⟩
    · simp [pairedLedger, paired_identityHash_ne]
    · simp [pairedLedger]
  · rintro _ ⟨_ | _, rfl⟩
    · simp [pairedLedger, paired_tid_ne]
    · simp [pairedLedger]
  · intro tid credential found
    simp only [pairedLedger] at found
    split at found
    · rename_i same
      exact ⟨_, ⟨true, rfl⟩, same.symm, (Option.some.inj found).symm⟩
    · split at found
      · rename_i same
        exact ⟨_, ⟨false, rfl⟩, same.symm, (Option.some.inj found).symm⟩
      · cases found

/-- A pair of devices enrolled for one slot. -/
theorem honest_session_agrees_paired :
    ∃ key, Exchanged paddingCrypto pairedLedger 1 0 (pairedProtocol true) (pairedProtocol false)
        (fun _ => .replicate _ 3) (fun _ => .replicate _ 4) (some key) (some key) ∧
      ∀ resultI resultR, Exchanged paddingCrypto pairedLedger 1 0 (pairedProtocol true)
        (pairedProtocol false) (fun _ => .replicate _ 3) (fun _ => .replicate _ 4) resultI resultR →
          resultI = some key ∧ resultR = some key := by
  refine honest_session_agrees paddingCrypto (pairedDevice true) (pairedDevice false) 0 rfl rfl
    {e | ∃ first, e = (pairedDevice first, 0)} ⟨true, rfl⟩ ⟨false, rfl⟩ ?_ pairedLedger
    pairedLedger_returns 1 (pairedProtocol true) (pairedProtocol false) ⟨rfl, rfl, rfl, rfl⟩
    ⟨rfl, rfl, rfl, rfl⟩ _ _
  rintro _ ⟨_ | _, rfl⟩ _ ⟨_ | _, rfl⟩ same
  · rfl
  · exact absurd same paired_tid_ne
  · exact absurd same.symm paired_tid_ne
  · rfl

end Pair

end Apqe
