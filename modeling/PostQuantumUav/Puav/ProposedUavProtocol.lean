import PostQuantumUav.Puav.ProtocolCalls

/-!
# The sessions of the proposed protocol

`ProposedUavProtocol.cpp` as routines over the protocol object: the stored counter, the
key encapsulation, and both sides of a session, cut into one routine for each message.
A session that succeeds finishes with the keys and messages that it holds, local
variables in the source.

A message is put into its buffer when all of its parts are known; what an aborted
session leaves in buffers that the next session zeroes is left out, and so are the
printed reports. `constantTimeEqual` on two blocks is their equality, and the jump to
`cleanup` is a failure that the cleanup follows.
-/

namespace Puav.ProposedUavProtocol

open Interaction Cell Buffer

variable {α κ : Type} [Cell α]

def receiveTimeoutMs : UInt32 := 8000

abbrev resultBytes : Nat := 116

section Counter

def reserveQ : Method α κ UInt32 := do
  let protocol ← get
  let nextQ : UInt32 ← call (.getUInt protocol.config.firstQ)
  let endQ := protocol.config.firstQ + protocol.config.numberOfSessions
  guard (¬ (nextQ < protocol.config.firstQ ∨ nextQ ≥ endQ ∨ nextQ ≥ .ofNat lmsLeaves))
  -- A crash from here on may skip an index, but does not use one again.
  let stored : Nat ← call (.putUInt (nextQ + 1))
  guard (stored ≠ 0)
  pure nextQ

end Counter

section Kem

def freeKem : Method α κ Unit := do
  let protocol ← get
  if protocol.kemInitialized then
    let _ ← call .kemFree
    modify fun protocol => { protocol with kemInitialized := false, kemKey := none }

def initializeKem : Method α κ Unit := do
  freeKem
  Routine.check (call .kemInit)
  modify fun protocol => { protocol with kemInitialized := true }

/-- Key generation and export in the initiator's session. -/
def timedMakeKey : Method α κ (KemPublicKey α) :=
  timed (fun us metrics => { metrics with kemUs := metrics.kemUs + us }) do
    let key : κ ← Routine.orFail (call .kemMakeKey)
    modify fun protocol => { protocol with kemKey := some key }
    Routine.orFail (call (.kemEncodePublicKey key))

/-- Import and encapsulation in the responder's session. -/
def timedEncapsulate (publicKey : KemPublicKey α) : Method α κ (KemCiphertext α × Hash α) :=
  timed (fun us metrics => { metrics with kemUs := metrics.kemUs + us }) do
    let key : κ ← Routine.orFail (call (.kemDecodePublicKey publicKey))
    modify fun protocol => { protocol with kemKey := some key }
    Routine.orFail (call (.kemEncapsulate key))

def timedDecapsulate (ciphertext : KemCiphertext α) : Method α κ (Hash α) := do
  let protocol ← get
  timed (fun us metrics => { metrics with kemUs := metrics.kemUs + us }) do
    let key : κ ← Routine.orFail (pure protocol.kemKey)
    Routine.orFail (call (.kemDecapsulate key ciphertext))

end Kem

section Records

def validatePeerRecord (version : UInt32) : Method α κ Unit := do
  let protocol ← get
  let record := protocol.peerRecord
  guard (record.ready = true ∧ record.version = version ∧
    record.version = protocol.config.peerCredentialVersion ∧
    record.suiteId = suiteIdForMode protocol.config.pathMode ∧
    record.status = credentialStatusActive)
  if record.expiryUnix ≠ 0 then
    let now : Int ← call .time
    guard (¬ (now < 1700000000 ∨ now > record.expiryUnix.toNat))

/-- `obtainPeerPath`; `carried` is the path of the message, which the other mode does not have. -/
def obtainPeerPath (version q : UInt32) (carried : PathCells α) : Method α κ (PathCells α) := do
  let protocol ← get
  match protocol.config.pathMode with
  | .signerCarried => pure carried
  | .repositoryAssisted =>
      let (path, operation) : PathCells α × RepositoryOperationMetrics ←
        Routine.orFail (call (.fetchPeerPath version q))
      modify fun protocol => { protocol with metrics := { protocol.metrics with
        repositoryUs := protocol.metrics.repositoryUs + operation.elapsedUs
        repositoryTxBytes := protocol.metrics.repositoryTxBytes + operation.txBytes
        repositoryRxBytes := protocol.metrics.repositoryRxBytes + operation.rxBytes } }
      pure path

end Records

section Keys

/-- `PufFeProvider::reconstruct` and `deriveLmsSeed`, measured one by one. -/
def timedRuntimeSeed : Method α κ (Hash α) := do
  let protocol ← get
  let pufRoot : Hash α ←
    timed (fun us metrics => { metrics with pufFeUs := metrics.pufFeUs + us })
      (Routine.orFail (call .reconstruct))
  timedHkdf pufRoot.toList [] (lmsSeedInfo protocol.config.deviceId
    protocol.config.credentialVersion protocol.config.lmsIdentifier) hashBytes

structure SessionKeys (α : Type) where
  sessionKey : Hash α
  confirmA : Hash α
  confirmB : Hash α

def deriveSessionKeys (sharedSecret transcriptHash : Hash α) : Method α κ (SessionKeys α) := do
  let material ← timedHkdf sharedSecret.toList transcriptHash.toList
    (hashInput domainUavAke transcriptHash) sessionKeyMaterialBytes
  pure ⟨block material 0 hashBytes, block material hashBytes hashBytes,
    block material (2 * hashBytes) hashBytes⟩

def computeConfirmationTag (domain : UInt8) (confirmationKey transcriptHash : Hash α) :
    Method α κ (Hash α) :=
  timedHmac confirmationKey.toList (hashInput domain transcriptHash)

def computeSid0 : Method α κ (Hash α) := do
  let protocol ← get
  timedSha (sid0Input protocol.m0 protocol.m1)

/-- The cells of `m_m2` in the mode of the configuration. -/
def sentM2 (protocol : ProposedUavProtocol α κ) : List α :=
  slice protocol.m2.toList 0 (m2BytesForMode protocol.config.pathMode)

/-- The inner message in `m_m3`. -/
def innerM3 (protocol : ProposedUavProtocol α κ) : List α :=
  slice protocol.m3.toList 36 (m3InnerBytesForMode protocol.config.pathMode)

/-- The hash of all messages; a message that is longer than its length field can say fails. -/
def timedTranscriptHash (sid : Hash α) (m2Length : Nat) (m3Inner : List α) :
    Method α κ (Hash α) := do
  let protocol ← get
  timed (fun us metrics => { metrics with shaUs := metrics.shaUs + us }) do
    guard (m2Length ≤ 65535 ∧ m3Inner.length ≤ 65535)
    sha256 (transcriptInput sid protocol.m0 protocol.m1 (slice protocol.m2.toList 0 m2Length)
      m3Inner)

/-- The keys of a session over its transcript, with all that the transcript is made of. -/
def deriveView (sid sharedSecret : Hash α) (inner : List α) : Method α κ (View α) := do
  let protocol ← get
  let transcriptHash ← timedTranscriptHash sid (m2BytesForMode protocol.config.pathMode) inner
  let keys ← deriveSessionKeys sharedSecret transcriptHash
  pure ⟨protocol.m0, protocol.m1, protocol.sentM2, inner, sid, transcriptHash, keys.sessionKey,
    keys.confirmA, keys.confirmB⟩

def finalizeMetrics (metrics : LocalMetrics) : LocalMetrics :=
  { metrics with totalCryptoUs := metrics.shaUs + metrics.hmacUs + metrics.lmotsSignUs +
      metrics.lmotsVerifyUs + metrics.kemUs + metrics.pufFeUs }

end Keys

section Signing

def buildM2SignedInput (sid : Hash α) (version q : UInt32) (publicKey : KemPublicKey α) :
    Method α κ Unit :=
  modify fun protocol =>
    let mu := muA sid protocol.config.idA protocol.config.idB version publicKey
    { protocol with mu := mu, signInput := signedInput mu q }

def buildM3SignedInput (sid hashM2 : Hash α) (version q : UInt32)
    (ciphertext : KemCiphertext α) : Method α κ Unit :=
  modify fun protocol =>
    let mu := muB sid hashM2 protocol.config.idA protocol.config.idB version ciphertext
    { protocol with mu := mu, signInput := signedInput mu q }

/-- `m_lms.sign` on `m_signInput`. -/
def timedSign (q : UInt32) (runtimeSeed : Hash α) : Method α κ (SignatureCells α) := do
  let protocol ← get
  timed (fun us metrics => { metrics with lmotsSignUs := metrics.lmotsSignUs + us })
    (Routine.orFail (call (.sign q protocol.signInput.toList runtimeSeed)))

/-- The path that is attached in the signer-carried mode. -/
def attachPath (q : UInt32) : Method α κ (Option (PathCells α)) := do
  let protocol ← get
  match protocol.config.pathMode with
  | .repositoryAssisted => pure none
  | .signerCarried =>
      let path : PathCells α ← Routine.orFail (call (.extractPath q))
      pure (some path)

/-- `LmotsLms::verify` of `m_signInput` under the peer's record. -/
def timedVerify (q : UInt32) (signature : SignatureCells α) (path : PathCells α) :
    Method α κ Unit := do
  let protocol ← get
  Routine.check
    (timed (fun us metrics => { metrics with lmotsVerifyUs := metrics.lmotsVerifyUs + us })
      (call (.verify q protocol.signInput.toList signature protocol.peerRecord.identifier path
        protocol.peerRecord.root)))

end Signing

section Transport

def sendProtocolMessage (destination : Transport.Endpoint) (type : UInt8) (session : UInt32)
    (data : List α) (countAsProtocol : Bool) : Method α κ Unit := do
  let framedBytes : UInt32 ← Routine.orFail (call (.sendMessage destination type session data))
  modify fun protocol =>
    if countAsProtocol then
      { protocol with metrics := { protocol.metrics with
          appTxBytes := protocol.metrics.appTxBytes + .ofNat data.length
          framedTxBytes := protocol.metrics.framedTxBytes + framedBytes } }
    else protocol

/-- `receiveProtocolMessage`; `store` puts what was received into the message's buffer. -/
def receiveProtocolMessage (expectedType : UInt8) (expectedSession : UInt32)
    (capacity expectedLength : Nat)
    (store : List α → ProposedUavProtocol α κ → ProposedUavProtocol α κ)
    (countAsProtocol : Bool) : Method α κ Transport.Received := do
  let (received, cells) : Option Transport.Received × List α ←
    call (.receiveMessage expectedType expectedSession capacity receiveTimeoutMs)
  modify (store cells)
  let packet ← Routine.orFail (pure received)
  guard (expectedLength = 0 ∨ packet.length = expectedLength)
  modify fun protocol =>
    if countAsProtocol then
      { protocol with metrics := { protocol.metrics with
          appRxBytes := protocol.metrics.appRxBytes + .ofNat packet.length
          framedRxBytes := protocol.metrics.framedRxBytes + .ofNat packet.framedBytes } }
    else protocol
  pure packet

/-- The buffers that both roles zero at the start of a session, and its new metrics. -/
def cleared (protocol : ProposedUavProtocol α κ) : ProposedUavProtocol α κ :=
  { protocol with
    m0 := .replicate _ (ofByte 0)
    m1 := .replicate _ (ofByte 0)
    m2 := .replicate _ (ofByte 0)
    m3 := .replicate _ (ofByte 0)
    m4 := .replicate _ (ofByte 0)
    metrics := {} }

/-- What follows the label `cleanup`. -/
def cleanup : Method α κ Unit := do
  freeKem
  modify fun protocol => { protocol with
    mu := .replicate _ (ofByte 0)
    signInput := .replicate _ (ofByte 0) }

/-- Run the part of a session that may jump to `cleanup`. -/
def cleaned {β : Type} (body : Method α κ β) : Method α κ β := do
  let outcome ← Routine.attempt body
  cleanup
  Routine.orFail (pure outcome)

end Transport

section Initiator

variable [DecidableEq α]

def storeM1 (cells : List α) (protocol : ProposedUavProtocol α κ) : ProposedUavProtocol α κ :=
  { protocol with m1 := overwrite protocol.m1 cells }

def storeM3 (cells : List α) (protocol : ProposedUavProtocol α κ) : ProposedUavProtocol α κ :=
  { protocol with m3 := overwrite protocol.m3 cells }

def storeResult (cells : List α) (protocol : ProposedUavProtocol α κ) :
    ProposedUavProtocol α κ :=
  { protocol with result := overwrite protocol.result cells }

/-- `buildM0` with a new nonce, which is returned. -/
def buildM0 : Method α κ (Nonce α) := do
  let nonceA : Nonce α ← call .fillNonce
  modify fun protocol => { protocol with m0 := m0Message protocol.config nonceA }
  pure nonceA

def sendM0 (session : UInt32) : Method α κ Unit := do
  let protocol ← get
  sendProtocolMessage protocol.config.responder msgM0Req session protocol.m0.toList true

def receiveM1 (session : UInt32) (nonceA : Nonce α) : Method α κ Transport.Received := do
  let packet ← receiveProtocolMessage msgM1Chal session m1Bytes m1Bytes storeM1 true
  let protocol ← get
  guard (ValidM1 protocol.config protocol.m1 nonceA)
  pure packet

/-- M2 with a signature under a newly reserved index; the hash of M2 is returned. -/
def sendM2 (session : UInt32) (destination : Transport.Endpoint) (sid : Hash α)
    (publicKey : KemPublicKey α) : Method α κ (Hash α) := do
  let protocol ← get
  let version := protocol.config.credentialVersion
  let qA ← reserveQ
  let runtimeSeed ← timedRuntimeSeed
  buildM2SignedInput sid version qA publicKey
  let signature ← timedSign qA runtimeSeed
  let path ← attachPath qA
  modify fun protocol => { protocol with
    m2 := overwrite protocol.m2 (m2Message sid version qA publicKey signature path) }
  let protocol ← get
  let hashM2 ← timedSha protocol.sentM2
  sendProtocolMessage destination msgM2Init session protocol.sentM2 true
  pure hashM2

/-- The checks on M3 up to the signature of B; the packet is returned. -/
def receiveM3 (session : UInt32) (sid hashM2 : Hash α) : Method α κ Transport.Received := do
  let protocol ← get
  let m3InnerLength := m3InnerBytesForMode protocol.config.pathMode
  let packet ← receiveProtocolMessage msgM3RespFin session m3MaxBytes
    (m3BytesForMode protocol.config.pathMode) storeM3 true
  let protocol ← get
  guard (readByte protocol.m3.toList 0 = protocolVersion ∧
    readByte protocol.m3.toList 1 = msgM3RespFin ∧ block protocol.m3 2 hashBytes = sid ∧
    (getU16 (slice protocol.m3.toList 34 2)).toNat = m3InnerLength)
  guard (readByte protocol.m3.toList 36 = protocolVersion ∧
    readByte protocol.m3.toList 37 = msgM3Inner ∧ block protocol.m3 38 hashBytes = sid)
  let versionB := getU32 (slice protocol.m3.toList 70 4)
  let qB := getU32 (slice protocol.m3.toList 74 4)
  guard (qB < .ofNat lmsLeaves)
  validatePeerRecord versionB
  let peerPath ← obtainPeerPath versionB qB (block protocol.m3 (36 + m3InnerBaseBytes) lmsPathBytes)
  buildM3SignedInput sid hashM2 versionB qB (block protocol.m3 78 mlkemCiphertextBytes)
  timedVerify qB (block protocol.m3 846 lmotsSignatureBytes) peerPath
  pure packet

/-- Decapsulation, the session keys and the comparison of tau_B. -/
def confirmB (sid : Hash α) : Method α κ (View α) := do
  let protocol ← get
  let sharedSecret ← timedDecapsulate (block protocol.m3 78 mlkemCiphertextBytes)
  let view ← deriveView sid sharedSecret protocol.innerM3
  let expectedTauB ← computeConfirmationTag domainBConfirm view.confirmB view.transcriptHash
  guard (expectedTauB.toList =
    slice protocol.m3.toList (36 + m3InnerBytesForMode protocol.config.pathMode) hmacBytes)
  note .tauBVerified view
  pure view

def sendM4 (session : UInt32) (destination : Transport.Endpoint) (view : View α) :
    Method α κ Unit := do
  let tauA ← computeConfirmationTag domainAConfirm view.confirmA view.transcriptHash
  modify fun protocol => { protocol with m4 := m4Message view.sid tauA }
  let protocol ← get
  sendProtocolMessage destination msgM4InitFin session protocol.m4.toList true

/-- The responder's measurements, which end the initiator's session. -/
def receiveResult (session : UInt32) : Method α κ Unit := do
  let _ ← receiveProtocolMessage msgResult session 128 resultBytes storeResult false
  let _ ← espTimer
  modify fun protocol => { protocol with metrics := finalizeMetrics protocol.metrics }
  let protocol ← get
  guard (readByte protocol.result.toList 0 = resultOk)

/-- The initiator's session up to its cleanup. -/
def initiatorSession (session : UInt32) : Method α κ (View α) := do
  let nonceA ← buildM0
  let protocolStart ← espTimer
  sendM0 session
  let packet ← receiveM1 session nonceA
  let sid ← computeSid0
  initializeKem
  let publicKey ← timedMakeKey
  let hashM2 ← sendM2 session packet.source sid publicKey
  let packet ← receiveM3 session sid hashM2
  let view ← confirmB sid
  sendM4 session packet.source view
  let now ← espTimer
  modify fun protocol => { protocol with metrics := { protocol.metrics with
    protocolUs := now - protocolStart } }
  receiveResult session
  pure view

/-- `runInitiatorSession`. -/
def runInitiatorSession : Method α κ (View α) := do
  let random : UInt32 ← call .espRandom
  modify cleared
  cleaned (initiatorSession (random ||| 1))

end Initiator

section Responder

variable [DecidableEq α]

def storeM0 (cells : List α) (protocol : ProposedUavProtocol α κ) : ProposedUavProtocol α κ :=
  { protocol with m0 := overwrite protocol.m0 cells }

def storeM2 (cells : List α) (protocol : ProposedUavProtocol α κ) : ProposedUavProtocol α κ :=
  { protocol with m2 := overwrite protocol.m2 cells }

def storeM4 (cells : List α) (protocol : ProposedUavProtocol α κ) : ProposedUavProtocol α κ :=
  { protocol with m4 := overwrite protocol.m4 cells }

/-- `buildM1` with a new nonce. -/
def buildM1 (nonceA : Nonce α) : Method α κ Unit := do
  let nonceB : Nonce α ← call .fillNonce
  modify fun protocol => { protocol with m1 := m1Message protocol.config nonceA nonceB }

/-- The answer to M0; SID0 is returned. -/
def sendM1 (session : UInt32) (destination : Transport.Endpoint) : Method α κ (Hash α) := do
  let protocol ← get
  let nonceA := block protocol.m0 66 nonceBytes nonceA_fits
  guard (ValidM0 protocol.config protocol.m0 nonceA)
  buildM1 nonceA
  let sid ← computeSid0
  let protocol ← get
  sendProtocolMessage destination msgM1Chal session protocol.m1.toList true
  pure sid

/-- The checks on M2 up to the signature of A; its index and the hash of M2 are returned. -/
def receiveM2 (session : UInt32) (sid : Hash α) : Method α κ (UInt32 × Hash α) := do
  let protocol ← get
  let _ ← receiveProtocolMessage msgM2Init session m2MaxBytes
    (m2BytesForMode protocol.config.pathMode) storeM2 true
  let protocol ← get
  guard (readByte protocol.m2.toList 0 = protocolVersion ∧
    readByte protocol.m2.toList 1 = msgM2Init ∧ block protocol.m2 2 hashBytes = sid)
  let versionA := getU32 (slice protocol.m2.toList 34 4)
  let qA := getU32 (slice protocol.m2.toList 38 4)
  guard (qA < .ofNat lmsLeaves)
  validatePeerRecord versionA
  let hashM2 ← timedSha protocol.sentM2
  let peerPath ← obtainPeerPath versionA qA (block protocol.m2 m2BaseBytes lmsPathBytes)
  buildM2SignedInput sid versionA qA (block protocol.m2 42 mlkemPublicKeyBytes)
  timedVerify qA (block protocol.m2 842 lmotsSignatureBytes) peerPath
  pure (qA, hashM2)

/-- M3 with a signature under a newly reserved index and tau_B; the index and the keys are
returned. -/
def sendM3 (session : UInt32) (destination : Transport.Endpoint) (sid hashM2 : Hash α)
    (ciphertext : KemCiphertext α) (sharedSecret : Hash α) : Method α κ (UInt32 × View α) := do
  let protocol ← get
  let version := protocol.config.credentialVersion
  let qB ← reserveQ
  let runtimeSeed ← timedRuntimeSeed
  buildM3SignedInput sid hashM2 version qB ciphertext
  let signature ← timedSign qB runtimeSeed
  let path ← attachPath qB
  let inner := m3Inner sid version qB ciphertext signature path
  let view ← deriveView sid sharedSecret inner
  note .keysDerived view
  let tauB ← computeConfirmationTag domainBConfirm view.confirmB view.transcriptHash
  modify fun protocol => { protocol with
    m3 := overwrite protocol.m3 (m3Message sid inner tauB) }
  let protocol ← get
  sendProtocolMessage destination msgM3RespFin session
    (slice protocol.m3.toList 0 (m3BytesForMode protocol.config.pathMode)) true
  pure (qB, view)

/-- The check of tau_A, after which the responder accepts. -/
def receiveM4 (session : UInt32) (view : View α) : Method α κ Unit := do
  let _ ← receiveProtocolMessage msgM4InitFin session m4Bytes m4Bytes storeM4 true
  let protocol ← get
  guard (readByte protocol.m4.toList 0 = protocolVersion ∧
    readByte protocol.m4.toList 1 = msgM4InitFin ∧ block protocol.m4 2 hashBytes = view.sid)
  let expectedTauA ← computeConfirmationTag domainAConfirm view.confirmA view.transcriptHash
  guard (expectedTauA = block protocol.m4 34 hmacBytes)

/-- The measurements of the responder. -/
def resultRecord (qA qB : UInt32) (metrics : LocalMetrics) (freeHeap minFreeHeap : UInt32) :
    List α :=
  [ofByte resultOk, ofByte 0, ofByte 0, ofByte 0] ++ putU32 qA ++ putU32 qB ++
    putU64 metrics.protocolUs ++ putU64 metrics.totalCryptoUs ++ putU64 metrics.shaUs ++
    putU64 metrics.hmacUs ++ putU64 metrics.lmotsSignUs ++ putU64 metrics.lmotsVerifyUs ++
    putU64 metrics.kemUs ++ putU64 metrics.pufFeUs ++ putU64 metrics.repositoryUs ++
    putU32 metrics.appTxBytes ++ putU32 metrics.appRxBytes ++ putU32 metrics.framedTxBytes ++
    putU32 metrics.framedRxBytes ++ putU32 metrics.repositoryTxBytes ++
    putU32 metrics.repositoryRxBytes ++ putU32 freeHeap ++ putU32 minFreeHeap

/-- RESULT; a responder that cannot send it has accepted all the same. -/
def sendResult (session : UInt32) (destination : Transport.Endpoint) (qA qB : UInt32) :
    Method α κ Unit := do
  let freeHeap : UInt32 ← call .getFreeHeap
  let minFreeHeap : UInt32 ← call .getMinFreeHeap
  modify fun protocol => { protocol with
    result := overwrite protocol.result (resultRecord qA qB protocol.metrics freeHeap minFreeHeap) }
  let protocol ← get
  let _ ← Routine.attempt (sendProtocolMessage destination msgResult session
    (slice protocol.result.toList 0 resultBytes) false)

/-- The responder's session up to its cleanup. -/
def responderSession (packet : Transport.Received) : Method α κ (View α) := do
  let responderStart ← espTimer
  let sid ← sendM1 packet.session packet.source
  let (qA, hashM2) ← receiveM2 packet.session sid
  initializeKem
  let protocol ← get
  let (ciphertext, sharedSecret) ← timedEncapsulate (block protocol.m2 42 mlkemPublicKeyBytes)
  let (qB, view) ← sendM3 packet.session packet.source sid hashM2 ciphertext sharedSecret
  receiveM4 packet.session view
  let now ← espTimer
  modify fun protocol => { protocol with metrics := finalizeMetrics { protocol.metrics with
    protocolUs := now - responderStart } }
  note .accepted view
  sendResult packet.session packet.source qA qB
  pure view

/-- `runResponderOnce`; it succeeds when it sets `accepted`. -/
def runResponderOnce : Method α κ (View α) := do
  modify fun protocol => { cleared protocol with result := .replicate _ (ofByte 0) }
  let packet ← receiveProtocolMessage msgM0Req 0 m0Bytes m0Bytes storeM0 true
  cleaned (responderSession packet)

end Responder

end Puav.ProposedUavProtocol
