import PostQuantumUav.Apqe.ProtocolCalls

/-!
# The sessions of the comparison protocol

`ApqeProtocol.cpp` as routines over the protocol object: the credential of a slot,
both sides of a session, and the encoding of the responder's measurements. A session
that returns true finishes with the session key, a local variable in the source.

A message is received into the front of its buffer, and a buffer that is sent was
filled whole before. The printed reports are left out.
-/

namespace Apqe.ApqeProtocol

open Interaction Cell Buffer SoftwarePuf

abbrev directReceiveTimeoutMs : UInt32 := 10000

/-- `constantTimeEqual` on two arrays of one size. -/
def same {length : Nat} (a b : List.Vector UInt8 length) : Prop :=
  Puav.constantTimeEqual a.toList b.toList length = true

instance {length : Nat} (a b : List.Vector UInt8 length) : Decidable (same a b) :=
  inferInstanceAs (Decidable (_ = true))

section Credentials

def deriveChallenge (slot : UInt16) : Method Block := do
  let protocol ← get
  sha256 (label "APQE-CHAL" ++ protocol.config.deviceId.toList ++ putU16 slot)

/-- The input of the hash that protects a credential. -/
def verifyInput (identityHash w : Block) (publicKey : PublicKey) : Bytes :=
  identityHash.toList ++ w.toList ++ publicKey.toList

def buildCredential (slot : UInt16) : Method FabricCredential := do
  let protocol ← get
  let challenge ← deriveChallenge slot
  let tid ← protocol.puf.reversibleMap protocol.secretKey challenge
  let response := protocol.puf.commutativeMap challenge
  let challengeHash ← sha256 challenge.toList
  let w := xorBytes response challengeHash
  let verifyHash ← sha256 (verifyInput protocol.identityHash w protocol.publicKey)
  pure ⟨protocol.identityHash, tid, protocol.publicKey, w, verifyHash⟩

end Credentials

section Timed

def timedShaParts (data : Bytes) : Method Block :=
  timed (fun us metrics => { metrics with shaUs := metrics.shaUs + us }) (sha256 data)

def timedReconstruct : Method Block := do
  let protocol ← get
  timed (fun us metrics => { metrics with
    fuzzyReconstructionUs := metrics.fuzzyReconstructionUs + us })
    protocol.puf.reconstructKyberSeed

def timedKeygen (seed : Block) : Method Unit :=
  timed (fun us metrics => { metrics with kyberKeygenUs := metrics.kyberKeygenUs + us }) do
    let (publicKey, secretKey) ← @Routine.perform calls _ (.keypairDeterministic seed)
    modify fun protocol => { protocol with publicKey := publicKey, secretKey := secretKey }

def timedPufMap (input : Block) : Method Block := do
  let protocol ← get
  timed (fun us metrics => { metrics with pufUs := metrics.pufUs + us })
    (pure (protocol.puf.commutativeMap input))

def timedPufInverse (tid : Block) : Method Block := do
  let protocol ← get
  timed (fun us metrics => { metrics with pufUs := metrics.pufUs + us })
    (protocol.puf.reversibleInverse protocol.secretKey tid)

/-- `verifyCredential` with the metrics of a session. -/
def verifyCredential (credential : FabricCredential) : Method Unit := do
  let expected ← timedShaParts
    (verifyInput credential.identityHash credential.w credential.publicKey)
  guard (same expected credential.verifyHash)

def queryByIdentitySlot (identityHash : Block) (slot : UInt16) : Method FabricCredential := do
  let protocol ← get
  let (found, usage) ← @Routine.perform calls _
    (.queryByIdentitySlot identityHash slot protocol.metrics.usage)
  modify fun protocol => { protocol with metrics := protocol.metrics.withUsage usage }
  let some credential := found | failure
  pure credential

def queryByTid (tid : Block) : Method FabricCredential := do
  let protocol ← get
  let (found, usage) ← @Routine.perform calls _ (.queryByTid tid protocol.metrics.usage)
  modify fun protocol => { protocol with metrics := protocol.metrics.withUsage usage }
  let some credential := found | failure
  pure credential

end Timed

section Messages

/-- One of the four blocks of `ei`. -/
def eiBlock (ei : List.Vector UInt8 eiBytes) (i : Fin eiBlocks) : Block :=
  block ei (i * kyberMessageBytes) kyberMessageBytes (by
    have bound := i.isLt
    simp only [eiBlocks, kyberMessageBytes, eiBytes] at bound ⊢
    omega)

/-- One of the four ciphertexts in `m_m1`. -/
def m1Block (m1 : List.Vector UInt8 m1Bytes) (i : Fin eiBlocks) : Ciphertext :=
  block m1 (i * kyberCiphertextBytes) kyberCiphertextBytes (by
    have bound := i.isLt
    simp only [eiBlocks, kyberCiphertextBytes, m1Bytes, hashBytes] at bound ⊢
    omega)

/-- One round of the initiator's loop; the ciphertext goes to its place in `m_m1`. -/
def encryptBlock (ei : List.Vector UInt8 eiBytes) (i : Fin eiBlocks) : Method Unit := do
  let coins ← randomBytes
  let protocol ← get
  timed (fun us metrics => { metrics with kyberEncryptUs := metrics.kyberEncryptUs + us }) do
    let ciphertext ← @Routine.perform calls _
      (.encrypt (eiBlock ei i) protocol.runtimePeerCredential.publicKey coins)
    modify fun protocol => { protocol with
      m1 := writeAt protocol.m1 (i * kyberCiphertextBytes) ciphertext.toList }

/-- One round of the responder's loop. -/
def decryptBlock (ei : List.Vector UInt8 eiBytes) (i : Fin eiBlocks) :
    Method (List.Vector UInt8 eiBytes) := do
  let protocol ← get
  timed (fun us metrics => { metrics with kyberDecryptUs := metrics.kyberDecryptUs + us }) do
    let message ← @Routine.perform calls _
      (.decrypt (m1Block protocol.m1 i) protocol.secretKey)
    pure (writeAt ei (i * kyberMessageBytes) message.toList)

/-- `ei` of the initiator. -/
def eiOf (tid ci ni peerTid : Block) : List.Vector UInt8 eiBytes :=
  ⟨tid.toList ++ ci.toList ++ ni.toList ++ peerTid.toList, by
    simp only [List.length_append, List.Vector.toList_length]
    rfl⟩

/-- `maskPair`: both parts under one key, one after the other. -/
def maskPair (key first second : Block) : Bytes :=
  (xorBytes first key).toList ++ (xorBytes second key).toList

/-- `sendMessage` with the counters of the session. -/
def sendCounted (destination : Transport.Endpoint) (type : UInt8) (session : UInt32)
    (data : Bytes) : Method Unit := do
  let framed ← sendMessage destination type session data
  modify fun protocol => { protocol with metrics := { protocol.metrics with
    directAppTx := protocol.metrics.directAppTx + .ofNat data.length
    directFramedTx := protocol.metrics.directFramedTx + framed } }

/-- Count a message that was received. -/
def countReceived (received : Transport.Received) (length : Nat) : Method Unit :=
  modify fun protocol => { protocol with metrics := { protocol.metrics with
    directAppRx := protocol.metrics.directAppRx + .ofNat length
    directFramedRx := protocol.metrics.directFramedRx + .ofNat received.framedBytes } }

/-- The measurements that the responder sends. -/
def encodeResult (session : UInt32) (protocolUs : UInt64) (metrics : SessionMetrics)
    (sessionKeyHash : Block) : List.Vector UInt8 resultBytes :=
  ⟨[0] ++ putU32 session ++ putU64 protocolUs ++ putU64 metrics.shaUs ++ putU64 metrics.pufUs ++
    putU64 metrics.fuzzyReconstructionUs ++ putU64 metrics.kyberKeygenUs ++
    putU64 metrics.kyberEncryptUs ++ putU64 metrics.kyberDecryptUs ++
    putU64 metrics.fabricWallUs ++ putU64 metrics.fabricPeerUs ++ putU32 metrics.directAppTx ++
    putU32 metrics.directAppRx ++ putU32 metrics.directFramedTx ++ putU32 metrics.directFramedRx ++
    putU32 metrics.gatewayAppTx ++ putU32 metrics.gatewayAppRx ++ sessionKeyHash.toList ++
    zeros 20, by simp only [List.length_append, length_putU32, length_putU64, length_zeros,
      List.Vector.toList_length, List.length_cons, List.length_nil]⟩

/-- The responder's metrics and the hash of its session key. -/
def decodeResult (input : List.Vector UInt8 resultBytes) (expectedSession : UInt32) :
    Option (SessionMetrics × Block) :=
  let bytes := input.toList
  if readByte bytes 0 ≠ 0 ∨ getU32 (slice bytes 1 4) ≠ expectedSession then none
  else some ({
    protocolUs := getU64 (slice bytes 5 8)
    shaUs := getU64 (slice bytes 13 8)
    pufUs := getU64 (slice bytes 21 8)
    fuzzyReconstructionUs := getU64 (slice bytes 29 8)
    kyberKeygenUs := getU64 (slice bytes 37 8)
    kyberEncryptUs := getU64 (slice bytes 45 8)
    kyberDecryptUs := getU64 (slice bytes 53 8)
    fabricWallUs := getU64 (slice bytes 61 8)
    fabricPeerUs := getU64 (slice bytes 69 8)
    directAppTx := getU32 (slice bytes 77 4)
    directAppRx := getU32 (slice bytes 81 4)
    directFramedTx := getU32 (slice bytes 85 4)
    directFramedRx := getU32 (slice bytes 89 4)
    gatewayAppTx := getU32 (slice bytes 93 4)
    gatewayAppRx := getU32 (slice bytes 97 4) }, block input 101 hashBytes)

end Messages

section Sessions

/-- The initiator's check of the two records that it queried. -/
def verifyCredentials : Method Unit := do
  let protocol ← get
  guard (same protocol.runtimeOwnCredential.identityHash protocol.identityHash)
  guard (same protocol.runtimePeerCredential.identityHash protocol.peerIdentityHash)
  verifyCredential protocol.runtimeOwnCredential
  verifyCredential protocol.runtimePeerCredential
  guard (same protocol.runtimeOwnCredential.publicKey protocol.publicKey)

/-- The first part of the initiator's session: M1. The nonce is returned. -/
def sendM1 (session : UInt32) (slot : UInt16) : Method Block := do
  let seed ← timedReconstruct
  timedKeygen seed
  let protocol ← get
  let own ← queryByIdentitySlot protocol.identityHash slot
  modify fun protocol => { protocol with runtimeOwnCredential := own }
  let peer ← queryByIdentitySlot protocol.peerIdentityHash slot
  modify fun protocol => { protocol with runtimePeerCredential := peer }
  verifyCredentials
  let ci ← timedPufInverse own.tid
  let ni ← randomBytes
  let ei := eiOf own.tid ci ni peer.tid
  (List.finRange eiBlocks).forM (encryptBlock ei)
  let h1 ← timedShaParts ei.toList
  modify fun protocol => { protocol with
    m1 := writeAt protocol.m1 (eiBlocks * kyberCiphertextBytes) h1.toList }
  let protocol ← get
  sendCounted protocol.config.responder msgM1 session protocol.m1.toList
  pure ni

/-- What the initiator keeps between its messages. -/
structure InitiatorKeys where
  tkJi : Block
  tkIj : Block
  tkI : Block
  nj : Block

/-- The initiator on M2: the check of H2 and the keys that follow from it. -/
def receiveM2 (session : UInt32) (ni : Block) : Method InitiatorKeys := do
  let (received, bytes) ← @Routine.perform calls _
    (.receiveMessage msgM2 session m2Bytes directReceiveTimeoutMs)
  modify fun protocol => { protocol with m2 := overwrite protocol.m2 bytes }
  let some received := received | failure
  guard (received.length = m2Bytes)
  countReceived received m2Bytes
  let protocol ← get
  let tkJ := xorBytes (block protocol.m2 0 hashBytes) ni
  let tkJi ← timedPufMap tkJ
  let cj := xorBytes (block protocol.m2 32 hashBytes) tkJi
  let nj := xorBytes (block protocol.m2 64 hashBytes) tkJi
  let expectedH2 ← timedShaParts (tkJi.toList ++ tkJ.toList ++ cj.toList ++ nj.toList)
  guard (same expectedH2 (block protocol.m2 96 hashBytes))
  let cjHash ← timedShaParts cj.toList
  let rj := xorBytes protocol.runtimePeerCredential.w cjHash
  let tkI ← timedPufMap cj
  let tkIj ← timedPufMap rj
  pure ⟨tkJi, tkIj, tkI, nj⟩

/-- M3 of the initiator; the session key is returned. -/
def sendM3 (session : UInt32) (ni : Block) (keys : InitiatorKeys) : Method Block := do
  modify fun protocol => { protocol with
    m3 := writeAt protocol.m3 0 (xorBytes keys.tkI keys.nj).toList }
  let sessionKey ← timedShaParts
    (keys.tkJi.toList ++ keys.tkIj.toList ++ ni.toList ++ keys.nj.toList)
  let h3 ← timedShaParts (keys.tkIj.toList ++ keys.tkI.toList ++ sessionKey.toList)
  modify fun protocol => { protocol with m3 := writeAt protocol.m3 hashBytes h3.toList }
  let protocol ← get
  sendCounted protocol.config.responder msgM3 session protocol.m3.toList
  pure sessionKey

/-- The end of the initiator's session: the responder's key hash is compared. -/
def receiveResult (session : UInt32) (protocolStart : UInt32) (sessionKey : Block) :
    Method Unit := do
  let (received, bytes) ← @Routine.perform calls _
    (.receiveMessage msgResult session resultBytes directReceiveTimeoutMs)
  modify fun protocol => { protocol with result := overwrite protocol.result bytes }
  let some received := received | failure
  guard (received.length = resultBytes)
  let now ← micros
  modify fun protocol => { protocol with metrics := { protocol.metrics with
    confirmedUs := now.toUInt64 - protocolStart.toUInt64 } }
  let protocol ← get
  let some (_, bKeyHash) := decodeResult protocol.result session | failure
  let aKeyHash ← sha256 sessionKey.toList
  guard (same aKeyHash bKeyHash)

/-- `runInitiatorSession`, which finishes with the session key. -/
def runInitiatorSession (session : UInt32) (slot : UInt16) : Method Block := do
  modify fun protocol => { protocol with metrics := {} }
  let protocolStart ← micros
  let ni ← sendM1 session slot
  let keys ← receiveM2 session ni
  let sessionKey ← sendM3 session ni keys
  let now ← micros
  modify fun protocol => { protocol with metrics := { protocol.metrics with
    protocolUs := now.toUInt64 - protocolStart.toUInt64 } }
  receiveResult session protocolStart sessionKey
  pure sessionKey

/-- The parts of M1 that the responder goes on with. -/
structure Opened where
  tidI : Block
  ci : Block
  ni : Block
  tidJ : Block

/-- The responder on M1: decryption and the check of H1. -/
def openM1 : Method Opened := do
  let seed ← timedReconstruct
  timedKeygen seed
  let ei ← (List.finRange eiBlocks).foldlM decryptBlock (List.Vector.replicate _ 0)
  let expectedH1 ← timedShaParts ei.toList
  let protocol ← get
  guard (same expectedH1 (block protocol.m1 (eiBlocks * kyberCiphertextBytes) hashBytes))
  pure ⟨block ei 0 32, block ei 32 32, block ei 64 32, block ei 96 32⟩

/-- What the responder keeps between its messages. -/
structure ResponderKeys where
  tkJi : Block
  ni : Block
  nj : Block

/-- M2 of the responder. -/
def sendM2 (session : UInt32) (source : Transport.Endpoint) (opened : Opened) :
    Method ResponderKeys := do
  let peer ← queryByTid opened.tidI
  modify fun protocol => { protocol with runtimePeerCredential := peer }
  let protocol ← get
  guard (same peer.identityHash protocol.peerIdentityHash)
  verifyCredential peer
  let cj ← timedPufInverse opened.tidJ
  let ciHash ← timedShaParts opened.ci.toList
  let ri := xorBytes peer.w ciHash
  let tkJi ← timedPufMap ri
  let tkJ ← timedPufMap opened.ci
  modify fun protocol => { protocol with
    m2 := writeAt protocol.m2 0 (xorBytes tkJ opened.ni).toList }
  let nj ← randomBytes
  modify fun protocol => { protocol with
    m2 := writeAt protocol.m2 hashBytes (maskPair tkJi cj nj) }
  let h2 ← timedShaParts (tkJi.toList ++ tkJ.toList ++ cj.toList ++ nj.toList)
  modify fun protocol => { protocol with
    m2 := writeAt protocol.m2 (hashBytes + pjBytes) h2.toList }
  let protocol ← get
  sendCounted source msgM2 session protocol.m2.toList
  pure ⟨tkJi, opened.ni, nj⟩

/-- The responder on M3: the session key after the check of H3. -/
def receiveM3 (session : UInt32) (keys : ResponderKeys) : Method Block := do
  let (received, bytes) ← @Routine.perform calls _
    (.receiveMessage msgM3 session m3Bytes directReceiveTimeoutMs)
  modify fun protocol => { protocol with m3 := overwrite protocol.m3 bytes }
  let some received := received | failure
  guard (received.length = m3Bytes)
  countReceived received m3Bytes
  let protocol ← get
  let tkI := xorBytes (block protocol.m3 0 hashBytes) keys.nj
  let tkIj ← timedPufMap tkI
  -- The order of the parts is the initiator's; the paper prints it reversed here.
  let sessionKey ← timedShaParts
    (keys.tkJi.toList ++ tkIj.toList ++ keys.ni.toList ++ keys.nj.toList)
  let expectedH3 ← timedShaParts (tkIj.toList ++ tkI.toList ++ sessionKey.toList)
  guard (same expectedH3 (block protocol.m3 hashBytes hashBytes))
  pure sessionKey

/-- The measurements of the responder, with the hash of its session key. -/
def sendResult (session : UInt32) (source : Transport.Endpoint) (protocolStart : UInt32)
    (sessionKey : Block) : Method Unit := do
  let now ← micros
  modify fun protocol => { protocol with metrics := { protocol.metrics with
    protocolUs := now.toUInt64 - protocolStart.toUInt64 } }
  let keyHash ← sha256 sessionKey.toList
  modify fun protocol => { protocol with
    result := encodeResult session protocol.metrics.protocolUs protocol.metrics keyHash }
  let protocol ← get
  let _ ← sendMessage source msgResult session protocol.result.toList

/-- `runResponderSession`, which finishes with the session key. -/
def runResponderSession (session : UInt32) (incoming : Transport.Received) : Method Block := do
  modify fun protocol => { protocol with metrics := {
    directAppRx := .ofNat m1Bytes
    directFramedRx := .ofNat incoming.framedBytes } }
  let protocolStart ← micros
  let opened ← openM1
  let keys ← sendM2 session incoming.source opened
  let sessionKey ← receiveM3 session keys
  sendResult session incoming.source protocolStart sessionKey
  pure sessionKey

/-- One round of `responderLoop`. The session number of an M1 is arbitrary. -/
def responderLoop : Method Block := do
  let (received, bytes) ← @Routine.perform calls _ (.receiveMessage msgM1 0 m1Bytes 1000)
  modify fun protocol => { protocol with m1 := overwrite protocol.m1 bytes }
  let some received := received | failure
  guard (received.length = m1Bytes)
  runResponderSession received.session received

end Sessions

end Apqe.ApqeProtocol
