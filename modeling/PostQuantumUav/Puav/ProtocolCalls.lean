import PostQuantumUav.Library.Interaction.Routine
import PostQuantumUav.Puav.ProtocolMessages

/-!
# The object of the proposed protocol and its calls

The fields of `ProposedUavProtocol` that `begin` and the sessions read and write, and
what its methods call: the transport, the hash functions, the key encapsulation, the
stored counter, the LMS object, the repository and the clocks.

The metrics of a session are a local variable that is passed by reference; they are a
field here. `note` stands for no call: it marks the three points of the source where
both sides of a session can be compared, and shows the local variables there.
-/

namespace Puav

open Interaction Cell Buffer

structure LocalMetrics where
  shaUs : UInt64 := 0
  hmacUs : UInt64 := 0
  lmotsSignUs : UInt64 := 0
  lmotsVerifyUs : UInt64 := 0
  kemUs : UInt64 := 0
  pufFeUs : UInt64 := 0
  repositoryUs : UInt64 := 0
  totalCryptoUs : UInt64 := 0
  protocolUs : UInt64 := 0
  appTxBytes : UInt32 := 0
  appRxBytes : UInt32 := 0
  framedTxBytes : UInt32 := 0
  framedRxBytes : UInt32 := 0
  repositoryTxBytes : UInt32 := 0
  repositoryRxBytes : UInt32 := 0
  deriving DecidableEq

/-- What one side of a session holds when it has derived its keys. -/
structure View (α : Type) where
  m0 : List.Vector α m0Bytes
  m1 : List.Vector α m1Bytes
  m2 : List α
  inner : List α
  sid : Hash α
  transcriptHash : Hash α
  sessionKey : Hash α
  confirmA : Hash α
  confirmB : Hash α

inductive Milestone where
  /-- The responder has run `deriveSessionKeys`. -/
  | keysDerived
  /-- The initiator's comparison of tau_B succeeded. -/
  | tauBVerified
  /-- The responder sets `accepted`. -/
  | accepted

/-- Cells of type `α`; a value of type `κ` is what `m_kemKey` holds after it is set. -/
structure ProposedUavProtocol (α κ : Type) where
  config : NodeConfig
  peerRecord : PeerPublicRecord
  ready : Bool
  bootSeed : Hash α
  kemInitialized : Bool
  kemKey : Option κ
  m0 : List.Vector α m0Bytes
  m1 : List.Vector α m1Bytes
  m2 : List.Vector α m2MaxBytes
  m3 : List.Vector α m3MaxBytes
  m4 : List.Vector α m4Bytes
  mu : List.Vector α muABytes
  signInput : List.Vector α lmotsSignedObjectBytes
  result : List.Vector α 128
  metrics : LocalMetrics

namespace ProposedUavProtocol

inductive Call (α κ : Type) where
  | espTimer
  | espRandom
  /-- `esp_fill_random` of a nonce. -/
  | fillNonce
  | time
  | getFreeHeap
  | getMinFreeHeap
  | sendMessage (destination : Transport.Endpoint) (type : UInt8) (session : UInt32) (data : List α)
  /-- The message goes to the front of the caller's buffer of `outputCapacity` cells. -/
  | receiveMessage (type : UInt8) (session : UInt32) (outputCapacity : Nat) (timeoutMs : UInt32)
  | sha256 (data : List α)
  | hmacSha256 (key data : List α)
  | hkdfSha256 (ikm salt info : List α) (outputLength : Nat)
  /-- `PufFeProvider::reconstruct` on the configuration. -/
  | reconstruct
  | kemInit
  | kemFree
  | kemMakeKey
  | kemEncodePublicKey (key : κ)
  | kemDecodePublicKey (publicKey : KemPublicKey α)
  | kemEncapsulate (key : κ)
  | kemDecapsulate (key : κ) (ciphertext : KemCiphertext α)
  /-- `m_preferences.getUInt("nextq", default)`. -/
  | getUInt (default : UInt32)
  /-- `m_preferences.putUInt("nextq", value)`; zero reports an error. -/
  | putUInt (value : UInt32)
  /-- `m_lms.sign`. -/
  | sign (q : UInt32) (message : List α) (runtimeSeed : Hash α)
  /-- `m_lms.extractPath`. -/
  | extractPath (q : UInt32)
  | verify (q : UInt32) (message : List α) (signature : SignatureCells α) (identifier : Identifier)
      (path : PathCells α) (root : Digest)
  /-- `m_gcs.fetchPeerPath`. -/
  | fetchPeerPath (version q : UInt32)
  | note (milestone : Milestone) (view : View α)
  /-- `m_preferences.begin`. -/
  | beginPreferences
  | initRng
  | connectWiFi
  /-- `m_transport.begin`. -/
  | beginTransport
  /-- `m_gcs.begin`. -/
  | beginGcs
  /-- `m_lms.initialize`. -/
  | initializeLms (identifier : Identifier) (seed : Hash α)
  /-- `m_lms.buildTree`. -/
  | buildTree
  | enrollOwnRoot (version suiteId : UInt32) (status : UInt8) (expiryUnix : UInt64)
  | enrollOwnPaths (version firstQ count : UInt32)
  | fetchPeerRoot (version : UInt32)

def calls (α κ : Type) : Signature where
  Call := Call α κ
  Answer
    | .espTimer => UInt64
    | .espRandom => UInt32
    | .fillNonce => Nonce α
    | .time => Int
    | .getFreeHeap => UInt32
    | .getMinFreeHeap => UInt32
    | .sendMessage _ _ _ _ => Option UInt32
    | .receiveMessage _ _ _ _ => Option Transport.Received × List α
    | .sha256 _ => Option (Hash α)
    | .hmacSha256 _ _ => Option (Hash α)
    | .hkdfSha256 _ _ _ outputLength => Option (List.Vector α outputLength)
    | .reconstruct => Option (Hash α)
    | .kemInit => Bool
    | .kemFree => Unit
    | .kemMakeKey => Option κ
    | .kemEncodePublicKey _ => Option (KemPublicKey α)
    | .kemDecodePublicKey _ => Option κ
    | .kemEncapsulate _ => Option (KemCiphertext α × Hash α)
    | .kemDecapsulate _ _ => Option (Hash α)
    | .getUInt _ => UInt32
    | .putUInt _ => Nat
    | .sign _ _ _ => Option (SignatureCells α)
    | .extractPath _ => Option (PathCells α)
    | .verify _ _ _ _ _ _ => Bool
    | .fetchPeerPath _ _ => Option (PathCells α × RepositoryOperationMetrics)
    | .note _ _ => Unit
    | .beginPreferences => Bool
    | .initRng => Bool
    | .connectWiFi => Bool
    | .beginTransport => Bool
    | .beginGcs => Bool
    | .initializeLms _ _ => Bool
    | .buildTree => Bool
    | .enrollOwnRoot _ _ _ _ => Bool
    | .enrollOwnPaths _ _ _ => Bool
    | .fetchPeerRoot _ => Option PeerPublicRecord

/-- A method of the protocol; one that returns false fails. -/
abbrev Method (α κ β : Type) := Routine (calls α κ) (ProposedUavProtocol α κ) β

variable {α κ : Type}

section Calls

/-- Make a call. -/
abbrev call (c : Call α κ) : Method α κ ((calls α κ).Answer c) :=
  @Routine.perform (calls α κ) _ c

def espTimer : Method α κ UInt64 := call .espTimer

def sha256 (data : List α) : Method α κ (Hash α) :=
  Routine.orFail (call (.sha256 data))

def hmacSha256 (key data : List α) : Method α κ (Hash α) :=
  Routine.orFail (call (.hmacSha256 key data))

def hkdfSha256 (ikm salt info : List α) (outputLength : Nat) :
    Method α κ (List.Vector α outputLength) :=
  Routine.orFail (call (.hkdfSha256 ikm salt info outputLength))

def note (milestone : Milestone) (view : View α) : Method α κ Unit := call (.note milestone view)

end Calls

section Timed

/-- An operation between two readings of the timer, whose difference is added to a metric. -/
def timed {β : Type} (add : UInt64 → LocalMetrics → LocalMetrics) (operation : Method α κ β) :
    Method α κ β := do
  let start ← espTimer
  let result ← Routine.attempt operation
  let now ← espTimer
  modify fun protocol => { protocol with metrics := add (now - start) protocol.metrics }
  Routine.orFail (pure result)

def timedSha (data : List α) : Method α κ (Hash α) :=
  timed (fun us metrics => { metrics with shaUs := metrics.shaUs + us }) (sha256 data)

def timedHmac (key data : List α) : Method α κ (Hash α) :=
  timed (fun us metrics => { metrics with hmacUs := metrics.hmacUs + us }) (hmacSha256 key data)

def timedHkdf (ikm salt info : List α) (outputLength : Nat) :
    Method α κ (List.Vector α outputLength) :=
  timed (fun us metrics => { metrics with hmacUs := metrics.hmacUs + us })
    (hkdfSha256 ikm salt info outputLength)

end Timed

end ProposedUavProtocol

end Puav
