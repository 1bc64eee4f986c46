import PostQuantumUav.Apqe.FabricUdpClient
import PostQuantumUav.Library.Interaction.Routine

/-!
# The object of the comparison protocol and its calls

The fields of `ApqeProtocol` and `SoftwarePuf`, and what their methods call: the
SHA-256 of the library, the Kyber functions, the random source, the clock in
microseconds, the two queries of the ledger client, and the transport.

The metrics of a session are a local variable that is passed by reference to every
timed method; they are a field here.
-/

namespace Apqe

open Interaction Cell Buffer

abbrev SecretKey := List.Vector UInt8 kyberSecretKeyBytes
abbrev Ciphertext := List.Vector UInt8 kyberCiphertextBytes

structure NodeConfig where
  responder : Transport.Endpoint
  deviceId : Block
  peerId : Block
  emulatedSramRaw : Block
  emulatedSramHelper : Block
  emulatedBsPufSecret : Block

structure SoftwarePuf where
  rawSram : Block
  helper : Block
  commutativeMask : Block
  reversibleSecret : Block

structure SessionMetrics where
  protocolUs : UInt64 := 0
  confirmedUs : UInt64 := 0
  shaUs : UInt64 := 0
  pufUs : UInt64 := 0
  fuzzyReconstructionUs : UInt64 := 0
  kyberKeygenUs : UInt64 := 0
  kyberEncryptUs : UInt64 := 0
  kyberDecryptUs : UInt64 := 0
  fabricWallUs : UInt64 := 0
  fabricPeerUs : UInt64 := 0
  directAppTx : UInt32 := 0
  directAppRx : UInt32 := 0
  directFramedTx : UInt32 := 0
  directFramedRx : UInt32 := 0
  gatewayAppTx : UInt32 := 0
  gatewayAppRx : UInt32 := 0
  deriving DecidableEq

namespace SessionMetrics

/-- The counters that a query of the session takes by reference. -/
def usage (metrics : SessionMetrics) : GatewayUsage :=
  ⟨metrics.fabricPeerUs, metrics.fabricWallUs, metrics.gatewayAppTx, metrics.gatewayAppRx⟩

def withUsage (metrics : SessionMetrics) (usage : GatewayUsage) : SessionMetrics :=
  { metrics with
    fabricPeerUs := usage.fabricUs
    fabricWallUs := usage.wallUs
    gatewayAppTx := usage.appTx
    gatewayAppRx := usage.appRx }

end SessionMetrics

structure ApqeProtocol where
  config : NodeConfig
  puf : SoftwarePuf
  identityHash : Block
  peerIdentityHash : Block
  publicKey : PublicKey
  secretKey : SecretKey
  m1 : List.Vector UInt8 m1Bytes
  m2 : List.Vector UInt8 m2Bytes
  m3 : List.Vector UInt8 m3Bytes
  result : List.Vector UInt8 resultBytes
  runtimeOwnCredential : FabricCredential
  runtimePeerCredential : FabricCredential
  metrics : SessionMetrics

namespace ApqeProtocol

inductive Call where
  | micros
  /-- `CryptoHelpers::sha256Parts` of the parts one after the other. -/
  | sha256 (data : Bytes)
  | randomBytes
  | keypairDeterministic (seed : Block)
  | encrypt (message : Block) (publicKey : PublicKey) (coins : Block)
  | decrypt (ciphertext : Ciphertext) (secretKey : SecretKey)
  /-- The query of `m_fabric`; the counters are passed by reference. -/
  | queryByIdentitySlot (identityHash : Block) (slot : UInt16) (usage : GatewayUsage)
  | queryByTid (tid : Block) (usage : GatewayUsage)
  | sendMessage (destination : Transport.Endpoint) (type : UInt8) (session : UInt32) (data : Bytes)
  /-- The message goes to the front of the caller's buffer of `outputCapacity` bytes. -/
  | receiveMessage (type : UInt8) (session : UInt32) (outputCapacity : Nat) (timeoutMs : UInt32)

def calls : Signature where
  Call := Call
  Answer
    | .micros => UInt32
    | .sha256 _ => Option Block
    | .randomBytes => Block
    | .keypairDeterministic _ => PublicKey × SecretKey
    | .encrypt _ _ _ => Ciphertext
    | .decrypt _ _ => Block
    | .queryByIdentitySlot _ _ _ => Option FabricCredential × GatewayUsage
    | .queryByTid _ _ => Option FabricCredential × GatewayUsage
    | .sendMessage _ _ _ _ => Option UInt32
    | .receiveMessage _ _ _ _ => Option Transport.Received × Bytes

/-- A method of the protocol; one that returns false fails. -/
abbrev Method (α : Type) := Routine calls ApqeProtocol α

section Calls

def micros : Method UInt32 := @Routine.perform calls _ .micros

/-- `CryptoHelpers::sha256` and `sha256Parts`; an error makes every caller return false. -/
def sha256 (data : Bytes) : Method Block := do
  let some digest ← @Routine.perform calls _ (.sha256 data) | failure
  pure digest

def randomBytes : Method Block := @Routine.perform calls _ .randomBytes

def sendMessage (destination : Transport.Endpoint) (type : UInt8) (session : UInt32)
    (data : Bytes) : Method UInt32 := do
  let some framed ← @Routine.perform calls _ (.sendMessage destination type session data) | failure
  pure framed

end Calls

section Bytes

/-- The loop of `xorBytes` and of the maps. -/
def xorBytes {length : Nat} (a b : List.Vector UInt8 length) : List.Vector UInt8 length :=
  .map₂ (· ^^^ ·) a b

variable {length : Nat} (a b c : List.Vector UInt8 length)

theorem xorBytes_comm : xorBytes a b = xorBytes b a := by
  refine List.Vector.ext fun i => ?_
  simp only [xorBytes, List.Vector.get_map₂]
  exact UInt8.xor_comm _ _

theorem xorBytes_assoc : xorBytes (xorBytes a b) c = xorBytes a (xorBytes b c) := by
  refine List.Vector.ext fun i => ?_
  simp only [xorBytes, List.Vector.get_map₂]
  exact UInt8.xor_assoc _ _ _

/-- A mask is removed by applying it again. -/
@[simp] theorem xorBytes_cancel : xorBytes (xorBytes a b) b = a := by
  refine List.Vector.ext fun i => ?_
  simp only [xorBytes, List.Vector.get_map₂]
  rw [UInt8.xor_assoc, UInt8.xor_self, UInt8.xor_zero]

end Bytes

section Timed

/-- An operation between two readings of the clock, whose difference is added to a metric. -/
def timed {α : Type} (add : UInt64 → SessionMetrics → SessionMetrics) (operation : Method α) :
    Method α := do
  let start ← micros
  let result ← Routine.attempt operation
  let now ← micros
  modify fun protocol => { protocol with
    metrics := add (now.toUInt64 - start.toUInt64) protocol.metrics }
  let some value := result | failure
  pure value

end Timed

end ApqeProtocol

/-- The bytes of an ASCII label. -/
def label (text : String) : Bytes := text.toList.map fun c => .ofNat c.toNat

namespace SoftwarePuf

open ApqeProtocol

/-- `begin` on the configured values. -/
def start (rawSram helper bsPufSecret : Block) : Method SoftwarePuf := do
  let commutativeMask ← sha256 (label "APQE-COMM" ++ bsPufSecret.toList)
  let reversibleSecret ← sha256 (label "APQE-REV" ++ bsPufSecret.toList)
  pure ⟨rawSram, helper, commutativeMask, reversibleSecret⟩

variable (puf : SoftwarePuf)

def reconstructKyberSeed : Method Block :=
  sha256 (label "SRAM-FE-EMU" ++ puf.rawSram.toList ++ puf.helper.toList)

def commutativeMap (input : Block) : Block := xorBytes input puf.commutativeMask

def reversibleMask (secretKey : SecretKey) : Method Block := do
  let skHash ← sha256 secretKey.toList
  sha256 (label "REV-MASK" ++ skHash.toList ++ puf.reversibleSecret.toList)

def reversibleMap (secretKey : SecretKey) (challenge : Block) : Method Block := do
  let mask ← puf.reversibleMask secretKey
  pure (xorBytes challenge mask)

def reversibleInverse (secretKey : SecretKey) (tid : Block) : Method Block :=
  puf.reversibleMap secretKey tid

end SoftwarePuf

end Apqe
