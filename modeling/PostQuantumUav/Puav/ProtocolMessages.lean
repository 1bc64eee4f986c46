import PostQuantumUav.Library.Bytes.Buffer
import PostQuantumUav.Puav.GcsLedgerClient

/-!
# The messages of the proposed protocol

What the methods of `ProposedUavProtocol` put into their buffers, as functions of the
fields: the five messages, the inputs of the hashes, the objects that are signed, and
the inputs of the key derivation and of the confirmation tags.

Cells may be bytes or symbols. The bytes of identities and numbers are stored as
cells; everything that comes out of a hash, a signature or the key encapsulation is a
block of cells.
-/

namespace Puav

open Cell Buffer

inductive Role where
  | initiator
  | responder
  deriving DecidableEq, Repr

/-- `NodeConfig`, without the texts that only open the network and the storage. -/
structure NodeConfig where
  role : Role
  pathMode : PathDeliveryMode
  responder : Transport.Endpoint
  deviceId : Identity
  peerId : Identity
  hardcodedHelperData : Digest
  lmsIdentifier : Identifier
  credentialVersion : UInt32
  peerCredentialVersion : UInt32
  credentialExpiryUnix : UInt64
  firstQ : UInt32
  numberOfSessions : UInt32
  resetQCounter : Bool

namespace NodeConfig

variable (config : NodeConfig)

/-- `idA` of the methods that build a signed object. -/
def idA : Identity := if config.role = .initiator then config.deviceId else config.peerId

/-- `idB` of the methods that build a signed object. -/
def idB : Identity := if config.role = .initiator then config.peerId else config.deviceId

end NodeConfig

variable {α : Type} [Cell α]

abbrev Nonce (α : Type) := List.Vector α nonceBytes
abbrev Hash (α : Type) := List.Vector α hashBytes
abbrev KemPublicKey (α : Type) := List.Vector α mlkemPublicKeyBytes
abbrev KemCiphertext (α : Type) := List.Vector α mlkemCiphertextBytes
abbrev SignatureCells (α : Type) := List.Vector α lmotsSignatureBytes
abbrev PathCells (α : Type) := List.Vector α lmsPathBytes

/-- The cells of a byte block. -/
def cellsOf {length : Nat} (bytes : List.Vector UInt8 length) : List.Vector α length :=
  bytes.map ofByte

@[simp] theorem toList_cellsOf {length : Nat} (bytes : List.Vector UInt8 length) :
    (cellsOf bytes : List.Vector α length).toList = ofBytes bytes.toList :=
  List.Vector.toList_map _ _

section Requests

/-- M0 after `buildM0`. -/
def m0Message (config : NodeConfig) (nonceA : Nonce α) : List.Vector α m0Bytes :=
  ⟨[ofByte protocolVersion, ofByte msgM0Req] ++ ofBytes config.deviceId.toList ++
      ofBytes config.peerId.toList ++ nonceA.toList ++ putU32 (suiteIdForMode config.pathMode), by
    simp only [List.length_append, length_ofBytes, List.Vector.toList_length, length_putU32,
      List.length_cons, List.length_nil]
    rfl⟩

/-- M1 after `buildM1`: the identities in the order B, A. -/
def m1Message (config : NodeConfig) (nonceA nonceB : Nonce α) : List.Vector α m1Bytes :=
  ⟨[ofByte protocolVersion, ofByte msgM1Chal] ++ ofBytes config.deviceId.toList ++
      ofBytes config.peerId.toList ++ nonceA.toList ++ nonceB.toList ++
      putU32 (suiteIdForMode config.pathMode), by
    simp only [List.length_append, length_ofBytes, List.Vector.toList_length, length_putU32,
      List.length_cons, List.length_nil]
    rfl⟩

variable [DecidableEq α]

theorem nonceA_fits : 66 + nonceBytes ≤ m0Bytes := by decide

/-- `validateM0`. -/
def ValidM0 (config : NodeConfig) (m0 : List.Vector α m0Bytes) (nonceA : Nonce α) : Prop :=
  readByte m0.toList 0 = protocolVersion ∧ readByte m0.toList 1 = msgM0Req ∧
    block m0 2 idBytes = cellsOf config.peerId ∧ block m0 34 idBytes = cellsOf config.deviceId ∧
    block m0 66 nonceBytes = nonceA ∧
    getU32 (slice m0.toList 82 4) = suiteIdForMode config.pathMode

/-- The condition of `validateM1`. -/
def ValidM1 (config : NodeConfig) (m1 : List.Vector α m1Bytes) (nonceA : Nonce α) : Prop :=
  readByte m1.toList 0 = protocolVersion ∧ readByte m1.toList 1 = msgM1Chal ∧
    block m1 2 idBytes = cellsOf config.peerId ∧ block m1 34 idBytes = cellsOf config.deviceId ∧
    block m1 66 nonceBytes = nonceA ∧
    getU32 (slice m1.toList 98 4) = suiteIdForMode config.pathMode

instance (config : NodeConfig) (m0 : List.Vector α m0Bytes) (nonceA : Nonce α) :
    Decidable (ValidM0 config m0 nonceA) := inferInstanceAs (Decidable (_ ∧ _))

instance (config : NodeConfig) (m1 : List.Vector α m1Bytes) (nonceA : Nonce α) :
    Decidable (ValidM1 config m1 nonceA) := inferInstanceAs (Decidable (_ ∧ _))

end Requests

section Inputs

/-- The input of `computeSid0`. -/
def sid0Input (m0 : List.Vector α m0Bytes) (m1 : List.Vector α m1Bytes) : List α :=
  [ofByte protocolVersion, ofByte domainSid0] ++ putU16 (.ofNat m0Bytes) ++ m0.toList ++
    putU16 (.ofNat m1Bytes) ++ m1.toList

/-- `m_mu` of `buildM2SignedInput`. -/
def muA (sid : Hash α) (idA idB : Identity) (version : UInt32) (publicKey : KemPublicKey α) :
    List.Vector α muABytes :=
  ⟨[ofByte protocolVersion, ofByte domainInit] ++ sid.toList ++ ofBytes idA.toList ++
      ofBytes idB.toList ++ putU32 version ++ publicKey.toList, by
    simp only [List.length_append, length_ofBytes, List.Vector.toList_length, length_putU32,
      List.length_cons, List.length_nil]
    rfl⟩

/-- `m_mu` of `buildM3SignedInput`. -/
def muB (sid hashM2 : Hash α) (idA idB : Identity) (version : UInt32)
    (ciphertext : KemCiphertext α) : List.Vector α muBBytes :=
  ⟨[ofByte protocolVersion, ofByte domainResp] ++ sid.toList ++ hashM2.toList ++
      ofBytes idA.toList ++ ofBytes idB.toList ++ putU32 version ++ ciphertext.toList, by
    simp only [List.length_append, length_ofBytes, List.Vector.toList_length, length_putU32,
      List.length_cons, List.length_nil]
    rfl⟩

/-- `m_signInput` around `m_mu`. -/
def signedInput (mu : List.Vector α muABytes) (q : UInt32) :
    List.Vector α lmotsSignedObjectBytes :=
  ⟨[ofByte protocolVersion, ofByte domainLmotsSign] ++ putU16 (.ofNat muABytes) ++ mu.toList ++
      putU32 q, by
    simp only [List.length_append, List.Vector.toList_length, length_putU16, length_putU32,
      List.length_cons, List.length_nil]⟩

/-- The string hashed by `timedTranscriptHash`. -/
def transcriptInput (sid : Hash α) (m0 : List.Vector α m0Bytes) (m1 : List.Vector α m1Bytes)
    (m2 inner : List α) : List α :=
  [ofByte protocolVersion, ofByte domainTranscript] ++ sid.toList ++
    putU16 (.ofNat m0Bytes) ++ m0.toList ++ putU16 (.ofNat m1Bytes) ++ m1.toList ++
    putU16 (.ofNat m2.length) ++ m2 ++ putU16 (.ofNat inner.length) ++ inner

/-- A domain tag and a transcript hash: the `info` of `deriveSessionKeys` and the input of
`computeConfirmationTag`. -/
def hashInput (domain : UInt8) (transcriptHash : Hash α) : List α :=
  [ofByte protocolVersion, ofByte domain] ++ putU16 (.ofNat hashBytes) ++ transcriptHash.toList

/-- The `info` of `deriveLmsSeed`. -/
def lmsSeedInfo (deviceId : Identity) (credentialVersion : UInt32) (identifier : Identifier) :
    List α :=
  ofBytes [0x4c, 0x4d, 0x53, 0x2d, 0x53, 0x45, 0x45, 0x44] ++ ofBytes deviceId.toList ++
    putU32 credentialVersion ++ ofBytes identifier.toList

end Inputs

section Signed

/-- The first fields of M2 and of the inner M3. -/
def signedHeader (type : UInt8) (sid : Hash α) (version q : UInt32) : List α :=
  [ofByte protocolVersion, ofByte type] ++ sid.toList ++ putU32 version ++ putU32 q

/-- The path that a message carries in the signer-carried mode. -/
def carriedPath (path : Option (PathCells α)) : List α := path.elim [] List.Vector.toList

/-- The bytes of M2 that are sent. -/
def m2Message (sid : Hash α) (version q : UInt32) (publicKey : KemPublicKey α)
    (signature : SignatureCells α) (path : Option (PathCells α)) : List α :=
  signedHeader msgM2Init sid version q ++ publicKey.toList ++ signature.toList ++ carriedPath path

/-- The inner part of M3. -/
def m3Inner (sid : Hash α) (version q : UInt32) (ciphertext : KemCiphertext α)
    (signature : SignatureCells α) (path : Option (PathCells α)) : List α :=
  signedHeader msgM3Inner sid version q ++ ciphertext.toList ++ signature.toList ++
    carriedPath path

/-- The bytes of M3 that are sent. -/
def m3Message (sid : Hash α) (inner : List α) (tauB : Hash α) : List α :=
  [ofByte protocolVersion, ofByte msgM3RespFin] ++ sid.toList ++ putU16 (.ofNat inner.length) ++
    inner ++ tauB.toList

def m4Message (sid tauA : Hash α) : List.Vector α m4Bytes :=
  ⟨[ofByte protocolVersion, ofByte msgM4InitFin] ++ sid.toList ++ tauA.toList, by
    simp only [List.length_append, List.Vector.toList_length, List.length_cons,
      List.length_nil]
    rfl⟩

end Signed

end Puav
