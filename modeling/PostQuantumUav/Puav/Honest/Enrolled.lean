import PostQuantumUav.Puav.Boot
import PostQuantumUav.Puav.Honest.Fragments
import PostQuantumUav.Puav.Lms.Completeness

/-!
# Enrolled boards

Boards whose calls are computed rather than assumed: the tree of a board is the one that
`buildTree` makes under the seed of its PUF root, its signatures, its paths and its checks
are those of `LmotsLms`, and its messages travel in fragments. Of the libraries only the
hash functions are left, which may be any, and a key encapsulation whose decapsulation
undoes it.

Two boards that are configured for each other and hold each other's published records
complete a session.
-/

namespace Puav

open Interaction Cell Buffer ProposedUavProtocol Party

variable {κ : Type}

/-- Hash functions and a key encapsulation. A decoded public key encapsulates as the key that
it was encoded from. -/
structure Library (κ : Type) where
  sha : Bytes → Digest
  hmac : Bytes → Bytes → Digest
  hkdf : (ikm salt info : Bytes) → (length : Nat) → List.Vector UInt8 length
  encode : κ → KemPublicKey UInt8
  decode : KemPublicKey UInt8 → κ
  encapsulate : κ → KemCiphertext UInt8 × Digest
  decapsulate : κ → KemCiphertext UInt8 → Digest
  encapsulate_decode : ∀ key, encapsulate (decode (encode key)) = encapsulate key
  decapsulate_encapsulate : ∀ key, decapsulate key (encapsulate key).1 = (encapsulate key).2

/-- The calls of a session, with the checks of `LmotsLms`. -/
def Library.primitives (library : Library κ) : Primitives UInt8 κ where
  sha := library.sha
  hmac := library.hmac
  hkdf := library.hkdf
  encode := library.encode
  decode := library.decode
  encapsulate := library.encapsulate
  decapsulate := library.decapsulate
  verify q message signature identifier path root :=
    (LmotsLms.verify q.toNat message signature identifier path root).eval
      (Hashing.answered library.sha)

/-- The seed of a PUF root under a configuration. -/
def Library.seed (library : Library κ) (config : NodeConfig) (pufRoot : Digest) : Digest :=
  library.hkdf pufRoot.toList []
    (lmsSeedInfo config.deviceId config.credentialVersion config.lmsIdentifier) hashBytes

/-- A board before a session: the values that it draws, its stored index, and its LMS object
with the tree of its seed. -/
structure Board (library : Library κ) where
  config : NodeConfig
  random : UInt32
  nonce : Nonce UInt8
  pufRoot : Digest
  key : κ
  nextQ : UInt32
  randomizer : Digest
  initial : LmotsLms
  lms : LmotsLms
  root : Digest
  initialized :
    LmotsLms.initializeWith config.lmsIdentifier (library.seed config pufRoot) true = some initial
  built : Hashing.eval library.sha initial.buildTree = some lms
  rooted : lms.root = some root
  unused : ¬ (nextQ < config.firstQ ∨ nextQ ≥ config.firstQ + config.numberOfSessions ∨
    nextQ ≥ .ofNat lmsLeaves)

namespace Board

variable {library : Library κ}

/-- The record that a board enrols, as its peer reads it. -/
def published (board : Board library) : PeerPublicRecord where
  ready := true
  version := board.config.credentialVersion
  identifier := board.config.lmsIdentifier
  root := board.root
  suiteId := suiteIdForMode board.config.pathMode
  status := credentialStatusActive
  expiryUnix := board.config.credentialExpiryUnix

/-- A board whose repository returns the paths that its peer enrolled. -/
def device (board peer : Board library) : HonestDevice UInt8 κ where
  config := board.config
  peerRecord := peer.published
  random := board.random
  nonce := board.nonce
  pufRoot := board.pufRoot
  key := board.key
  nextQ := board.nextQ
  sign q message runtimeSeed :=
    Hashing.eval library.sha (board.lms.sign q.toNat message runtimeSeed board.randomizer)
  path q := board.lms.extractPath q.toNat
  fetched version q :=
    if version = peer.config.credentialVersion then peer.lms.extractPath q.toNat else none

/-- Two boards of one mode that are configured for each other, with records that do not expire
before the clock is set. -/
structure Paired (a b : Board library) : Prop where
  initiates : a.config.role = .initiator
  responds : b.config.role = .responder
  modes : b.config.pathMode = a.config.pathMode
  peerA : a.config.peerId = b.config.deviceId
  peerB : b.config.peerId = a.config.deviceId
  versionA : a.config.peerCredentialVersion = b.config.credentialVersion
  versionB : b.config.peerCredentialVersion = a.config.credentialVersion
  expiryA : a.config.credentialExpiryUnix ≠ 0 → 1700000000 ≤ a.config.credentialExpiryUnix.toNat
  expiryB : b.config.credentialExpiryUnix ≠ 0 → 1700000000 ≤ b.config.credentialExpiryUnix.toNat

/-- Boards exist for every configuration with an unused index. -/
theorem exists_board (library : Library κ) (config : NodeConfig) (random : UInt32)
    (nonce : Nonce UInt8) (pufRoot : Digest) (key : κ) (nextQ : UInt32) (randomizer : Digest)
    (unused : ¬ (nextQ < config.firstQ ∨ nextQ ≥ config.firstQ + config.numberOfSessions ∨
      nextQ ≥ .ofNat lmsLeaves)) :
    ∃ board : Board library, board.config = config ∧ board.nextQ = nextQ := by
  obtain ⟨built, done⟩ := @LmotsLms.exists_eval_buildTree library.sha
    ⟨config.lmsIdentifier, library.seed config pufRoot, some fun _ => LmotsLms.zeroDigest⟩ _ rfl
  obtain ⟨-, tree, stored, -⟩ := LmotsLms.eval_buildTree done
  have rooted : built.root = some (tree 1) := by
    rw [LmotsLms.root, stored]
    rfl
  exact ⟨⟨config, random, nonce, pufRoot, key, nextQ, randomizer, _, built, tree 1, rfl, done,
    rooted, unused⟩, rfl, rfl⟩

/-- What a board signs with its next index, its peer accepts. -/
theorem trusted {signer checker : Board library}
    (version : checker.config.peerCredentialVersion = signer.config.credentialVersion)
    (modes : checker.config.pathMode = signer.config.pathMode) {object : Bytes}
    (fits : object.length ≤ 970) : ∃ signature path, Trusted library.primitives
      (signer.device checker) (checker.device signer) object signature path := by
  obtain ⟨config, random, nonce, pufRoot, key, nextQ, randomizer, initial, lms, root, initialized,
    built, rooted, unused⟩ := signer
  obtain ⟨identifier, tree, stored, whole⟩ := LmotsLms.eval_buildTree built
  obtain ⟨named, seeded⟩ := LmotsLms.initializeWith_eq_some initialized
  rw [named, seeded] at whole
  rw [named] at identifier
  obtain rfl : tree 1 = root := by
    rw [LmotsLms.root, stored] at rooted
    exact Option.some.inj rooted
  have leaf : nextQ.toNat < lmsLeaves := by
    have bound : nextQ < .ofNat lmsLeaves :=
      UInt32.not_le.mp fun leaf => unused (.inr (.inr leaf))
    exact UInt32.lt_iff_toNat_lt.mp bound
  obtain ⟨path, extracted⟩ := LmotsLms.exists_extractPath stored leaf
  have signed := @LmotsLms.eval_sign library.sha (library.seed config pufRoot) randomizer
    nextQ.toNat object lms leaf fits
  refine ⟨_, path, rfl, rfl, version.symm, ?_, rfl, unused, signed, extracted, fun _ => ?_, ?_⟩
  · exact congrArg suiteIdForMode modes.symm
  · exact (if_pos rfl).trans extracted
  · rw [identifier]
    exact LmotsLms.verify_signed stored whole extracted fits

/-- The values of a session between paired boards. -/
theorem exists_handshake {a b : Board library} (paired : Paired a b) :
    ∃ h : Handshake UInt8 κ, h.primitives = library.primitives ∧ h.initiator = a.device b ∧
      h.responder = b.device a ∧ h.Honest := by
  have fits {object : List.Vector UInt8 lmotsSignedObjectBytes} : object.toList.length ≤ 970 := by
    rw [object.toList_length]
    decide
  let unsigned : Handshake UInt8 κ := ⟨library.primitives, a.device b, b.device a,
    .replicate _ 0, .replicate _ 0, .replicate _ 0, .replicate _ 0⟩
  -- The objects do not depend on the signatures that come after them.
  obtain ⟨signatureA, pathA, trustedA⟩ :=
    @trusted _ library a b paired.versionB paired.modes unsigned.objectA.toList fits
  let offered : Handshake UInt8 κ := { unsigned with signatureA := signatureA, pathA := pathA }
  obtain ⟨signatureB, pathB, trustedB⟩ :=
    @trusted _ library b a paired.versionA paired.modes.symm offered.objectB.toList fits
  refine ⟨{ offered with signatureB := signatureB, pathB := pathB }, rfl, rfl, rfl, ?_⟩
  refine ⟨paired.initiates, paired.responds, paired.modes, paired.peerA, paired.peerB, trustedA,
    trustedB, ?_⟩
  change library.decapsulate a.key (library.encapsulate (library.decode
    (library.encode a.key))).1 = (library.encapsulate (library.decode (library.encode a.key))).2
  rw [library.encapsulate_decode]
  exact library.decapsulate_encapsulate a.key

/-- A run of a session on both boards, in which each message of one side reaches the other one
in fragments. -/
abbrev Session (a b : Board library) (objectA objectB : ProposedUavProtocol UInt8 κ) :=
  Handshake.Exchange (Transported library.primitives (a.device b))
    (Transported library.primitives (b.device a)) objectA objectB

section Completes

variable {a b : Board library} (paired : Paired a b) {objectA objectB : ProposedUavProtocol UInt8 κ}
  (configA : objectA.config = a.config) (recordA : objectA.peerRecord = b.published)
  (configB : objectB.config = b.config) (recordB : objectB.peerRecord = a.published)

/-- Both sides end with a view, and have counted the bytes of a path mode. -/
structure EndsWith (session : Session a b objectA objectB) (view : View UInt8) : Prop where
  resultA : session.resultA = some view
  resultB : session.resultB = some view
  countedA : (session.lastA.metrics.appTxBytes + session.lastA.metrics.appRxBytes).toNat =
    expectedDirectApplicationBytes a.config.pathMode
  countedB : (session.lastB.metrics.appTxBytes + session.lastB.metrics.appRxBytes).toNat =
    expectedDirectApplicationBytes a.config.pathMode

include paired configA recordA configB recordB

/-- Paired boards have a session, and one view for all their sessions. -/
theorem ends_with_view : Nonempty (Session a b objectA objectB) ∧
    ∃ view, ∀ session : Session a b objectA objectB, EndsWith session view := by
  obtain ⟨⟨primitives, initiator, responder, signatureA, signatureB, pathA, pathB⟩, rfl, rfl, rfl,
    honest⟩ := exists_handshake paired
  have servesA := @transported_serves _ library.primitives (a.device b) paired.expiryB
  have servesB := @transported_serves _ library.primitives (b.device a) paired.expiryA
  refine ⟨honest.exists_exchange configA recordA configB recordB servesA servesB,
    Handshake.view ⟨library.primitives, a.device b, b.device a, signatureA, signatureB, pathA,
      pathB⟩, fun session => ?_⟩
  obtain ⟨resultA, resultB, -, counted, sent, received⟩ :=
    honest.exchange_agrees configA recordA configB recordB servesA servesB session
  refine ⟨resultA, resultB, counted, ?_⟩
  rw [sent, received, UInt32.add_comm]
  exact counted

end Completes

/-- Every session of paired boards ends on both sides with the same view: messages, transcript
hash and keys. Each side has counted the bytes of its mode. -/
theorem honest_session_completes {a b : Board library} (paired : Paired a b)
    {objectA objectB : ProposedUavProtocol UInt8 κ} (configA : objectA.config = a.config)
    (recordA : objectA.peerRecord = b.published) (configB : objectB.config = b.config)
    (recordB : objectB.peerRecord = a.published) :
    Nonempty (Session a b objectA objectB) ∧ ∃ view, ∀ session : Session a b objectA objectB,
      session.resultA = some view ∧ session.resultB = some view ∧
      (session.lastA.metrics.appTxBytes + session.lastA.metrics.appRxBytes).toNat =
        expectedDirectApplicationBytes a.config.pathMode ∧
      (session.lastB.metrics.appTxBytes + session.lastB.metrics.appRxBytes).toNat =
        expectedDirectApplicationBytes a.config.pathMode := by
  obtain ⟨exist, view, ends⟩ := ends_with_view paired configA recordA configB recordB
  refine ⟨exist, view, fun session => ?_⟩
  obtain ⟨resultA, resultB, countedA, countedB⟩ := ends session
  exact ⟨resultA, resultB, countedA, countedB⟩

/-- In either path mode the initiator of paired boards returns true and the responder accepts, in
every session and under any delivery of the fragments. Both hold the same session key,
confirmation keys and transcript hash. -/
theorem handshake_completes {a b : Board library} (paired : Paired a b)
    {objectA objectB : ProposedUavProtocol UInt8 κ} (configA : objectA.config = a.config)
    (recordA : objectA.peerRecord = b.published) (configB : objectB.config = b.config)
    (recordB : objectB.peerRecord = a.published) :
    Nonempty (Session a b objectA objectB) ∧ ∀ session : Session a b objectA objectB,
      ∃ viewA viewB, session.resultA = some viewA ∧ session.resultB = some viewB ∧
        viewA.sessionKey = viewB.sessionKey ∧ viewA.confirmA = viewB.confirmA ∧
        viewA.confirmB = viewB.confirmB ∧ viewA.transcriptHash = viewB.transcriptHash ∧
        (session.lastA.metrics.appTxBytes + session.lastA.metrics.appRxBytes).toNat =
          expectedDirectApplicationBytes a.config.pathMode := by
  obtain ⟨exist, view, ends⟩ := ends_with_view paired configA recordA configB recordB
  refine ⟨exist, fun session => ⟨view, view, ?_⟩⟩
  obtain ⟨resultA, resultB, countedA, -⟩ := ends session
  exact ⟨resultA, resultB, rfl, rfl, rfl, rfl, countedA⟩

/-- A public key is the key, with zeros behind it. -/
def encodeKey (key : Digest) : KemPublicKey UInt8 := overwrite (.replicate _ 0) key.toList

def decodeKey (publicKey : KemPublicKey UInt8) : Digest := block publicKey 0 hashBytes

theorem decodeKey_encodeKey (key : Digest) : decodeKey (encodeKey key) = key := by
  refine Subtype.ext ((toList_block ..).trans ?_)
  have sized := key.toList_length
  refine (slice_overwrite (by rw [sized]; decide) (by rw [sized, Nat.zero_add])).trans ?_
  exact List.take_of_length_le (Nat.le_of_eq sized)

/-- The ciphertext and the shared secret under a key. -/
def encapsulateTo (key : Digest) : KemCiphertext UInt8 × Digest :=
  let ciphertext : KemCiphertext UInt8 := digitHash _ key.toList
  (ciphertext, digitHash _ (ciphertext.toList ++ key.toList))

/-- Functions that depend on every byte of their inputs. -/
def digitLibrary : Library Digest where
  sha := digitHash _
  hmac key data := digitHash _ (key ++ data)
  hkdf ikm salt info length := digitHash length (ikm ++ salt ++ info)
  encode := encodeKey
  decode := decodeKey
  encapsulate := encapsulateTo
  decapsulate key ciphertext := digitHash _ (ciphertext.toList ++ key.toList)
  encapsulate_decode key := congrArg encapsulateTo (decodeKey_encodeKey key)
  decapsulate_encapsulate _ := by rw [encapsulateTo]

/-- A configuration for one session of either role. -/
def pairedConfig (role : Role) (deviceId peerId : Identity) : NodeConfig :=
  ⟨role, .repositoryAssisted, ⟨0, 4210⟩, deviceId, peerId, LmotsLms.zeroDigest, .replicate _ 0, 1,
    1, 0, 0, 1, false⟩

/-- Two boards that are configured for each other exist in either mode. -/
theorem exists_paired (pathMode : PathDeliveryMode) : ∃ a b : Board digitLibrary,
    Paired a b ∧ a.config.pathMode = pathMode := by
  have unused : ¬ ((0 : UInt32) < 0 ∨ (0 : UInt32) ≥ 0 + 1 ∨ (0 : UInt32) ≥ .ofNat lmsLeaves) := by
    decide
  obtain ⟨a, configA, -⟩ := exists_board digitLibrary
    { pairedConfig .initiator (.replicate _ 1) (.replicate _ 2) with pathMode := pathMode } 7
    (.replicate _ 3) (.replicate _ 5) (.replicate _ 9) 0 (.replicate _ 11) unused
  obtain ⟨b, configB, -⟩ := exists_board digitLibrary
    { pairedConfig .responder (.replicate _ 2) (.replicate _ 1) with pathMode := pathMode } 8
    (.replicate _ 4) (.replicate _ 6) (.replicate _ 10) 0 (.replicate _ 12) unused
  refine ⟨a, b, ?_, congrArg NodeConfig.pathMode configA⟩
  constructor
  all_goals simp only [configA, configB]
  case expiryA | expiryB => exact fun expires => absurd rfl expires
  all_goals rfl

/-- Two boards complete a session. -/
theorem honest_session_completes_digits :
    ∃ (a b : Board digitLibrary) (objectA objectB : ProposedUavProtocol UInt8 Digest)
      (session : Session a b objectA objectB) (view : View UInt8),
      session.resultA = some view ∧ session.resultB = some view := by
  obtain ⟨a, b, paired, -⟩ := exists_paired PathDeliveryMode.repositoryAssisted
  obtain ⟨⟨session⟩, view, ends⟩ := @honest_session_completes _ _ a b paired
    { constructed a.config with peerRecord := b.published }
    { constructed b.config with peerRecord := a.published } rfl rfl rfl rfl
  obtain ⟨resultA, resultB, -⟩ := ends session
  exact ⟨a, b, _, _, session, view, resultA, resultB⟩

/-- Two boards of a path mode end a session with equal keys. -/
def Completed (pathMode : PathDeliveryMode) : Prop :=
  ∃ (a b : Board digitLibrary) (objectA objectB : ProposedUavProtocol UInt8 Digest)
    (session : Session a b objectA objectB) (viewA viewB : View UInt8),
    session.resultA = some viewA ∧ session.resultB = some viewB ∧
    viewA.sessionKey = viewB.sessionKey ∧
    (session.lastA.metrics.appTxBytes + session.lastA.metrics.appRxBytes).toNat =
      expectedDirectApplicationBytes pathMode

theorem handshake_completes_digits :
    Completed .repositoryAssisted ∧ Completed .signerCarried := by
  have each : ∀ pathMode, Completed pathMode := by
    intro pathMode
    obtain ⟨a, b, paired, rfl⟩ := exists_paired pathMode
    obtain ⟨⟨session⟩, completes⟩ := @handshake_completes _ _ a b paired
      { constructed a.config with peerRecord := b.published }
      { constructed b.config with peerRecord := a.published } rfl rfl rfl rfl
    obtain ⟨viewA, viewB, resultA, resultB, same, -, -, -, counted⟩ := completes session
    exact ⟨a, b, _, _, session, viewA, viewB, resultA, resultB, same, counted⟩
  exact ⟨each _, each _⟩

end Board

end Puav
