import PostQuantumUav.Library.Bytes.Within
import PostQuantumUav.Library.Interaction.Discipline
import PostQuantumUav.Puav.ProposedUavProtocol

/-!
# What the methods of a session call, and which cells they pass on

The calls that decide what a session is worth use the stored counter, sign, or receive.
Every other call is local to the session. A frame is a discipline that allows the local
calls and follows one kind of cells: what a message contains is of the kind when it was
received, drawn, hashed or signed, and so is every buffer.

The lemmas cover every method up to a whole session. Seeds, shared secrets and session
keys are of no kind, since no method stores them.
-/

namespace Puav

open Interaction Cell Buffer

section Messages

variable {α : Type} [Cell α] {kind : α → Prop} (bytes : ∀ b : UInt8, kind (ofByte b))

include bytes

theorem within_m0Message (config : NodeConfig) {nonceA : Nonce α}
    (drawn : Within kind nonceA.toList) : Within kind (m0Message config nonceA).toList := by
  simp only [m0Message, List.Vector.toList_mk, within_append, within_cons, within_nil, bytes,
    within_ofBytes bytes, within_putU32 bytes, drawn, and_self]

theorem within_m1Message (config : NodeConfig) {nonceA nonceB : Nonce α}
    (received : Within kind nonceA.toList) (drawn : Within kind nonceB.toList) :
    Within kind (m1Message config nonceA nonceB).toList := by
  simp only [m1Message, List.Vector.toList_mk, within_append, within_cons, within_nil, bytes,
    within_ofBytes bytes, within_putU32 bytes, received, drawn, and_self]

theorem within_muA (idA idB : Identity) (version : UInt32) {sid : Hash α}
    {publicKey : KemPublicKey α} (hashed : Within kind sid.toList)
    (generated : Within kind publicKey.toList) :
    Within kind (muA sid idA idB version publicKey).toList := by
  simp only [muA, List.Vector.toList_mk, within_append, within_cons, within_nil, bytes,
    within_ofBytes bytes, within_putU32 bytes, hashed, generated, and_self]

theorem within_muB (idA idB : Identity) (version : UInt32) {sid hashM2 : Hash α}
    {ciphertext : KemCiphertext α} (hashed : Within kind sid.toList)
    (hashedM2 : Within kind hashM2.toList) (encapsulated : Within kind ciphertext.toList) :
    Within kind (muB sid hashM2 idA idB version ciphertext).toList := by
  simp only [muB, List.Vector.toList_mk, within_append, within_cons, within_nil, bytes,
    within_ofBytes bytes, within_putU32 bytes, hashed, hashedM2, encapsulated, and_self]

theorem within_signedInput (q : UInt32) {mu : List.Vector α muABytes}
    (built : Within kind mu.toList) : Within kind (signedInput mu q).toList := by
  simp only [signedInput, List.Vector.toList_mk, within_append, within_cons, within_nil, bytes,
    within_putU16 bytes, within_putU32 bytes, built, and_self]

theorem within_signedHeader (type : UInt8) (version q : UInt32) {sid : Hash α}
    (hashed : Within kind sid.toList) : Within kind (signedHeader type sid version q) := by
  simp only [signedHeader, within_append, within_cons, within_nil, bytes, within_putU32 bytes,
    hashed, and_self]

theorem within_m3Message {sid tauB : Hash α} {inner : List α} (hashed : Within kind sid.toList)
    (built : Within kind inner) (tagged : Within kind tauB.toList) :
    Within kind (m3Message sid inner tauB) := by
  simp only [m3Message, within_append, within_cons, within_nil, bytes, within_putU16 bytes, hashed,
    built, tagged, and_self]

theorem within_m4Message {sid tauA : Hash α} (hashed : Within kind sid.toList)
    (tagged : Within kind tauA.toList) : Within kind (m4Message sid tauA).toList := by
  simp only [m4Message, List.Vector.toList_mk, within_append, within_cons, within_nil, bytes,
    hashed, tagged, and_self]

end Messages

namespace ProposedUavProtocol

variable {α κ : Type}

/-- The cells of all message buffers. -/
def buffers (object : ProposedUavProtocol α κ) : List α :=
  object.m0.toList ++ object.m1.toList ++ object.m2.toList ++ object.m3.toList ++
    object.m4.toList ++ object.mu.toList ++ object.signInput.toList ++ object.result.toList

theorem within_buffers {kind : α → Prop} {object : ProposedUavProtocol α κ} :
    Within kind object.buffers ↔ Within kind object.m0.toList ∧ Within kind object.m1.toList ∧
      Within kind object.m2.toList ∧ Within kind object.m3.toList ∧ Within kind object.m4.toList ∧
      Within kind object.mu.toList ∧ Within kind object.signInput.toList ∧
      Within kind object.result.toList := by
  simp only [buffers, within_append, and_assoc]

namespace Call

/-- A call that neither uses the stored counter nor signs nor receives, nor sets up the LMS
object. -/
def Local : Call α κ → Prop
  | .getUInt _ => False
  | .putUInt _ => False
  | .sign _ _ _ => False
  | .receiveMessage _ _ _ _ => False
  | .initializeLms _ _ => False
  | .buildTree => False
  | _ => True

/-- A use of the stored counter or of a one-time key. -/
def Indexed : Call α κ → Prop
  | .getUInt _ => True
  | .putUInt _ => True
  | .sign _ _ _ => True
  | _ => False

/-- What is sent is of the kind. -/
def Sends (kind : α → Prop) : Call α κ → Prop
  | .sendMessage _ _ _ data => Within kind data
  | _ => True

/-- The parts of an answer that a method may store are of the kind. -/
def Answers (kind : α → Prop) : (c : Call α κ) → (calls α κ).Answer c → Prop
  | .fillNonce => fun nonce : Nonce α => Within kind nonce.toList
  | .receiveMessage _ _ _ _ => fun answer : Option Transport.Received × List α =>
      Within kind answer.2
  | .sha256 _ => fun answer : Option (Hash α) => ∀ hash, answer = some hash →
      Within kind hash.toList
  | .hmacSha256 _ _ => fun answer : Option (Hash α) => ∀ tag, answer = some tag →
      Within kind tag.toList
  | .kemEncodePublicKey _ => fun answer : Option (KemPublicKey α) => ∀ publicKey,
      answer = some publicKey → Within kind publicKey.toList
  | .kemEncapsulate _ => fun answer : Option (KemCiphertext α × Hash α) => ∀ pair,
      answer = some pair → Within kind pair.1.toList
  | .sign _ _ _ => fun answer : Option (SignatureCells α) => ∀ signature,
      answer = some signature → Within kind signature.toList
  | .extractPath _ => fun answer : Option (PathCells α) => ∀ path, answer = some path →
      Within kind path.toList
  | .fetchPeerPath _ _ => fun answer : Option (PathCells α × RepositoryOperationMetrics) =>
      ∀ pair, answer = some pair → Within kind pair.1.toList
  | _ => fun _ => True

end Call

theorem answers_true (c : Call α κ) (a : (calls α κ).Answer c) : c.Answers (fun _ => True) a := by
  cases c with
  | fillNonce => exact within_true _
  | receiveMessage _ _ _ _ => exact within_true _
  | sha256 _ => exact fun _ _ => within_true _
  | hmacSha256 _ _ => exact fun _ _ => within_true _
  | kemEncodePublicKey _ => exact fun _ _ => within_true _
  | kemEncapsulate _ => exact fun _ _ => within_true _
  | sign _ _ _ => exact fun _ _ => within_true _
  | extractPath _ => exact fun _ _ => within_true _
  | fetchPeerPath _ _ => exact fun _ _ => within_true _
  | _ => exact trivial

variable [Cell α] {d : Discipline (calls α κ) (ProposedUavProtocol α κ)} {kind : α → Prop}

/-- The discipline allows the local calls and keeps every buffer of the kind. -/
structure Frame (d : Discipline (calls α κ) (ProposedUavProtocol α κ)) (kind : α → Prop) :
    Prop where
  bytes : ∀ b : UInt8, kind (ofByte b)
  isLocal : ∀ c : Call α κ, c.Local → c.Sends kind → d.allowed c
  answers : ∀ (c : Call α κ) (a : (calls α κ).Answer c), d.answered c a → c.Answers kind a
  buffers : ∀ object, d.kept object → Within kind object.buffers
  same : ∀ object object', d.kept object → object'.config = object.config →
    object'.peerRecord = object.peerRecord → object'.bootSeed = object.bootSeed →
    Within kind object'.buffers → d.kept object'

variable (frame : Frame d kind)

include frame

section Calls

theorem obeys_call {c : Call α κ} (h : c.Local) (sends : c.Sends kind) :
    Routine.Obeys d (c.Answers kind) (call c : Method α κ _) :=
  (Routine.obeys_perform (frame.isLocal c h sends)).mono (frame.answers c)

theorem obeys_update {f : ProposedUavProtocol α κ → ProposedUavProtocol α κ}
    (unchanged : ∀ object, (f object).config = object.config ∧
      (f object).peerRecord = object.peerRecord ∧ (f object).bootSeed = object.bootSeed)
    (stored : ∀ object, Within kind object.buffers → Within kind (f object).buffers) :
    Routine.Obeys d (fun _ => True) (modify f : Method α κ PUnit) := by
  refine Routine.obeys_modify fun object start => ?_
  obtain ⟨config, peerRecord, bootSeed⟩ := unchanged object
  exact frame.same object _ start config peerRecord bootSeed (stored object (frame.buffers _ start))

theorem obeys_timer : Routine.Obeys d (fun _ => True) (espTimer : Method α κ UInt64) :=
  obeys_call frame trivial trivial

theorem obeys_timed {β : Type} {good : β → Prop} {add : UInt64 → LocalMetrics → LocalMetrics}
    {operation : Method α κ β} (h : Routine.Obeys d good operation) :
    Routine.Obeys d good (timed add operation) := by
  refine (obeys_timer frame).bind fun start _ => h.attempt.bind fun result is => ?_
  refine (obeys_timer frame).bind fun now _ => ?_
  exact Routine.Obeys.bind (obeys_update frame (fun _ => ⟨rfl, rfl, rfl⟩) fun _ stored => stored)
    fun _ _ => (Routine.obeys_pure is).orFail

theorem obeys_timedSha (data : List α) :
    Routine.Obeys d (fun hash => Within kind hash.toList) (timedSha data : Method α κ _) :=
  obeys_timed frame (Routine.Obeys.orFail (obeys_call frame trivial trivial))

theorem obeys_timedHmac (key data : List α) :
    Routine.Obeys d (fun tag => Within kind tag.toList) (timedHmac key data : Method α κ _) :=
  obeys_timed frame (Routine.Obeys.orFail (obeys_call frame trivial trivial))

theorem obeys_timedHkdf (ikm salt info : List α) (outputLength : Nat) :
    Routine.Obeys d (fun _ => True) (timedHkdf ikm salt info outputLength : Method α κ _) :=
  obeys_timed frame (Routine.Obeys.orFail_any (obeys_call frame trivial trivial))

end Calls

section Kem

theorem obeys_freeKem : Routine.Obeys d (fun _ => True) (freeKem : Method α κ Unit) := by
  refine Routine.Obeys.get fun protocol _ => Routine.Obeys.ite ?_ (Routine.obeys_pure trivial)
  exact Routine.Obeys.bind (obeys_call frame trivial trivial) fun _ _ =>
    obeys_update frame (fun _ => ⟨rfl, rfl, rfl⟩) fun _ stored => stored

theorem obeys_initializeKem :
    Routine.Obeys d (fun _ => True) (initializeKem : Method α κ Unit) := by
  refine (obeys_freeKem frame).bind fun _ _ => ?_
  exact Routine.Obeys.bind (Routine.Obeys.check (obeys_call frame trivial trivial)) fun _ _ =>
    obeys_update frame (fun _ => ⟨rfl, rfl, rfl⟩) fun _ stored => stored

theorem obeys_timedMakeKey :
    Routine.Obeys d (fun publicKey => Within kind publicKey.toList)
      (timedMakeKey : Method α κ _) := by
  refine obeys_timed frame (Routine.Obeys.bind
    (Routine.Obeys.orFail_any (obeys_call frame trivial trivial)) fun key _ => ?_)
  exact Routine.Obeys.bind (obeys_update frame (fun _ => ⟨rfl, rfl, rfl⟩) fun _ stored => stored)
    fun _ _ => Routine.Obeys.orFail (obeys_call frame trivial trivial)

theorem obeys_timedEncapsulate (publicKey : KemPublicKey α) :
    Routine.Obeys d (fun pair => Within kind pair.1.toList)
      (timedEncapsulate publicKey : Method α κ _) := by
  refine obeys_timed frame (Routine.Obeys.bind
    (Routine.Obeys.orFail_any (obeys_call frame trivial trivial)) fun key _ => ?_)
  exact Routine.Obeys.bind (obeys_update frame (fun _ => ⟨rfl, rfl, rfl⟩) fun _ stored => stored)
    fun _ _ => Routine.Obeys.orFail (obeys_call frame trivial trivial)

theorem obeys_timedDecapsulate (ciphertext : KemCiphertext α) :
    Routine.Obeys d (fun _ => True) (timedDecapsulate ciphertext : Method α κ _) := by
  refine Routine.Obeys.get fun protocol _ => obeys_timed frame ?_
  exact (Routine.obeys_held _).andThen fun key =>
    Routine.Obeys.orFail_any (obeys_call frame trivial trivial)

end Kem

section Records

theorem obeys_validatePeerRecord (version : UInt32) :
    Routine.Obeys d (fun _ => True) (validatePeerRecord version : Method α κ Unit) := by
  refine Routine.Obeys.get fun protocol _ => (Routine.obeys_guard _).bind fun _ _ => ?_
  refine Routine.Obeys.ite ?_ (Routine.obeys_pure trivial)
  exact Routine.Obeys.bind (obeys_call frame trivial trivial) fun now _ =>
    (Routine.obeys_guard _).any

theorem obeys_obtainPeerPath (version q : UInt32) {carried : PathCells α}
    (received : Within kind carried.toList) :
    Routine.Obeys d (fun path => Within kind path.toList)
      (obtainPeerPath version q carried : Method α κ _) := by
  refine Routine.Obeys.get fun protocol _ => ?_
  split
  · exact Routine.obeys_pure received
  · refine Routine.Obeys.bind (Routine.Obeys.orFail (obeys_call frame trivial trivial))
      fun found is => ?_
    obtain ⟨path, operation⟩ := found
    exact Routine.Obeys.bind
      (obeys_update frame (fun _ => ⟨rfl, rfl, rfl⟩) fun _ stored => stored)
      fun _ _ => Routine.obeys_pure is

theorem obeys_attachPath (q : UInt32) :
    Routine.Obeys d (fun path => Within kind (carriedPath path)) (attachPath q : Method α κ _) := by
  refine Routine.Obeys.get fun protocol _ => ?_
  split
  · exact Routine.obeys_pure within_nil
  · exact Routine.Obeys.bind (Routine.Obeys.orFail (obeys_call frame trivial trivial))
      fun path is => Routine.obeys_pure is

theorem obeys_timedVerify (q : UInt32) (signature : SignatureCells α) (path : PathCells α) :
    Routine.Obeys d (fun _ => True) (timedVerify q signature path : Method α κ Unit) := by
  refine Routine.Obeys.get fun protocol _ => ?_
  exact Routine.Obeys.check_any (obeys_timed frame (obeys_call frame trivial trivial))

end Records

section Keys

theorem obeys_timedRuntimeSeed :
    Routine.Obeys d (fun _ => True) (timedRuntimeSeed : Method α κ _) := by
  refine Routine.Obeys.get fun protocol _ => Routine.Obeys.andThen ?_
    fun pufRoot => obeys_timedHkdf frame _ _ _ _
  exact obeys_timed frame (Routine.Obeys.orFail_any (obeys_call frame trivial trivial))

theorem obeys_computeSid0 :
    Routine.Obeys d (fun sid => Within kind sid.toList) (computeSid0 : Method α κ _) :=
  Routine.Obeys.get fun _ _ => obeys_timedSha frame _

theorem obeys_computeConfirmationTag (domain : UInt8) (confirmationKey transcriptHash : Hash α) :
    Routine.Obeys d (fun tag => Within kind tag.toList)
      (computeConfirmationTag domain confirmationKey transcriptHash : Method α κ _) :=
  obeys_timedHmac frame _ _

theorem obeys_timedTranscriptHash (sid : Hash α) (m2Length : Nat) (m3Inner : List α) :
    Routine.Obeys d (fun hash => Within kind hash.toList)
      (timedTranscriptHash sid m2Length m3Inner : Method α κ _) :=
  Routine.Obeys.get fun _ _ => obeys_timed frame ((Routine.obeys_guard _).bind fun _ _ =>
    Routine.Obeys.orFail (obeys_call frame trivial trivial))

/-- A view is over the identifier that it was derived for. -/
theorem obeys_deriveView (sid sharedSecret : Hash α) (inner : List α) :
    Routine.Obeys d (fun view => view.sid = sid)
      (deriveView sid sharedSecret inner : Method α κ _) := by
  refine Routine.Obeys.get fun protocol _ =>
    (obeys_timedTranscriptHash frame _ _ _).bind fun hash _ => ?_
  refine Routine.Obeys.andThen ?_ fun keys => Routine.obeys_pure rfl
  exact (obeys_timedHkdf frame _ _ _ _).bind fun material _ => Routine.obeys_pure trivial

end Keys

section Signing

theorem obeys_buildM2SignedInput {sid : Hash α} {publicKey : KemPublicKey α} (version q : UInt32)
    (hashed : Within kind sid.toList) (generated : Within kind publicKey.toList) :
    Routine.Obeys d (fun _ => True)
      (buildM2SignedInput sid version q publicKey : Method α κ Unit) := by
  refine obeys_update frame (fun _ => ⟨rfl, rfl, rfl⟩) fun object stored => ?_
  have mu := within_muA frame.bytes object.config.idA object.config.idB version hashed generated
  obtain ⟨m0, m1, m2, m3, m4, _, _, result⟩ := within_buffers.mp stored
  exact within_buffers.mpr
    ⟨m0, m1, m2, m3, m4, mu, within_signedInput frame.bytes q mu, result⟩

theorem obeys_buildM3SignedInput {sid hashM2 : Hash α} {ciphertext : KemCiphertext α}
    (version q : UInt32) (hashed : Within kind sid.toList) (hashedM2 : Within kind hashM2.toList)
    (encapsulated : Within kind ciphertext.toList) :
    Routine.Obeys d (fun _ => True)
      (buildM3SignedInput sid hashM2 version q ciphertext : Method α κ Unit) := by
  refine obeys_update frame (fun _ => ⟨rfl, rfl, rfl⟩) fun object stored => ?_
  have mu := within_muB frame.bytes object.config.idA object.config.idB version hashed hashedM2
    encapsulated
  obtain ⟨m0, m1, m2, m3, m4, _, _, result⟩ := within_buffers.mp stored
  exact within_buffers.mpr
    ⟨m0, m1, m2, m3, m4, mu, within_signedInput frame.bytes q mu, result⟩

end Signing

section Transport

theorem obeys_sendProtocolMessage (destination : Transport.Endpoint) (type : UInt8)
    (session : UInt32) {data : List α} (countAsProtocol : Bool) (sent : Within kind data) :
    Routine.Obeys d (fun _ => True)
      (sendProtocolMessage destination type session data countAsProtocol : Method α κ Unit) := by
  refine Routine.Obeys.bind (Routine.Obeys.orFail_any (obeys_call frame trivial sent)) fun _ _ => ?_
  refine obeys_update frame (fun object => ?_) fun object stored => ?_
  · cases countAsProtocol with
    | true => exact ⟨rfl, rfl, rfl⟩
    | false => exact ⟨rfl, rfl, rfl⟩
  · cases countAsProtocol with
    | true => exact stored
    | false => exact stored

/-- A receive is one call that is not local; its cells are stored in one of the buffers. -/
theorem obeys_receiveProtocolMessage {expectedType : UInt8} {expectedSession : UInt32}
    {capacity expectedLength : Nat}
    {store : List α → ProposedUavProtocol α κ → ProposedUavProtocol α κ} {countAsProtocol : Bool}
    (receives : d.allowed (.receiveMessage expectedType expectedSession capacity receiveTimeoutMs))
    (unchanged : ∀ cells object, (store cells object).config = object.config ∧
      (store cells object).peerRecord = object.peerRecord ∧
      (store cells object).bootSeed = object.bootSeed)
    (stores : ∀ cells object, Within kind cells → Within kind object.buffers →
      Within kind (store cells object).buffers) :
    Routine.Obeys d (fun _ => True) (receiveProtocolMessage expectedType expectedSession capacity
      expectedLength store countAsProtocol : Method α κ _) := by
  refine Routine.Obeys.bind (Routine.obeys_perform receives) fun answer assumed => ?_
  have received : Within kind answer.2 :=
    frame.answers (.receiveMessage expectedType expectedSession capacity receiveTimeoutMs) answer
      assumed
  refine Routine.Obeys.bind (obeys_update frame (fun object => unchanged answer.2 object)
    fun object stored => stores answer.2 object received stored) fun _ _ => ?_
  refine (Routine.obeys_held _).andThen fun packet => ?_
  refine (Routine.obeys_guard _).bind fun _ _ => ?_
  refine Routine.Obeys.bind (obeys_update frame (fun object => ?_) fun object stored => ?_)
    fun _ _ => Routine.obeys_pure trivial
  · cases countAsProtocol with
    | true => exact ⟨rfl, rfl, rfl⟩
    | false => exact ⟨rfl, rfl, rfl⟩
  · cases countAsProtocol with
    | true => exact stored
    | false => exact stored

theorem obeys_cleanup : Routine.Obeys d (fun _ => True) (cleanup : Method α κ Unit) := by
  refine (obeys_freeKem frame).bind fun _ _ => ?_
  refine obeys_update frame (fun _ => ⟨rfl, rfl, rfl⟩) fun object stored => ?_
  obtain ⟨m0, m1, m2, m3, m4, _, _, result⟩ := within_buffers.mp stored
  exact within_buffers.mpr ⟨m0, m1, m2, m3, m4, within_replicate (frame.bytes 0),
    within_replicate (frame.bytes 0), result⟩

end Transport

section Initiator

theorem obeys_buildM0 :
    Routine.Obeys d (fun nonceA => Within kind nonceA.toList) (buildM0 : Method α κ _) := by
  refine Routine.Obeys.bind (obeys_call frame trivial trivial) fun nonceA drawn => ?_
  refine Routine.Obeys.bind (obeys_update frame (fun _ => ⟨rfl, rfl, rfl⟩) fun object stored => ?_)
    fun _ _ => Routine.obeys_pure drawn
  obtain ⟨_, m1, m2, m3, m4, mu, signInput, result⟩ := within_buffers.mp stored
  exact within_buffers.mpr ⟨within_m0Message frame.bytes _ drawn, m1, m2, m3, m4, mu, signInput,
    result⟩

theorem obeys_sendM0 (session : UInt32) :
    Routine.Obeys d (fun _ => True) (sendM0 session : Method α κ Unit) :=
  Routine.Obeys.get fun _ kept => obeys_sendProtocolMessage frame _ _ _ _
    (within_buffers.mp (frame.buffers _ kept)).1

/-- What `sendM2` does with a signature. -/
theorem obeys_sendSignedM2 (session : UInt32) (destination : Transport.Endpoint)
    (version qA : UInt32) {sid : Hash α} {publicKey : KemPublicKey α}
    {signature : SignatureCells α} (hashed : Within kind sid.toList)
    (generated : Within kind publicKey.toList) (signed : Within kind signature.toList) :
    Routine.Obeys d (fun hashM2 => Within kind hashM2.toList) (do
      let path ← attachPath qA
      modify fun protocol => { protocol with
        m2 := overwrite protocol.m2 (m2Message sid version qA publicKey signature path) }
      let protocol ← get
      let hashM2 ← timedSha protocol.sentM2
      sendProtocolMessage destination msgM2Init session protocol.sentM2 true
      pure hashM2 : Method α κ (Hash α)) := by
  refine (obeys_attachPath frame _).bind fun path attached => ?_
  refine Routine.Obeys.bind (obeys_update frame (fun _ => ⟨rfl, rfl, rfl⟩) fun object stored => ?_)
    fun _ _ => ?_
  · obtain ⟨m0, m1, m2, m3, m4, mu, signInput, result⟩ := within_buffers.mp stored
    have message : Within kind (m2Message sid version qA publicKey signature path) := by
      simp only [m2Message, within_append, within_signedHeader frame.bytes _ _ _ hashed, generated,
        signed, attached, and_self]
    exact within_buffers.mpr ⟨m0, m1, m2.overwrite message, m3, m4, mu, signInput, result⟩
  refine Routine.Obeys.get fun protocol kept => ?_
  refine (obeys_timedSha frame _).bind fun hashM2 hashed => ?_
  obtain ⟨m0, m1, m2, _⟩ := within_buffers.mp (frame.buffers _ kept)
  exact (obeys_sendProtocolMessage frame _ _ _ _ (m2.slice _ _)).bind fun _ _ =>
    Routine.obeys_pure hashed

theorem obeys_sendM4 (session : UInt32) (destination : Transport.Endpoint) {view : View α}
    (hashed : Within kind view.sid.toList) :
    Routine.Obeys d (fun _ => True) (sendM4 session destination view : Method α κ Unit) := by
  refine (obeys_computeConfirmationTag frame _ _ _).bind fun tauA tagged => ?_
  refine Routine.Obeys.bind (obeys_update frame (fun _ => ⟨rfl, rfl, rfl⟩) fun object stored => ?_)
    fun _ _ => ?_
  · obtain ⟨m0, m1, m2, m3, _, mu, signInput, result⟩ := within_buffers.mp stored
    exact within_buffers.mpr ⟨m0, m1, m2, m3, within_m4Message frame.bytes hashed tagged, mu,
      signInput, result⟩
  refine Routine.Obeys.get fun protocol kept => ?_
  obtain ⟨m0, m1, m2, m3, m4, _⟩ := within_buffers.mp (frame.buffers _ kept)
  exact obeys_sendProtocolMessage frame _ _ _ _ m4

theorem obeys_receiveResult {session : UInt32}
    (receives : d.allowed (.receiveMessage msgResult session 128 receiveTimeoutMs)) :
    Routine.Obeys d (fun _ => True) (receiveResult session : Method α κ Unit) := by
  refine Routine.Obeys.bind (obeys_receiveProtocolMessage frame receives
    (fun _ _ => ⟨rfl, rfl, rfl⟩) fun cells object received stored => ?_) fun _ _ => ?_
  · obtain ⟨m0, m1, m2, m3, m4, mu, signInput, result⟩ := within_buffers.mp stored
    exact within_buffers.mpr ⟨m0, m1, m2, m3, m4, mu, signInput, result.overwrite received⟩
  refine (obeys_timer frame).bind fun _ _ => Routine.Obeys.bind
    (obeys_update frame (fun _ => ⟨rfl, rfl, rfl⟩) fun _ stored => stored) fun _ _ => ?_
  exact Routine.Obeys.get fun protocol _ => (Routine.obeys_guard _).any

variable [DecidableEq α]

theorem obeys_receiveM1 {session : UInt32} (nonceA : Nonce α)
    (receives : d.allowed (.receiveMessage msgM1Chal session m1Bytes receiveTimeoutMs)) :
    Routine.Obeys d (fun _ => True) (receiveM1 session nonceA : Method α κ _) := by
  refine Routine.Obeys.bind (obeys_receiveProtocolMessage frame receives
    (fun _ _ => ⟨rfl, rfl, rfl⟩) fun cells object received stored => ?_) fun packet _ => ?_
  · obtain ⟨m0, m1, m2, m3, m4, mu, signInput, result⟩ := within_buffers.mp stored
    exact within_buffers.mpr ⟨m0, m1.overwrite received, m2, m3, m4, mu, signInput, result⟩
  exact Routine.Obeys.get fun protocol _ => (Routine.obeys_guard _).bind fun _ _ =>
    Routine.obeys_pure trivial

theorem obeys_receiveM3 {session : UInt32} {sid hashM2 : Hash α}
    (receives : d.allowed (.receiveMessage msgM3RespFin session m3MaxBytes receiveTimeoutMs))
    (hashed : Within kind sid.toList) (hashedM2 : Within kind hashM2.toList) :
    Routine.Obeys d (fun _ => True) (receiveM3 session sid hashM2 : Method α κ _) := by
  refine Routine.Obeys.get fun _ _ => ?_
  refine Routine.Obeys.bind (obeys_receiveProtocolMessage frame receives
    (fun _ _ => ⟨rfl, rfl, rfl⟩) fun cells object received stored => ?_) fun packet _ => ?_
  · obtain ⟨m0, m1, m2, m3, m4, mu, signInput, result⟩ := within_buffers.mp stored
    exact within_buffers.mpr ⟨m0, m1, m2, m3.overwrite received, m4, mu, signInput, result⟩
  refine Routine.Obeys.get fun protocol kept => ?_
  obtain ⟨m0, m1, m2, m3, _⟩ := within_buffers.mp (frame.buffers _ kept)
  refine (Routine.obeys_guard _).bind fun _ _ => (Routine.obeys_guard _).bind fun _ _ => ?_
  refine (Routine.obeys_guard _).bind fun _ _ => ?_
  refine (obeys_validatePeerRecord frame _).bind fun _ _ => ?_
  refine (obeys_obtainPeerPath frame _ _ (m3.block _ _ _)).bind fun peerPath _ => ?_
  refine (obeys_buildM3SignedInput frame _ _ hashed hashedM2 (m3.block _ _ _)).bind fun _ _ => ?_
  exact (obeys_timedVerify frame _ _ _).bind fun _ _ => Routine.obeys_pure trivial

theorem obeys_confirmB (sid : Hash α) :
    Routine.Obeys d (fun view => view.sid = sid) (confirmB sid : Method α κ _) := by
  refine Routine.Obeys.get fun protocol _ => ?_
  refine (obeys_timedDecapsulate frame _).bind fun sharedSecret _ => ?_
  refine (obeys_deriveView frame _ _ _).bind fun view derived => ?_
  refine (obeys_computeConfirmationTag frame _ _ _).bind fun tag _ => ?_
  refine (Routine.obeys_guard _).bind fun _ _ => ?_
  exact Routine.Obeys.bind (obeys_call frame trivial trivial) fun _ _ => Routine.obeys_pure derived

omit [DecidableEq α] frame in
theorem within_cleared {object : ProposedUavProtocol α κ} (bytes : ∀ b : UInt8, kind (ofByte b))
    (stored : Within kind object.buffers) : Within kind object.cleared.buffers := by
  obtain ⟨_, _, _, _, _, mu, signInput, result⟩ := within_buffers.mp stored
  exact within_buffers.mpr ⟨within_replicate (bytes 0), within_replicate (bytes 0),
    within_replicate (bytes 0), within_replicate (bytes 0), within_replicate (bytes 0), mu,
    signInput, result⟩

end Initiator

section Responder

theorem obeys_receiveM0
    (receives : d.allowed (.receiveMessage msgM0Req 0 m0Bytes receiveTimeoutMs)) :
    Routine.Obeys d (fun _ => True) (receiveProtocolMessage msgM0Req 0 m0Bytes m0Bytes storeM0
      true : Method α κ _) := by
  refine obeys_receiveProtocolMessage frame receives (fun _ _ => ⟨rfl, rfl, rfl⟩)
    fun cells object received stored => ?_
  obtain ⟨m0, m1, m2, m3, m4, mu, signInput, result⟩ := within_buffers.mp stored
  exact within_buffers.mpr ⟨m0.overwrite received, m1, m2, m3, m4, mu, signInput, result⟩

/-- What `sendM3` does with a signature. -/
theorem obeys_sendSignedM3 (session : UInt32) (destination : Transport.Endpoint)
    (version qB : UInt32) {sid : Hash α} {ciphertext : KemCiphertext α} (sharedSecret : Hash α)
    {signature : SignatureCells α} (hashed : Within kind sid.toList)
    (encapsulated : Within kind ciphertext.toList) (signed : Within kind signature.toList) :
    Routine.Obeys d (fun sent => sent.2.sid = sid) (do
      let path ← attachPath qB
      let inner := m3Inner sid version qB ciphertext signature path
      let view ← deriveView sid sharedSecret inner
      note .keysDerived view
      let tauB ← computeConfirmationTag domainBConfirm view.confirmB view.transcriptHash
      modify fun protocol => { protocol with
        m3 := overwrite protocol.m3 (m3Message sid inner tauB) }
      let protocol ← get
      sendProtocolMessage destination msgM3RespFin session
        (slice protocol.m3.toList 0 (m3BytesForMode protocol.config.pathMode)) true
      pure (qB, view) : Method α κ (UInt32 × View α)) := by
  refine (obeys_attachPath frame _).bind fun path attached => ?_
  have inner : Within kind (m3Inner sid version qB ciphertext signature path) := by
    simp only [m3Inner, within_append, within_signedHeader frame.bytes _ _ _ hashed, encapsulated,
      signed, attached, and_self]
  refine (obeys_deriveView frame _ _ _).bind fun view derived => ?_
  refine Routine.Obeys.bind (obeys_call frame trivial trivial) fun _ _ => ?_
  refine (obeys_computeConfirmationTag frame _ _ _).bind fun tauB tagged => ?_
  refine Routine.Obeys.bind (obeys_update frame (fun _ => ⟨rfl, rfl, rfl⟩) fun object stored => ?_)
    fun _ _ => ?_
  · obtain ⟨m0, m1, m2, m3, m4, mu, signInput, result⟩ := within_buffers.mp stored
    exact within_buffers.mpr ⟨m0, m1, m2,
      m3.overwrite (within_m3Message frame.bytes hashed inner tagged), m4, mu, signInput, result⟩
  refine Routine.Obeys.get fun protocol kept => ?_
  obtain ⟨m0, m1, m2, m3, _⟩ := within_buffers.mp (frame.buffers _ kept)
  exact (obeys_sendProtocolMessage frame _ _ _ _ (m3.slice _ _)).bind fun _ _ =>
    Routine.obeys_pure derived

omit frame in
theorem within_resultRecord (bytes : ∀ b : UInt8, kind (ofByte b)) (qA qB : UInt32)
    (metrics : LocalMetrics) (freeHeap minFreeHeap : UInt32) :
    Within kind (resultRecord qA qB metrics freeHeap minFreeHeap) := by
  unfold resultRecord
  simp only [within_append, within_putU32 bytes, within_putU64 bytes, and_true]
  simp only [within_cons, within_nil, bytes, and_self]

theorem obeys_sendResult (session : UInt32) (destination : Transport.Endpoint) (qA qB : UInt32) :
    Routine.Obeys d (fun _ => True) (sendResult session destination qA qB : Method α κ Unit) := by
  refine Routine.Obeys.bind (obeys_call frame trivial trivial) fun freeHeap _ => ?_
  refine Routine.Obeys.bind (obeys_call frame trivial trivial) fun minFreeHeap _ => ?_
  refine Routine.Obeys.bind (obeys_update frame (fun _ => ⟨rfl, rfl, rfl⟩) fun object stored => ?_)
    fun _ _ => ?_
  · obtain ⟨m0, m1, m2, m3, m4, mu, signInput, result⟩ := within_buffers.mp stored
    exact within_buffers.mpr ⟨m0, m1, m2, m3, m4, mu, signInput,
      result.overwrite (within_resultRecord frame.bytes _ _ _ _ _)⟩
  refine Routine.Obeys.get fun protocol kept => ?_
  obtain ⟨_, _, _, _, _, _, _, result⟩ := within_buffers.mp (frame.buffers _ kept)
  exact (obeys_sendProtocolMessage frame _ _ _ _ (result.slice _ _)).attempt.bind fun _ _ =>
    Routine.obeys_pure trivial

variable [DecidableEq α]

theorem obeys_sendM1 (session : UInt32) (destination : Transport.Endpoint) :
    Routine.Obeys d (fun sid => Within kind sid.toList)
      (sendM1 session destination : Method α κ _) := by
  refine Routine.Obeys.get fun protocol kept => (Routine.obeys_guard _).bind fun _ _ => ?_
  obtain ⟨m0, _⟩ := within_buffers.mp (frame.buffers _ kept)
  refine Routine.Obeys.andThen ?_ fun _ => ?_
  · refine Routine.Obeys.bind (obeys_call frame trivial trivial) fun nonceB drawn => ?_
    refine obeys_update frame (fun _ => ⟨rfl, rfl, rfl⟩) fun object stored => ?_
    obtain ⟨m0', _, m2, m3, m4, mu, signInput, result⟩ := within_buffers.mp stored
    exact within_buffers.mpr ⟨m0', within_m1Message frame.bytes _ (m0.block _ _ _) drawn, m2, m3,
      m4, mu, signInput, result⟩
  refine (obeys_computeSid0 frame).bind fun sid hashed => Routine.Obeys.get fun protocol kept => ?_
  obtain ⟨_, m1, _⟩ := within_buffers.mp (frame.buffers _ kept)
  exact (obeys_sendProtocolMessage frame _ _ _ _ m1).bind fun _ _ => Routine.obeys_pure hashed

theorem obeys_receiveM2 {session : UInt32} {sid : Hash α}
    (receives : d.allowed (.receiveMessage msgM2Init session m2MaxBytes receiveTimeoutMs))
    (hashed : Within kind sid.toList) :
    Routine.Obeys d (fun opened => Within kind opened.2.toList)
      (receiveM2 session sid : Method α κ _) := by
  refine Routine.Obeys.get fun _ _ => ?_
  refine Routine.Obeys.bind (obeys_receiveProtocolMessage frame receives
    (fun _ _ => ⟨rfl, rfl, rfl⟩) fun cells object received stored => ?_) fun _ _ => ?_
  · obtain ⟨m0, m1, m2, m3, m4, mu, signInput, result⟩ := within_buffers.mp stored
    exact within_buffers.mpr ⟨m0, m1, m2.overwrite received, m3, m4, mu, signInput, result⟩
  refine Routine.Obeys.get fun protocol kept => ?_
  obtain ⟨m0, m1, m2, _⟩ := within_buffers.mp (frame.buffers _ kept)
  refine (Routine.obeys_guard _).bind fun _ _ => (Routine.obeys_guard _).bind fun _ _ => ?_
  refine (obeys_validatePeerRecord frame _).bind fun _ _ => ?_
  refine (obeys_timedSha frame _).bind fun hashM2 hashedM2 => ?_
  refine (obeys_obtainPeerPath frame _ _ (m2.block _ _ _)).bind fun peerPath _ => ?_
  refine (obeys_buildM2SignedInput frame _ _ hashed (m2.block _ _ _)).bind fun _ _ => ?_
  exact (obeys_timedVerify frame _ _ _).bind fun _ _ => Routine.obeys_pure hashedM2

theorem obeys_receiveM4 {session : UInt32} (view : View α)
    (receives : d.allowed (.receiveMessage msgM4InitFin session m4Bytes receiveTimeoutMs)) :
    Routine.Obeys d (fun _ => True) (receiveM4 session view : Method α κ Unit) := by
  refine Routine.Obeys.bind (obeys_receiveProtocolMessage frame receives
    (fun _ _ => ⟨rfl, rfl, rfl⟩) fun cells object received stored => ?_) fun _ _ => ?_
  · obtain ⟨m0, m1, m2, m3, m4, mu, signInput, result⟩ := within_buffers.mp stored
    exact within_buffers.mpr ⟨m0, m1, m2, m3, m4.overwrite received, mu, signInput, result⟩
  refine Routine.Obeys.get fun protocol _ => (Routine.obeys_guard _).bind fun _ _ => ?_
  exact (obeys_computeConfirmationTag frame _ _ _).bind fun _ _ => (Routine.obeys_guard _).any

end Responder

end ProposedUavProtocol

end Puav
