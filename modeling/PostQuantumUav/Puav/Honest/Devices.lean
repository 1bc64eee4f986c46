import PostQuantumUav.Library.Interaction.Computes
import PostQuantumUav.Library.Interaction.Total
import PostQuantumUav.Puav.MessageFields
import PostQuantumUav.Puav.ProposedUavProtocol

/-!
# Devices whose calls succeed

One side of a session with all that its calls compute: the hash functions, the key
encapsulation, the device's nonce, index, signatures and paths, and the messages that are
delivered to it. The next message may depend on what the side has done so far.

A method of the protocol is described by its result, the object that it leaves up to the
measured times, and what it does that others can notice: `Yields`. The counted bytes of the
messages are not left open.
-/

namespace Puav

open Interaction Cell Buffer ProposedUavProtocol

variable {α κ : Type}

section Values

/-- The path that is attached in the signer-carried mode. -/
def attached (mode : PathDeliveryMode) (path : PathCells α) : Option (PathCells α) :=
  match mode with
  | .repositoryAssisted => none
  | .signerCarried => some path

theorem carries_attached (mode : PathDeliveryMode) (path : PathCells α) :
    Carries mode (attached mode path) := by
  cases mode <;> simp [Carries, attached]

end Values

/-- What the functions of the libraries compute; the randomness of an encapsulation is fixed. -/
structure Primitives (α κ : Type) where
  sha : List α → Hash α
  hmac : List α → List α → Hash α
  hkdf : (ikm salt info : List α) → (length : Nat) → List.Vector α length
  encode : κ → KemPublicKey α
  decode : KemPublicKey α → κ
  encapsulate : κ → KemCiphertext α × Hash α
  decapsulate : κ → KemCiphertext α → Hash α
  verify : UInt32 → List α → SignatureCells α → Identifier → PathCells α → Digest → Bool

namespace Primitives

theorem sessionKey_fits : 0 + hashBytes ≤ sessionKeyMaterialBytes := by decide

theorem confirmA_fits : hashBytes + hashBytes ≤ sessionKeyMaterialBytes := by decide

theorem confirmB_fits : 2 * hashBytes + hashBytes ≤ sessionKeyMaterialBytes := by decide

variable [Cell α] (primitives : Primitives α κ)

/-- `deriveSessionKeys`. -/
def sessionKeys (sharedSecret transcriptHash : Hash α) : SessionKeys α :=
  let material := primitives.hkdf sharedSecret.toList transcriptHash.toList
    (hashInput domainUavAke transcriptHash) sessionKeyMaterialBytes
  ⟨block material 0 hashBytes sessionKey_fits, block material hashBytes hashBytes confirmA_fits,
    block material (2 * hashBytes) hashBytes confirmB_fits⟩

/-- What a side holds that has derived its keys. -/
def view (m0 : List.Vector α m0Bytes) (m1 : List.Vector α m1Bytes) (m2 inner : List α)
    (sid sharedSecret : Hash α) : View α :=
  let transcriptHash := primitives.sha (transcriptInput sid m0 m1 m2 inner)
  let keys := primitives.sessionKeys sharedSecret transcriptHash
  ⟨m0, m1, m2, inner, sid, transcriptHash, keys.sessionKey, keys.confirmA, keys.confirmB⟩

/-- `computeConfirmationTag` under a key of the view. -/
def tag (domain : UInt8) (confirmationKey transcriptHash : Hash α) : Hash α :=
  primitives.hmac confirmationKey.toList (hashInput domain transcriptHash)

end Primitives

/-- A device before a session: its values, its stored index, its LMS object, and the paths that
the repository returns to it. -/
structure HonestDevice (α κ : Type) where
  config : NodeConfig
  peerRecord : PeerPublicRecord
  random : UInt32
  nonce : Nonce α
  pufRoot : Hash α
  key : κ
  nextQ : UInt32
  sign : UInt32 → List α → Hash α → Option (SignatureCells α)
  path : UInt32 → Option (PathCells α)
  fetched : UInt32 → UInt32 → Option (PathCells α)

/-- The seed under which the device signs. -/
def HonestDevice.runtimeSeed [Cell α] (primitives : Primitives α κ) (device : HonestDevice α κ) :
    Hash α :=
  primitives.hkdf device.pufRoot.toList [] (lmsSeedInfo device.config.deviceId
    device.config.credentialVersion device.config.lmsIdentifier) hashBytes

/-- A device uses its next index, and another one holds what it takes to check the signature. -/
structure Trusted [Cell α] (primitives : Primitives α κ) (signer checker : HonestDevice α κ)
    (object : List α) (signature : SignatureCells α) (path : PathCells α) : Prop where
  ready : checker.peerRecord.ready = true
  version : checker.peerRecord.version = signer.config.credentialVersion
  expected : checker.peerRecord.version = checker.config.peerCredentialVersion
  suite : checker.peerRecord.suiteId = suiteIdForMode checker.config.pathMode
  active : checker.peerRecord.status = credentialStatusActive
  unused : ¬ (signer.nextQ < signer.config.firstQ ∨
    signer.nextQ ≥ signer.config.firstQ + signer.config.numberOfSessions ∨
    signer.nextQ ≥ .ofNat lmsLeaves)
  signed : signer.sign signer.nextQ object (signer.runtimeSeed primitives) = some signature
  extracted : signer.path signer.nextQ = some path
  fetched : checker.config.pathMode = .repositoryAssisted →
    checker.fetched signer.config.credentialVersion signer.nextQ = some path
  verified : primitives.verify signer.nextQ object signature checker.peerRecord.identifier path
    checker.peerRecord.root = true

structure Message (α : Type) where
  type : UInt8
  session : UInt32
  data : List α

/-- A message that the transport takes. -/
structure Message.Sendable (message : Message α) : Prop where
  nonempty : 1 ≤ message.data.length
  short : message.data.length ≤ maxProtocolMessageBytes

/-- What one side of a session does that others can notice, and the points that it passes. -/
inductive Deed (α : Type) where
  | sent (message : Message α)
  | received (message : Message α)
  | signed (object : List α)
  | verified (object : List α) (root : Digest)
  | noted (milestone : Milestone) (view : View α)

/-- What one side of a session has done so far. -/
abbrev Party (α : Type) := List (Deed α)

/-- The next message for a party, if there is one. -/
abbrev Delivery (α : Type) := Party α → Option (Message α)

namespace Party

def does (party : Party α) (deed : Deed α) : Party α := party ++ [deed]

/-- The calls of `begin`, which no session makes. -/
def Starts : Call α κ → Prop
  | .beginPreferences => True
  | .initRng => True
  | .connectWiFi => True
  | .beginTransport => True
  | .beginGcs => True
  | .initializeLms _ _ => True
  | .buildTree => True
  | .enrollOwnRoot _ _ _ _ => True
  | .enrollOwnPaths _ _ _ => True
  | .fetchPeerRoot _ => True
  | _ => False

/-- A message that the call waits for. -/
structure Awaited (type : UInt8) (session : UInt32) (outputCapacity : Nat) (timeoutMs : UInt32)
    (message : Message α) : Prop where
  time : 0 < timeoutMs
  sendable : message.Sendable
  typed : type ≠ 0xff
  type : message.type = type
  session : session = 0 ∨ message.session = session
  fits : message.data.length ≤ outputCapacity

variable (primitives : Primitives α κ) (device : HonestDevice α κ) (delivery : Delivery α)

/-- How the calls of a session are answered. Without an awaited message a call times out. -/
inductive Answered (party : Party α) : Event (calls α κ) → Party α → Prop where
  | espTimer (now : UInt64) : Answered party ⟨.espTimer, now⟩ party
  | espRandom : Answered party ⟨.espRandom, device.random⟩ party
  | fillNonce : Answered party ⟨.fillNonce, device.nonce⟩ party
  | time (now : Int) (valid : device.peerRecord.expiryUnix ≠ 0 →
      ¬ (now < 1700000000 ∨ now > device.peerRecord.expiryUnix.toNat)) :
      Answered party ⟨.time, now⟩ party
  | getFreeHeap (bytes : UInt32) : Answered party ⟨.getFreeHeap, bytes⟩ party
  | getMinFreeHeap (bytes : UInt32) : Answered party ⟨.getMinFreeHeap, bytes⟩ party
  | sendMessage (destination : Transport.Endpoint) (type : UInt8) (session : UInt32) (data : List α)
      (framed : Option UInt32) (taken : Message.Sendable ⟨type, session, data⟩ → framed ≠ none) :
      Answered party ⟨.sendMessage destination type session data, framed⟩
        (party.does (.sent ⟨type, session, data⟩))
  | receiveMessage {type : UInt8} {session : UInt32} {outputCapacity : Nat} {message : Message α}
      (timeoutMs : UInt32) (source : Transport.Endpoint) (framedBytes : Nat)
      (next : delivery party = some message)
      (awaited : Awaited type session outputCapacity timeoutMs message) :
      Answered party ⟨.receiveMessage type session outputCapacity timeoutMs,
        (some ⟨message.type, message.session, message.data.length, source, framedBytes⟩,
          message.data)⟩ (party.does (.received message))
  | timedOut {type : UInt8} {session : UInt32} {outputCapacity : Nat} (timeoutMs : UInt32)
      (absent : ∀ message, delivery party = some message →
        ¬ Awaited type session outputCapacity timeoutMs message) (cells : List α) :
      Answered party ⟨.receiveMessage type session outputCapacity timeoutMs, (none, cells)⟩ party
  | sha256 (data : List α) : Answered party ⟨.sha256 data, some (primitives.sha data)⟩ party
  | hmacSha256 (key data : List α) :
      Answered party ⟨.hmacSha256 key data, some (primitives.hmac key data)⟩ party
  | hkdfSha256 (ikm salt info : List α) (outputLength : Nat) :
      Answered party ⟨.hkdfSha256 ikm salt info outputLength,
        some (primitives.hkdf ikm salt info outputLength)⟩ party
  | reconstruct : Answered party ⟨.reconstruct, some device.pufRoot⟩ party
  | kemInit : Answered party ⟨.kemInit, true⟩ party
  | kemFree : Answered party ⟨.kemFree, ()⟩ party
  | kemMakeKey : Answered party ⟨.kemMakeKey, some device.key⟩ party
  | kemEncodePublicKey (key : κ) :
      Answered party ⟨.kemEncodePublicKey key, some (primitives.encode key)⟩ party
  | kemDecodePublicKey (publicKey : KemPublicKey α) :
      Answered party ⟨.kemDecodePublicKey publicKey, some (primitives.decode publicKey)⟩ party
  | kemEncapsulate (key : κ) :
      Answered party ⟨.kemEncapsulate key, some (primitives.encapsulate key)⟩ party
  | kemDecapsulate (key : κ) (ciphertext : KemCiphertext α) :
      Answered party ⟨.kemDecapsulate key ciphertext,
        some (primitives.decapsulate key ciphertext)⟩ party
  | getUInt (default : UInt32) : Answered party ⟨.getUInt default, device.nextQ⟩ party
  | putUInt (value : UInt32) (written : Nat) (stored : written ≠ 0) :
      Answered party ⟨.putUInt value, written⟩ party
  | sign (q : UInt32) (message : List α) (runtimeSeed : Hash α) :
      Answered party ⟨.sign q message runtimeSeed, device.sign q message runtimeSeed⟩
        (party.does (.signed message))
  | extractPath (q : UInt32) : Answered party ⟨.extractPath q, device.path q⟩ party
  | verify (q : UInt32) (message : List α) (signature : SignatureCells α) (identifier : Identifier)
      (path : PathCells α) (root : Digest) :
      Answered party ⟨.verify q message signature identifier path root,
        primitives.verify q message signature identifier path root⟩
        (party.does (.verified message root))
  | fetchPeerPath (version q : UInt32) (operation : RepositoryOperationMetrics) :
      Answered party ⟨.fetchPeerPath version q, (device.fetched version q).map (·, operation)⟩ party
  | note (milestone : Milestone) (view : View α) :
      Answered party ⟨.note milestone view, ()⟩ (party.does (.noted milestone view))
  | starts {c : Call α κ} (other : Starts c) (a : (calls α κ).Answer c) :
      Answered party ⟨c, a⟩ party

/-- The event is not a call that was given up with cells in its buffer. -/
def Whole : Event (calls α κ) → Prop
  | ⟨.receiveMessage _ _ _ _, answer⟩ =>
      (answer : Option Transport.Received × List α).1 = none →
        (answer : Option Transport.Received × List α).2 = []
  | _ => True

variable {device} in
/-- Every call is answered while the record of the peer is not expired. -/
theorem answered_responsive (valid : device.peerRecord.expiryUnix ≠ 0 →
      1700000000 ≤ device.peerRecord.expiryUnix.toNat) (party : Party α) (c : Call α κ) :
    ∃ a party', Answered primitives device delivery party ⟨c, a⟩ party' ∧ Whole ⟨c, a⟩ := by
  cases c with
  | espTimer => exact ⟨(0 : UInt64), party, .espTimer 0, trivial⟩
  | espRandom => exact ⟨_, party, .espRandom, trivial⟩
  | fillNonce => exact ⟨_, party, .fillNonce, trivial⟩
  | time =>
      refine ⟨(1700000000 : Int), party, .time 1700000000 fun expires => ?_, trivial⟩
      have later := valid expires
      omega
  | getFreeHeap => exact ⟨(0 : UInt32), party, .getFreeHeap 0, trivial⟩
  | getMinFreeHeap => exact ⟨(0 : UInt32), party, .getMinFreeHeap 0, trivial⟩
  | sendMessage destination type session data =>
      exact ⟨some (0 : UInt32), _, .sendMessage destination type session data (some 0)
        fun _ => Option.some_ne_none _, trivial⟩
  | receiveMessage type session outputCapacity timeoutMs =>
      by_cases present : ∃ message, delivery party = some message ∧
        Awaited type session outputCapacity timeoutMs message
      · obtain ⟨message, next, awaited⟩ := present
        refine ⟨_, _, .receiveMessage timeoutMs ⟨0, 0⟩ 0 next awaited, ?_⟩
        rintro ⟨⟩
      · refine ⟨_, party, .timedOut timeoutMs (fun message next awaited => ?_) [], fun _ => rfl⟩
        exact present ⟨message, next, awaited⟩
  | sha256 data => exact ⟨_, party, .sha256 data, trivial⟩
  | hmacSha256 key data => exact ⟨_, party, .hmacSha256 key data, trivial⟩
  | hkdfSha256 ikm salt info length => exact ⟨_, party, .hkdfSha256 ikm salt info length, trivial⟩
  | reconstruct => exact ⟨_, party, .reconstruct, trivial⟩
  | kemInit => exact ⟨_, party, .kemInit, trivial⟩
  | kemFree => exact ⟨_, party, .kemFree, trivial⟩
  | kemMakeKey => exact ⟨_, party, .kemMakeKey, trivial⟩
  | kemEncodePublicKey key => exact ⟨_, party, .kemEncodePublicKey key, trivial⟩
  | kemDecodePublicKey publicKey => exact ⟨_, party, .kemDecodePublicKey publicKey, trivial⟩
  | kemEncapsulate key => exact ⟨_, party, .kemEncapsulate key, trivial⟩
  | kemDecapsulate key ciphertext => exact ⟨_, party, .kemDecapsulate key ciphertext, trivial⟩
  | getUInt default => exact ⟨_, party, .getUInt default, trivial⟩
  | putUInt value => exact ⟨_, party, .putUInt value 4 (by decide), trivial⟩
  | sign q message runtimeSeed => exact ⟨_, _, .sign q message runtimeSeed, trivial⟩
  | extractPath q => exact ⟨_, party, .extractPath q, trivial⟩
  | verify q message signature identifier path root =>
      exact ⟨_, _, .verify q message signature identifier path root, trivial⟩
  | fetchPeerPath version q => exact ⟨_, party, .fetchPeerPath version q ⟨0, 0, 0⟩, trivial⟩
  | note milestone view => exact ⟨_, _, .note milestone view, trivial⟩
  | beginPreferences | initRng | connectWiFi | beginTransport | beginGcs | buildTree =>
      refine ⟨true, party, .starts ?_ _, trivial⟩
      trivial
  | initializeLms _ _ | enrollOwnRoot _ _ _ _ | enrollOwnPaths _ _ _ =>
      refine ⟨true, party, .starts ?_ _, trivial⟩
      trivial
  | fetchPeerRoot _ =>
      refine ⟨none, party, .starts ?_ _, trivial⟩
      trivial

/-- A device whose calls are answered, none of which leaves cells behind when it is given up. -/
abbrev Attended : World (calls α κ) (Party α) := fun party e party' =>
  Answered primitives device delivery party e party' ∧ Whole e

/-- A world in which every call of the device has an answer, and only its own ones. -/
structure Serves (world : Delivery α → World (calls α κ) (Party α)) : Prop where
  answered : ∀ {delivery party e party'}, world delivery party e party' →
    Answered primitives device delivery party e party'
  responsive : ∀ delivery, (world delivery).Responsive

variable {device} in
/-- So does the world of its calls, while the record of the peer is not expired. -/
theorem attended_serves (valid : device.peerRecord.expiryUnix ≠ 0 →
      1700000000 ≤ device.peerRecord.expiryUnix.toNat) :
    Serves primitives device (Attended primitives device) where
  answered step := step.1
  responsive delivery := answered_responsive primitives delivery valid

/-- One object is the other with other times; the counted bytes of the messages are the same. -/
def Measured (object object' : ProposedUavProtocol α κ) : Prop :=
  ∃ metrics : LocalMetrics, object' = { object with metrics := metrics } ∧
    metrics.appTxBytes = object.metrics.appTxBytes ∧ metrics.appRxBytes = object.metrics.appRxBytes

theorem measured_self (object : ProposedUavProtocol α κ) : Measured object object :=
  ⟨object.metrics, rfl, rfl, rfl⟩

/-- The method finishes with the value, whatever is measured. -/
abbrev Yields {β : Type} (r : Method α κ β) (object : ProposedUavProtocol α κ) (party : Party α)
    (b : β) (object' : ProposedUavProtocol α κ) (party' : Party α) : Prop :=
  Routine.Computes (Answered primitives device delivery) Measured r object party b object' party'

/-- The object after it counted a message that was sent. -/
def countSent (object : ProposedUavProtocol α κ) (length : Nat) : ProposedUavProtocol α κ :=
  { object with metrics := { object.metrics with
    appTxBytes := object.metrics.appTxBytes + .ofNat length } }

/-- The object after it counted a message that was received. -/
def countReceived (object : ProposedUavProtocol α κ) (length : Nat) : ProposedUavProtocol α κ :=
  { object with metrics := { object.metrics with
    appRxBytes := object.metrics.appRxBytes + .ofNat length } }

variable {primitives} {device} {delivery} {object object' : ProposedUavProtocol α κ}
  {party party' : Party α}

section Calls

theorem yields_espTimer {β : Type} {b : β} {f : UInt64 → Method α κ β}
    (next : ∀ now, Yields primitives device delivery (f now) object party b object' party') :
    Yields primitives device delivery (espTimer >>= f) object party b object' party' := by
  refine Routine.Computes.perform fun x v step => ?_
  cases step with
  | espTimer => exact next x
  | starts other => cases other

/-- Measuring an operation does not change what it does. -/
theorem yields_timed {β : Type} {add : UInt64 → LocalMetrics → LocalMetrics}
    {operation : Method α κ β} {b : β}
    (keeps : ∀ us metrics, (add us metrics).appTxBytes = metrics.appTxBytes ∧
      (add us metrics).appRxBytes = metrics.appRxBytes)
    (h : Yields primitives device delivery operation object party b object' party') :
    Yields primitives device delivery (timed add operation) object party b object' party' := by
  refine yields_espTimer fun start => ?_
  refine h.attempt.bind (yields_espTimer fun now => ?_)
  refine (Routine.computes_modify ?_).bind (Routine.computes_pure b)
  rintro _ ⟨metrics, rfl, sent, received⟩
  obtain ⟨tx, rx⟩ := keeps (now - start) metrics
  exact ⟨_, rfl, tx.trans sent, rx.trans received⟩

theorem yields_timedSha (data : List α) : Yields primitives device delivery (timedSha data) object
    party (primitives.sha data) object party := by
  refine yields_timed (fun _ _ => ⟨rfl, rfl⟩)
    (Routine.Computes.orFail (Routine.computes_perform fun x v step => ?_))
  cases step with
  | sha256 data => exact ⟨rfl, rfl⟩
  | starts other => cases other

theorem yields_timedHmac (key data : List α) : Yields primitives device delivery
    (timedHmac key data) object party (primitives.hmac key data) object party := by
  refine yields_timed (fun _ _ => ⟨rfl, rfl⟩)
    (Routine.Computes.orFail (Routine.computes_perform fun x v step => ?_))
  cases step with
  | hmacSha256 key data => exact ⟨rfl, rfl⟩
  | starts other => cases other

theorem yields_timedHkdf (ikm salt info : List α) (outputLength : Nat) :
    Yields primitives device delivery (timedHkdf ikm salt info outputLength) object party
      (primitives.hkdf ikm salt info outputLength) object party := by
  refine yields_timed (fun _ _ => ⟨rfl, rfl⟩)
    (Routine.Computes.orFail (Routine.computes_perform fun x v step => ?_))
  cases step with
  | hkdfSha256 ikm salt info outputLength => exact ⟨rfl, rfl⟩
  | starts other => cases other

theorem yields_note (milestone : Milestone) (view : View α) : Yields primitives device delivery
    (note milestone view) object party () object (party.does (.noted milestone view)) := by
  refine Routine.computes_perform fun x v step => ?_
  cases step with
  | note milestone view => exact ⟨rfl, rfl⟩
  | starts other => cases other

end Calls

section Transport

/-- A message is sent, however many bytes its fragments take. -/
theorem reaches_sendMessage (destination : Transport.Endpoint) {type : UInt8} {session : UInt32}
    {data : List α} (sendable : Message.Sendable ⟨type, session, data⟩) :
    Routine.Reaches (Answered primitives device delivery) Measured
      (Routine.orFail (call (.sendMessage destination type session data))) object party
      (fun _ => True) object (party.does (.sent ⟨type, session, data⟩)) := by
  refine Routine.Reaches.perform fun x v step => ?_
  cases step with
  | sendMessage destination type session data framed taken =>
      obtain ⟨framed, rfl⟩ := Option.ne_none_iff_exists'.mp (taken sendable)
      exact (Routine.computes_pure framed).reaches trivial
  | starts other => cases other

/-- A message that is counted. -/
theorem yields_sendProtocolMessage (destination : Transport.Endpoint) {type : UInt8}
    {session : UInt32} {data : List α} (sendable : Message.Sendable ⟨type, session, data⟩) :
    Yields primitives device delivery
      (sendProtocolMessage destination type session data true) object party .unit
      (countSent object data.length) (party.does (.sent ⟨type, session, data⟩)) := by
  refine (reaches_sendMessage destination sendable).bind fun framed _ => ?_
  apply Routine.computes_modify
  rintro _ ⟨metrics, rfl, sent, received⟩
  exact ⟨_, rfl, congrArg (· + _) sent, received⟩

/-- A message that is not counted. -/
theorem yields_sendUncounted (destination : Transport.Endpoint) {type : UInt8}
    {session : UInt32} {data : List α} (sendable : Message.Sendable ⟨type, session, data⟩) :
    Yields primitives device delivery
      (sendProtocolMessage destination type session data false) object party .unit
      object (party.does (.sent ⟨type, session, data⟩)) := by
  refine (reaches_sendMessage destination sendable).bind fun framed _ => ?_
  exact Routine.computes_modify fun _ like => like

/-- The next message is received when the call waits for it. -/
theorem reaches_receiveProtocolMessage {type : UInt8} {expected session : UInt32}
    {capacity expectedLength : Nat} {data : List α}
    {store : List α → ProposedUavProtocol α κ → ProposedUavProtocol α κ} {counted : Bool}
    (delivered : delivery party = some ⟨type, session, data⟩)
    (sendable : Message.Sendable ⟨type, session, data⟩) (typed : type ≠ 0xff)
    (accepted : expected = 0 ∨ session = expected) (fits : data.length ≤ capacity)
    (sized : expectedLength = 0 ∨ data.length = expectedLength)
    (stored : ∀ metrics, store data { object with metrics := metrics } =
      { store data object with metrics := metrics })
    {counting : ProposedUavProtocol α κ}
    (counts : (if counted then countReceived (store data object) data.length
      else store data object) = counting) :
    Routine.Reaches (Answered primitives device delivery) Measured
      (receiveProtocolMessage type expected capacity expectedLength store counted) object party
      (fun packet => packet.session = session) counting
      (party.does (.received ⟨type, session, data⟩)) := by
  subst counts
  refine Routine.Reaches.perform fun x v step => ?_
  cases step with
  | receiveMessage timeoutMs source framedBytes found awaited =>
      obtain rfl := Option.some.inj (delivered.symm.trans found)
      have kept : store data object = { store data object with metrics := object.metrics } :=
        stored object.metrics
      have unmeasured : (store data object).metrics = object.metrics := congrArg (·.metrics) kept
      refine (@Routine.computes_modify _ _ _ _ _ _ (store data object) _ _ ?_).bindReaches ?_
      · rintro _ ⟨metrics, rfl, sent, received⟩
        refine ⟨metrics, stored metrics, ?_, ?_⟩
        · rw [unmeasured, sent]
        · rw [unmeasured, received]
      refine (Routine.computes_pure _).orFail.bindReaches
        ((Routine.computes_guard sized).bindReaches ?_)
      refine (Routine.computes_modify ?_).bindReaches ((Routine.computes_pure _).reaches rfl)
      rintro _ ⟨metrics, rfl, sent, received⟩
      cases counted with
      | false => exact ⟨metrics, rfl, sent, received⟩
      | true => exact ⟨_, rfl, sent, congrArg (· + _) received⟩
  | timedOut timeoutMs absent cells =>
      exact absurd ⟨by decide, sendable, typed, rfl, accepted, fits⟩ (absent _ delivered)
  | starts other => cases other

end Transport

section Methods

theorem yields_reserveQ {last : UInt32} (config : object.config = device.config)
    (unused : ¬ (device.nextQ < device.config.firstQ ∨ device.nextQ ≥ last ∨
      device.nextQ ≥ .ofNat lmsLeaves))
    (bound : last = device.config.firstQ + device.config.numberOfSessions) :
    Yields primitives device delivery reserveQ object party device.nextQ object party := by
  subst bound
  apply Routine.Computes.get
  rintro _ ⟨metrics, rfl, -⟩
  refine Routine.Computes.perform fun x v step => ?_
  cases step with
  | getUInt default =>
      rw [← config] at unused
      refine (Routine.computes_guard unused).bind
        (Routine.Computes.perform fun (written : Nat) v step => ?_)
      obtain ⟨stored, rfl⟩ : written ≠ 0 ∧ v = party := by
        cases step with
        | putUInt value written stored => exact ⟨stored, rfl⟩
        | starts other => cases other
      exact (Routine.computes_guard stored).bind (Routine.computes_pure _)
  | starts other => cases other

theorem yields_freeKem : ∃ kemInitialized kemKey, ∀ party, Yields primitives device delivery
    (freeKem : Method α κ Unit) object party .unit
    { object with kemInitialized := kemInitialized, kemKey := kemKey } party := by
  by_cases held : object.kemInitialized = true
  · refine ⟨false, none, fun party => Routine.Computes.get ?_⟩
    rintro _ ⟨metrics, rfl, -⟩
    rw [if_pos held]
    refine Routine.Computes.perform fun x v step => ?_
    cases step with
    | kemFree =>
        apply Routine.computes_modify
        rintro _ ⟨metrics', rfl, same⟩
        exact ⟨_, rfl, same⟩
    | starts other => cases other
  · refine ⟨object.kemInitialized, object.kemKey, fun party => Routine.Computes.get ?_⟩
    rintro _ ⟨metrics, rfl, -⟩
    rw [if_neg held]
    exact Routine.computes_pure _

/-- Whatever the key encapsulation held before, it is initialized. -/
theorem yields_initializeKem : ∃ kemKey, ∀ party, Yields primitives device delivery
    (initializeKem : Method α κ Unit) object party .unit
    { object with kemInitialized := true, kemKey := kemKey } party := by
  obtain ⟨kemInitialized, kemKey, freed⟩ := @yields_freeKem _ _ primitives device delivery object
  refine ⟨kemKey, fun party => (freed party).bind ?_⟩
  refine Routine.Computes.bind
    (Routine.Computes.check (Routine.computes_perform fun x v step => ?_))
    (Routine.computes_modify ?_)
  · cases step with
    | kemInit => exact ⟨rfl, rfl⟩
    | starts other => cases other
  · rintro _ ⟨metrics, rfl, same⟩
    exact ⟨_, rfl, same⟩

theorem yields_timedSign {q : UInt32} {runtimeSeed : Hash α} {signature : SignatureCells α}
    (signed : device.sign q object.signInput.toList runtimeSeed = some signature) :
    Yields primitives device delivery (timedSign q runtimeSeed) object party signature object
      (party.does (.signed object.signInput.toList)) := by
  apply Routine.Computes.get
  rintro _ ⟨metrics, rfl, -⟩
  refine yields_timed (fun _ _ => ⟨rfl, rfl⟩)
    (Routine.Computes.orFail (Routine.computes_perform fun x v step => ?_))
  cases step with
  | sign q message runtimeSeed => exact ⟨signed, rfl⟩
  | starts other => cases other

theorem yields_attachPath {q : UInt32} {path : PathCells α} (extracted : device.path q = some path)
    (config : object.config = device.config) :
    Yields primitives device delivery (attachPath q) object party
      (attached device.config.pathMode path) object party := by
  apply Routine.Computes.get
  rintro _ ⟨metrics, rfl, -⟩
  rw [← config]
  cases object.config.pathMode with
  | repositoryAssisted => exact Routine.computes_pure _
  | signerCarried =>
      refine Routine.Computes.bind
        (Routine.Computes.orFail (Routine.computes_perform fun x v step => ?_))
        (Routine.computes_pure _)
      cases step with
      | extractPath q => exact ⟨extracted, rfl⟩
      | starts other => cases other

theorem yields_timedVerify {q : UInt32} {signature : SignatureCells α} {path : PathCells α}
    (verified : primitives.verify q object.signInput.toList signature object.peerRecord.identifier
      path object.peerRecord.root = true) :
    Yields primitives device delivery (timedVerify q signature path) object party () object
      (party.does (.verified object.signInput.toList object.peerRecord.root)) := by
  apply Routine.Computes.get
  rintro _ ⟨metrics, rfl, -⟩
  refine Routine.Computes.check (yields_timed (fun _ _ => ⟨rfl, rfl⟩)
    (Routine.computes_perform fun x v step => ?_))
  cases step with
  | verify q message signature identifier path root => exact ⟨verified, rfl⟩
  | starts other => cases other

/-- The record of the peer is accepted, whatever time it is. -/
theorem yields_validatePeerRecord {version : UInt32} (config : object.config = device.config)
    (peerRecord : object.peerRecord = device.peerRecord)
    (valid : device.peerRecord.ready = true ∧ device.peerRecord.version = version ∧
      device.peerRecord.version = device.config.peerCredentialVersion ∧
      device.peerRecord.suiteId = suiteIdForMode device.config.pathMode ∧
      device.peerRecord.status = credentialStatusActive) :
    Yields primitives device delivery (validatePeerRecord version) object party () object
      party := by
  rw [← config, ← peerRecord] at valid
  apply Routine.Computes.get
  rintro _ ⟨metrics, rfl, -⟩
  refine (Routine.computes_guard valid).bind ?_
  split
  · rename_i expires
    refine Routine.Computes.perform fun (now : Int) v step => ?_
    obtain ⟨unexpired, rfl⟩ : ¬ (now < 1700000000 ∨ now > object.peerRecord.expiryUnix.toNat) ∧
        v = party := by
      cases step with
      | time now later => exact ⟨peerRecord ▸ later (peerRecord ▸ expires), rfl⟩
      | starts other => cases other
    exact Routine.computes_guard unexpired
  · exact Routine.computes_pure ()

/-- The path of the peer is the same in both modes. -/
theorem yields_obtainPeerPath {version q : UInt32} {carried path : PathCells α}
    (config : object.config = device.config)
    (carries : device.config.pathMode = .signerCarried → carried = path)
    (fetched : device.config.pathMode = .repositoryAssisted →
      device.fetched version q = some path) :
    Yields primitives device delivery (obtainPeerPath version q carried) object party path object
      party := by
  rw [← config] at carries fetched
  apply Routine.Computes.get
  rintro _ ⟨metrics, rfl, same⟩
  cases mode : object.config.pathMode with
  | signerCarried =>
      simp only
      exact carries mode ▸ Routine.computes_pure _
  | repositoryAssisted =>
      simp only
      have fetches : Routine.Reaches (Answered primitives device delivery) Measured
          (Routine.orFail (call (.fetchPeerPath version q))) object party
          (fun answer : PathCells α × RepositoryOperationMetrics => answer.1 = path) object
          party := by
        refine Routine.Reaches.perform fun x v step => ?_
        cases step with
        | fetchPeerPath version q operation =>
            rw [fetched mode]
            exact (Routine.computes_pure (path, operation)).reaches rfl
        | starts other => cases other
      apply fetches.bind
      rintro ⟨_, operation⟩ rfl
      refine (Routine.computes_modify ?_).bind (Routine.computes_pure _)
      rintro _ ⟨metrics', rfl, same⟩
      exact ⟨_, rfl, same⟩

variable [Cell α]

theorem yields_timedRuntimeSeed (config : object.config = device.config) :
    Yields primitives device delivery timedRuntimeSeed object party (device.runtimeSeed primitives)
      object party := by
  apply Routine.Computes.get
  rintro _ ⟨metrics, rfl, -⟩
  refine Routine.Computes.bind (t := party) (a := device.pufRoot)
    (yields_timed (fun _ _ => ⟨rfl, rfl⟩)
      (Routine.Computes.orFail (Routine.computes_perform fun x v step => ?_))) ?_
  · cases step with
    | reconstruct => exact ⟨rfl, rfl⟩
    | starts other => cases other
  · rw [HonestDevice.runtimeSeed, ← config]
    exact yields_timedHkdf _ _ _ _

theorem yields_deriveSessionKeys (sharedSecret transcriptHash : Hash α) :
    Yields primitives device delivery (deriveSessionKeys sharedSecret transcriptHash) object party
      (primitives.sessionKeys sharedSecret transcriptHash) object party :=
  (yields_timedHkdf _ _ _ _).bind (Routine.computes_pure _)

theorem yields_timedTranscriptHash (sid : Hash α) {m2Length : Nat} {m3Inner : List α}
    (m2 : m2Length ≤ 65535) (inner : m3Inner.length ≤ 65535) :
    Yields primitives device delivery (timedTranscriptHash sid m2Length m3Inner) object party
      (primitives.sha (transcriptInput sid object.m0 object.m1
        (slice object.m2.toList 0 m2Length) m3Inner)) object party := by
  apply Routine.Computes.get
  rintro _ ⟨metrics, rfl, -⟩
  refine yields_timed (fun _ _ => ⟨rfl, rfl⟩) ((Routine.computes_guard ⟨m2, inner⟩).bind
    (Routine.Computes.orFail (Routine.computes_perform fun x v step => ?_)))
  cases step with
  | sha256 data => exact ⟨rfl, rfl⟩
  | starts other => cases other

theorem m2BytesForMode_short (mode : PathDeliveryMode) : m2BytesForMode mode ≤ 65535 := by
  cases mode <;> decide

theorem yields_deriveView (sid sharedSecret : Hash α) {inner : List α}
    (short : inner.length ≤ 65535) :
    Yields primitives device delivery (deriveView sid sharedSecret inner) object party
      (primitives.view object.m0 object.m1 object.sentM2 inner sid sharedSecret) object party := by
  apply Routine.Computes.get
  rintro _ ⟨metrics, rfl, -⟩
  exact (yields_timedTranscriptHash sid (m2BytesForMode_short _) short).bind
    ((yields_deriveSessionKeys sharedSecret _).bind (Routine.computes_pure _))

theorem yields_computeConfirmationTag (domain : UInt8) (confirmationKey transcriptHash : Hash α) :
    Yields primitives device delivery (computeConfirmationTag domain confirmationKey transcriptHash)
      object party (primitives.tag domain confirmationKey transcriptHash) object party :=
  yields_timedHmac _ _

end Methods

section Session

variable [Cell α]

/-- The cleanup of a session: nothing but keys and intermediate values is lost. -/
theorem yields_cleanup : ∃ object', Yields primitives device delivery (cleanup : Method α κ Unit)
    object party .unit object' party ∧ object'.metrics = object.metrics := by
  obtain ⟨kemInitialized, kemKey, freed⟩ := @yields_freeKem _ _ primitives device delivery object
  refine ⟨{ object with
    kemInitialized := kemInitialized
    kemKey := kemKey
    mu := .replicate _ (ofByte 0)
    signInput := .replicate _ (ofByte 0) }, (freed party).bind (Routine.computes_modify ?_), rfl⟩
  rintro _ ⟨metrics, rfl, same⟩
  exact ⟨_, rfl, same⟩

/-- What a session ensures of its result, its counted bytes and its deeds, it ensures behind its
cleanup. -/
theorem ensures_cleaned {β : Type} {body : Method α κ β}
    {post : Option β → UInt32 → UInt32 → Party α → Prop}
    (h : Routine.Ensures (Answered primitives device delivery) (fun _ => True)
      (fun result object' => post result object'.metrics.appTxBytes object'.metrics.appRxBytes)
      body object party) :
    Routine.Ensures (Answered primitives device delivery) (fun _ => True)
      (fun result object' => post result object'.metrics.appTxBytes object'.metrics.appRxBytes)
      (cleaned body) object party := by
  refine Routine.ensures_bind.mpr (Routine.ensures_attempt.mpr (h.mono ?_))
  intro outcome object' party' holds
  obtain ⟨object'', cleans, counted⟩ :=
    @yields_cleanup _ _ primitives device delivery object' party' _
  refine cleans.ensures (measured_self _) ?_
  rintro _ ⟨metrics, rfl, sent, received⟩
  rw [counted] at sent received
  cases outcome with
  | none =>
      change post none metrics.appTxBytes metrics.appRxBytes party'
      rw [sent, received]
      exact holds
  | some b =>
      change post (some b) metrics.appTxBytes metrics.appRxBytes party'
      rw [sent, received]
      exact holds

omit [Cell α] in
/-- Whatever a method does, what was done before stays. -/
theorem ensures_deeds {β : Type} (r : Method α κ β) (object : ProposedUavProtocol α κ)
    {deeds : List (Deed α)} (before : deeds <+: party) :
    Routine.Ensures (Answered primitives device delivery) (fun _ => True)
      (fun _ _ party' => deeds <+: party') r object party := by
  refine Program.Ensures.mono (Program.Ensures.of_step ?_ _ before) (fun _ _ => trivial)
    fun _ _ kept => kept
  intro party event party' step kept
  cases step with
  | sendMessage destination type session data framed taken =>
      exact kept.trans (List.prefix_append _ _)
  | receiveMessage timeoutMs source framedBytes next awaited =>
      exact kept.trans (List.prefix_append _ _)
  | sign q message runtimeSeed => exact kept.trans (List.prefix_append _ _)
  | verify q message signature identifier path root => exact kept.trans (List.prefix_append _ _)
  | note milestone view => exact kept.trans (List.prefix_append _ _)
  | _ => exact kept

omit [Cell α] in
/-- What every run of a method ends in, some run does. -/
theorem Serves.exists_run {world : Delivery α → World (calls α κ) (Party α)} {β : Type}
    {post : Option β → ProposedUavProtocol α κ → Party α → Prop} {r : Method α κ β}
    (serves : Serves primitives device world)
    (h : Routine.Ensures (Answered primitives device delivery) (fun _ => True) post r object
      party) :
    ∃ result object' party', Routine.Run (world delivery) r object party result object' party' ∧
      post result object' party' := by
  obtain ⟨⟨result, object'⟩, party', run⟩ :=
    Program.exists_exec (serves.responsive delivery) (r.on object) party
  have answered := run.mono fun _ _ _ => serves.answered
  exact ⟨result, object', party', run, h.post_of_run answered trivial⟩

end Session

end Party

end Puav
