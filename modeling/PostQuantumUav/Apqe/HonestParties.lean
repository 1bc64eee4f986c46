import PostQuantumUav.Apqe.ApqeProtocol
import PostQuantumUav.Library.Interaction.Computes
import PostQuantumUav.Library.Interaction.Total

/-!
# The two sides of a session

What a device's secrets determine: its keys, masks and the credential of each slot;
the ledger as its queries see it; and the world of one side of a session, whose
random values are given and which receives the messages that are delivered to it.

A method of the protocol is described by its result, the object that it leaves up to
the session's measurements, and the world: `Yields`.
-/

namespace Apqe

open Interaction Cell Buffer ApqeProtocol

section Messages

/-- The parts of `ei`. -/
theorem block_eiOf (tid ci ni peerTid : Block) :
    block (eiOf tid ci ni peerTid) 0 32 = tid ∧ block (eiOf tid ci ni peerTid) 32 32 = ci ∧
      block (eiOf tid ci ni peerTid) 64 32 = ni ∧
      block (eiOf tid ci ni peerTid) 96 32 = peerTid := by
  have parts : (eiOf tid ci ni peerTid).toList = tid.toList ++ (ci.toList ++
      (ni.toList ++ (peerTid.toList ++ []))) := by
    rw [eiOf, List.Vector.toList_mk]
    simp only [List.append_assoc, List.append_nil]
  have sized : ∀ a b : Block, (a.toList ++ b.toList).length = 64 := by
    intro a b
    simp only [List.length_append, List.Vector.toList_length]
  refine ⟨@block_eq _ _ (eiOf tid ci ni peerTid) [] _ 0 32 _ parts rfl _, ?_, ?_, ?_⟩
  · exact block_eq parts (List.Vector.toList_length _) _
  · rw [← List.append_assoc] at parts
    exact block_eq parts (sized _ _) _
  · rw [← List.append_assoc, ← List.append_assoc] at parts
    exact block_eq parts (by rw [List.length_append, sized, List.Vector.toList_length]) _

/-- The writes of the decryption loop put `ei` together again. -/
theorem ei_written (ei start : List.Vector UInt8 eiBytes) :
    (List.finRange eiBlocks).foldl (fun written (i : Fin eiBlocks) =>
      writeAt written (i * kyberMessageBytes) (eiBlock ei i).toList) start = ei := by
  have round : ∀ (i : Fin eiBlocks) (written : List.Vector UInt8 eiBytes),
      written.toList.take (i * kyberMessageBytes) = ei.toList.take (i * kyberMessageBytes) →
      (writeAt written (i * kyberMessageBytes) (eiBlock ei i).toList).toList.take
        ((i + 1) * kyberMessageBytes) = ei.toList.take ((i + 1) * kyberMessageBytes) := by
    intro i written before
    have bound := i.isLt
    rw [take_writeAt ?_ (by rw [List.Vector.toList_length, Nat.succ_mul]), before, Nat.succ_mul,
      List.take_add]
    · rfl
    · simp only [eiBlocks, kyberMessageBytes, eiBytes] at bound ⊢
      omega
  have whole : ∀ ei : List.Vector UInt8 eiBytes, ei.toList.take eiBytes = ei.toList := fun ei =>
    List.take_of_length_le (Nat.le_of_eq ei.toList_length)
  apply List.Vector.toList_injective
  rw [← whole, ← whole ei]
  exact round 3 _ (round 2 _ (round 1 _ (round 0 _ rfl)))

/-- The three writes of the responder fill M2. -/
theorem m2_written (m2 : List.Vector UInt8 m2Bytes) (tnJ tkJi cj nj h2 : Block) :
    (writeAt (writeAt (writeAt m2 0 tnJ.toList) hashBytes (maskPair tkJi cj nj))
      (hashBytes + pjBytes) h2.toList).toList =
      tnJ.toList ++ maskPair tkJi cj nj ++ h2.toList := by
  have first := @take_writeAt _ _ m2 0 hashBytes tnJ.toList (by decide)
    (by rw [List.Vector.toList_length])
  have pair : hashBytes + (maskPair tkJi cj nj).length = hashBytes + pjBytes := by
    rw [maskPair, List.length_append, List.Vector.toList_length, List.Vector.toList_length]
  rw [toList_writeAt_last (by rw [List.Vector.toList_length]), take_writeAt (by decide) pair, first]
  rfl

end Messages

/-- SHA-256 and the Kyber functions; decryption inverts encryption under the keys of a seed. -/
structure Crypto where
  sha : Bytes → Block
  keypair : Block → PublicKey × SecretKey
  encrypt : Block → PublicKey → Block → Ciphertext
  decrypt : Ciphertext → SecretKey → Block
  inverts : ∀ seed message coins,
    decrypt (encrypt message (keypair seed).1 coins) (keypair seed).2 = message

namespace NodeConfig

variable (crypto : Crypto) (config : NodeConfig)

def seed : Block := crypto.sha
  (label "SRAM-FE-EMU" ++ config.emulatedSramRaw.toList ++ config.emulatedSramHelper.toList)

def publicKey : PublicKey := (crypto.keypair (config.seed crypto)).1

def secretKey : SecretKey := (crypto.keypair (config.seed crypto)).2

def puf : SoftwarePuf where
  rawSram := config.emulatedSramRaw
  helper := config.emulatedSramHelper
  commutativeMask := crypto.sha (label "APQE-COMM" ++ config.emulatedBsPufSecret.toList)
  reversibleSecret := crypto.sha (label "APQE-REV" ++ config.emulatedBsPufSecret.toList)

def identityHash : Block := crypto.sha config.deviceId.toList

def reversibleMask : Block := crypto.sha (label "REV-MASK" ++
  (crypto.sha (config.secretKey crypto).toList).toList ++
    (config.puf crypto).reversibleSecret.toList)

variable (slot : UInt16)

def challenge : Block :=
  crypto.sha (label "APQE-CHAL" ++ config.deviceId.toList ++ putU16 slot)

def tid : Block := xorBytes (config.challenge crypto slot) (config.reversibleMask crypto)

def response : Block := (config.puf crypto).commutativeMap (config.challenge crypto slot)

def w : Block :=
  xorBytes (config.response crypto slot) (crypto.sha (config.challenge crypto slot).toList)

/-- The credential that the device enrols for a slot. -/
def credential : FabricCredential where
  identityHash := config.identityHash crypto
  tid := config.tid crypto slot
  publicKey := config.publicKey crypto
  w := config.w crypto slot
  verifyHash := crypto.sha (verifyInput (config.identityHash crypto) (config.w crypto slot)
    (config.publicKey crypto))

end NodeConfig

/-- The ledger as the gateway's two queries see it. -/
structure CredentialLedger where
  record : Block → UInt16 → Option FabricCredential
  index : Block → Option FabricCredential

structure Message where
  type : UInt8
  session : UInt32
  data : Bytes

/-- One side of a session: its random values and how many it has used, the messages that are
delivered to it and not yet received, and those it has sent. -/
structure Party where
  random : Nat → Block
  drawn : Nat
  inbox : List Message
  sent : List Message

namespace Party

variable (crypto : Crypto) (ledger : CredentialLedger)

/-- The next message is one that the call waits for. -/
def Awaited (party : Party) (type : UInt8) (session : UInt32) (outputCapacity : Nat)
    (message : Message) : Prop :=
  party.inbox.head? = some message ∧ message.type = type ∧
    (session = 0 ∨ message.session = session) ∧ message.data.length ≤ outputCapacity

/-- How the calls of one side are answered. Without an awaited message a call times out. -/
inductive Answered (party : Party) : Event calls → Party → Prop where
  | micros (now : UInt32) : Answered party ⟨.micros, now⟩ party
  | sha256 (data : Bytes) : Answered party ⟨.sha256 data, some (crypto.sha data)⟩ party
  | randomBytes : Answered party ⟨.randomBytes, party.random party.drawn⟩
      { party with drawn := party.drawn + 1 }
  | keypairDeterministic (seed : Block) :
      Answered party ⟨.keypairDeterministic seed, crypto.keypair seed⟩ party
  | encrypt (message : Block) (publicKey : PublicKey) (coins : Block) :
      Answered party
        ⟨.encrypt message publicKey coins, crypto.encrypt message publicKey coins⟩ party
  | decrypt (ciphertext : Ciphertext) (secretKey : SecretKey) :
      Answered party ⟨.decrypt ciphertext secretKey, crypto.decrypt ciphertext secretKey⟩ party
  | queryByIdentitySlot (identityHash : Block) (slot : UInt16) (usage usage' : GatewayUsage) :
      Answered party ⟨.queryByIdentitySlot identityHash slot usage,
        (ledger.record identityHash slot, usage')⟩ party
  | queryByTid (tid : Block) (usage usage' : GatewayUsage) :
      Answered party ⟨.queryByTid tid usage, (ledger.index tid, usage')⟩ party
  | sendMessage (destination : Transport.Endpoint) (type : UInt8) (session : UInt32) (data : Bytes)
      (framed : UInt32) : Answered party ⟨.sendMessage destination type session data, some framed⟩
        { party with sent := party.sent ++ [⟨type, session, data⟩] }
  | receiveMessage {type : UInt8} {session : UInt32} {outputCapacity : Nat} {message : Message}
      (timeoutMs : UInt32) (source : Transport.Endpoint) (framedBytes : Nat)
      (awaited : party.Awaited type session outputCapacity message) :
      Answered party ⟨.receiveMessage type session outputCapacity timeoutMs,
        (some ⟨message.type, message.session, message.data.length, source, framedBytes⟩,
          message.data)⟩ { party with inbox := party.inbox.tail }
  | timedOut {type : UInt8} {session : UInt32} {outputCapacity : Nat} (timeoutMs : UInt32)
      (absent : ∀ message, ¬ party.Awaited type session outputCapacity message) (bytes : Bytes) :
      Answered party ⟨.receiveMessage type session outputCapacity timeoutMs, (none, bytes)⟩ party

/-- Every call is answered. -/
theorem answered_responsive : World.Responsive (Answered crypto ledger) := by
  intro party c
  cases c with
  | micros => exact ⟨(0 : UInt32), party, .micros 0⟩
  | sha256 data => exact ⟨_, party, .sha256 data⟩
  | randomBytes => exact ⟨_, _, .randomBytes⟩
  | keypairDeterministic seed => exact ⟨_, party, .keypairDeterministic seed⟩
  | encrypt message publicKey coins => exact ⟨_, party, .encrypt message publicKey coins⟩
  | decrypt ciphertext secretKey => exact ⟨_, party, .decrypt ciphertext secretKey⟩
  | queryByIdentitySlot identityHash slot usage =>
      exact ⟨_, party, .queryByIdentitySlot identityHash slot usage usage⟩
  | queryByTid tid usage => exact ⟨_, party, .queryByTid tid usage usage⟩
  | sendMessage destination type session data =>
      exact ⟨some 0, _, .sendMessage destination type session data 0⟩
  | receiveMessage type session outputCapacity timeoutMs =>
      by_cases present : ∃ message, party.Awaited type session outputCapacity message
      · obtain ⟨message, awaited⟩ := present
        exact ⟨_, _, .receiveMessage timeoutMs ⟨0, 0⟩ 0 awaited⟩
      · exact ⟨_, party, .timedOut timeoutMs (not_exists.mp present) []⟩

/-- One object is the other with other measurements. -/
def Measured (object object' : ApqeProtocol) : Prop :=
  ∃ metrics, object' = { object with metrics := metrics }

theorem measured_self (object : ApqeProtocol) : Measured object object := ⟨object.metrics, rfl⟩

/-- The method finishes with the value, whatever is measured. -/
abbrev Yields {α : Type} (r : Method α) (object : ApqeProtocol) (party : Party) (a : α)
    (object' : ApqeProtocol) (party' : Party) : Prop :=
  Routine.Computes (Answered crypto ledger) Measured r object party a object' party'

section Calls

variable {crypto} {ledger} {object object' : ApqeProtocol} {party party' : Party}

theorem yields_sha256 (data : Bytes) :
    Yields crypto ledger (sha256 data) object party (crypto.sha data) object party := by
  refine Routine.Computes.perform fun x v step => ?_
  cases step
  exact Routine.computes_pure _

theorem yields_randomBytes : Yields crypto ledger randomBytes object party
    (party.random party.drawn) object { party with drawn := party.drawn + 1 } := by
  refine Routine.computes_perform fun x v step => ?_
  cases step
  exact ⟨rfl, rfl⟩

/-- Measuring an operation does not change what it does. -/
theorem yields_timed {α : Type} {add : UInt64 → SessionMetrics → SessionMetrics}
    {operation : Method α} {a : α}
    (h : Yields crypto ledger operation object party a object' party') :
    Yields crypto ledger (timed add operation) object party a object' party' := by
  refine Routine.Computes.perform fun start v step => ?_
  cases step
  refine h.attempt.bind (Routine.Computes.perform fun now v step => ?_)
  cases step
  refine (Routine.computes_modify ?_).bind (Routine.computes_pure a)
  rintro _ ⟨metrics, rfl⟩
  exact ⟨_, rfl⟩

theorem yields_timedShaParts (data : Bytes) :
    Yields crypto ledger (timedShaParts data) object party (crypto.sha data) object party :=
  yields_timed (yields_sha256 data)

theorem yields_timedPufMap {puf : SoftwarePuf} (holds : object.puf = puf) (input : Block) :
    Yields crypto ledger (timedPufMap input) object party (puf.commutativeMap input) object
      party := by
  apply Routine.Computes.get
  rintro _ ⟨metrics, rfl⟩
  rw [← holds]
  exact yields_timed (Routine.computes_pure _)

theorem yields_queryByIdentitySlot {identityHash : Block} {slot : UInt16}
    {credential : FabricCredential} (held : ledger.record identityHash slot = some credential) :
    Yields crypto ledger (queryByIdentitySlot identityHash slot) object party credential
      object party := by
  apply Routine.Computes.get
  rintro _ ⟨metrics, rfl⟩
  refine Routine.Computes.perform fun x v step => ?_
  cases step
  rw [held]
  refine (Routine.computes_modify ?_).bind (Routine.computes_pure credential)
  rintro _ ⟨metrics', rfl⟩
  exact ⟨_, rfl⟩

theorem yields_queryByTid {tid : Block} {credential : FabricCredential}
    (held : ledger.index tid = some credential) :
    Yields crypto ledger (queryByTid tid) object party credential object party := by
  apply Routine.Computes.get
  rintro _ ⟨metrics, rfl⟩
  refine Routine.Computes.perform fun x v step => ?_
  cases step
  rw [held]
  refine (Routine.computes_modify ?_).bind (Routine.computes_pure credential)
  rintro _ ⟨metrics', rfl⟩
  exact ⟨_, rfl⟩

/-- A message is sent, however many bytes the fragments take. -/
theorem yields_sendMessage {α : Type} {a : α} (destination : Transport.Endpoint) (type : UInt8)
    (session : UInt32) (data : Bytes) {f : UInt32 → Method α}
    (next : ∀ framed, Yields crypto ledger (f framed) object
      { party with sent := party.sent ++ [⟨type, session, data⟩] } a object' party') :
    Yields crypto ledger (sendMessage destination type session data >>= f) object party a
      object' party' := by
  rw [sendMessage, bind_assoc]
  refine Routine.Computes.perform fun x v step => ?_
  cases step with
  | sendMessage destination type session data framed =>
      change Yields crypto ledger (pure framed >>= f) _ _ _ _ _
      rw [pure_bind]
      exact next framed

theorem yields_sendCounted (destination : Transport.Endpoint) (type : UInt8) (session : UInt32)
    (data : Bytes) : Yields crypto ledger (sendCounted destination type session data) object party
      .unit object { party with sent := party.sent ++ [⟨type, session, data⟩] } := by
  refine yields_sendMessage destination type session data fun framed => ?_
  apply Routine.computes_modify
  rintro _ ⟨metrics, rfl⟩
  exact ⟨_, rfl⟩

theorem yields_countReceived (received : Transport.Received) (length : Nat) :
    Yields crypto ledger (countReceived received length) object party .unit object party := by
  apply Routine.computes_modify
  rintro _ ⟨metrics, rfl⟩
  exact ⟨_, rfl⟩

/-- The next message is received when the call waits for it. -/
theorem yields_receiveMessage {α : Type} {a : α} {type : UInt8} {expected session : UInt32}
    {outputCapacity : Nat} {timeoutMs : UInt32} {data : Bytes} {random : Nat → Block} {drawn : Nat}
    {rest sent : List Message} (accepted : expected = 0 ∨ session = expected)
    (fits : data.length ≤ outputCapacity) {f : Option Transport.Received × Bytes → Method α}
    (next : ∀ source framedBytes, Yields crypto ledger
      (f (some ⟨type, session, data.length, source, framedBytes⟩, data)) object
      ⟨random, drawn, rest, sent⟩ a object' party') :
    Yields crypto ledger
      (@Routine.perform calls _ (.receiveMessage type expected outputCapacity timeoutMs) >>= f)
      object ⟨random, drawn, ⟨type, session, data⟩ :: rest, sent⟩ a object' party' := by
  refine Routine.Computes.perform fun x v step => ?_
  cases step with
  | receiveMessage timeoutMs source framedBytes found =>
      cases Option.some.inj found.1
      exact next source framedBytes
  | timedOut timeoutMs absent bytes => exact absurd ⟨rfl, rfl, accepted, fits⟩ (absent _)

end Calls

end Party

/-- The object of a device after `begin`. -/
structure Provisioned (crypto : Crypto) (device : NodeConfig) (protocol : ApqeProtocol) : Prop where
  config : protocol.config = device
  puf : protocol.puf = device.puf crypto
  identityHash : protocol.identityHash = device.identityHash crypto
  peerIdentityHash : protocol.peerIdentityHash = crypto.sha device.peerId.toList

namespace Party

section Device

variable {crypto : Crypto} {ledger : CredentialLedger} {config : NodeConfig}
variable {object : ApqeProtocol} {party : Party}

theorem yields_timedReconstruct (provisioned : Provisioned crypto config object) :
    Yields crypto ledger timedReconstruct object party (config.seed crypto) object party := by
  apply Routine.Computes.get
  rintro _ ⟨metrics, rfl⟩
  apply yields_timed
  rw [NodeConfig.seed, SoftwarePuf.reconstructKyberSeed, provisioned.puf]
  exact yields_sha256 _

/-- The keys that the device enrolled are generated again. -/
theorem yields_timedKeygen : Yields crypto ledger (timedKeygen (config.seed crypto)) object party
    .unit { object with
      publicKey := config.publicKey crypto
      secretKey := config.secretKey crypto } party := by
  refine yields_timed (Routine.Computes.perform fun x v step => ?_)
  cases step
  apply Routine.computes_modify
  rintro _ ⟨metrics, rfl⟩
  exact ⟨_, rfl⟩

theorem yields_reversibleMap (provisioned : Provisioned crypto config object)
    (secret : object.secretKey = config.secretKey crypto) (input : Block) :
    Yields crypto ledger (object.puf.reversibleMap object.secretKey input) object party
      (xorBytes input (config.reversibleMask crypto)) object party := by
  rw [secret, provisioned.puf]
  exact ((yields_sha256 _).bind (yields_sha256 _)).bind (Routine.computes_pure _)

/-- The challenge of a slot is recovered from its temporary identity. -/
theorem yields_timedPufInverse (provisioned : Provisioned crypto config object)
    (secret : object.secretKey = config.secretKey crypto) (slot : UInt16) :
    Yields crypto ledger (timedPufInverse (config.tid crypto slot)) object party
      (config.challenge crypto slot) object party := by
  apply Routine.Computes.get
  rintro _ ⟨metrics, rfl⟩
  apply yields_timed
  have inverse := @yields_reversibleMap crypto ledger config object party provisioned secret
    (config.tid crypto slot)
  rw [NodeConfig.tid, xorBytes_cancel] at inverse
  exact inverse

theorem same_iff {length : Nat} {a b : List.Vector UInt8 length} : same a b ↔ a = b := by
  rw [same, Puav.constantTimeEqual_iff a.toList_length b.toList_length]
  exact List.Vector.toList_injective.eq_iff

/-- An enrolled credential passes the check of its hash. -/
theorem yields_verifyCredential (slot : UInt16) :
    Yields crypto ledger (verifyCredential (config.credential crypto slot)) object party ()
      object party :=
  (yields_timedShaParts _).bind (Routine.computes_guard (same_iff.mpr rfl))

end Device

end Party

end Apqe
