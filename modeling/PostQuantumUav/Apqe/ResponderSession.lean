import PostQuantumUav.Apqe.HonestParties
import PostQuantumUav.Apqe.ResultRecord

/-!
# The responder's side of a session

The responder of the comparison protocol for the messages of any sender: the parts that
it reads out of M1, the M2 that follows from them and from the record behind the
temporary identity, and the key that it accepts with M3.

Its three hashes and the ledger record are all that it checks. The lemmas describe the
runs in which the checks succeed.
-/

namespace Apqe

open Interaction Cell Buffer ApqeProtocol

/-- What a responder works with: the parts of M1, the record behind the temporary identity,
its nonce and the key that it reads out of M3. -/
structure Attempt where
  crypto : Crypto
  responder : NodeConfig
  opened : Opened
  peer : FabricCredential
  nj : Block
  tkI : Block

namespace Attempt

variable (t : Attempt)

def ei : List.Vector UInt8 eiBytes := eiOf t.opened.tidI t.opened.ci t.opened.ni t.opened.tidJ

/-- The inverse of the temporary identity that the sender gave to the responder. -/
def cj : Block := xorBytes t.opened.tidJ (t.responder.reversibleMask t.crypto)

def tkJ : Block := (t.responder.puf t.crypto).commutativeMap t.opened.ci

def tkJi : Block := (t.responder.puf t.crypto).commutativeMap
  (xorBytes t.peer.w (t.crypto.sha t.opened.ci.toList))

def h2 : Block := t.crypto.sha (t.tkJi.toList ++ t.tkJ.toList ++ t.cj.toList ++ t.nj.toList)

def m2 : List.Vector UInt8 m2Bytes :=
  ⟨(xorBytes t.tkJ t.opened.ni).toList ++ maskPair t.tkJi t.cj t.nj ++ t.h2.toList, by
    simp only [maskPair, List.length_append, List.Vector.toList_length]⟩

def tkIj : Block := (t.responder.puf t.crypto).commutativeMap t.tkI

def sessionKey : Block :=
  t.crypto.sha (t.tkJi.toList ++ t.tkIj.toList ++ t.opened.ni.toList ++ t.nj.toList)

def h3 : Block := t.crypto.sha (t.tkIj.toList ++ t.tkI.toList ++ t.sessionKey.toList)

def m3 : List.Vector UInt8 m3Bytes :=
  ⟨(xorBytes t.tkI t.nj).toList ++ t.h3.toList, by
    simp only [List.length_append, List.Vector.toList_length]⟩

/-- The parts of any M1 under the responder's key. -/
def openedOf (crypto : Crypto) (responder : NodeConfig) (m1 : List.Vector UInt8 m1Bytes) :
    Opened :=
  let part (i : Fin eiBlocks) := crypto.decrypt (m1Block m1 i) (responder.secretKey crypto)
  ⟨part 0, part 1, part 2, part 3⟩

/-- The check of the hash in M1. -/
def ValidM1 (m1 : List.Vector UInt8 m1Bytes) : Prop :=
  (∀ i, t.crypto.decrypt (m1Block m1 i) (t.responder.secretKey t.crypto) = eiBlock t.ei i) ∧
    block m1 (eiBlocks * kyberCiphertextBytes) hashBytes h1_fits = t.crypto.sha t.ei.toList

/-- The checks of the record that the ledger holds under the temporary identity. -/
def ValidPeer (ledger : CredentialLedger) : Prop :=
  ledger.index t.opened.tidI = some t.peer ∧
    t.peer.identityHash = t.crypto.sha t.responder.peerId.toList ∧
    t.peer.verifyHash =
      t.crypto.sha (verifyInput t.peer.identityHash t.peer.w t.peer.publicKey)

/-- The check of the hash in M3. -/
def ValidM3 (m3 : List.Vector UInt8 m3Bytes) : Prop :=
  t.tkI = xorBytes (block m3 0 hashBytes m3Key_fits) t.nj ∧
    block m3 hashBytes hashBytes h3_fits = t.h3

/-- The ciphertext of a block of `ei`, which any sender can make. -/
def ciphertext (t : Attempt) (coins : Fin eiBlocks → Block) (i : Fin eiBlocks) : Ciphertext :=
  t.crypto.encrypt (eiBlock t.ei i) (t.responder.publicKey t.crypto) (coins i)

def sealed (t : Attempt) (coins : Fin eiBlocks → Block) : List.Vector UInt8 m1Bytes :=
  ⟨(t.ciphertext coins 0).toList ++ (t.ciphertext coins 1).toList ++
      (t.ciphertext coins 2).toList ++ (t.ciphertext coins 3).toList ++
      (t.crypto.sha t.ei.toList).toList, by
    simp only [List.length_append, List.Vector.toList_length]
    rfl⟩

/-- A ciphertext of M1. -/
theorem m1Block_sealed (coins : Fin eiBlocks → Block) (i : Fin eiBlocks) :
    m1Block (t.sealed coins) i = t.ciphertext coins i := by
  have parts : (t.sealed coins).toList = (t.ciphertext coins 0).toList ++
      ((t.ciphertext coins 1).toList ++ ((t.ciphertext coins 2).toList ++
      ((t.ciphertext coins 3).toList ++ (t.crypto.sha t.ei.toList).toList))) := by
    rw [sealed, List.Vector.toList_mk]
    simp only [List.append_assoc]
  have sized := fun i => (t.ciphertext coins i).toList_length
  match i with
  | 0 => exact @block_eq _ _ (t.sealed coins) [] _ 0 _ _ parts rfl _
  | 1 => exact block_eq parts (sized 0) _
  | 2 =>
      rw [← List.append_assoc] at parts
      exact block_eq parts (by rw [List.length_append, sized, sized]; rfl) _
  | 3 =>
      rw [← List.append_assoc, ← List.append_assoc] at parts
      exact block_eq parts (by simp only [List.length_append, sized]; rfl) _

/-- M1 of any sender that knows the responder's public key passes the check. -/
theorem sealed_validM1 (coins : Fin eiBlocks → Block) : t.ValidM1 (t.sealed coins) := by
  refine ⟨fun i => ?_, ?_⟩
  · rw [m1Block_sealed]
    exact t.crypto.inverts _ _ _
  · refine @block_eq _ _ (t.sealed coins) ((t.ciphertext coins 0).toList ++
      (t.ciphertext coins 1).toList ++ (t.ciphertext coins 2).toList ++
      (t.ciphertext coins 3).toList) [] _ _ _ ?_ ?_ _
    · rw [List.append_nil]
      rfl
    · simp only [List.length_append, List.Vector.toList_length]
      rfl

theorem openedOf_sealed (coins : Fin eiBlocks → Block) :
    openedOf t.crypto t.responder (t.sealed coins) = t.opened := by
  obtain ⟨first, second, third, fourth⟩ :=
    block_eiOf t.opened.tidI t.opened.ci t.opened.ni t.opened.tidJ
  have decrypted := (t.sealed_validM1 coins).1
  simp only [openedOf, decrypted]
  exact congr (congr (congr (congrArg Opened.mk first) second) third) fourth

/-- The M3 of the attempt passes the check. -/
theorem valid_m3 : t.ValidM3 t.m3 := by
  have first : block t.m3 0 hashBytes = xorBytes t.tkI t.nj :=
    @block_eq _ _ t.m3 [] t.h3.toList 0 _ _ rfl rfl _
  constructor
  · rw [first, xorBytes_cancel]
  · refine @block_eq _ _ t.m3 (xorBytes t.tkI t.nj).toList [] _ _ _ ?_
      (List.Vector.toList_length _) _
    rw [List.append_nil]
    rfl

section Steps

open Party

variable {t} {ledger : CredentialLedger} {object : ApqeProtocol} {party : Party}

/-- The responder's object with its generated keys. -/
def keyed (t : Attempt) (object : ApqeProtocol) : ApqeProtocol :=
  { object with
    publicKey := t.responder.publicKey t.crypto
    secretKey := t.responder.secretKey t.crypto }

/-- The decryption loop puts the parts together. -/
theorem yields_decrypted (valid : ∀ i, t.crypto.decrypt (m1Block object.m1 i)
      (t.responder.secretKey t.crypto) = eiBlock t.ei i) :
    Yields t.crypto ledger ((List.finRange eiBlocks).foldlM decryptBlock
      (List.Vector.replicate _ 0)) (t.keyed object) party t.ei (t.keyed object) party := by
  rw [← ei_written t.ei (List.Vector.replicate _ 0)]
  refine Routine.computes_foldlM _ _ fun ei i _ => Routine.Computes.get ?_
  rintro _ ⟨metrics, rfl⟩
  refine yields_timed (Routine.Computes.perform fun x v step => ?_)
  cases step
  rw [← valid i]
  exact Routine.computes_pure _

/-- The responder's object behind M2. -/
def answered (t : Attempt) (object : ApqeProtocol) : ApqeProtocol :=
  { t.keyed object with
    runtimePeerCredential := t.peer
    m2 := t.m2 }

/-- M2 follows from the parts of M1, the record and the nonce. -/
theorem yields_answer (provisioned : Provisioned t.crypto t.responder object)
    (session : UInt32) (source : Transport.Endpoint) (drawn : party.random party.drawn = t.nj) :
    Yields t.crypto ledger (do
        let cj ← timedPufInverse t.opened.tidJ
        let ciHash ← timedShaParts t.opened.ci.toList
        let ri := xorBytes t.peer.w ciHash
        let tkJi ← timedPufMap ri
        let tkJ ← timedPufMap t.opened.ci
        modify fun protocol => { protocol with
          m2 := writeAt protocol.m2 0 (xorBytes tkJ t.opened.ni).toList }
        let nj ← randomBytes
        modify fun protocol => { protocol with
          m2 := writeAt protocol.m2 hashBytes (maskPair tkJi cj nj) }
        let h2 ← timedShaParts (tkJi.toList ++ tkJ.toList ++ cj.toList ++ nj.toList)
        modify fun protocol => { protocol with
          m2 := writeAt protocol.m2 (hashBytes + pjBytes) h2.toList }
        let protocol ← get
        sendCounted source msgM2 session protocol.m2.toList
        pure ⟨tkJi, t.opened.ni, nj⟩ : Method ResponderKeys)
      { t.keyed object with runtimePeerCredential := t.peer } party
      ⟨t.tkJi, t.opened.ni, t.nj⟩ (t.answered object)
      { party with
        drawn := party.drawn + 1
        sent := party.sent ++ [⟨msgM2, session, t.m2.toList⟩] } := by
  have written : writeAt (writeAt (writeAt object.m2 0 (xorBytes t.tkJ t.opened.ni).toList)
      hashBytes (maskPair t.tkJi t.cj t.nj)) (hashBytes + pjBytes) t.h2.toList = t.m2 :=
    List.Vector.toList_injective (m2_written _ _ _ _ _ _)
  let middle (m2 : List.Vector UInt8 m2Bytes) : ApqeProtocol := { t.keyed object with
    runtimePeerCredential := t.peer
    m2 := m2 }
  have holding : ∀ m2, Provisioned t.crypto t.responder (middle m2) := fun _ =>
    ⟨provisioned.config, provisioned.puf, provisioned.identityHash, provisioned.peerIdentityHash⟩
  have changed : ∀ (old new : List.Vector UInt8 m2Bytes) (f : ApqeProtocol → ApqeProtocol)
      (party : Party), (∀ metrics, f { middle old with metrics := metrics } =
        { middle new with metrics := metrics }) →
      Yields t.crypto ledger (modify f) (middle old) party .unit (middle new) party := by
    intro old new f party same
    apply Routine.computes_modify
    rintro _ ⟨metrics, rfl⟩
    exact ⟨metrics, same metrics⟩
  have inverse : Yields t.crypto ledger (timedPufInverse t.opened.tidJ) (middle object.m2) party
      t.cj (middle object.m2) party := by
    apply Routine.Computes.get
    rintro _ ⟨metrics, rfl⟩
    exact yields_timed (yields_reversibleMap (holding _) rfl _)
  refine inverse.bind ((yields_timedShaParts _).bind ?_)
  refine Routine.Computes.bind (a := t.tkJi) (yields_timedPufMap (holding _).puf _) ?_
  refine Routine.Computes.bind (a := t.tkJ) (yields_timedPufMap (holding _).puf _) ?_
  refine (changed _ (writeAt object.m2 0 (xorBytes t.tkJ t.opened.ni).toList) _ _
    fun _ => rfl).bind ?_
  have nonce := @yields_randomBytes t.crypto ledger (middle (writeAt object.m2 0
    (xorBytes t.tkJ t.opened.ni).toList)) party
  rw [drawn] at nonce
  apply nonce.bind
  refine (changed _ (writeAt (writeAt object.m2 0 (xorBytes t.tkJ t.opened.ni).toList) hashBytes
    (maskPair t.tkJi t.cj t.nj)) _ _ fun _ => rfl).bind ?_
  refine Routine.Computes.bind (a := t.h2) (yields_timedShaParts _) ?_
  refine (changed _ t.m2 _ _ fun metrics => ?_).bind ?_
  · rw [← written]
  apply Routine.Computes.get
  rintro _ ⟨metrics, rfl⟩
  exact (yields_sendCounted source msgM2 session t.m2.toList).bind (Routine.computes_pure _)

/-- M1 with a valid hash is opened. -/
theorem yields_openM1 (provisioned : Provisioned t.crypto t.responder object)
    (valid : t.ValidM1 object.m1) :
    Yields t.crypto ledger openM1 object party t.opened (t.keyed object) party := by
  obtain ⟨decrypted, tag⟩ := valid
  obtain ⟨first, second, third, fourth⟩ :=
    block_eiOf t.opened.tidI t.opened.ci t.opened.ni t.opened.tidJ
  refine (yields_timedReconstruct provisioned).bind (yields_timedKeygen.bind ?_)
  refine (yields_decrypted decrypted).bind ?_
  refine (yields_timedShaParts t.ei.toList).bind (Routine.Computes.get ?_)
  rintro _ ⟨metrics, rfl⟩
  rw [ei, first, second, third, fourth]
  refine Routine.Computes.bind (Routine.computes_guard ?_) (Routine.computes_pure _)
  exact same_iff.mpr tag.symm

/-- A sender with a valid record is answered with M2. -/
theorem yields_sendM2 (provisioned : Provisioned t.crypto t.responder object)
    (valid : t.ValidPeer ledger) (session : UInt32) (source : Transport.Endpoint)
    (drawn : party.random party.drawn = t.nj) :
    Yields t.crypto ledger (sendM2 session source t.opened) (t.keyed object) party
      ⟨t.tkJi, t.opened.ni, t.nj⟩ (t.answered object)
      { party with
        drawn := party.drawn + 1
        sent := party.sent ++ [⟨msgM2, session, t.m2.toList⟩] } := by
  obtain ⟨found, identity, verified⟩ := valid
  have peer : same t.peer.identityHash object.peerIdentityHash := by
    rw [provisioned.peerIdentityHash]
    exact same_iff.mpr identity
  have checked : Yields t.crypto ledger (verifyCredential t.peer)
      { t.keyed object with runtimePeerCredential := t.peer } party ()
      { t.keyed object with runtimePeerCredential := t.peer } party := by
    refine (yields_timedShaParts _).bind (Routine.computes_guard ?_)
    exact same_iff.mpr verified.symm
  refine (yields_queryByTid found).bind ?_
  refine (@Routine.computes_modify _ _ _ _ _ _
    { t.keyed object with runtimePeerCredential := t.peer } _ _ ?_).bind ?_
  · rintro _ ⟨metrics, rfl⟩
    exact ⟨_, rfl⟩
  apply Routine.Computes.get
  rintro _ ⟨metrics, rfl⟩
  exact (Routine.computes_guard peer).bind
    (checked.bind (yields_answer provisioned session source drawn))

/-- The responder accepts an M3 whose hash is valid. -/
theorem yields_receiveM3 (puf : object.puf = t.responder.puf t.crypto) (session : UInt32)
    {random : Nat → Block} {drawn : Nat} {rest sent : List Message} :
    Yields t.crypto ledger (receiveM3 session ⟨t.tkJi, t.opened.ni, t.nj⟩) object
      ⟨random, drawn, ⟨msgM3, session, t.m3.toList⟩ :: rest, sent⟩ t.sessionKey
      { object with m3 := t.m3 } ⟨random, drawn, rest, sent⟩ := by
  have length := t.m3.toList_length
  obtain ⟨first, second⟩ := t.valid_m3
  refine yields_receiveMessage (.inr rfl) (Nat.le_of_eq length) fun source framedBytes => ?_
  refine (@Routine.computes_modify _ _ _ _ _ _ { object with m3 := t.m3 } _ _ ?_).bind ?_
  · rintro _ ⟨metrics, rfl⟩
    rw [overwrite_toList]
    exact ⟨_, rfl⟩
  have map : Yields t.crypto ledger (timedPufMap t.tkI) { object with m3 := t.m3 }
      ⟨random, drawn, rest, sent⟩ t.tkIj { object with m3 := t.m3 } ⟨random, drawn, rest, sent⟩ :=
    @yields_timedPufMap _ _ { object with m3 := t.m3 } _ _ puf t.tkI
  refine (Routine.computes_guard length).bind ((yields_countReceived _ _).bind ?_)
  apply Routine.Computes.get
  rintro _ ⟨metrics, rfl⟩
  rw [← first]
  apply map.bind
  refine Routine.Computes.bind (a := t.sessionKey) (yields_timedShaParts _) ?_
  refine Routine.Computes.bind (a := t.h3) (yields_timedShaParts _) ?_
  refine (Routine.computes_guard ?_).bind (Routine.computes_pure _)
  exact same_iff.mpr second.symm

/-- The responder sends its measurements and the hash of its key; the messages stay. -/
theorem ensures_sendResult (session : UInt32) (source : Transport.Endpoint)
    (protocolStart : UInt32) (sessionKey : Block) :
    Routine.Ensures (Answered t.crypto ledger) (fun _ => True)
      (fun result object' party' => result = some () ∧ object'.m2 = object.m2 ∧
        object'.m3 = object.m3 ∧
        ∃ (record : List.Vector UInt8 resultBytes) (metrics : SessionMetrics),
          decodeResult record session = some (metrics, t.crypto.sha sessionKey.toList) ∧
          party' = { party with sent := party.sent ++ [⟨msgResult, session, record.toList⟩] })
      (sendResult session source protocolStart sessionKey) object party := by
  refine Routine.Ensures.perform fun now v step => ⟨trivial, ?_⟩
  cases step
  rw [Routine.ensures_bind, Routine.ensures_modify]
  refine (yields_sha256 sessionKey.toList).ensures (measured_self _) ?_
  rintro _ ⟨metrics, rfl⟩
  rw [Routine.ensures_bind, Routine.ensures_modify, Routine.ensures_bind, Routine.ensures_get]
  refine (yields_sendMessage source msgResult session _ (f := fun _ => pure ())
    fun _ => Routine.computes_pure ()) _ (measured_self _) |>.mono ?_
  rintro result last party' ⟨rfl, ⟨metrics', rfl⟩, rfl⟩
  have decoded := decodeResult_encodeResult session session metrics.protocolUs metrics
    (t.crypto.sha sessionKey.toList)
  rw [if_pos rfl] at decoded
  exact ⟨rfl, rfl, rfl, _, _, decoded, rfl⟩

end Steps

end Attempt

end Apqe
