import PostQuantumUav.Apqe.HonestSession
import PostQuantumUav.Library.Interaction.Delivers

/-!
# What the responder's success implies

The responder of the comparison protocol checks three hashes and one ledger record.
For an M1 and an M3 of any sender, the lemmas below state what the checks imply and,
conversely, that they are all that is checked.

The sender chooses `C_i` and `N_i`, so M2 shows it the responder's mask; with the mask
and the ledger record it can open the rest of M2 and compute a valid M3 for a `TK_i` of
its choice. The key is the one of the initiator's own maps when both are the enrolled
values.
-/

namespace Apqe

open Interaction Cell Buffer ApqeProtocol

namespace Attempt

section Steps

open Party

variable {t : Attempt} {ledger : CredentialLedger} {object : ApqeProtocol} {party : Party}

/-- The parts are those of `ei`. -/
theorem openedOf_decrypted {m1 : List.Vector UInt8 m1Bytes}
    (opened : t.opened = openedOf t.crypto t.responder m1) (i : Fin eiBlocks) :
    t.crypto.decrypt (m1Block m1 i) (t.responder.secretKey t.crypto) = eiBlock t.ei i := by
  obtain ⟨first, second, third, fourth⟩ :=
    block_eiOf t.opened.tidI t.opened.ci t.opened.ni t.opened.tidJ
  rw [ei, opened]
  rw [opened] at first second third fourth
  obtain ⟨_ | _ | _ | _ | i, bound⟩ := i
  · exact first.symm
  · exact second.symm
  · exact third.symm
  · exact fourth.symm
  · exact absurd bound (Nat.not_lt.mpr (Nat.le_add_left eiBlocks i))

/-- What the responder opens has passed the check of its hash. -/
theorem delivers_openM1 (provisioned : Provisioned t.crypto t.responder object)
    (opened : t.opened = openedOf t.crypto t.responder object.m1) {start : ApqeProtocol}
    (like : Measured object start) :
    Routine.Delivers (Answered t.crypto ledger) (fun opened object' party' => t.opened = opened ∧
      block object.m1 (eiBlocks * kyberCiphertextBytes) hashBytes = t.crypto.sha t.ei.toList ∧
      Measured (t.keyed object) object' ∧ party' = party) openM1 start party := by
  refine (yields_timedReconstruct provisioned).delivers like fun _ like => ?_
  refine yields_timedKeygen.delivers like fun _ like => ?_
  refine (yields_decrypted (openedOf_decrypted opened)).delivers like fun _ like => ?_
  refine (yields_timedShaParts t.ei.toList).delivers like ?_
  rintro _ ⟨metrics, rfl⟩
  refine Routine.Delivers.get (Routine.Delivers.guard fun tag => Routine.delivers_pure ?_)
  obtain ⟨first, second, third, fourth⟩ :=
    block_eiOf t.opened.tidI t.opened.ci t.opened.ni t.opened.tidJ
  refine ⟨?_, (same_iff.mp tag).symm, ⟨metrics, rfl⟩, rfl⟩
  rw [ei, first, second, third, fourth]

/-- A responder that answers has found a valid record under the temporary identity. -/
theorem delivers_sendM2 (provisioned : Provisioned t.crypto t.responder object)
    (session : UInt32) (source : Transport.Endpoint) {start : ApqeProtocol}
    (like : Measured (t.keyed object) start) :
    Routine.Delivers (Answered t.crypto ledger) (fun keys object' _ => ∃ peer nj,
      let t' := { t with peer := peer, nj := nj }
      t'.ValidPeer ledger ∧ keys = ⟨t'.tkJi, t.opened.ni, nj⟩ ∧
        Measured (t'.answered object) object') (sendM2 session source t.opened) start party := by
  have lookup : Routine.Delivers (Answered t.crypto ledger) (fun peer object' party' =>
      ledger.index t.opened.tidI = some peer ∧ Measured (t.keyed object) object' ∧ party' = party)
      (queryByTid t.opened.tidI) start party := by
    obtain ⟨metrics, rfl⟩ := like
    refine Routine.Delivers.get (Routine.Delivers.perform fun a party' step => ?_)
    cases step
    apply Routine.Delivers.modify
    cases found : ledger.index t.opened.tidI with
    | none => exact Routine.delivers_failure
    | some peer => exact Routine.delivers_pure ⟨rfl, ⟨_, rfl⟩, rfl⟩
  apply lookup.bind
  rintro peer _ party ⟨found, ⟨metrics, rfl⟩, rfl⟩
  let t' : Attempt := { t with peer := peer, nj := party.random party.drawn }
  refine Routine.Delivers.modify (Routine.Delivers.get (Routine.Delivers.guard fun identity => ?_))
  rw [verifyCredential, bind_assoc]
  let found' : ApqeProtocol := { t.keyed object with runtimePeerCredential := peer }
  refine (@yields_timedShaParts t.crypto ledger found' party _).delivers ⟨metrics, rfl⟩
    fun middle like => ?_
  refine Routine.Delivers.guard fun verified => ?_
  have answer := @yields_answer t' ledger object party provisioned session source rfl
  refine (answer middle like).mono ?_
  rintro _ last _ ⟨rfl, like, rfl⟩ keys returned
  cases Option.some.inj returned
  refine ⟨peer, t'.nj, ⟨found, ?_, (same_iff.mp verified).symm⟩, rfl, like⟩
  rw [same_iff.mp identity]
  exact provisioned.peerIdentityHash

/-- A responder that accepts M3 has checked its hash for the key that it reads out of M3. -/
theorem delivers_receiveM3 (puf : object.puf = t.responder.puf t.crypto) (session : UInt32)
    {start : ApqeProtocol} (like : Measured object start) :
    Routine.Delivers (Answered t.crypto ledger) (fun key object' _ => ∃ m3,
      let t' := { t with tkI := xorBytes (block m3 0 hashBytes) t.nj }
      t'.ValidM3 m3 ∧ key = t'.sessionKey ∧ Measured { object with m3 := m3 } object')
      (receiveM3 session ⟨t.tkJi, t.opened.ni, t.nj⟩) start party := by
  obtain ⟨metrics, rfl⟩ := like
  refine Routine.Delivers.perform fun answer party' _ => ?_
  obtain ⟨received, bytes⟩ := answer
  apply Routine.Delivers.modify
  cases received with
  | none => exact Routine.delivers_failure
  | some received =>
      let object' : ApqeProtocol := { object with m3 := overwrite object.m3 bytes }
      let t' : Attempt := { t with tkI := xorBytes (block object'.m3 0 hashBytes) t.nj }
      have map := @yields_timedPufMap t.crypto ledger object' party' _ puf t'.tkI
      refine Routine.Delivers.guard fun _ => ?_
      have counted := @yields_countReceived t.crypto ledger object' party' received m3Bytes
      refine counted.delivers ⟨metrics, rfl⟩ ?_
      rintro _ ⟨metrics, rfl⟩
      refine Routine.Delivers.get (map.delivers ⟨metrics, rfl⟩ fun _ like => ?_)
      refine (yields_timedShaParts _).delivers like fun _ like => ?_
      refine (yields_timedShaParts _).delivers like fun _ like => ?_
      refine Routine.Delivers.guard fun tag => Routine.delivers_pure ?_
      exact ⟨object'.m3, ⟨rfl, (same_iff.mp tag).symm⟩, rfl, like⟩

/-- Everything that the responder's success implies. -/
theorem delivers_runResponderSession (provisioned : Provisioned t.crypto t.responder object)
    (opened : t.opened = openedOf t.crypto t.responder object.m1) (session : UInt32)
    (incoming : Transport.Received) :
    Routine.Delivers (Answered t.crypto ledger) (fun key object' _ => ∃ peer nj tkI,
      let t' := { t with peer := peer, nj := nj, tkI := tkI }
      t'.ValidM1 object.m1 ∧ t'.ValidPeer ledger ∧ object'.m2 = t'.m2 ∧ t'.ValidM3 object'.m3 ∧
        key = t'.sessionKey) (runResponderSession session incoming) object party := by
  refine Routine.Delivers.modify (Routine.Delivers.perform fun protocolStart _ _ => ?_)
  refine (delivers_openM1 provisioned opened ⟨_, rfl⟩).bind ?_
  rintro _ middle party ⟨rfl, tag, like, rfl⟩
  refine (delivers_sendM2 provisioned session incoming.source like).bind ?_
  rintro _ middle party ⟨peer, nj, validPeer, rfl, like⟩
  let t' : Attempt := { t with peer := peer, nj := nj }
  refine (@delivers_receiveM3 t' ledger (t'.answered object) party provisioned.puf session middle
    like).bind ?_
  rintro _ middle party ⟨m3, validM3, rfl, metrics, rfl⟩
  refine Routine.Ensures.bind (ensures_sendResult session incoming.source protocolStart _) ?_ ?_
  · exact fun _ _ _ _ returned => nomatch returned
  rintro _ last party ⟨_, sameM2, sameM3, _⟩
  refine Routine.delivers_pure ⟨peer, nj, xorBytes (block m3 0 hashBytes) nj,
    ⟨openedOf_decrypted opened, tag⟩, validPeer, sameM2, ?_, rfl⟩
  rw [sameM3]
  exact validM3

/-- M3 as any sender computes it from M2, the record, and its own choices. -/
def forgedM3 (crypto : Crypto) (w ci ni tkI : Block) (m2 : List.Vector UInt8 m2Bytes) :
    List.Vector UInt8 m3Bytes :=
  let mask := xorBytes (xorBytes (block m2 0 hashBytes m2Mask_fits) ni) ci
  let tkJi := xorBytes (xorBytes w (crypto.sha ci.toList)) mask
  let nj := xorBytes (block m2 64 hashBytes m2Nonce_fits) tkJi
  let tkIj := xorBytes tkI mask
  let sessionKey := crypto.sha (tkJi.toList ++ tkIj.toList ++ ni.toList ++ nj.toList)
  let h3 := crypto.sha (tkIj.toList ++ tkI.toList ++ sessionKey.toList)
  ⟨(xorBytes tkI nj).toList ++ h3.toList, by
    simp only [List.length_append, List.Vector.toList_length]⟩

/-- M2 shows the responder's mask to a sender that chose `C_i` and `N_i`. -/
theorem forgedM3_eq (t : Attempt) :
    forgedM3 t.crypto t.peer.w t.opened.ci t.opened.ni t.tkI t.m2 = t.m3 := by
  have first : block t.m2 0 hashBytes = xorBytes t.tkJ t.opened.ni :=
    @block_eq _ _ t.m2 [] (maskPair t.tkJi t.cj t.nj ++ t.h2.toList) 0 _ _
      (by rw [List.nil_append, ← List.append_assoc]; rfl) rfl _
  have third : block t.m2 64 hashBytes = xorBytes t.nj t.tkJi := by
    refine @block_eq _ _ t.m2 ((xorBytes t.tkJ t.opened.ni).toList ++
      (xorBytes t.cj t.tkJi).toList) t.h2.toList _ _ _ ?_ ?_ _
    · simp only [m2, maskPair, List.Vector.toList_mk, List.append_assoc]
    · simp only [List.length_append, List.Vector.toList_length]
  have mask : xorBytes (xorBytes (block t.m2 0 hashBytes) t.opened.ni) t.opened.ci =
      (t.responder.puf t.crypto).commutativeMask := by
    rw [first, xorBytes_cancel, tkJ, SoftwarePuf.commutativeMap, xorBytes_comm t.opened.ci,
      xorBytes_cancel]
  have tkJi : xorBytes (xorBytes t.peer.w (t.crypto.sha t.opened.ci.toList))
      (t.responder.puf t.crypto).commutativeMask = t.tkJi := rfl
  apply List.Vector.toList_injective
  simp only [forgedM3, mask, third, tkJi, xorBytes_cancel]
  rfl

end Steps

/-- A sender that knows the responder's public key and one record of the initiator on the
ledger is accepted, whatever it chooses for `C_i`, `N_i` and `TK_i`. -/
theorem forged_accepted (t : Attempt) {ledger : CredentialLedger} {object : ApqeProtocol}
    (provisioned : Provisioned t.crypto t.responder object) (coins : Fin eiBlocks → Block)
    (sealedM1 : object.m1 = t.sealed coins) (valid : t.ValidPeer ledger) (session : UInt32)
    (incoming : Transport.Received) : ∃ object' party',
      object'.m2 = t.m2 ∧
      object'.m3 = forgedM3 t.crypto t.peer.w t.opened.ci t.opened.ni t.tkI t.m2 ∧
      Routine.Run (Party.Answered t.crypto ledger) (runResponderSession session incoming) object
        ⟨fun _ => t.nj, 0, [⟨msgM3, session, t.m3.toList⟩], []⟩ (some t.sessionKey) object'
        party' := by
  have validM1 := t.sealed_validM1 coins
  rw [← sealedM1] at validM1
  have accepted : Routine.Ensures (Party.Answered t.crypto ledger) (fun _ => True)
      (fun result object' _ => result = some t.sessionKey ∧ object'.m2 = t.m2 ∧
        object'.m3 = t.m3) (runResponderSession session incoming) object
        ⟨fun _ => t.nj, 0, [⟨msgM3, session, t.m3.toList⟩], []⟩ := by
    rw [runResponderSession, Routine.ensures_bind, Routine.ensures_modify]
    refine Routine.Ensures.perform fun protocolStart v step => ⟨trivial, ?_⟩
    cases step
    refine (yields_openM1 provisioned validM1).ensures ⟨_, rfl⟩ fun middle like => ?_
    refine (yields_sendM2 provisioned valid session incoming.source rfl).ensures like ?_
    rintro _ ⟨metrics, rfl⟩
    have m3Received := fun sent => @yields_receiveM3 t ledger (t.answered object)
      provisioned.puf session (fun _ => t.nj) 1 [] sent
    refine (m3Received _).ensures ⟨metrics, rfl⟩ ?_
    rintro _ ⟨metrics, rfl⟩
    refine (ensures_sendResult session incoming.source protocolStart _).bind ?_ ?_
    · rintro _ _ ⟨none, _⟩
      cases none
    · rintro _ _ _ ⟨_, m2, m3, _⟩
      exact ⟨rfl, m2, m3⟩
  obtain ⟨⟨result, object', party', run⟩, all⟩ :=
    accepted.total (Party.answered_responsive t.crypto ledger)
  obtain ⟨rfl, m2, m3⟩ := all _ _ _ run
  exact ⟨object', party', m2, m3.trans (forgedM3_eq t).symm, run⟩

/-- The key that the initiator's own maps give for the responder's challenge and both nonces. -/
def ownKey (t : Attempt) (initiator : NodeConfig) : Block :=
  let map := (initiator.puf t.crypto).commutativeMap
  t.crypto.sha ((map t.tkJ).toList ++
    (map ((t.responder.puf t.crypto).commutativeMap t.cj)).toList ++
    t.opened.ni.toList ++ t.nj.toList)

theorem commutativeMap_comm (first second : SoftwarePuf) (input : Block) :
    first.commutativeMap (second.commutativeMap input) =
      second.commutativeMap (first.commutativeMap input) := by
  simp only [SoftwarePuf.commutativeMap, xorBytes_assoc]
  rw [xorBytes_comm first.commutativeMask]

/-- With the enrolled challenge and the initiator's map of `C_j`, the accepted key is the one
of the initiator's own maps. -/
theorem sessionKey_eq_ownKey (t : Attempt) {initiator : NodeConfig} {slot : UInt16}
    (record : t.peer = initiator.credential t.crypto slot)
    (enrolled : t.opened.ci = initiator.challenge t.crypto slot)
    (mapped : t.tkI = (initiator.puf t.crypto).commutativeMap t.cj) :
    t.sessionKey = t.ownKey initiator := by
  have response : xorBytes t.peer.w (t.crypto.sha t.opened.ci.toList) =
      (initiator.puf t.crypto).commutativeMap t.opened.ci := by
    rw [record, enrolled]
    exact xorBytes_cancel (initiator.response t.crypto slot) _
  simp only [sessionKey, ownKey, tkJi, tkJ, tkIj, response, mapped]
  rw [commutativeMap_comm (t.responder.puf t.crypto)]
  rw [commutativeMap_comm (t.responder.puf t.crypto)]

end Attempt

open Attempt in
/-- What the responder's success implies, for an M1 and an M3 of any sender: both hashes are
right, the ledger's record under the temporary identity is a valid one of the peer, and the
accepted key follows from them. It is the key of the initiator's own maps when `C_i` is the
enrolled challenge and `TK_i` the initiator's map of `C_j`. -/
theorem responder_accepts (crypto : Crypto) (ledger : CredentialLedger) (responder : NodeConfig)
    (object : ApqeProtocol) (provisioned : Provisioned crypto responder object) (session : UInt32)
    (incoming : Transport.Received) (party : Party) (key : Block) (object' : ApqeProtocol)
    (party' : Party) (run : Routine.Run (Party.Answered crypto ledger)
      (runResponderSession session incoming) object party (some key) object' party') :
    ∃ t : Attempt, t.crypto = crypto ∧ t.responder = responder ∧
      t.opened = openedOf crypto responder object.m1 ∧ t.ValidM1 object.m1 ∧ t.ValidPeer ledger ∧
      object'.m2 = t.m2 ∧ t.ValidM3 object'.m3 ∧ key = t.sessionKey ∧
      ∀ initiator slot, t.peer = initiator.credential crypto slot →
        t.opened.ci = initiator.challenge crypto slot →
        t.tkI = (initiator.puf crypto).commutativeMap t.cj → key = t.ownKey initiator := by
  let start : Attempt := ⟨crypto, responder, openedOf crypto responder object.m1,
    object.runtimePeerCredential, .replicate _ 0, .replicate _ 0⟩
  obtain ⟨peer, nj, tkI, validM1, validPeer, m2, validM3, rfl⟩ :=
    (delivers_runResponderSession (t := start) provisioned rfl session incoming).of_run run
  refine ⟨{ start with peer := peer, nj := nj, tkI := tkI }, rfl, rfl, rfl, validM1, validPeer, m2,
    validM3, rfl, ?_⟩
  intro initiator slot record enrolled mapped
  exact sessionKey_eq_ownKey _ record enrolled mapped

section Outsider

/-- A sender that has no secret of the initiator and chooses other values than the enrolled. -/
def outsider : Attempt where
  crypto := paddingCrypto
  responder := pairedDevice false
  opened := ⟨(pairedDevice true).tid paddingCrypto 0, .replicate _ 5, .replicate _ 6,
    (pairedDevice false).tid paddingCrypto 0⟩
  peer := (pairedDevice true).credential paddingCrypto 0
  nj := .replicate _ 4
  tkI := .replicate _ 7

/-- The responder of the pair with the M1 of the outsider. -/
def approachedProtocol : ApqeProtocol :=
  { pairedProtocol false with m1 := outsider.sealed fun _ => .replicate _ 0 }

theorem outsider_validPeer : outsider.ValidPeer pairedLedger := by
  refine ⟨?_, rfl, rfl⟩
  change pairedLedger.index ((pairedDevice true).tid paddingCrypto 0) = _
  simp only [pairedLedger, if_true]
  rfl

/-- The responder accepts the outsider, although neither value is the initiator's. -/
theorem outsider_accepted : ∃ object' party' key,
    Provisioned paddingCrypto (pairedDevice false) approachedProtocol ∧
    pairedLedger.Returns paddingCrypto {e | ∃ first, e = (pairedDevice first, 0)} ∧
    Routine.Run (Party.Answered paddingCrypto pairedLedger)
      (runResponderSession 1 ⟨msgM1, 1, m1Bytes, ⟨0, 0⟩, m1Bytes⟩) approachedProtocol
      ⟨fun _ => .replicate _ 4, 0, [⟨msgM3, 1, outsider.m3.toList⟩], []⟩ (some key) object' party' ∧
    (Attempt.openedOf paddingCrypto (pairedDevice false) approachedProtocol.m1).tidI =
      (pairedDevice true).tid paddingCrypto 0 ∧
    (Attempt.openedOf paddingCrypto (pairedDevice false) approachedProtocol.m1).ci ≠
      (pairedDevice true).challenge paddingCrypto 0 ∧
    xorBytes (block object'.m3 0 hashBytes) (.replicate _ 4) ≠
      ((pairedDevice true).puf paddingCrypto).commutativeMap
        ((pairedDevice false).challenge paddingCrypto 0) := by
  obtain ⟨object', party', _, m3, run⟩ :=
    @Attempt.forged_accepted outsider pairedLedger approachedProtocol ⟨rfl, rfl, rfl, rfl⟩ _ rfl
      outsider_validPeer 1 ⟨msgM1, 1, m1Bytes, ⟨0, 0⟩, m1Bytes⟩
  have opened := outsider.openedOf_sealed fun _ => .replicate _ 0
  refine ⟨object', party', outsider.sessionKey, ⟨rfl, rfl, rfl, rfl⟩, pairedLedger_returns, run, ?_⟩
  refine ⟨congrArg Opened.tidI opened, fun same => ?_, fun same => ?_⟩
  · have equal := (congrArg Opened.ci opened).symm.trans same
    exact absurd (congrArg List.Vector.head equal) (by decide)
  · rw [m3, outsider.forgedM3_eq] at same
    have equal := outsider.valid_m3.1.trans same
    exact absurd (congrArg List.Vector.head equal) (by decide)

/-- The attempt behind a success of the responder. -/
theorem responder_accepts_outsider : ∃ (object' : ApqeProtocol) (key : Block) (t : Attempt),
    t.crypto = paddingCrypto ∧ t.responder = pairedDevice false ∧
      t.opened = Attempt.openedOf paddingCrypto (pairedDevice false) approachedProtocol.m1 ∧
      t.ValidM1 approachedProtocol.m1 ∧ t.ValidPeer pairedLedger ∧ object'.m2 = t.m2 ∧
      t.ValidM3 object'.m3 ∧ key = t.sessionKey ∧
      ∀ initiator slot, t.peer = initiator.credential paddingCrypto slot →
        t.opened.ci = initiator.challenge paddingCrypto slot →
        t.tkI = (initiator.puf paddingCrypto).commutativeMap t.cj → key = t.ownKey initiator := by
  obtain ⟨object', party', _, _, run⟩ :=
    @Attempt.forged_accepted outsider pairedLedger approachedProtocol ⟨rfl, rfl, rfl, rfl⟩ _ rfl
      outsider_validPeer 1 ⟨msgM1, 1, m1Bytes, ⟨0, 0⟩, m1Bytes⟩
  exact ⟨object', outsider.sessionKey, responder_accepts paddingCrypto pairedLedger
    (pairedDevice false) approachedProtocol ⟨rfl, rfl, rfl, rfl⟩ 1 _ _ _ object' party' run⟩

end Outsider

end Apqe
