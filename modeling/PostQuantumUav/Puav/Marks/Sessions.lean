import PostQuantumUav.Puav.Marks.Routines

/-!
# Sessions and `begin` on marked cells

Both roles of a session, and `begin`, make corresponding calls on bytes and on marked cells and
leave objects that are the same but for the marks of the seed.
-/

namespace Puav.ProposedUavProtocol

open Interaction Cell Buffer

variable {α β κ : Type} [Cell α] [Cell β] {place : α → β} {erase : β → α}

section Cleanup

theorem copies_cleanup (hom : CellMap place) : Copies place erase (fun _ _ => True)
    (cleanup : Method α κ Unit) (cleanup : Method β κ Unit) := by
  refine copies_freeKem.andThen fun _ _ => copies_update (fun _ => rfl) fun object bootSeed => ?_
  simp only [marked, hom.map_replicate]

theorem copies_cleaned (hom : CellMap place) {γ γ' : Type} {results : γ → γ' → Prop}
    {body : Method α κ γ} {body' : Method β κ γ'} (copies : Copies place erase results body body') :
    Copies place erase results (cleaned body) (cleaned body') :=
  copies.attempt.bind fun _ _ related => (copies_cleanup hom).andThen fun _ _ =>
    Routine.images_held related

theorem cleared_marked (hom : CellMap place) (object : ProposedUavProtocol α κ)
    (bootSeed : Hash β) :
    (object.marked place bootSeed).cleared = object.cleared.marked place bootSeed := by
  simp only [cleared, marked, hom.map_replicate]

end Cleanup

section Initiator

variable (hom : CellMap place)

include hom

theorem copies_buildM0 : Copies place erase (fun a a' => a' = List.Vector.map place a)
    (buildM0 : Method α κ _) buildM0 := by
  refine (Routine.images_perform .fillNonce).bind ?_
  rintro (nonceA : Nonce α) _ rfl
  refine Copies.after (Routine.images_pure rfl) (fun _ => rfl) fun object bootSeed => ?_
  simp only [marked, map_m0Message hom]

omit hom [Cell α] [Cell β] in
theorem copies_sendM0 (session : UInt32) : Copies place erase (fun _ _ => True)
    (sendM0 session : Method α κ Unit) (sendM0 session) :=
  copies_get fun _ _ => copies_sendProtocolMessage _ _ _ (List.Vector.toList_map _ _) _

/-- M2 with its signature. -/
theorem copies_sendM2 (session : UInt32) (destination : Transport.Endpoint) {sid : Hash α}
    {sid' : Hash β} (sameSid : sid' = sid.map place) {publicKey : KemPublicKey α}
    {publicKey' : KemPublicKey β} (same : publicKey' = publicKey.map place) :
    Copies place erase (fun a a' => a' = List.Vector.map place a)
      (sendM2 session destination sid publicKey : Method α κ _)
      (sendM2 session destination sid' publicKey') := by
  subst sameSid same
  refine copies_get fun object bootSeed => copies_reserveQ.bind ?_
  rintro qA _ rfl
  refine (copies_timedRuntimeSeed hom).bind fun runtimeSeed runtimeSeed' derived => ?_
  refine (copies_buildM2SignedInput hom rfl _ qA rfl).andThen fun _ _ => ?_
  refine (copies_timedSign qA derived).bind ?_
  rintro signature _ rfl
  refine (copies_attachPath qA).bind ?_
  rintro path _ rfl
  refine Copies.after ?_ (fun _ => rfl) fun object bootSeed => ?_
  · refine copies_get fun object bootSeed => ?_
    refine (copies_timedSha (sentM2_marked object bootSeed)).bind ?_
    rintro hashM2 _ rfl
    refine (copies_sendProtocolMessage destination msgM2Init session
      (sentM2_marked object bootSeed) true).andThen fun _ _ => Routine.images_pure rfl
  · simp only [marked, map_overwrite, map_m2Message hom]

theorem copies_sendM4 (session : UInt32) (destination : Transport.Endpoint) (view : View α) :
    Copies place erase (fun _ _ => True) (sendM4 session destination view : Method α κ Unit)
      (sendM4 session destination (view.mapCells place)) := by
  refine (copies_computeConfirmationTag hom _ rfl rfl).bind ?_
  rintro tauA _ rfl
  refine Copies.after (copies_get fun _ _ => copies_sendProtocolMessage _ _ _
    (List.Vector.toList_map _ _) _) (fun _ => rfl) fun object bootSeed => ?_
  simp only [marked, View.mapCells, map_m4Message hom]

theorem copies_receiveResult (session : UInt32) : Copies place erase (fun _ _ => True)
    (receiveResult session : Method α κ Unit) (receiveResult session) := by
  refine (copies_receiveProtocolMessage msgResult session 128 resultBytes storeResult storeResult
    false (fun _ _ => rfl) fun cells object bootSeed => ?_).andThen fun _ _ => ?_
  · simp only [storeResult, marked, map_overwrite]
  refine copies_timer.andThen fun _ _ => Copies.after ?_ (fun _ => rfl) fun _ _ => rfl
  refine copies_get fun object bootSeed => (Routine.images_guard ?_).any
  rw [show (object.marked place bootSeed).result.toList = object.result.toList.map place from
    List.Vector.toList_map _ _, hom.readByte_map]

variable [DecidableEq α] [DecidableEq β] (injective : Function.Injective place)

include injective

theorem copies_receiveM1 (session : UInt32) (nonceA : Nonce α) :
    Copies place erase (fun a a' => a = a') (receiveM1 session nonceA : Method α κ _)
      (receiveM1 session (nonceA.map place)) := by
  refine (copies_receiveProtocolMessage msgM1Chal session m1Bytes m1Bytes storeM1 storeM1 true
    (fun _ _ => rfl) fun cells object bootSeed => ?_).bind ?_
  · simp only [storeM1, marked, map_overwrite]
  rintro packet _ rfl
  refine copies_get fun object bootSeed => ?_
  exact (Routine.images_guard (validM1_map hom injective _ _ _)).andThen fun _ _ =>
    Routine.images_pure rfl

theorem copies_receiveM3 (session : UInt32) (sid hashM2 : Hash α) :
    Copies place erase (fun a a' => a = a') (receiveM3 session sid hashM2 : Method α κ _)
      (receiveM3 session (sid.map place) (hashM2.map place)) := by
  refine copies_get fun _ _ => ?_
  refine (copies_receiveProtocolMessage msgM3RespFin session m3MaxBytes _ storeM3 storeM3 true
    (fun _ _ => rfl) fun cells object bootSeed => ?_).bind ?_
  · simp only [storeM3, marked, map_overwrite]
  rintro packet _ rfl
  refine copies_get fun object bootSeed => ?_
  have stored : (object.marked place bootSeed).m3.toList = object.m3.toList.map place :=
    List.Vector.toList_map _ _
  have field : ∀ offset length fits, block (object.marked place bootSeed).m3 offset length fits =
      (block object.m3 offset length fits).map place := fun _ _ _ => (map_block _ _ _ _ _).symm
  simp only [stored, field, hom.readByte_map, ← map_slice, hom.getU16_map, hom.getU32_map,
    map_eq_iff injective]
  refine (Routine.images_guard Iff.rfl).andThen fun _ _ => ?_
  refine (Routine.images_guard Iff.rfl).andThen fun _ _ => ?_
  refine (Routine.images_guard Iff.rfl).andThen fun _ _ => ?_
  refine (copies_validatePeerRecord _).andThen fun _ _ => ?_
  refine (copies_obtainPeerPath _ _ rfl).bind ?_
  rintro peerPath _ rfl
  refine (copies_buildM3SignedInput hom rfl rfl _ _ rfl).andThen fun _ _ => ?_
  exact (copies_timedVerify _ rfl rfl).andThen fun _ _ => Routine.images_pure rfl

theorem copies_confirmB (sid : Hash α) :
    Copies place erase (fun a a' => a' = View.mapCells place a) (confirmB sid : Method α κ _)
      (confirmB (sid.map place)) := by
  refine copies_get fun object bootSeed => ?_
  refine (copies_timedDecapsulate (map_block _ _ _ _ _).symm).bind ?_
  rintro sharedSecret _ rfl
  refine (copies_deriveView hom rfl rfl (innerM3_marked object bootSeed)).bind ?_
  rintro view _ rfl
  refine (copies_computeConfirmationTag hom domainBConfirm rfl rfl).bind ?_
  rintro expected _ rfl
  have same : expected.toList = slice object.m3.toList
      (36 + m3InnerBytesForMode object.config.pathMode) hmacBytes ↔
      (expected.map place).toList = slice (object.marked place bootSeed).m3.toList
        (36 + m3InnerBytesForMode object.config.pathMode) hmacBytes := by
    rw [show (object.marked place bootSeed).m3.toList = object.m3.toList.map place from
      List.Vector.toList_map _ _, List.Vector.toList_map, ← map_slice,
      (List.map_injective_iff.mpr injective).eq_iff]
  refine (Routine.images_guard same).andThen fun _ _ => ?_
  exact Routine.Images.andThen (Routine.images_perform (.note .tauBVerified view)) fun _ _ =>
    Routine.images_pure rfl

theorem copies_initiatorSession (session : UInt32) :
    Copies place erase (fun a a' => a' = View.mapCells place a)
      (initiatorSession session : Method α κ _) (initiatorSession session) := by
  refine (copies_buildM0 hom).bind ?_
  rintro nonceA _ rfl
  apply copies_timer.bind
  rintro protocolStart _ rfl
  refine (copies_sendM0 session).andThen fun _ _ => ?_
  refine (copies_receiveM1 hom injective session nonceA).bind ?_
  rintro packet _ rfl
  refine (copies_computeSid0 hom).bind ?_
  rintro sid _ rfl
  refine copies_initializeKem.andThen fun _ _ => copies_timedMakeKey.bind ?_
  rintro publicKey _ rfl
  refine (copies_sendM2 hom session packet.source rfl rfl).bind ?_
  rintro hashM2 _ rfl
  refine (copies_receiveM3 hom injective session sid hashM2).bind ?_
  rintro packet _ rfl
  refine (copies_confirmB hom injective sid).bind ?_
  rintro view _ rfl
  refine (copies_sendM4 hom session packet.source view).andThen fun _ _ => copies_timer.bind ?_
  rintro now _ rfl
  refine Copies.after ?_ (fun _ => rfl) fun _ _ => rfl
  exact (copies_receiveResult hom session).andThen fun _ _ => Routine.images_pure rfl

theorem copies_runInitiatorSession :
    Copies place erase (fun a a' => a' = View.mapCells place a)
      (runInitiatorSession : Method α κ _) runInitiatorSession := by
  refine (Routine.images_perform .espRandom).bind ?_
  rintro random _ rfl
  refine Copies.after ?_ (fun _ => rfl) (cleared_marked hom)
  exact copies_cleaned hom (copies_initiatorSession hom injective _)

end Initiator

section Responder

variable (hom : CellMap place)

include hom

theorem copies_buildM1 (nonceA : Nonce α) : Copies place erase (fun _ _ => True)
    (buildM1 nonceA : Method α κ Unit) (buildM1 (nonceA.map place)) := by
  refine (Routine.images_perform .fillNonce).bind ?_
  rintro (nonceB : Nonce α) _ rfl
  refine copies_update (fun _ => rfl) fun object bootSeed => ?_
  simp only [marked, map_m1Message hom]

/-- M3 with its signature. -/
theorem copies_sendM3 (session : UInt32) (destination : Transport.Endpoint) (sid hashM2 : Hash α)
    (ciphertext : KemCiphertext α) (sharedSecret : Hash α) :
    Copies place erase (fun a a' => a' = (a.1, View.mapCells place a.2))
      (sendM3 session destination sid hashM2 ciphertext sharedSecret : Method α κ _)
      (sendM3 session destination (sid.map place) (hashM2.map place) (ciphertext.map place)
        (sharedSecret.map place)) := by
  refine copies_get fun object bootSeed => copies_reserveQ.bind ?_
  rintro qB _ rfl
  refine (copies_timedRuntimeSeed hom).bind fun runtimeSeed runtimeSeed' derived => ?_
  refine (copies_buildM3SignedInput hom rfl rfl _ qB rfl).andThen fun _ _ => ?_
  refine (copies_timedSign qB derived).bind ?_
  rintro signature _ rfl
  refine (copies_attachPath qB).bind ?_
  rintro path _ rfl
  rw [show (object.marked place bootSeed).config = object.config from rfl, ← map_m3Inner hom]
  refine (copies_deriveView hom rfl rfl rfl).bind ?_
  rintro view _ rfl
  refine Routine.Images.andThen (Routine.images_perform (.note .keysDerived view)) fun _ _ => ?_
  refine (copies_computeConfirmationTag hom domainBConfirm rfl rfl).bind ?_
  rintro tauB _ rfl
  refine Copies.after (copies_get fun object bootSeed => ?_) (fun _ => rfl)
    fun object bootSeed => ?_
  · refine (copies_sendProtocolMessage destination msgM3RespFin session ?_ true).andThen
      fun _ _ => Routine.images_pure rfl
    rw [show (object.marked place bootSeed).m3.toList = object.m3.toList.map place from
      List.Vector.toList_map _ _, map_slice]
    rfl
  · simp only [marked, map_overwrite, map_m3Message hom]

theorem map_resultRecord (qA qB : UInt32) (metrics : LocalMetrics)
    (freeHeap minFreeHeap : UInt32) :
    (resultRecord qA qB metrics freeHeap minFreeHeap : List α).map place =
      resultRecord qA qB metrics freeHeap minFreeHeap := by
  unfold resultRecord
  simp only [List.map_append, hom.map_putU32, hom.map_putU64, List.map_cons, List.map_nil,
    hom.ofByte]

theorem copies_sendResult (session : UInt32) (destination : Transport.Endpoint) (qA qB : UInt32) :
    Copies place erase (fun _ _ => True) (sendResult session destination qA qB : Method α κ Unit)
      (sendResult session destination qA qB) := by
  refine (Routine.images_perform .getFreeHeap).bind ?_
  rintro (freeHeap : UInt32) _ rfl
  refine (Routine.images_perform .getMinFreeHeap).bind ?_
  rintro (minFreeHeap : UInt32) _ rfl
  refine Copies.after (copies_get fun object bootSeed => ?_) (fun _ => rfl)
    fun object bootSeed => ?_
  · refine (copies_sendProtocolMessage destination msgResult session ?_ false).attempt.andThen
      fun _ _ => Routine.images_pure trivial
    rw [show (object.marked place bootSeed).result.toList = object.result.toList.map place from
      List.Vector.toList_map _ _, map_slice]
  · simp only [marked, map_overwrite, map_resultRecord hom]

variable [DecidableEq α] [DecidableEq β] (injective : Function.Injective place)

include injective

theorem copies_sendM1 (session : UInt32) (destination : Transport.Endpoint) :
    Copies place erase (fun a a' => a' = List.Vector.map place a)
      (sendM1 session destination : Method α κ _) (sendM1 session destination) := by
  refine copies_get fun object bootSeed => ?_
  have nonceA : block (object.marked place bootSeed).m0 66 nonceBytes nonceA_fits =
      (block object.m0 66 nonceBytes nonceA_fits).map place := (map_block _ _ _ _ _).symm
  simp only [nonceA]
  refine (Routine.images_guard (validM0_map hom injective _ _ _)).andThen fun _ _ => ?_
  refine (copies_buildM1 hom _).andThen fun _ _ => (copies_computeSid0 hom).bind ?_
  rintro sid _ rfl
  refine copies_get fun object bootSeed => ?_
  exact (copies_sendProtocolMessage destination msgM1Chal session (List.Vector.toList_map _ _)
    true).andThen fun _ _ => Routine.images_pure rfl

theorem copies_receiveM2 (session : UInt32) (sid : Hash α) :
    Copies place erase (fun a a' => a' = (a.1, List.Vector.map place a.2))
      (receiveM2 session sid : Method α κ _) (receiveM2 session (sid.map place)) := by
  refine copies_get fun _ _ => ?_
  refine (copies_receiveProtocolMessage msgM2Init session m2MaxBytes _ storeM2 storeM2 true
    (fun _ _ => rfl) fun cells object bootSeed => ?_).andThen fun _ _ => ?_
  · simp only [storeM2, marked, map_overwrite]
  refine copies_get fun object bootSeed => ?_
  have stored : (object.marked place bootSeed).m2.toList = object.m2.toList.map place :=
    List.Vector.toList_map _ _
  have field : ∀ offset length fits, block (object.marked place bootSeed).m2 offset length fits =
      (block object.m2 offset length fits).map place := fun _ _ _ => (map_block _ _ _ _ _).symm
  simp only [stored, field, hom.readByte_map, ← map_slice, hom.getU32_map, map_eq_iff injective]
  refine (Routine.images_guard Iff.rfl).andThen fun _ _ => ?_
  refine (Routine.images_guard Iff.rfl).andThen fun _ _ => ?_
  refine (copies_validatePeerRecord _).andThen fun _ _ => ?_
  refine (copies_timedSha (sentM2_marked object bootSeed)).bind ?_
  rintro hashM2 _ rfl
  refine (copies_obtainPeerPath _ _ rfl).bind ?_
  rintro peerPath _ rfl
  refine (copies_buildM2SignedInput hom rfl _ _ rfl).andThen fun _ _ => ?_
  exact (copies_timedVerify _ rfl rfl).andThen fun _ _ => Routine.images_pure rfl

theorem copies_receiveM4 (session : UInt32) (view : View α) :
    Copies place erase (fun _ _ => True) (receiveM4 session view : Method α κ Unit)
      (receiveM4 session (view.mapCells place)) := by
  refine (copies_receiveProtocolMessage msgM4InitFin session m4Bytes m4Bytes storeM4 storeM4 true
    (fun _ _ => rfl) fun cells object bootSeed => ?_).andThen fun _ _ => ?_
  · simp only [storeM4, marked, map_overwrite]
  refine copies_get fun object bootSeed => ?_
  have stored : (object.marked place bootSeed).m4.toList = object.m4.toList.map place :=
    List.Vector.toList_map _ _
  have field : ∀ offset length fits, block (object.marked place bootSeed).m4 offset length fits =
      (block object.m4 offset length fits).map place := fun _ _ _ => (map_block _ _ _ _ _).symm
  have same : block object.m4 2 hashBytes = view.sid ↔
      (block object.m4 2 hashBytes).map place = (view.mapCells place).sid :=
    (map_eq_iff injective).symm
  simp only [stored, field, hom.readByte_map, ← same]
  refine (Routine.images_guard Iff.rfl).andThen fun _ _ => ?_
  refine (copies_computeConfirmationTag hom domainAConfirm rfl rfl).bind ?_
  rintro expectedTauA _ rfl
  exact (Routine.images_guard (map_eq_iff injective).symm).any

theorem copies_responderSession (packet : Transport.Received) :
    Copies place erase (fun a a' => a' = View.mapCells place a)
      (responderSession packet : Method α κ _) (responderSession packet) := by
  apply copies_timer.bind
  rintro responderStart _ rfl
  refine (copies_sendM1 hom injective packet.session packet.source).bind ?_
  rintro sid _ rfl
  refine (copies_receiveM2 hom injective packet.session sid).bind ?_
  rintro ⟨qA, hashM2⟩ _ rfl
  refine copies_initializeKem.andThen fun _ _ => copies_get fun object bootSeed => ?_
  refine (copies_timedEncapsulate (map_block _ _ _ _ _).symm).bind ?_
  rintro ⟨ciphertext, sharedSecret⟩ _ rfl
  refine (copies_sendM3 hom packet.session packet.source sid hashM2 ciphertext sharedSecret).bind ?_
  rintro ⟨qB, view⟩ _ rfl
  refine (copies_receiveM4 hom injective packet.session view).andThen fun _ _ =>
    copies_timer.bind ?_
  rintro now _ rfl
  refine Copies.after ?_ (fun _ => rfl) fun _ _ => rfl
  refine Routine.Images.andThen (Routine.images_perform (.note .accepted view)) fun _ _ => ?_
  exact (copies_sendResult hom packet.session packet.source qA qB).andThen fun _ _ =>
    Routine.images_pure rfl

theorem copies_runResponderOnce :
    Copies place erase (fun a a' => a' = View.mapCells place a)
      (runResponderOnce : Method α κ _) runResponderOnce := by
  refine Copies.after ?_ (fun _ => rfl) fun object bootSeed => ?_
  · refine (copies_receiveProtocolMessage msgM0Req 0 m0Bytes m0Bytes storeM0 storeM0 true
      (fun _ _ => rfl) fun cells object bootSeed => ?_).bind ?_
    · simp only [storeM0, marked, map_overwrite]
    rintro packet _ rfl
    exact copies_cleaned hom (copies_responderSession hom injective packet)
  · rw [cleared_marked hom]
    simp only [marked, hom.map_replicate]

/-- A session on marked cells. -/
theorem copies_session (role : Role) : Copies place erase (fun a a' =>
      Option.Rel (fun view view' => view' = View.mapCells place view) a a')
    (session role : Method α κ _) (session role) := by
  cases role with
  | initiator => exact (copies_runInitiatorSession hom injective).attempt
  | responder => exact (copies_runResponderOnce hom injective).attempt

end Responder

section Begin

omit [Cell α] [Cell β] in
/-- The boot seed may be marked while the tree is built. -/
theorem copies_bootSeed {bootSeed : Hash α} {bootSeed' : Hash β}
    (same : bootSeed = bootSeed'.map erase) : Copies place erase (fun _ _ => True)
      (modify fun protocol => { protocol with bootSeed := bootSeed } : Method α κ PUnit)
      (modify fun protocol => { protocol with bootSeed := bootSeed' }) := by
  apply Routine.images_modify
  rintro object _ ⟨_, _, rfl⟩
  exact ⟨bootSeed', same, rfl⟩

variable (marking : Marking place erase)

include marking

theorem copies_prepareLmsAndLedger : Copies place erase (fun _ _ => True)
    (prepareLmsAndLedger : Method α κ Unit) prepareLmsAndLedger := by
  refine copies_get fun object bootSeed => ?_
  refine (copies_sha256 (marking.placed.map_ofBytes _).symm).andThen fun _ _ => ?_
  refine Routine.Images.bind (Routine.Images.orFail (Routine.images_perform .reconstruct)) ?_
  rintro pufRoot _ rfl
  rw [List.Vector.toList_map, show (object.marked place bootSeed).config = object.config from rfl,
    ← map_lmsSeedInfo marking.placed]
  refine Routine.Images.bind (Routine.Images.orFail
    (Routine.images_perform (.deriveSeed _ [] _))) fun seed seed' derived => ?_
  refine (copies_bootSeed derived).andThen fun _ _ => ?_
  subst derived
  refine Routine.Images.andThen (Routine.Images.check
    (Routine.images_perform (.initializeLms _ seed'))) fun _ _ => ?_
  refine Routine.Images.andThen (Routine.Images.check (Routine.images_perform .buildTree))
    fun _ _ => ?_
  refine (copies_bootSeed (marking.erased.map_replicate _).symm).andThen fun _ _ => ?_
  refine Routine.Images.andThen (Routine.Images.check (Routine.images_perform .connectWiFi))
    fun _ _ => ?_
  refine Routine.Images.andThen (Routine.Images.check (Routine.images_perform .beginTransport))
    fun _ _ => ?_
  refine Routine.Images.andThen (Routine.Images.check (Routine.images_perform .beginGcs))
    fun _ _ => ?_
  refine Routine.Images.andThen (Routine.Images.check
    (Routine.images_perform (.enrollOwnRoot _ _ _ _))) fun _ _ => ?_
  refine Routine.Images.andThen (Routine.Images.ite Iff.rfl (Routine.Images.check
    (Routine.images_perform (.enrollOwnPaths _ _ _))) (Routine.images_pure trivial)) fun _ _ => ?_
  refine Routine.Images.bind (Routine.Images.orFail
    (Routine.images_perform (.fetchPeerRoot _))) ?_
  rintro record _ rfl
  exact Copies.after (copies_validatePeerRecord _) (fun _ => rfl) fun _ _ => rfl

omit marking [Cell α] [Cell β] in
theorem copies_resetCounter (config : NodeConfig) : Copies place erase (fun _ _ => True)
    (resetCounter config : Method α κ Unit) (resetCounter config) := by
  refine Routine.Images.ite Iff.rfl ?_ (Routine.images_pure trivial)
  exact (Routine.images_perform (.putUInt config.firstQ)).andThen fun _ _ =>
    Routine.images_pure trivial

omit marking [Cell α] [Cell β] in
theorem copies_initializePersistentCounter : Copies place erase (fun _ _ => True)
    (initializePersistentCounter : Method α κ Unit) initializePersistentCounter := by
  refine copies_get fun object bootSeed => Routine.Images.andThen
    (Routine.Images.check (Routine.images_perform .beginPreferences)) fun _ _ => ?_
  refine (copies_resetCounter object.config).andThen fun _ _ => ?_
  refine (Routine.images_perform (.getUInt _)).bind ?_
  rintro nextQ _ rfl
  exact (Routine.images_guard Iff.rfl).any

/-- `begin` on marked cells. -/
theorem copies_start : Copies place erase (fun _ _ => True) (start : Method α κ Unit) start := by
  refine copies_get fun object bootSeed => (Routine.images_guard Iff.rfl).andThen fun _ _ => ?_
  refine (copies_prepareLmsAndLedger marking).andThen fun _ _ => ?_
  refine Routine.Images.andThen (Routine.Images.check (Routine.images_perform .initRng))
    fun _ _ => ?_
  refine copies_initializePersistentCounter.andThen fun _ _ => ?_
  exact copies_update (fun _ => rfl) fun _ _ => rfl

omit marking in
theorem constructed_marked (hom : CellMap place) (config : NodeConfig) :
    (constructed config : ProposedUavProtocol β κ) =
      (constructed config : ProposedUavProtocol α κ).marked place (.replicate _ (ofByte 0)) := by
  simp only [constructed, marked, hom.map_replicate]

end Begin

end Puav.ProposedUavProtocol
