import PostQuantumUav.Puav.Marks.Calls

/-!
# The parts of a session on marked cells

The methods that a session is made of are images of each other on bytes and on marked cells:
the key encapsulation, the records, the keys, the signed objects and the transport. What they
put into their buffers, and what they compare, are the same bytes; the seed is not among them.
-/

namespace Puav.ProposedUavProtocol

open Interaction Cell Buffer

variable {α β κ : Type} [Cell α] [Cell β] {place : α → β} {erase : β → α}

section Kem

omit [Cell α] [Cell β]

theorem copies_freeKem : Copies place erase (fun _ _ => True)
    (freeKem : Method α κ Unit) (freeKem : Method β κ Unit) := by
  refine copies_get fun object bootSeed => Routine.Images.ite Iff.rfl ?_ ?_
  · refine (Routine.images_perform .kemFree).andThen fun _ _ => ?_
    exact copies_update (fun _ => rfl) fun _ _ => rfl
  · exact Routine.images_pure trivial

theorem copies_initializeKem : Copies place erase (fun _ _ => True)
    (initializeKem : Method α κ Unit) (initializeKem : Method β κ Unit) := by
  refine copies_freeKem.andThen fun _ _ => ?_
  refine Routine.Images.andThen (Routine.Images.check (Routine.images_perform .kemInit))
    fun _ _ => ?_
  exact copies_update (fun _ => rfl) fun _ _ => rfl

theorem copies_timedMakeKey : Copies place erase (fun a a' => a' = List.Vector.map place a)
    (timedMakeKey : Method α κ _) timedMakeKey := by
  refine copies_timed _ (Routine.Images.bind
    (Routine.Images.orFail (Routine.images_perform .kemMakeKey)) fun key key' same => ?_)
  subst same
  exact Copies.after (Routine.Images.orFail (Routine.images_perform (.kemEncodePublicKey key)))
    (fun _ => rfl) fun _ _ => rfl

theorem copies_timedEncapsulate {publicKey : KemPublicKey α} {publicKey' : KemPublicKey β}
    (same : publicKey' = publicKey.map place) :
    Copies place erase
      (fun (a : KemCiphertext α × Hash α) a' => a' = (a.1.map place, a.2.map place))
      (timedEncapsulate publicKey : Method α κ _) (timedEncapsulate publicKey') := by
  subst same
  refine copies_timed _ (Routine.Images.bind (Routine.Images.orFail
    (Routine.images_perform (.kemDecodePublicKey publicKey))) fun key key' same => ?_)
  subst same
  exact Copies.after (Routine.Images.orFail (Routine.images_perform (.kemEncapsulate key)))
    (fun _ => rfl) fun _ _ => rfl

theorem copies_timedDecapsulate {ciphertext : KemCiphertext α} {ciphertext' : KemCiphertext β}
    (same : ciphertext' = ciphertext.map place) :
    Copies place erase (fun a a' => a' = List.Vector.map place a)
      (timedDecapsulate ciphertext : Method α κ _) (timedDecapsulate ciphertext') := by
  subst same
  refine copies_get fun object bootSeed => copies_timed _ ?_
  have held : Option.Rel (fun (a a' : κ) => a = a') object.kemKey
      (object.marked place bootSeed).kemKey := optionRel_self object.kemKey
  refine (Routine.images_held held).bind fun key key' same => ?_
  subst same
  exact Routine.Images.orFail (Routine.images_perform (.kemDecapsulate key ciphertext))

end Kem

section Records

omit [Cell α] [Cell β]

theorem copies_validatePeerRecord (version : UInt32) : Copies place erase (fun _ _ => True)
    (validatePeerRecord version : Method α κ Unit) (validatePeerRecord version) := by
  refine copies_get fun object bootSeed => (Routine.images_guard Iff.rfl).andThen fun _ _ => ?_
  refine Routine.Images.ite Iff.rfl ?_ (Routine.images_pure trivial)
  refine (Routine.images_perform .time).bind fun (now now' : Int) same => ?_
  subst same
  exact (Routine.images_guard Iff.rfl).any

theorem copies_obtainPeerPath (version q : UInt32) {carried : PathCells α}
    {carried' : PathCells β} (same : carried' = carried.map place) :
    Copies place erase (fun a a' => a' = List.Vector.map place a)
      (obtainPeerPath version q carried : Method α κ _) (obtainPeerPath version q carried') := by
  refine copies_get fun object bootSeed => ?_
  dsimp only [marked]
  cases object.config.pathMode with
  | signerCarried => exact Routine.images_pure same
  | repositoryAssisted =>
      refine Routine.Images.bind (Routine.Images.orFail
        (Routine.images_perform (.fetchPeerPath version q))) ?_
      rintro ⟨path, operation⟩ _ rfl
      exact Copies.after (Routine.images_pure rfl) (fun _ => rfl) fun _ _ => rfl

theorem copies_attachPath (q : UInt32) :
    Copies place erase (fun a a' => a' = a.map (List.Vector.map place))
      (attachPath q : Method α κ _) (attachPath q) := by
  refine copies_get fun object bootSeed => ?_
  dsimp only [marked]
  cases object.config.pathMode with
  | repositoryAssisted => exact Routine.images_pure rfl
  | signerCarried =>
      refine Routine.Images.bind (Routine.Images.orFail
        (Routine.images_perform (.extractPath q))) ?_
      rintro path _ rfl
      exact Routine.images_pure rfl

theorem copies_timedVerify (q : UInt32) {signature : SignatureCells α}
    {signature' : SignatureCells β} (sameSignature : signature' = signature.map place)
    {path : PathCells α} {path' : PathCells β} (samePath : path' = path.map place) :
    Copies place erase (fun _ _ => True) (timedVerify q signature path : Method α κ Unit)
      (timedVerify q signature' path') := by
  subst sameSignature samePath
  refine copies_get fun object bootSeed => Routine.Images.check (copies_timed _ ?_)
  rw [show (object.marked place bootSeed).signInput.toList = object.signInput.toList.map place from
    List.Vector.toList_map _ _]
  exact Routine.images_perform (.verify q _ signature _ path _)

theorem copies_reserveQ : Copies place erase (fun a a' => a = a') (reserveQ : Method α κ UInt32)
    (reserveQ : Method β κ UInt32) := by
  refine copies_get fun object bootSeed => ?_
  refine (Routine.images_perform (.getUInt object.config.firstQ)).bind
    fun (nextQ nextQ' : UInt32) same => ?_
  subst same
  refine (Routine.images_guard Iff.rfl).andThen fun _ _ => ?_
  refine (Routine.images_perform (.putUInt (nextQ + 1))).bind fun (stored stored' : Nat) same => ?_
  subst same
  exact (Routine.images_guard Iff.rfl).andThen fun _ _ => Routine.images_pure rfl

end Records

section Keys

variable (hom : CellMap place)

include hom

theorem copies_timedRuntimeSeed : Copies place erase (fun a a' => a = List.Vector.map erase a')
    (timedRuntimeSeed : Method α κ _) timedRuntimeSeed := by
  refine copies_get fun object bootSeed => Routine.Images.bind (copies_timed _
    (Routine.Images.orFail (Routine.images_perform .reconstruct))) ?_
  rintro pufRoot _ rfl
  refine copies_timed _ ?_
  rw [List.Vector.toList_map, ← map_lmsSeedInfo hom]
  exact Routine.Images.orFail (Routine.images_perform (.deriveSeed _ [] _))

theorem copies_deriveSessionKeys {sharedSecret transcriptHash : Hash α}
    {sharedSecret' transcriptHash' : Hash β} (sameSecret : sharedSecret' = sharedSecret.map place)
    (same : transcriptHash' = transcriptHash.map place) :
    Copies place erase (fun a a' => a' = (⟨a.sessionKey.map place, a.confirmA.map place,
        a.confirmB.map place⟩ : SessionKeys β))
      (deriveSessionKeys sharedSecret transcriptHash : Method α κ _)
      (deriveSessionKeys sharedSecret' transcriptHash') := by
  subst sameSecret same
  rw [deriveSessionKeys, deriveSessionKeys, List.Vector.toList_map, List.Vector.toList_map,
    ← map_hashInput hom]
  refine Routine.Images.bind (copies_timed _
    (Routine.Images.orFail (Routine.images_perform (.deriveKeys _ _ _)))) ?_
  rintro material _ rfl
  exact Routine.images_pure (by simp only [map_block])

theorem copies_computeConfirmationTag (domain : UInt8) {key transcriptHash : Hash α}
    {key' transcriptHash' : Hash β} (sameKey : key' = key.map place)
    (same : transcriptHash' = transcriptHash.map place) :
    Copies place erase (fun a a' => a' = List.Vector.map place a)
      (computeConfirmationTag domain key transcriptHash : Method α κ _)
      (computeConfirmationTag domain key' transcriptHash') := by
  subst sameKey same
  exact copies_timedHmac (List.Vector.toList_map _ _) (map_hashInput hom _ _).symm

theorem copies_computeSid0 : Copies place erase (fun a a' => a' = List.Vector.map place a)
    (computeSid0 : Method α κ _) computeSid0 :=
  copies_get fun _ _ => copies_timedSha (map_sid0Input hom _ _).symm

omit hom [Cell α] [Cell β] in
theorem sentM2_marked (object : ProposedUavProtocol α κ) (bootSeed : Hash β) :
    (object.marked place bootSeed).sentM2 = object.sentM2.map place := by
  rw [sentM2, sentM2, map_slice, ← List.Vector.toList_map]
  rfl

omit hom [Cell α] [Cell β] in
theorem innerM3_marked (object : ProposedUavProtocol α κ) (bootSeed : Hash β) :
    (object.marked place bootSeed).innerM3 = object.innerM3.map place := by
  rw [innerM3, innerM3, map_slice, ← List.Vector.toList_map]
  rfl

theorem copies_timedTranscriptHash {sid : Hash α} {sid' : Hash β} (sameSid : sid' = sid.map place)
    (m2Length : Nat) {inner : List α} {inner' : List β} (same : inner' = inner.map place) :
    Copies place erase (fun a a' => a' = List.Vector.map place a)
      (timedTranscriptHash sid m2Length inner : Method α κ _)
      (timedTranscriptHash sid' m2Length inner') := by
  subst sameSid same
  refine copies_get fun object bootSeed => copies_timed _ ?_
  refine (Routine.images_guard (by rw [List.length_map])).andThen fun _ _ => ?_
  apply copies_sha256
  rw [map_transcriptInput hom, map_slice, ← List.Vector.toList_map]
  rfl

theorem copies_deriveView {sid sharedSecret : Hash α} {sid' sharedSecret' : Hash β}
    (sameSid : sid' = sid.map place) (sameSecret : sharedSecret' = sharedSecret.map place)
    {inner : List α} {inner' : List β} (same : inner' = inner.map place) :
    Copies place erase (fun a a' => a' = View.mapCells place a)
      (deriveView sid sharedSecret inner : Method α κ _)
      (deriveView sid' sharedSecret' inner') := by
  refine copies_get fun object bootSeed => ?_
  refine (copies_timedTranscriptHash hom sameSid _ same).bind ?_
  rintro transcriptHash _ rfl
  refine (copies_deriveSessionKeys hom sameSecret rfl).bind ?_
  rintro keys _ rfl
  apply Routine.images_pure
  rw [sentM2_marked]
  subst sameSid same
  rfl

end Keys

section Signing

variable (hom : CellMap place)

include hom

theorem copies_buildM2SignedInput {sid : Hash α} {sid' : Hash β} (sameSid : sid' = sid.map place)
    (version q : UInt32) {publicKey : KemPublicKey α} {publicKey' : KemPublicKey β}
    (same : publicKey' = publicKey.map place) :
    Copies place erase (fun _ _ => True)
      (buildM2SignedInput sid version q publicKey : Method α κ Unit)
      (buildM2SignedInput sid' version q publicKey') := by
  subst sameSid same
  refine copies_update (fun _ => rfl) fun object bootSeed => ?_
  simp only [marked, map_muA hom, map_signedInput hom]

theorem copies_buildM3SignedInput {sid hashM2 : Hash α} {sid' hashM2' : Hash β}
    (sameSid : sid' = sid.map place) (sameHash : hashM2' = hashM2.map place)
    (version q : UInt32) {ciphertext : KemCiphertext α} {ciphertext' : KemCiphertext β}
    (same : ciphertext' = ciphertext.map place) :
    Copies place erase (fun _ _ => True)
      (buildM3SignedInput sid hashM2 version q ciphertext : Method α κ Unit)
      (buildM3SignedInput sid' hashM2' version q ciphertext') := by
  subst sameSid sameHash same
  refine copies_update (fun _ => rfl) fun object bootSeed => ?_
  simp only [marked, map_muB hom, map_signedInput hom]

omit hom [Cell α] [Cell β] in
theorem copies_timedSign (q : UInt32) {runtimeSeed : Hash α} {runtimeSeed' : Hash β}
    (same : runtimeSeed = runtimeSeed'.map erase) :
    Copies place erase (fun a a' => a' = List.Vector.map place a)
      (timedSign q runtimeSeed : Method α κ _) (timedSign q runtimeSeed') := by
  subst same
  refine copies_get fun object bootSeed => copies_timed _ ?_
  rw [show (object.marked place bootSeed).signInput.toList = object.signInput.toList.map place from
    List.Vector.toList_map _ _]
  exact Routine.Images.orFail (Routine.images_perform (.sign q _ runtimeSeed'))

end Signing

section Transport

omit [Cell α] [Cell β]

theorem copies_sendProtocolMessage (destination : Transport.Endpoint) (type : UInt8)
    (session : UInt32) {data : List α} {data' : List β} (same : data' = data.map place)
    (countAsProtocol : Bool) : Copies place erase (fun _ _ => True)
      (sendProtocolMessage destination type session data countAsProtocol : Method α κ Unit)
      (sendProtocolMessage destination type session data' countAsProtocol) := by
  subst same
  refine Routine.Images.bind (Routine.Images.orFail
    (Routine.images_perform (.sendMessage destination type session data))) ?_
  rintro framedBytes _ rfl
  cases countAsProtocol with
  | true =>
      refine copies_update (fun _ => rfl) fun object bootSeed => ?_
      rw [List.length_map]
      rfl
  | false => exact copies_update (fun _ => rfl) fun object bootSeed => rfl

theorem copies_receiveProtocolMessage (expectedType : UInt8) (expectedSession : UInt32)
    (capacity expectedLength : Nat)
    (store : List α → ProposedUavProtocol α κ → ProposedUavProtocol α κ)
    (store' : List β → ProposedUavProtocol β κ → ProposedUavProtocol β κ) (countAsProtocol : Bool)
    (unchanged : ∀ cells object, (store cells object).bootSeed = object.bootSeed)
    (stores : ∀ cells object bootSeed, store' (cells.map place) (object.marked place bootSeed) =
      (store cells object).marked place bootSeed) :
    Copies place erase (fun a a' => a = a')
      (receiveProtocolMessage expectedType expectedSession capacity expectedLength store
        countAsProtocol)
      (receiveProtocolMessage expectedType expectedSession capacity expectedLength store'
        countAsProtocol) := by
  refine (Routine.images_perform (.receiveMessage expectedType expectedSession capacity
    receiveTimeoutMs)).bind ?_
  rintro ⟨received, cells⟩ _ rfl
  refine Copies.after ?_ (unchanged cells) (stores cells)
  refine (Routine.images_held (optionRel_self received)).bind ?_
  rintro packet _ rfl
  refine (Routine.images_guard Iff.rfl).andThen fun _ _ => ?_
  cases countAsProtocol with
  | true => exact Copies.after (Routine.images_pure rfl) (fun _ => rfl) fun _ _ => rfl
  | false => exact Copies.after (Routine.images_pure rfl) (fun _ => rfl) fun _ _ => rfl

end Transport

end Puav.ProposedUavProtocol
