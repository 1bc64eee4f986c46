import PostQuantumUav.Library.Bytes.CellMap
import PostQuantumUav.Library.Interaction.Images
import PostQuantumUav.Puav.Boot

/-!
# The calls of the protocol on marked cells

Bytes can be placed among cells of which others carry marks. The messages and the calls of the
protocol object then correspond: the same bytes, placed among the cells.

Only the seed of the one-time keys may be marked. It is derived, kept in `m_bootSeed` while
the tree is built, and handed to the LMS object; it is followed up to its marks, and
everything else exactly.
-/

namespace Puav

open Interaction Cell Buffer

variable {α β κ : Type} [Cell α] [Cell β]

/-- Cells placed among cells that may carry marks, and the marks taken off again. -/
structure Marking (place : α → β) (erase : β → α) : Prop where
  placed : CellMap place
  erased : CellMap erase
  left : ∀ x, erase (place x) = x

omit [Cell α] [Cell β] in
theorem map_eq_iff {f : α → β} (injective : Function.Injective f) {size : Nat}
    {v w : List.Vector α size} : v.map f = w.map f ↔ v = w := by
  refine ⟨fun same => List.Vector.toList_injective ?_, fun same => same ▸ rfl⟩
  have lists := congrArg List.Vector.toList same
  rw [List.Vector.toList_map, List.Vector.toList_map] at lists
  exact List.map_injective_iff.mpr injective lists

theorem Marking.injective {place : α → β} {erase : β → α} (marking : Marking place erase) :
    Function.Injective place :=
  Function.LeftInverse.injective marking.left

section Messages

variable {f : α → β} (hom : CellMap f)

include hom

theorem map_cellsOf {length : Nat} (bytes : List.Vector UInt8 length) :
    (cellsOf bytes : List.Vector α length).map f = cellsOf bytes :=
  vector_map_eq f (by simp only [toList_cellsOf, hom.map_ofBytes])

theorem map_m0Message (config : NodeConfig) (nonceA : Nonce α) :
    (m0Message config nonceA).map f = m0Message config (nonceA.map f) :=
  vector_map_eq f (by
    simp only [m0Message, List.Vector.toList_mk, List.map_append, List.map_cons, List.map_nil,
      hom.map_ofBytes, hom.map_putU32, hom.ofByte, List.Vector.toList_map])

theorem map_m1Message (config : NodeConfig) (nonceA nonceB : Nonce α) :
    (m1Message config nonceA nonceB).map f = m1Message config (nonceA.map f) (nonceB.map f) :=
  vector_map_eq f (by
    simp only [m1Message, List.Vector.toList_mk, List.map_append, List.map_cons, List.map_nil,
      hom.map_ofBytes, hom.map_putU32, hom.ofByte, List.Vector.toList_map])

theorem map_sid0Input (m0 : List.Vector α m0Bytes) (m1 : List.Vector α m1Bytes) :
    (sid0Input m0 m1).map f = sid0Input (m0.map f) (m1.map f) := by
  simp only [sid0Input, List.map_append, List.map_cons, List.map_nil, hom.map_putU16, hom.ofByte,
    List.Vector.toList_map]

theorem map_muA (sid : Hash α) (idA idB : Identity) (version : UInt32)
    (publicKey : KemPublicKey α) :
    (muA sid idA idB version publicKey).map f =
      muA (sid.map f) idA idB version (publicKey.map f) :=
  vector_map_eq f (by
    simp only [muA, List.Vector.toList_mk, List.map_append, List.map_cons, List.map_nil,
      hom.map_ofBytes, hom.map_putU32, hom.ofByte, List.Vector.toList_map])

theorem map_muB (sid hashM2 : Hash α) (idA idB : Identity) (version : UInt32)
    (ciphertext : KemCiphertext α) :
    (muB sid hashM2 idA idB version ciphertext).map f =
      muB (sid.map f) (hashM2.map f) idA idB version (ciphertext.map f) :=
  vector_map_eq f (by
    simp only [muB, List.Vector.toList_mk, List.map_append, List.map_cons, List.map_nil,
      hom.map_ofBytes, hom.map_putU32, hom.ofByte, List.Vector.toList_map])

theorem map_signedInput (mu : List.Vector α muABytes) (q : UInt32) :
    (signedInput mu q).map f = signedInput (mu.map f) q :=
  vector_map_eq f (by
    simp only [signedInput, List.Vector.toList_mk, List.map_append, List.map_cons, List.map_nil,
      hom.map_putU16, hom.map_putU32, hom.ofByte, List.Vector.toList_map])

theorem map_transcriptInput (sid : Hash α) (m0 : List.Vector α m0Bytes)
    (m1 : List.Vector α m1Bytes) (m2 inner : List α) :
    (transcriptInput sid m0 m1 m2 inner).map f =
      transcriptInput (sid.map f) (m0.map f) (m1.map f) (m2.map f) (inner.map f) := by
  simp only [transcriptInput, List.map_append, List.map_cons, List.map_nil, hom.map_putU16,
    hom.ofByte, List.Vector.toList_map, List.length_map]

theorem map_hashInput (domain : UInt8) (transcriptHash : Hash α) :
    (hashInput domain transcriptHash).map f = hashInput domain (transcriptHash.map f) := by
  simp only [hashInput, List.map_append, List.map_cons, List.map_nil, hom.map_putU16, hom.ofByte,
    List.Vector.toList_map]

theorem map_lmsSeedInfo (deviceId : Identity) (version : UInt32) (identifier : Identifier) :
    (lmsSeedInfo deviceId version identifier : List α).map f =
      lmsSeedInfo deviceId version identifier := by
  simp only [lmsSeedInfo, List.map_append, hom.map_ofBytes, hom.map_putU32]

omit hom [Cell α] [Cell β] in
theorem map_carriedPath (path : Option (PathCells α)) :
    (carriedPath path).map f = carriedPath (path.map (List.Vector.map f)) := by
  cases path with
  | none => rfl
  | some path => exact (List.Vector.toList_map _ _).symm

theorem map_signedHeader (type : UInt8) (sid : Hash α) (version q : UInt32) :
    (signedHeader type sid version q).map f = signedHeader type (sid.map f) version q := by
  simp only [signedHeader, List.map_append, List.map_cons, List.map_nil, hom.map_putU32,
    hom.ofByte, List.Vector.toList_map]

theorem map_m2Message (sid : Hash α) (version q : UInt32) (publicKey : KemPublicKey α)
    (signature : SignatureCells α) (path : Option (PathCells α)) :
    (m2Message sid version q publicKey signature path).map f =
      m2Message (sid.map f) version q (publicKey.map f) (signature.map f)
        (path.map (List.Vector.map f)) := by
  simp only [m2Message, List.map_append, map_signedHeader hom, map_carriedPath,
    List.Vector.toList_map]

theorem map_m3Inner (sid : Hash α) (version q : UInt32) (ciphertext : KemCiphertext α)
    (signature : SignatureCells α) (path : Option (PathCells α)) :
    (m3Inner sid version q ciphertext signature path).map f =
      m3Inner (sid.map f) version q (ciphertext.map f) (signature.map f)
        (path.map (List.Vector.map f)) := by
  simp only [m3Inner, List.map_append, map_signedHeader hom, map_carriedPath,
    List.Vector.toList_map]

theorem map_m3Message (sid : Hash α) (inner : List α) (tauB : Hash α) :
    (m3Message sid inner tauB).map f = m3Message (sid.map f) (inner.map f) (tauB.map f) := by
  simp only [m3Message, List.map_append, List.map_cons, List.map_nil, hom.map_putU16, hom.ofByte,
    List.Vector.toList_map, List.length_map]

theorem map_m4Message (sid tauA : Hash α) :
    (m4Message sid tauA).map f = m4Message (sid.map f) (tauA.map f) :=
  vector_map_eq f (by
    simp only [m4Message, List.Vector.toList_mk, List.map_append, List.map_cons, List.map_nil,
      hom.ofByte, List.Vector.toList_map])

section Validity

variable (injective : Function.Injective f) [DecidableEq α] [DecidableEq β] (config : NodeConfig)

include injective

omit [DecidableEq α] [DecidableEq β]

theorem validM0_map (m0 : List.Vector α m0Bytes) (nonceA : Nonce α) :
    ValidM0 config m0 nonceA ↔ ValidM0 config (m0.map f) (nonceA.map f) := by
  simp only [ValidM0, List.Vector.toList_map, hom.readByte_map, ← map_block, ← map_slice,
    hom.getU32_map, ← map_cellsOf hom, map_eq_iff injective]

theorem validM1_map (m1 : List.Vector α m1Bytes) (nonceA : Nonce α) :
    ValidM1 config m1 nonceA ↔ ValidM1 config (m1.map f) (nonceA.map f) := by
  simp only [ValidM1, List.Vector.toList_map, hom.readByte_map, ← map_block, ← map_slice,
    hom.getU32_map, ← map_cellsOf hom, map_eq_iff injective]

end Validity

end Messages

/-- A view with every cell mapped. -/
def View.mapCells (f : α → β) (view : View α) : View β where
  m0 := view.m0.map f
  m1 := view.m1.map f
  m2 := view.m2.map f
  inner := view.inner.map f
  sid := view.sid.map f
  transcriptHash := view.transcriptHash.map f
  sessionKey := view.sessionKey.map f
  confirmA := view.confirmA.map f
  confirmB := view.confirmB.map f

namespace ProposedUavProtocol

/-- The object with its cells placed among cells with marks; the seed is given. -/
def marked (place : α → β) (bootSeed : Hash β) (object : ProposedUavProtocol α κ) :
    ProposedUavProtocol β κ where
  config := object.config
  peerRecord := object.peerRecord
  ready := object.ready
  bootSeed := bootSeed
  kemInitialized := object.kemInitialized
  kemKey := object.kemKey
  m0 := object.m0.map place
  m1 := object.m1.map place
  m2 := object.m2.map place
  m3 := object.m3.map place
  m4 := object.m4.map place
  mu := object.mu.map place
  signInput := object.signInput.map place
  result := object.result.map place
  metrics := object.metrics

/-- The marked object has the same bytes, and marks at most in the seed. -/
def Like (place : α → β) (erase : β → α) (object : ProposedUavProtocol α κ)
    (object' : ProposedUavProtocol β κ) : Prop :=
  ∃ bootSeed, object.bootSeed = bootSeed.map erase ∧ object' = object.marked place bootSeed

/-- The same calls on cells with marks. -/
inductive Imaging (place : α → β) (erase : β → α) :
    Interaction.Imaging (calls α κ) (calls β κ)
  | espTimer : Imaging place erase .espTimer .espTimer fun (a a' : UInt64) => a = a'
  | espRandom : Imaging place erase .espRandom .espRandom fun (a a' : UInt32) => a = a'
  | fillNonce : Imaging place erase .fillNonce .fillNonce
      fun a a' => a' = List.Vector.map place a
  | time : Imaging place erase .time .time fun (a a' : Int) => a = a'
  | getFreeHeap : Imaging place erase .getFreeHeap .getFreeHeap fun (a a' : UInt32) => a = a'
  | getMinFreeHeap : Imaging place erase .getMinFreeHeap .getMinFreeHeap
      fun (a a' : UInt32) => a = a'
  | sendMessage (destination : Transport.Endpoint) (type : UInt8) (session : UInt32)
      (data : List α) : Imaging place erase (.sendMessage destination type session data)
        (.sendMessage destination type session (data.map place))
        (Option.Rel fun (a a' : UInt32) => a = a')
  | receiveMessage (type : UInt8) (session : UInt32) (outputCapacity : Nat) (timeoutMs : UInt32) :
      Imaging place erase (.receiveMessage type session outputCapacity timeoutMs)
        (.receiveMessage type session outputCapacity timeoutMs)
        fun (a : Option Transport.Received × List α) a' => a' = (a.1, a.2.map place)
  | sha256 (data : List α) : Imaging place erase (.sha256 data) (.sha256 (data.map place))
      (Option.Rel fun a a' => a' = List.Vector.map place a)
  | hmacSha256 (key data : List α) : Imaging place erase (.hmacSha256 key data)
      (.hmacSha256 (key.map place) (data.map place))
      (Option.Rel fun a a' => a' = List.Vector.map place a)
  /-- Of a derived seed, only the bytes are the same. -/
  | deriveSeed (ikm salt info : List α) : Imaging place erase
      (.hkdfSha256 ikm salt info hashBytes)
      (.hkdfSha256 (ikm.map place) (salt.map place) (info.map place) hashBytes)
      (Option.Rel fun a a' => a = List.Vector.map erase a')
  | deriveKeys (ikm salt info : List α) : Imaging place erase
      (.hkdfSha256 ikm salt info sessionKeyMaterialBytes)
      (.hkdfSha256 (ikm.map place) (salt.map place) (info.map place) sessionKeyMaterialBytes)
      (Option.Rel fun a a' => a' = List.Vector.map place a)
  | reconstruct : Imaging place erase .reconstruct .reconstruct
      (Option.Rel fun a a' => a' = List.Vector.map place a)
  | kemInit : Imaging place erase .kemInit .kemInit fun (a a' : Bool) => a = a'
  | kemFree : Imaging place erase .kemFree .kemFree fun _ _ => True
  | kemMakeKey : Imaging place erase .kemMakeKey .kemMakeKey (Option.Rel fun (a a' : κ) => a = a')
  | kemEncodePublicKey (key : κ) : Imaging place erase (.kemEncodePublicKey key)
      (.kemEncodePublicKey key) (Option.Rel fun a a' => a' = List.Vector.map place a)
  | kemDecodePublicKey (publicKey : KemPublicKey α) :
      Imaging place erase (.kemDecodePublicKey publicKey)
        (.kemDecodePublicKey (publicKey.map place)) (Option.Rel fun (a a' : κ) => a = a')
  | kemEncapsulate (key : κ) : Imaging place erase (.kemEncapsulate key) (.kemEncapsulate key)
      (Option.Rel fun (a : KemCiphertext α × Hash α) a' => a' = (a.1.map place, a.2.map place))
  | kemDecapsulate (key : κ) (ciphertext : KemCiphertext α) :
      Imaging place erase (.kemDecapsulate key ciphertext)
        (.kemDecapsulate key (ciphertext.map place))
        (Option.Rel fun a a' => a' = List.Vector.map place a)
  | getUInt (default : UInt32) : Imaging place erase (.getUInt default) (.getUInt default)
      fun (a a' : UInt32) => a = a'
  | putUInt (value : UInt32) : Imaging place erase (.putUInt value) (.putUInt value)
      fun (a a' : Nat) => a = a'
  | sign (q : UInt32) (message : List α) (runtimeSeed : Hash β) : Imaging place erase
      (.sign q message (runtimeSeed.map erase)) (.sign q (message.map place) runtimeSeed)
      (Option.Rel fun a a' => a' = List.Vector.map place a)
  | extractPath (q : UInt32) : Imaging place erase (.extractPath q) (.extractPath q)
      (Option.Rel fun a a' => a' = List.Vector.map place a)
  | verify (q : UInt32) (message : List α) (signature : SignatureCells α)
      (identifier : Identifier) (path : PathCells α) (root : Digest) : Imaging place erase
      (.verify q message signature identifier path root)
      (.verify q (message.map place) (signature.map place) identifier (path.map place) root)
      fun (a a' : Bool) => a = a'
  | fetchPeerPath (version q : UInt32) : Imaging place erase (.fetchPeerPath version q)
      (.fetchPeerPath version q)
      (Option.Rel fun (a : PathCells α × RepositoryOperationMetrics) a' =>
        a' = (a.1.map place, a.2))
  | note (milestone : Milestone) (view : View α) : Imaging place erase (.note milestone view)
      (.note milestone (view.mapCells place)) fun _ _ => True
  | beginPreferences : Imaging place erase .beginPreferences .beginPreferences
      fun (a a' : Bool) => a = a'
  | initRng : Imaging place erase .initRng .initRng fun (a a' : Bool) => a = a'
  | connectWiFi : Imaging place erase .connectWiFi .connectWiFi fun (a a' : Bool) => a = a'
  | beginTransport : Imaging place erase .beginTransport .beginTransport
      fun (a a' : Bool) => a = a'
  | beginGcs : Imaging place erase .beginGcs .beginGcs fun (a a' : Bool) => a = a'
  | initializeLms (identifier : Identifier) (seed : Hash β) : Imaging place erase
      (.initializeLms identifier (seed.map erase)) (.initializeLms identifier seed)
      fun (a a' : Bool) => a = a'
  | buildTree : Imaging place erase .buildTree .buildTree fun (a a' : Bool) => a = a'
  | enrollOwnRoot (version suiteId : UInt32) (status : UInt8) (expiryUnix : UInt64) :
      Imaging place erase (.enrollOwnRoot version suiteId status expiryUnix)
        (.enrollOwnRoot version suiteId status expiryUnix) fun (a a' : Bool) => a = a'
  | enrollOwnPaths (version firstQ count : UInt32) :
      Imaging place erase (.enrollOwnPaths version firstQ count)
        (.enrollOwnPaths version firstQ count) fun (a a' : Bool) => a = a'
  | fetchPeerRoot (version : UInt32) : Imaging place erase (.fetchPeerRoot version)
      (.fetchPeerRoot version) (Option.Rel fun (a a' : PeerPublicRecord) => a = a')

/-- Routines that are images of each other on objects that are alike. -/
abbrev Copies {γ γ' : Type} (place : α → β) (erase : β → α) (results : γ → γ' → Prop)
    (r : Method α κ γ) (r' : Method β κ γ') : Prop :=
  Routine.Images (Imaging place erase) (Like place erase) results r r'

variable {place : α → β} {erase : β → α}

section Parts

omit [Cell α] [Cell β]

theorem copies_update {update : ProposedUavProtocol α κ → ProposedUavProtocol α κ}
    {update' : ProposedUavProtocol β κ → ProposedUavProtocol β κ}
    (unchanged : ∀ object, (update object).bootSeed = object.bootSeed)
    (same : ∀ object bootSeed, update' (object.marked place bootSeed) =
      (update object).marked place bootSeed) :
    Copies place erase (fun _ _ => True) (modify update) (modify update') := by
  apply Routine.images_modify
  rintro object _ ⟨bootSeed, seed, rfl⟩
  exact ⟨bootSeed, (unchanged object).trans seed, same object bootSeed⟩

/-- An update of the object, and then the rest. -/
theorem Copies.after {γ γ' : Type} {results : γ → γ' → Prop}
    {update : ProposedUavProtocol α κ → ProposedUavProtocol α κ}
    {update' : ProposedUavProtocol β κ → ProposedUavProtocol β κ} {rest : Method α κ γ}
    {rest' : Method β κ γ'} (copies : Copies place erase results rest rest')
    (unchanged : ∀ object, (update object).bootSeed = object.bootSeed)
    (same : ∀ object bootSeed, update' (object.marked place bootSeed) =
      (update object).marked place bootSeed) :
    Copies place erase results (modify update >>= fun _ => rest)
      (modify update' >>= fun _ => rest') :=
  (copies_update unchanged same).andThen fun _ _ => copies

/-- Both look at their objects, of which the second one is the first one with marks. -/
theorem copies_get {γ γ' : Type} {results : γ → γ' → Prop}
    {f : ProposedUavProtocol α κ → Method α κ γ} {f' : ProposedUavProtocol β κ → Method β κ γ'}
    (next : ∀ object bootSeed, Copies place erase results (f object)
      (f' (object.marked place bootSeed))) :
    Copies place erase results (get >>= f) (get >>= f') := by
  apply Routine.Images.get
  rintro object _ ⟨bootSeed, _, rfl⟩
  exact next object bootSeed

theorem copies_timer : Copies place erase (fun a a' => a = a')
    (espTimer : Method α κ UInt64) (espTimer : Method β κ UInt64) :=
  Routine.images_perform .espTimer

theorem copies_timed {γ γ' : Type} {results : γ → γ' → Prop} {operation : Method α κ γ}
    {operation' : Method β κ γ'} (add : UInt64 → LocalMetrics → LocalMetrics)
    (copies : Copies place erase results operation operation') :
    Copies place erase results (timed add operation) (timed add operation') := by
  refine copies_timer.bind fun start start' begun => copies.attempt.bind fun _ _ related => ?_
  refine copies_timer.bind fun now now' ended => ?_
  subst begun ended
  exact Copies.after (Routine.images_held related) (fun _ => rfl) fun _ _ => rfl

theorem copies_sha256 {data : List α} {data' : List β} (same : data' = data.map place) :
    Copies place erase (fun a a' => a' = List.Vector.map place a)
      (sha256 data : Method α κ _) (sha256 data') := by
  subst same
  exact Routine.Images.orFail (Routine.images_perform (.sha256 data))

theorem copies_timedSha {data : List α} {data' : List β} (same : data' = data.map place) :
    Copies place erase (fun a a' => a' = List.Vector.map place a)
      (timedSha data : Method α κ _) (timedSha data') :=
  copies_timed _ (copies_sha256 same)

theorem copies_timedHmac {key data : List α} {key' data' : List β} (sameKey : key' = key.map place)
    (same : data' = data.map place) :
    Copies place erase (fun a a' => a' = List.Vector.map place a)
      (timedHmac key data : Method α κ _) (timedHmac key' data') := by
  subst sameKey same
  exact copies_timed _ (Routine.Images.orFail (Routine.images_perform (.hmacSha256 key data)))

end Parts

end ProposedUavProtocol

end Puav
