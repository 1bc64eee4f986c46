import PostQuantumUav.Library.Bytes.CellMap
import PostQuantumUav.Library.Interaction.Images
import PostQuantumUav.Puav.Lms.Signing

/-!
# The LMS object on marked cells

The methods of the LMS object never look at a cell beyond the byte that it reads as. On
cells that carry marks they make the same calls as on the cells without them, and they leave
the same object, up to the marks: they are images of each other under the map that takes the
marks off.

The hash of marked cells is the hash of what they read as, and a digest has no marks. So what
the methods do on bytes, with a hash of bytes, is done on marked cells as well.
-/

namespace Puav.LmsMember

open Interaction Cell Buffer

variable {α β : Type} [Cell α] [Cell β]

section Strings

variable {f : α → β} (hom : CellMap f) (identifier : Identifier)

include hom

theorem map_privateInput (seed : Hash α) (q chainIndex : Nat) :
    (privateInput identifier seed q chainIndex).map f =
      privateInput identifier (seed.map f) q chainIndex := by
  simp only [privateInput, List.map_append, List.map_cons, List.map_nil, hom.map_ofBytes,
    hom.map_putU32, hom.map_putU16, hom.ofByte, List.Vector.toList_map]

theorem map_chainInput (q chainIndex j : Nat) (current : Hash α) :
    (chainInput identifier q chainIndex j current).map f =
      chainInput identifier q chainIndex j (current.map f) := by
  simp only [chainInput, List.map_append, List.map_cons, List.map_nil, hom.map_ofBytes,
    hom.map_putU32, hom.map_putU16, hom.ofByte, List.Vector.toList_map]

theorem map_messageInput (q : Nat) (C : Hash α) (message : List α) :
    (messageInput identifier q C message).map f =
      messageInput identifier q (C.map f) (message.map f) := by
  simp only [messageInput, List.map_append, hom.map_ofBytes, hom.map_putU32, hom.map_putU16,
    List.Vector.toList_map]

theorem map_leafInput (node : Nat) (value : Hash α) :
    (leafInput identifier node value).map f = leafInput identifier node (value.map f) := by
  simp only [leafInput, List.map_append, hom.map_ofBytes, hom.map_putU32, hom.map_putU16,
    List.Vector.toList_map]

theorem map_internalInput (node : Nat) (left right : Hash α) :
    (internalInput identifier node left right).map f =
      internalInput identifier node (left.map f) (right.map f) := by
  simp only [internalInput, List.map_append, hom.map_ofBytes, hom.map_putU32, hom.map_putU16,
    List.Vector.toList_map]

theorem map_withChecksum (digest : Hash α) :
    (withChecksum digest).map f = withChecksum (digest.map f) := by
  simp only [withChecksum, List.map_append, hom.map_putU16, List.Vector.toList_map, hom.map_toByte]

theorem coefficientW4_map (data : List α) (index : Nat) :
    coefficientW4 (data.map f) index = coefficientW4 data index := by
  simp only [coefficientW4, hom.map_toByte]

end Strings

/-- The object with every cell mapped. -/
def mapCells (f : α → β) (lms : LmsMember α) : LmsMember β where
  identifier := lms.identifier
  seed := lms.seed.map f
  tree := lms.tree.map fun tree node => (tree node).map f
  smallHashInput := lms.smallHashInput.map f
  publicHashInput := lms.publicHashInput.map f

theorem mapCells_constructed {f : α → β} (hom : CellMap f) :
    (constructed : LmsMember α).mapCells f = constructed := by
  simp only [mapCells, constructed, hom.map_replicate, Option.map_none]

/-- The same calls with and without marks. -/
inductive Imaging (erase : β → α) : Interaction.Imaging (calls α) (calls β)
  | malloc : Imaging erase .malloc .malloc fun (a a' : Bool) => a = a'
  | sha256 (data : List β) : Imaging erase (.sha256 (data.map erase)) (.sha256 data)
      (Option.Rel fun a a' => a = List.Vector.map erase a')
  | fillRandom : Imaging erase .fillRandom .fillRandom fun a a' => a = List.Vector.map erase a'

section Methods

variable {erase : β → α} (hom : CellMap erase)

/-- Images whose objects and results are the same without the marks. -/
abbrev Images {γ γ' : Type} (erase : β → α) (results : γ → γ' → Prop) (r : Method α γ)
    (r' : Method β γ') : Prop :=
  Routine.Images (Imaging erase) (fun lms lms' => lms = lms'.mapCells erase) results r r'

omit [Cell α] [Cell β] in
theorem images_sha256 {data : List α} {data' : List β} (same : data = data'.map erase) :
    Images erase (fun a a' => a = List.Vector.map erase a') (sha256 data) (sha256 data') := by
  subst same
  refine (Routine.images_modify fun lms lms' like => ?_).andThen fun _ _ =>
    (Routine.images_perform (.sha256 data')).orFail
  subst like
  exact congrArg (fun buffer => { lms'.mapCells erase with smallHashInput := buffer })
    (map_overwrite erase _ _).symm

include hom

theorem images_derivePrivateElement (identifier : Identifier) {seed : Hash α} {seed' : Hash β}
    (same : seed = seed'.map erase) (q chainIndex : Nat) :
    Images erase (fun a a' => a = List.Vector.map erase a')
      (derivePrivateElement identifier seed q chainIndex)
      (derivePrivateElement identifier seed' q chainIndex) :=
  images_sha256 (by rw [map_privateInput hom, same])

theorem images_chainHash (identifier : Identifier) (q chainIndex startStep endStep : Nat)
    {input : Hash α} {input' : Hash β} (same : input = input'.map erase) :
    Images erase (fun a a' => a = List.Vector.map erase a')
      (chainHash identifier q chainIndex startStep endStep input)
      (chainHash identifier q chainIndex startStep endStep input') :=
  Routine.Images.foldlM _ (fun _ _ _ same => images_sha256 (by rw [map_chainInput hom, same])) same

theorem images_hashMessageWithChecksum (identifier : Identifier) (q : Nat) {C : Hash α}
    {C' : Hash β} (drawn : C = C'.map erase) {message : List α} {message' : List β}
    (same : message = message'.map erase) (scratchLength : Nat) :
    Images erase (fun a a' => a = List.map erase a')
      (hashMessageWithChecksum identifier q C message scratchLength)
      (hashMessageWithChecksum identifier q C' message' scratchLength) := by
  have fits : (¬ 16 + 4 + 2 + hashBytes + message.length > scratchLength) ↔
      ¬ 16 + 4 + 2 + hashBytes + message'.length > scratchLength := by
    rw [same, List.length_map]
  refine (Routine.images_guard fits).andThen fun _ _ => ?_
  refine (images_sha256 (by rw [map_messageInput hom, drawn, same])).bind ?_
  intro digest digest' same
  exact Routine.images_pure (by rw [map_withChecksum hom, same])

section Tree

theorem images_initializeWith (identifier : Identifier) {seed : Hash α} {seed' : Hash β}
    (same : seed = seed'.map erase) :
    Images erase (fun _ _ => True) (initializeWith identifier seed)
      (initializeWith identifier seed') := by
  have emptied : Images erase (fun _ _ => True)
      (modify fun lms => { lms with tree := some fun _ => zeroHash })
      (modify fun lms => { lms with tree := some fun _ => zeroHash }) := by
    apply Routine.images_modify
    rintro lms lms' rfl
    simp only [mapCells, Option.map_some, hom.map_replicate]
  refine (Routine.images_modify ?_).andThen fun _ _ => Routine.Images.get ?_
  · rintro lms lms' rfl
    subst same
    rfl
  rintro lms lms' rfl
  refine Routine.Images.ite (by simp only [mapCells, Option.isNone_map]) ?_ emptied
  exact (Routine.images_perform Imaging.malloc).check.andThen fun _ _ => emptied

theorem images_lmotsPublicHash (identifier : Identifier) {seed : Hash α} {seed' : Hash β}
    (same : seed = seed'.map erase) (q : Nat) :
    Images erase (fun a a' => a = List.Vector.map erase a') (lmotsPublicHash identifier seed q)
      (lmotsPublicHash identifier seed' q) := by
  have written : ∀ (offset : Nat) (data : List α) (data' : List β), data = data'.map erase →
      Images erase (fun _ _ => True)
        (modify fun lms => { lms with publicHashInput := writeAt lms.publicHashInput offset data })
        (modify fun lms => { lms with
          publicHashInput := writeAt lms.publicHashInput offset data' }) := by
    rintro offset data data' rfl
    apply Routine.images_modify
    rintro lms lms' rfl
    exact congrArg (fun buffer => { lms'.mapCells erase with publicHashInput := buffer })
      (map_writeAt erase _ _ _).symm
  refine Routine.Images.andThen (written 0 _ _ ?_) fun _ _ => ?_
  · simp only [List.map_append, hom.map_ofBytes, hom.map_putU32, hom.map_putU16]
  refine Routine.Images.andThen (Routine.Images.forM _ fun i => ?_) fun _ _ => ?_
  · refine (images_derivePrivateElement hom identifier same q i).bind fun x x' same => ?_
    refine (images_chainHash hom identifier q i 0 LmotsLms.maxChain same).bind ?_
    intro chainEnd chainEnd' same
    exact written _ _ _ (by rw [same, List.Vector.toList_map])
  apply Routine.Images.get
  rintro lms lms' rfl
  rw [mapCells, List.Vector.toList_map]
  exact (Routine.images_perform (.sha256 _)).orFail

omit hom [Cell α] [Cell β] in
theorem images_setNode (node : Nat) {value : Hash α} {value' : Hash β}
    (same : value = value'.map erase) :
    Images erase (fun _ _ => True) (setNode node value) (setNode node value') := by
  apply Routine.images_modify
  rintro lms lms' rfl
  subst same
  have updated : ∀ tree : Nat → Hash β, Function.update (fun n => (tree n).map erase) node
      (value'.map erase) = fun n => (Function.update tree node value' n).map erase := by
    intro tree
    funext n
    by_cases h : n = node
    · rw [h, Function.update_self, Function.update_self]
    · rw [Function.update_of_ne h, Function.update_of_ne h]
  simp only [mapCells, Option.map_map, Function.comp_def, updated]

theorem images_buildLeaf (q : Nat) :
    Images erase (fun _ _ => True) (buildLeaf q : Method α Unit) (buildLeaf q) := by
  apply Routine.Images.get
  rintro lms lms' rfl
  refine (images_lmotsPublicHash hom lms'.identifier rfl q).bind fun value value' same => ?_
  refine (images_sha256 (by rw [map_leafInput hom, same]; rfl)).bind fun leaf leaf' same => ?_
  exact images_setNode _ same

theorem images_eraseSeed :
    Images erase (fun _ _ => True) (eraseSeed : Method α Unit) eraseSeed := by
  apply Routine.images_modify
  rintro lms lms' rfl
  simp only [mapCells, hom.map_replicate]

theorem images_buildNode {tree : Nat → Hash α} {tree' : Nat → Hash β}
    (same : tree = fun n => (tree' n).map erase) (node : Nat) :
    Images erase (fun a a' => a = fun n => List.Vector.map erase (a' n)) (buildNode tree node)
      (buildNode tree' node) := by
  apply Routine.Images.get
  rintro lms lms' rfl
  refine ((images_sha256 (by rw [map_internalInput hom, same]; rfl)).attempt).bind ?_
  intro parent parent' related
  cases related with
  | none => exact (images_eraseSeed hom).andThen fun _ _ => Routine.images_failure
  | @some value value' isErased =>
      refine (images_setNode node isErased).andThen fun _ _ => Routine.images_pure ?_
      subst isErased same
      funext n
      by_cases h : n = node
      · rw [h, Function.update_self, Function.update_self]
      · rw [Function.update_of_ne h, Function.update_of_ne h]

theorem images_buildTree :
    Images erase (fun _ _ => True) (buildTree : Method α Unit) buildTree := by
  rw [buildTree, buildTree]
  generalize List.range lmsLeaves = leaves
  generalize (List.range' 1 (lmsLeaves - 1)).reverse = nodes
  apply Routine.Images.get
  rintro lms lms' rfl
  refine (Routine.images_guard (by rw [mapCells, Option.isSome_map])).andThen fun _ _ => ?_
  refine (Routine.Images.forM leaves fun q => images_buildLeaf hom q).andThen fun _ _ => ?_
  apply Routine.Images.get
  rintro lms lms' rfl
  cases held : lms'.tree with
  | none =>
      simp only [mapCells, held, Option.map_none]
      exact Routine.images_failure
  | some tree =>
      simp only [mapCells, held, Option.map_some]
      refine Routine.Images.andThen (Routine.Images.foldlM nodes (fun _ _ node same =>
        images_buildNode hom same node) rfl) fun _ _ => images_eraseSeed hom

end Tree

theorem images_sign (q : UInt32) {message : List α} {message' : List β}
    (same : message = message'.map erase) {seed : Hash α} {seed' : Hash β}
    (sameSeed : seed = seed'.map erase) :
    Images erase (fun a a' => a = List.Vector.map erase a') (sign q message seed)
      (sign q message' seed') := by
  refine (Routine.images_guard Iff.rfl).andThen fun _ _ => Routine.Images.get ?_
  rintro lms lms' rfl
  refine (Routine.images_perform .fillRandom).bind fun (C : Hash α) (C' : Hash β) drawn => ?_
  refine (images_hashMessageWithChecksum hom lms'.identifier q.toNat drawn same _).bind ?_
  intro data data' same
  refine Routine.Images.foldlM _ (fun signature signature' i like => ?_) ?_
  · refine (images_derivePrivateElement hom lms'.identifier sameSeed q.toNat i).bind ?_
    intro x x' same'
    rw [same, coefficientW4_map hom]
    refine (images_chainHash hom lms'.identifier q.toNat i 0 _ same').bind fun y y' same => ?_
    exact Routine.images_pure (by rw [map_writeAt, like, same, List.Vector.toList_map])
  · rw [map_overwrite, hom.map_replicate, List.map_append, hom.map_putU32, drawn,
      List.Vector.toList_map]

end Methods

section Worlds

variable {sha : Bytes → Digest}

/-- The hash of what cells read as; a digest has no marks. -/
def unmarkedHash (sha : Bytes → Digest) (data : List β) : Hash β :=
  cellsOf (sha (data.map toByte))

theorem toByte_cellsOf {length : Nat} (bytes : List.Vector UInt8 length) :
    (cellsOf bytes : List.Vector β length).map toByte = bytes := by
  apply List.Vector.toList_injective
  rw [List.Vector.toList_map, toList_cellsOf, ofBytes, List.map_map]
  exact List.map_id'' toByte_ofByte _

theorem toByte_unmarkedHash (data : List β) :
    (unmarkedHash sha data).map toByte = sha (data.map toByte) := toByte_cellsOf _

/-- Recorded digests as cells. -/
def digestCells (digests : List (Option Digest)) : List (Option (Hash β)) :=
  digests.map (Option.map cellsOf)

/-- Marked cells can be hashed as their bytes are. -/
theorem answered_image {s t : List Bool} {c : Call UInt8} {a : (calls UInt8).Answer c}
    (step : Answered sha s ⟨c, a⟩ t) {c' : Call β}
    {answers : (calls UInt8).Answer c → (calls β).Answer c' → Prop}
    (corresponds : Imaging toByte c c' answers) :
    ∃ a', answers a a' ∧ Answered (unmarkedHash sha) s ⟨c', a'⟩ t := by
  cases corresponds with
  | malloc => exact ⟨a, rfl, step⟩
  | fillRandom => exact ⟨cellsOf a, (toByte_cellsOf _).symm, step⟩
  | sha256 data =>
      obtain ⟨rfl | rfl, recorded⟩ := step
      · exact ⟨none, .none, .inl rfl, recorded⟩
      · exact ⟨some (unmarkedHash sha data), .some (toByte_unmarkedHash data).symm, .inr rfl,
          recorded⟩

theorem hashes_image {kind : β → Prop} (bytes : ∀ b : UInt8, kind (ofByte b))
    {s t : List (Option Digest)} {c : Call UInt8} {a : (calls UInt8).Answer c}
    (step : Hashes sha (fun _ => True) s ⟨c, a⟩ t) {c' : Call β}
    {answers : (calls UInt8).Answer c → (calls β).Answer c' → Prop}
    (corresponds : Imaging toByte c c' answers) :
    ∃ a', answers a a' ∧ Hashes (unmarkedHash sha) kind (digestCells s) ⟨c', a'⟩
      (digestCells t) := by
  cases corresponds with
  | malloc => exact ⟨a, rfl, congrArg digestCells step⟩
  | fillRandom =>
      change Hash UInt8 at a
      have drawn : Within kind (cellsOf a : Hash β).toList := by
        rw [toList_cellsOf]
        exact within_ofBytes bytes _
      exact ⟨cellsOf a, (toByte_cellsOf _).symm, drawn, congrArg digestCells step.2⟩
  | sha256 data =>
      obtain ⟨rfl | rfl, rfl⟩ := step
      · exact ⟨none, .none, .inl rfl, List.map_append⟩
      · exact ⟨some (unmarkedHash sha data), .some (toByte_unmarkedHash data).symm, .inr rfl,
          List.map_append⟩

/-- A run on bytes is a run on marked cells. -/
theorem Images.answered {γ γ' : Type} {results : γ → γ' → Prop} {r : Method UInt8 γ}
    {r' : Method β γ'} (images : Images toByte results r r') {lms lms' : LmsMember UInt8}
    {marked : LmsMember β} (same : lms = marked.mapCells toByte) {result : Option γ}
    {s t : List Bool} (run : Routine.Run (Answered sha) r lms s result lms' t) :
    ∃ result' marked', Routine.Run (Answered (unmarkedHash sha)) r' marked s result' marked' t ∧
      Option.Rel results result result' ∧ lms' = marked'.mapCells toByte := by
  have step : ∀ s c a t, Answered sha s ⟨c, a⟩ t → ∀ s' (c' : Call β) answers,
      s' = s → Imaging toByte c c' answers → ∃ a' t', answers a a' ∧
        Answered (unmarkedHash sha) s' ⟨c', a'⟩ t' ∧ t' = t := by
    rintro s c a t step _ c' answers rfl corresponds
    obtain ⟨a', both, step'⟩ := answered_image step corresponds
    exact ⟨a', _, both, step', rfl⟩
  obtain ⟨result', marked', _, run', related, same, rfl⟩ :=
    Routine.Images.run (fun s s' => s' = s) step images run same _ rfl
  exact ⟨result', marked', run', related, same⟩

theorem Images.hashes {kind : β → Prop} (bytes : ∀ b : UInt8, kind (ofByte b)) {γ γ' : Type}
    {results : γ → γ' → Prop} {r : Method UInt8 γ} {r' : Method β γ'}
    (images : Images toByte results r r') {lms lms' : LmsMember UInt8} {marked : LmsMember β}
    (same : lms = marked.mapCells toByte) {result : Option γ} {s t : List (Option Digest)}
    (run : Routine.Run (Hashes sha fun _ => True) r lms s result lms' t) :
    ∃ result' marked', Routine.Run (Hashes (unmarkedHash sha) kind) r' marked
      (digestCells s) result' marked' (digestCells t) ∧
      Option.Rel results result result' ∧ lms' = marked'.mapCells toByte := by
  have step : ∀ s c a t, Hashes sha (fun _ => True) s ⟨c, a⟩ t →
      ∀ s' (c' : Call β) answers, s' = digestCells s →
        Imaging toByte c c' answers → ∃ a' t', answers a a' ∧
          Hashes (unmarkedHash sha) kind s' ⟨c', a'⟩ t' ∧ t' = digestCells t := by
    rintro s c a t step _ c' answers rfl corresponds
    obtain ⟨a', both, step'⟩ := hashes_image bytes step corresponds
    exact ⟨a', _, both, step', rfl⟩
  obtain ⟨result', marked', _, run', related, same, rfl⟩ :=
    Routine.Images.run (fun s s' => s' = digestCells s) step images run same _ rfl
  exact ⟨result', marked', run', related, same⟩

end Worlds

end Puav.LmsMember
