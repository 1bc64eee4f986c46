import PostQuantumUav.Library.Interaction.Routine
import PostQuantumUav.Puav.ProtocolMessages

/-!
# The LMS object with its buffers

`LmotsLms` as a member of the protocol object: its fields with the two buffers in which
the inputs of its hashes are put together, and the three methods that write them. The
cells may be symbols, so that what a buffer holds can be told apart from what it could
hold by chance.

A hash input that is put together in `m_smallHashInput` overwrites the front of the
buffer, whether or not the hash succeeds; what lies behind it stays.
-/

namespace Puav

open Interaction Cell Buffer

abbrev publicHashInputBytes : Nat := 16 + 4 + 2 + LmotsLms.p * hashBytes

/-- The fields of `LmotsLms`. -/
structure LmsMember (α : Type) where
  identifier : Identifier
  seed : Hash α
  tree : Option (Nat → Hash α)
  smallHashInput : List.Vector α LmotsLms.smallHashInputBytes
  publicHashInput : List.Vector α publicHashInputBytes

namespace LmsMember

inductive Call (α : Type) where
  /-- `heap_caps_malloc` for the tree. -/
  | malloc
  | sha256 (data : List α)
  /-- `esp_fill_random` of the randomizer. -/
  | fillRandom

def calls (α : Type) : Signature where
  Call := Call α
  Answer
    | .malloc => Bool
    | .sha256 _ => Option (Hash α)
    | .fillRandom => Hash α

/-- A method of the object; one that returns false fails. -/
abbrev Method (α β : Type) := Routine (calls α) (LmsMember α) β

variable {α : Type} [Cell α]

abbrev zeroHash : Hash α := .replicate _ (ofByte 0)

/-- The constructor. -/
def constructed : LmsMember α where
  identifier := .replicate _ 0
  seed := zeroHash
  tree := none
  smallHashInput := .replicate _ (ofByte 0)
  publicHashInput := .replicate _ (ofByte 0)

omit [Cell α] in
/-- `CryptoHelpers::sha256` of a string that was put together in `m_smallHashInput`. -/
def sha256 (data : List α) : Method α (Hash α) := do
  modify fun lms => { lms with smallHashInput := overwrite lms.smallHashInput data }
  Routine.orFail (@Routine.perform (calls α) _ (.sha256 data))

section Chains

variable (identifier : Identifier)

def privateInput (seed : Hash α) (q chainIndex : Nat) : List α :=
  ofBytes identifier.toList ++ putU32 (.ofNat q) ++ putU16 (.ofNat chainIndex) ++
    [ofByte 0xff] ++ seed.toList

def derivePrivateElement (seed : Hash α) (q chainIndex : Nat) : Method α (Hash α) :=
  sha256 (privateInput identifier seed q chainIndex)

/-- The string hashed at step `j` of a chain. -/
def chainInput (q chainIndex j : Nat) (current : Hash α) : List α :=
  ofBytes identifier.toList ++ putU32 (.ofNat q) ++ putU16 (.ofNat chainIndex) ++
    [ofByte (.ofNat j)] ++ current.toList

def chainHash (q chainIndex startStep endStep : Nat) (input : Hash α) : Method α (Hash α) :=
  (List.range' startStep (endStep - startStep)).foldlM
    (fun current j => sha256 (chainInput identifier q chainIndex j current)) input

def messageInput (q : Nat) (C : Hash α) (message : List α) : List α :=
  ofBytes identifier.toList ++ putU32 (.ofNat q) ++ putU16 LmotsLms.dMesg ++ C.toList ++ message

/-- A digest with its checksum. -/
def withChecksum (digest : Hash α) : List α :=
  digest.toList ++ putU16 (LmotsLms.checksum (digest.toList.map toByte))

def hashMessageWithChecksum (q : Nat) (C : Hash α) (message : List α) (scratchLength : Nat) :
    Method α (List α) := do
  let required := 16 + 4 + 2 + hashBytes + message.length
  guard (¬ required > scratchLength)
  let digest ← sha256 (messageInput identifier q C message)
  pure (withChecksum digest)

/-- `coefficientW4`, as a number of steps. -/
def coefficientW4 (data : List α) (index : Nat) : Nat :=
  (LmotsLms.coefficientW4 (data.map toByte) index).toNat

end Chains

section Tree

/-- `LmotsLms::initialize`. -/
def initializeWith (identifierValue : Identifier) (seedValue : Hash α) : Method α Unit := do
  modify fun lms => { lms with identifier := identifierValue, seed := seedValue }
  let lms ← get
  if lms.tree.isNone then
    Routine.check (@Routine.perform (calls α) _ .malloc)
  modify fun lms => { lms with tree := some fun _ => zeroHash }

/-- `lmotsPublicHash` on the buffers of the object. -/
def lmotsPublicHash (identifier : Identifier) (seed : Hash α) (q : Nat) : Method α (Hash α) := do
  let header := ofBytes identifier.toList ++ putU32 (.ofNat q) ++ putU16 LmotsLms.dPblc
  modify fun lms => { lms with publicHashInput := overwrite lms.publicHashInput header }
  (List.range LmotsLms.p).forM fun i => do
    let x ← derivePrivateElement identifier seed q i
    let chainEnd ← chainHash identifier q i 0 LmotsLms.maxChain x
    let offset := 16 + 4 + 2 + i * hashBytes
    modify fun lms =>
      { lms with publicHashInput := writeAt lms.publicHashInput offset chainEnd.toList }
  let lms ← get
  Routine.orFail (@Routine.perform (calls α) _ (.sha256 lms.publicHashInput.toList))

def leafInput (identifier : Identifier) (nodeNumber : Nat) (lmotsPublicHashValue : Hash α) :
    List α :=
  ofBytes identifier.toList ++ putU32 (.ofNat nodeNumber) ++ putU16 LmotsLms.dLeaf ++
    lmotsPublicHashValue.toList

def internalInput (identifier : Identifier) (nodeNumber : Nat) (left right : Hash α) : List α :=
  ofBytes identifier.toList ++ putU32 (.ofNat nodeNumber) ++ putU16 LmotsLms.dIntr ++
    left.toList ++ right.toList

/-- A node of the tree is written. -/
def setNode (node : Nat) (value : Hash α) : Method α Unit :=
  modify fun lms => { lms with tree := lms.tree.map (Function.update · node value) }

/-- One round of the first loop of `buildTree`. -/
def buildLeaf (q : Nat) : Method α Unit := do
  let lms ← get
  let lmotsHash ← lmotsPublicHash lms.identifier lms.seed q
  let leaf ← sha256 (leafInput lms.identifier (lmsLeaves + q) lmotsHash)
  setNode (lmsLeaves + q) leaf

/-- `CryptoHelpers::secureZero` of `m_seed`. -/
def eraseSeed : Method α Unit := modify fun lms => { lms with seed := zeroHash }

/-- One round of the second loop of `buildTree`: the only failure behind which the seed is
erased. -/
def buildNode (tree : Nat → Hash α) (node : Nat) : Method α (Nat → Hash α) := do
  let lms ← get
  let parent ← Routine.attempt
    (sha256 (internalInput lms.identifier node (tree (2 * node)) (tree (2 * node + 1))))
  match parent with
  | some value => do
      setNode node value
      pure (Function.update tree node value)
  | none => do
      eraseSeed
      failure

/-- `LmotsLms::buildTree`. -/
def buildTree : Method α Unit := do
  let lms ← get
  guard (lms.tree.isSome = true)
  (List.range lmsLeaves).forM buildLeaf
  let lms ← get
  let some leaves := lms.tree | failure
  let _ ← (List.range' 1 (lmsLeaves - 1)).reverse.foldlM buildNode leaves
  eraseSeed

end Tree

/-- `LmotsLms::sign`: the parts of the signature are written where the caller's buffer has
them. -/
def sign (q : UInt32) (message : List α) (runtimeSeed : Hash α) : Method α (SignatureCells α) := do
  guard (¬ q ≥ .ofNat lmsLeaves)
  let lms ← get
  let C ← @Routine.perform (calls α) _ .fillRandom
  let digestAndChecksum ← hashMessageWithChecksum lms.identifier q.toNat C message
    LmotsLms.smallHashInputBytes
  (List.range LmotsLms.p).foldlM (fun signature i => do
    let x ← derivePrivateElement lms.identifier runtimeSeed q.toNat i
    let y ← chainHash lms.identifier q.toNat i 0 (coefficientW4 digestAndChecksum i) x
    pure (writeAt signature (4 + hashBytes + i * hashBytes) y.toList))
    (overwrite (.replicate _ (ofByte 0)) (putU32 LmotsLms.lmotsType ++ C.toList))

end LmsMember

end Puav
