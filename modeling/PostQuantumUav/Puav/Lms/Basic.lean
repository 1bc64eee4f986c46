import Mathlib.Data.Vector.Basic
import Mathlib.Logic.Function.Basic
import PostQuantumUav.Library.HashTree
import PostQuantumUav.Library.Interaction.Fallible
import PostQuantumUav.Puav.Constants

/-!
# LM-OTS and LMS as the library computes them

The functions of `LmotsLms.cpp` over an arbitrary SHA-256. A call to
`CryptoHelpers::sha256` is the only call these programs make, and the string it
receives is the one assembled in the scratch buffer at that point; a failed call
makes the calling function return false.

Blocks of a fixed size are vectors, so a path always holds ten digests and a
signature sixty-seven chain values. Node numbers and loop counters are natural
numbers below their C types' bounds; the checksum keeps its sixteen-bit wrap.
-/

namespace Puav

open Interaction Cell

abbrev Digest := List.Vector UInt8 hashBytes
abbrev Identifier := List.Vector UInt8 16
abbrev Path := List.Vector UInt8 lmsPathBytes
abbrev LmotsSignature := List.Vector UInt8 lmotsSignatureBytes

/-- The calls of the hashing code: a string goes in, a digest or an error comes out. -/
def sha256Calls : Signature where
  Call := Bytes
  Answer _ := Option Digest

/-- Code that returns a value or fails, calling nothing but SHA-256. -/
abbrev Hashing (α : Type) := Fallible sha256Calls α

namespace Hashing

variable {α : Type}

/-- Every call is answered by the function `sha`. -/
def answered (sha : Bytes → Digest) : (data : sha256Calls.Call) → sha256Calls.Answer data :=
  fun data => some (sha data)

/-- The result when every call is answered by the function `sha`. -/
def eval (sha : Bytes → Digest) (x : Hashing α) : Option α := Fallible.eval (answered sha) x

/-- The strings hashed by the same execution, in order. -/
def hashed (sha : Bytes → Digest) (x : Hashing α) : List Bytes :=
  Fallible.calls (answered sha) x

end Hashing

namespace CryptoHelpers

/-- `CryptoHelpers::sha256`: one wolfSSL call, refused for strings past 32 bits. -/
def sha256 (data : Bytes) : Hashing Digest :=
  if data.length > uint32Max then failure
  else OptionT.mk (Program.ask (S := sha256Calls) data)

end CryptoHelpers

/-- The state of an `LmotsLms` object; no tree until its memory is allocated. The
tree has `lmsTreeNodes` entries, of which entry zero is not used. -/
structure LmotsLms where
  identifier : Identifier
  seed : Digest
  tree : Option (Nat → Digest)

namespace LmotsLms

def lmotsType : UInt32 := 3
abbrev p : Nat := 67
abbrev ls : UInt16 := 4
abbrev maxChain : Nat := 15

def dPblc : UInt16 := 0x8080
def dMesg : UInt16 := 0x8181
def dLeaf : UInt16 := 0x8282
def dIntr : UInt16 := 0x8383

/-- The size of `m_smallHashInput` and of the verifier's small scratch buffer. -/
abbrev smallHashInputBytes : Nat := 1024

def zeroDigest : Digest := List.Vector.replicate hashBytes 0

/-- `LmotsLms::initialize`; `allocated` tells whether the heap had room for the tree. -/
def initializeWith (identifierValue : Identifier) (seedValue : Digest) (allocated : Bool) :
    Option LmotsLms :=
  if allocated then
    some { identifier := identifierValue, seed := seedValue, tree := some fun _ => zeroDigest }
  else none

/-- Four bits of `data`, the high half of each byte first. -/
def coefficientW4 (data : Bytes) (index : Nat) : UInt8 :=
  let value := data.getD (index / 2) 0
  if index % 2 = 0 then (value >>> 4) &&& 0x0f else value &&& 0x0f

def derivePrivateElement (identifier : Identifier) (seed : Digest) (q chainIndex : Nat) :
    Hashing Digest :=
  CryptoHelpers.sha256 (identifier.toList ++ putU32 (.ofNat q) ++
    putU16 (.ofNat chainIndex) ++ [0xff] ++ seed.toList)

/-- The string hashed at step `j` of a chain. -/
def chainInput (identifier : Identifier) (q chainIndex j : Nat) (current : Digest) : Bytes :=
  identifier.toList ++ putU32 (.ofNat q) ++ putU16 (.ofNat chainIndex) ++ [.ofNat j] ++
    current.toList

def chainHash (identifier : Identifier) (q chainIndex startStep endStep : Nat)
    (input : Digest) : Hashing Digest :=
  (List.range' startStep (endStep - startStep)).foldlM
    (fun current j => CryptoHelpers.sha256 (chainInput identifier q chainIndex j current)) input

/-- The checksum loop: the remaining steps of all 64 message coefficients, shifted. -/
def checksum (digest : Bytes) : UInt16 :=
  (List.range 64).foldl
    (fun sum i => sum + .ofNat maxChain - (coefficientW4 digest i).toUInt16) 0 <<< ls

def hashMessageWithChecksum (identifier : Identifier) (q : Nat) (C : Digest) (message : Bytes)
    (scratchLength : Nat) : Hashing Bytes := do
  let required := 16 + 4 + 2 + hashBytes + message.length
  if required > scratchLength then failure
  let digest ← CryptoHelpers.sha256
    (identifier.toList ++ putU32 (.ofNat q) ++ putU16 dMesg ++ C.toList ++ message)
  return digest.toList ++ putU16 (checksum digest.toList)

/-- The string whose hash is the LM-OTS public hash of the given chain ends. -/
def publicInput (identifier : Identifier) (q : Nat) (chainEnds : List Digest) : Bytes :=
  identifier.toList ++ putU32 (.ofNat q) ++ putU16 dPblc ++
    (chainEnds.map List.Vector.toList).flatten

def lmotsPublicHash (identifier : Identifier) (seed : Digest) (q : Nat) : Hashing Digest := do
  let chainEnds ← (List.range p).mapM fun i => do
    let x ← derivePrivateElement identifier seed q i
    chainHash identifier q i 0 maxChain x
  CryptoHelpers.sha256 (publicInput identifier q chainEnds)

def leafInput (identifier : Identifier) (nodeNumber : Nat) (lmotsPublicHashValue : Digest) :
    Bytes :=
  identifier.toList ++ putU32 (.ofNat nodeNumber) ++ putU16 dLeaf ++ lmotsPublicHashValue.toList

def hashLeaf (identifier : Identifier) (nodeNumber : Nat) (lmotsPublicHashValue : Digest) :
    Hashing Digest :=
  CryptoHelpers.sha256 (leafInput identifier nodeNumber lmotsPublicHashValue)

def internalInput (identifier : Identifier) (nodeNumber : Nat) (left right : Digest) : Bytes :=
  identifier.toList ++ putU32 (.ofNat nodeNumber) ++ putU16 dIntr ++ left.toList ++ right.toList

def hashInternal (identifier : Identifier) (nodeNumber : Nat) (left right : Digest) :
    Hashing Digest :=
  CryptoHelpers.sha256 (internalInput identifier nodeNumber left right)

/-- The first loop of `buildTree`, filling the last layer from left to right. -/
def buildLeaves (identifier : Identifier) (seed : Digest) (tree : Nat → Digest) :
    Hashing (Nat → Digest) :=
  (List.range lmsLeaves).foldlM (fun tree q => do
    let lmotsHash ← lmotsPublicHash identifier seed q
    let leaf ← hashLeaf identifier (lmsLeaves + q) lmotsHash
    return Function.update tree (lmsLeaves + q) leaf) tree

/-- The second loop of `buildTree`, from the last internal node down to the root. -/
def buildInternal (identifier : Identifier) (tree : Nat → Digest) : Hashing (Nat → Digest) :=
  (List.range' 1 (lmsLeaves - 1)).reverse.foldlM (fun tree node => do
    let parent ← hashInternal identifier node (tree (2 * node)) (tree (2 * node + 1))
    return Function.update tree node parent) tree

/-- `LmotsLms::buildTree`; the build seed is erased once the tree is complete. -/
def buildTree (lms : LmotsLms) : Hashing LmotsLms := do
  let some allocated := lms.tree | failure
  let leaves ← buildLeaves lms.identifier lms.seed allocated
  let tree ← buildInternal lms.identifier leaves
  return { lms with seed := zeroDigest, tree := some tree }

def root (lms : LmotsLms) : Option Digest := lms.tree.map fun tree => tree 1

/-- The digests copied by the loop of `extractPath`, from `node` upwards. -/
def pathDigests (tree : Nat → Digest) : Nat → Nat → List Digest
  | _, 0 => []
  | node, levels + 1 => tree (node ^^^ 1) :: pathDigests tree (node >>> 1) levels

theorem length_pathDigests (tree : Nat → Digest) (node levels : Nat) :
    (pathDigests tree node levels).length = levels := by
  induction levels generalizing node with
  | zero => rfl
  | succ levels ih => rw [pathDigests, List.length_cons, ih]

theorem length_flatten (digests : List Digest) :
    (digests.map List.Vector.toList).flatten.length = hashBytes * digests.length := by
  induction digests with
  | nil => rfl
  | cons d rest ih =>
      rw [List.map_cons, List.flatten_cons, List.length_append, ih, d.toList_length,
        List.length_cons, Nat.mul_succ, Nat.add_comm]

/-- The bytes of a path: one digest for each level, lowest first. -/
def encodePath (digests : List Digest) (length : digests.length = lmsHeight) : Path :=
  ⟨(digests.map List.Vector.toList).flatten,
    (length_flatten digests).trans (congrArg (hashBytes * ·) length)⟩

/-- `LmotsLms::extractPath`. -/
def extractPath (lms : LmotsLms) (q : Nat) : Option Path := do
  let tree ← lms.tree
  if q ≥ lmsLeaves then none
  else some (encodePath (pathDigests tree (lmsLeaves + q) lmsHeight)
    (length_pathDigests _ _ _))

theorem lt_of_extractPath {lms : LmotsLms} {q : Nat} {path : Path}
    (extracted : lms.extractPath q = some path) : q < lmsLeaves := by
  cases tree : lms.tree with
  | none =>
      rw [extractPath, tree] at extracted
      nomatch extracted
  | some tree' =>
      rw [extractPath, tree] at extracted
      by_cases outside : q ≥ lmsLeaves
      · rw [Option.bind_eq_bind, Option.bind_some, if_pos outside] at extracted
        nomatch extracted
      · exact Nat.lt_of_not_le outside

/-- The bytes of a signature: type code, randomizer, then one value for each chain. -/
def encodeSignature (C : Digest) (y : List Digest) (length : y.length = p) : LmotsSignature :=
  ⟨putU32 lmotsType ++ C.toList ++ (y.map List.Vector.toList).flatten, by
    rw [List.length_append, List.length_append, length_putU32, C.toList_length,
      length_flatten, length]
    rfl⟩

/-- `LmotsLms::sign`; the randomizer `C` is what `esp_fill_random` produced. -/
def sign (lms : LmotsLms) (q : Nat) (message : Bytes) (runtimeSeed C : Digest) :
    Hashing LmotsSignature := do
  if q ≥ lmsLeaves then failure
  let digestAndChecksum ←
    hashMessageWithChecksum lms.identifier q C message smallHashInputBytes
  let y ← (List.range p).mapM fun i => do
    let x ← derivePrivateElement lms.identifier runtimeSeed q i
    chainHash lms.identifier q i 0 (coefficientW4 digestAndChecksum i).toNat x
  if length : y.length = p then return encodeSignature C y length else failure

/-- The digest stored from byte `offset` of a signature on. -/
def signatureBlock (signature : LmotsSignature) (offset : Nat)
    (fits : offset + hashBytes ≤ lmotsSignatureBytes) : Digest :=
  ⟨(signature.toList.drop offset).take hashBytes, by
    rw [List.length_take, List.length_drop, signature.toList_length]
    omega⟩

def signatureC (signature : LmotsSignature) : Digest :=
  signatureBlock signature 4 (by decide)

def signatureY (signature : LmotsSignature) (i : Fin p) : Digest :=
  signatureBlock signature (4 + hashBytes + i * hashBytes) (by
    have := i.isLt
    simp only [p, hashBytes, lmotsSignatureBytes] at *
    omega)

def lmotsCandidatePublicHash (identifier : Identifier) (q : Nat) (message : Bytes)
    (signature : LmotsSignature) : Hashing Digest := do
  if getU32 signature.toList ≠ lmotsType then failure
  let digestAndChecksum ← hashMessageWithChecksum identifier q (signatureC signature) message
    smallHashInputBytes
  let chainEnds ← (List.finRange p).mapM fun (i : Fin p) =>
    chainHash identifier q i (coefficientW4 digestAndChecksum i).toNat maxChain
      (signatureY signature i)
  CryptoHelpers.sha256 (publicInput identifier q chainEnds)

/-- The digest of a received path at `level`. -/
def pathBlock (path : Path) (level : Fin lmsHeight) : Digest :=
  ⟨(path.toList.drop (level * hashBytes)).take hashBytes, by
    have := level.isLt
    rw [List.length_take, List.length_drop, path.toList_length]
    simp only [lmsHeight, hashBytes, lmsPathBytes] at *
    omega⟩

/-- One level of the loop of `verify`: the parity of the node chooses the order. -/
def climbLevel (identifier : Identifier) (state : Nat × Digest) (sibling : Digest) :
    Hashing (Nat × Digest) := do
  let (node, current) := state
  let parentNode := node >>> 1
  let parent ←
    if node &&& 1 = 0 then hashInternal identifier parentNode current sibling
    else hashInternal identifier parentNode sibling current
  return (parentNode, parent)

/-- The root that `verify` recomputes from a signature and a path. -/
def candidateRoot (q : Nat) (message : Bytes) (signature : LmotsSignature)
    (peerIdentifier : Identifier) (peerPath : Path) : Hashing Digest := do
  if q ≥ lmsLeaves then failure
  let lmotsHash ← lmotsCandidatePublicHash peerIdentifier q message signature
  let node := lmsLeaves + q
  let current ← hashLeaf peerIdentifier node lmotsHash
  let (_, current) ← ((List.finRange lmsHeight).map (pathBlock peerPath)).foldlM
    (climbLevel peerIdentifier) (node, current)
  return current

/-- `LmotsLms::verify`; every failure on the way is an answer of false. -/
def verify (q : Nat) (message : Bytes) (signature : LmotsSignature)
    (peerIdentifier : Identifier) (peerPath : Path) (peerRoot : Digest) :
    Program sha256Calls Bool := do
  match ← (candidateRoot q message signature peerIdentifier peerPath).run with
  | some current => return constantTimeEqual current.toList peerRoot.toList hashBytes
  | none => return false

end LmotsLms

end Puav
