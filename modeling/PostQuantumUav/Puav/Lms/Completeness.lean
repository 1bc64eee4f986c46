import PostQuantumUav.Puav.Lms.Evaluation

/-!
# Signatures verify

The signer walks each chain up to the signed coefficient and the verifier walks
the rest, so the two meet at the end of the chain that the public hash covers.
From there the verifier climbs the tree with the siblings `extractPath` copied,
and a built tree leads it to its own root.

`candidateRoot` is specified for arbitrary signatures and paths: it is a climb
from the leaf of the candidate public hash. The binding theorem starts from the
same specification.
-/

namespace Puav

open Interaction Cell Hashing

variable {sha : Bytes → Digest}

namespace LmotsLms

/-- Reading the digest at position `k` of a concatenation of digests. -/
theorem take_drop_flatten (digests : List Digest) {k : Nat} (hk : k < digests.length) :
    (((digests.map List.Vector.toList).flatten).drop (k * hashBytes)).take hashBytes =
      digests[k].toList := by
  induction digests generalizing k with
  | nil => exact absurd hk (Nat.not_lt_zero k)
  | cons d rest ih =>
      rw [List.map_cons, List.flatten_cons]
      cases k with
      | zero =>
          rw [Nat.zero_mul, List.drop_zero, List.take_left' d.toList_length]
          rfl
      | succ k =>
          rw [Nat.succ_mul, Nat.add_comm, ← List.drop_drop, List.drop_left' d.toList_length]
          exact ih (Nat.lt_of_succ_lt_succ hk)

section Signature

variable {C : Digest} {y : List Digest} {length : y.length = p}

@[simp] theorem getU32_encodeSignature :
    getU32 (encodeSignature C y length).toList = lmotsType := by
  rw [encodeSignature, List.Vector.toList_mk, List.append_assoc]
  exact getU32_putU32 _ _

@[simp] theorem signatureC_encodeSignature : signatureC (encodeSignature C y length) = C := by
  apply List.Vector.toList_injective
  rw [signatureC, signatureBlock, List.Vector.toList_mk, encodeSignature, List.Vector.toList_mk,
    List.append_assoc, List.drop_left' (length_putU32 _), List.take_left' C.toList_length]

@[simp] theorem signatureY_encodeSignature (i : Fin p) :
    signatureY (encodeSignature C y length) i = y.get (i.cast length.symm) := by
  apply List.Vector.toList_injective
  have prefix_length : (putU32 lmotsType ++ C.toList).length = 4 + hashBytes := by
    rw [List.length_append, length_putU32, C.toList_length]
  rw [signatureY, signatureBlock, List.Vector.toList_mk, encodeSignature, List.Vector.toList_mk,
    ← List.drop_drop, List.drop_left' prefix_length]
  exact take_drop_flatten y _

end Signature

section Verifier

variable {identifier : Identifier} {seed C : Digest} {q : Nat} {message : Bytes}

/-- The chain ends recomputed by the verifier. -/
def candidateChainEnds (sha : Bytes → Digest) (identifier : Identifier) (q : Nat)
    (message : Bytes) (signature : LmotsSignature) : List Digest :=
  (List.finRange p).map fun (i : Fin p) =>
    let coefficient := (coefficientW4
      (digestAndChecksum sha identifier q (signatureC signature) message) i).toNat
    chain sha identifier q i coefficient (maxChain - coefficient) (signatureY signature i)

def candidatePublicHash (sha : Bytes → Digest) (identifier : Identifier) (q : Nat)
    (message : Bytes) (signature : LmotsSignature) : Digest :=
  sha (publicInput identifier q (candidateChainEnds sha identifier q message signature))

/-- A message that fits the scratch buffer leaves the type code as the only check. -/
theorem eval_lmotsCandidatePublicHash (signature : LmotsSignature)
    (typed : getU32 signature.toList = lmotsType) (fits : message.length ≤ 970) :
    eval sha (lmotsCandidatePublicHash identifier q message signature) =
      some (candidatePublicHash sha identifier q message signature) := by
  have hashedMessage : eval sha (hashMessageWithChecksum identifier q (signatureC signature)
      message smallHashInputBytes) =
      some (digestAndChecksum sha identifier q (signatureC signature) message) :=
    eval_hashMessageWithChecksum _ (by simp only [smallHashInputBytes]; omega) (by decide)
  have ends : eval sha ((List.finRange p).mapM fun (i : Fin p) =>
      chainHash identifier q i (coefficientW4 (digestAndChecksum sha identifier q
        (signatureC signature) message) i).toNat maxChain (signatureY signature i)) =
      some (candidateChainEnds sha identifier q message signature) :=
    eval_mapM _ fun i _ => eval_chainHash _ _ _
  rw [lmotsCandidatePublicHash, if_neg (not_not.mpr typed)]
  simp only [eval_bind, hashedMessage, Option.bind_some, ends]
  apply CryptoHelpers.eval_sha256
  rw [length_publicInput, candidateChainEnds, List.length_map, List.length_finRange]
  decide

/-- The siblings that the ten blocks of a path stand for. -/
def pathBlocks (path : Path) : List Digest := (List.finRange lmsHeight).map (pathBlock path)

@[simp] theorem length_pathBlocks (path : Path) : (pathBlocks path).length = lmsHeight := by
  rw [pathBlocks, List.length_map, List.length_finRange]

/-- The blocks of a path determine all of its bytes. -/
theorem pathBlocks_injective {path path' : Path} (same : pathBlocks path = pathBlocks path') :
    path = path' := by
  apply List.Vector.toList_injective
  apply List.ext_getElem?
  intro i
  by_cases hi : i < lmsPathBytes
  · have block : pathBlock path ⟨i / hashBytes, by
        simp only [hashBytes, lmsHeight, lmsPathBytes] at *
        omega⟩ = pathBlock path' _ := List.map_inj_left.mp same _ (List.mem_finRange _)
    have bytes := congrArg (fun d : Digest => d.toList[i % hashBytes]?) block
    simp only [pathBlock, List.Vector.toList_mk, List.getElem?_take, List.getElem?_drop,
      if_pos (Nat.mod_lt i (show 0 < hashBytes by decide)), Nat.div_add_mod'] at bytes
    exact bytes
  · rw [List.getElem?_eq_none (by rw [path.toList_length]; omega),
      List.getElem?_eq_none (by rw [path'.toList_length]; omega)]

theorem parity_eq (node : Nat) : (node &&& 1 = 0) = (node % 2 = 0) := by
  rw [Nat.and_one_is_mod]

/-- One level of the verifier's loop hashes the parent of the current node. -/
theorem eval_climbLevel (state : Nat × Digest) (other : Digest) :
    eval sha (climbLevel identifier state other) =
      some (state.1 / 2, sha (HashTree.parentInput (internalInput identifier) state.1
        state.2 other)) := by
  obtain ⟨node, current⟩ := state
  simp only [climbLevel, Nat.shiftRight_one, parity_eq, HashTree.parentInput]
  split
  · rw [eval_bind, eval_hashInternal, Option.bind_some, eval_pure]
  · rw [eval_bind, eval_hashInternal, Option.bind_some, eval_pure]

theorem foldl_climb (others : List Digest) (node : Nat) (current : Digest) :
    (others.foldl (fun (state : Nat × Digest) other =>
      (state.1 / 2, sha (HashTree.parentInput (internalInput identifier) state.1 state.2 other)))
      (node, current)).2 =
    HashTree.climb sha (internalInput identifier) node current others := by
  induction others generalizing node current with
  | nil => rfl
  | cons other rest ih => exact ih _ _

/-- For an index in range, the three stages of the verifier's recomputation. -/
theorem candidateRoot_of_lt (signature : LmotsSignature) (path : Path) (hq : q < lmsLeaves) :
    candidateRoot q message signature identifier path =
      lmotsCandidatePublicHash identifier q message signature >>= fun lmotsHash =>
      hashLeaf identifier (lmsLeaves + q) lmotsHash >>= fun current =>
      (pathBlocks path).foldlM (climbLevel identifier) (lmsLeaves + q, current) >>= fun state =>
      pure state.2 := by
  rw [candidateRoot, if_neg (by omega)]
  rfl

/-- The verifier's root: a climb from the leaf of the candidate public hash. -/
theorem eval_candidateRoot (signature : LmotsSignature) (path : Path) (hq : q < lmsLeaves)
    (typed : getU32 signature.toList = lmotsType) (fits : message.length ≤ 970) :
    eval sha (candidateRoot q message signature identifier path) =
      some (HashTree.climb sha (internalInput identifier) (lmsLeaves + q)
        (sha (leafInput identifier (lmsLeaves + q)
          (candidatePublicHash sha identifier q message signature))) (pathBlocks path)) := by
  rw [candidateRoot_of_lt signature path hq, eval_bind,
    eval_lmotsCandidatePublicHash signature typed fits, Option.bind_some, eval_bind, eval_hashLeaf,
    Option.bind_some, eval_bind, eval_foldlM _ _ fun state other _ => eval_climbLevel state other,
    Option.bind_some, eval_pure, foldl_climb]

end Verifier

section Signer

variable {identifier : Identifier} {seed C : Digest} {q : Nat} {message : Bytes}

/-- The chain values that a signature carries. -/
def signedChains (sha : Bytes → Digest) (identifier : Identifier) (seed : Digest) (q : Nat)
    (C : Digest) (message : Bytes) : List Digest :=
  (List.range p).map fun i =>
    chain sha identifier q i 0
      (coefficientW4 (digestAndChecksum sha identifier q C message) i).toNat
      (privateElement sha identifier seed q i)

theorem length_signedChains : (signedChains sha identifier seed q C message).length = p := by
  rw [signedChains, List.length_map, List.length_range]

/-- Signing succeeds for every index below the number of leaves. -/
theorem eval_sign (lms : LmotsLms) (hq : q < lmsLeaves) (fits : message.length ≤ 970) :
    eval sha (lms.sign q message seed C) =
      some (encodeSignature C (signedChains sha lms.identifier seed q C message)
        length_signedChains) := by
  have hashedMessage : eval sha (hashMessageWithChecksum lms.identifier q C message
      smallHashInputBytes) = some (digestAndChecksum sha lms.identifier q C message) :=
    eval_hashMessageWithChecksum _ (by simp only [smallHashInputBytes]; omega) (by decide)
  have chains : eval sha ((List.range p).mapM fun i => do
      let x ← derivePrivateElement lms.identifier seed q i
      chainHash lms.identifier q i 0
        (coefficientW4 (digestAndChecksum sha lms.identifier q C message) i).toNat x) =
      some (signedChains sha lms.identifier seed q C message) := by
    apply eval_mapM
    intro i _
    rw [eval_bind, eval_derivePrivateElement, Option.bind_some, eval_chainHash, Nat.sub_zero]
  rw [sign, if_neg (by omega)]
  simp only [eval_bind, hashedMessage, chains, Option.bind_some]
  rw [dif_pos length_signedChains]
  rfl

/-- The value signed for chain `i` stands as many steps from the start as its coefficient. -/
theorem get_signedChains (i : Fin p) :
    (signedChains sha identifier seed q C message).get (i.cast length_signedChains.symm) =
      chain sha identifier q i 0
        (coefficientW4 (digestAndChecksum sha identifier q C message) i).toNat
        (privateElement sha identifier seed q i) := by
  simp only [signedChains, List.get_eq_getElem, List.getElem_map, List.getElem_range]
  rfl

/-- The verifier's remaining steps complete a chain to its full length. -/
theorem chain_complete {i count : Nat} (bound : count ≤ maxChain) (input : Digest) :
    chain sha identifier q i count (maxChain - count) (chain sha identifier q i 0 count input) =
      chain sha identifier q i 0 maxChain input := by
  have joined := @chain_add sha identifier q i 0 count (maxChain - count) input
  rw [Nat.zero_add, Nat.add_sub_cancel' bound] at joined
  exact joined.symm

/-- Signer and verifier share each chain: the verifier's ends are the signer's. -/
theorem candidatePublicHash_encodeSignature :
    candidatePublicHash sha identifier q message (encodeSignature C
      (signedChains sha identifier seed q C message) length_signedChains) =
    publicHash sha identifier seed q := by
  have ends : candidateChainEnds sha identifier q message (encodeSignature C
      (signedChains sha identifier seed q C message) length_signedChains) =
      chainEnds sha identifier seed q := by
    rw [candidateChainEnds, chainEnds, ← List.map_coe_finRange_eq_range, List.map_map]
    apply List.map_congr_left
    intro i _
    simp only [signatureC_encodeSignature, signatureY_encodeSignature, get_signedChains]
    exact chain_complete (coefficientW4_le _ i) _
  rw [candidatePublicHash, ends]
  rfl

end Signer

section Path

/-- The loop of `extractPath` reads the siblings on the way to the root. -/
theorem pathDigests_eq_siblings (tree : Nat → Digest) (node levels : Nat) :
    pathDigests tree node levels = HashTree.siblings tree node levels := by
  induction levels generalizing node with
  | zero => rfl
  | succ levels ih =>
      rw [pathDigests, HashTree.siblings, HashTree.xor_one_eq_sibling, Nat.shiftRight_one, ih]

/-- A path of a tree consists of the siblings of its leaf. -/
theorem pathBlocks_extractPath {lms : LmotsLms} {tree : Nat → Digest} {q : Nat} {path : Path}
    (stored : lms.tree = some tree) (extracted : lms.extractPath q = some path) :
    q < lmsLeaves ∧
      pathBlocks path = HashTree.siblings tree (lmsLeaves + q) lmsHeight := by
  rw [extractPath, stored] at extracted
  simp only [Option.bind_eq_bind, Option.bind_some] at extracted
  split at extracted
  · cases extracted
  · rename_i hq
    rw [Option.some.injEq] at extracted
    refine ⟨by omega, ?_⟩
    subst extracted
    rw [← pathDigests_eq_siblings]
    apply List.ext_getElem
    · rw [length_pathBlocks, length_pathDigests]
    intro level h₁ h₂
    apply List.Vector.toList_injective
    simp only [pathBlocks, List.getElem_map, List.getElem_finRange, pathBlock, encodePath,
      List.Vector.toList_mk, Fin.val_cast]
    exact take_drop_flatten _ h₂

/-- `extractPath` succeeds for every index of a completed tree. -/
theorem exists_extractPath {lms : LmotsLms} {tree : Nat → Digest} {q : Nat}
    (stored : lms.tree = some tree) (hq : q < lmsLeaves) :
    ∃ path, lms.extractPath q = some path := by
  refine ⟨encodePath (pathDigests tree (lmsLeaves + q) lmsHeight) (length_pathDigests _ _ _), ?_⟩
  rw [extractPath, stored]
  simp only [Option.bind_eq_bind, Option.bind_some]
  rw [if_neg (by omega)]

end Path

/-- The last layer starts ten levels below the root. -/
theorem leaf_position {q : Nat} (hq : q < lmsLeaves) :
    2 ^ lmsHeight ≤ lmsLeaves + q ∧ lmsLeaves + q < 2 * lmsLeaves ∧
      (lmsLeaves + q) / 2 ^ lmsHeight = 1 := by
  simp only [lmsHeight, lmsLeaves] at *
  omega

/-- The answer of `verify` is the comparison of the recomputed root with the record's. -/
theorem eval_verify (q : Nat) (message : Bytes) (signature : LmotsSignature)
    (identifier : Identifier) (path : Path) (peerRoot : Digest) :
    (verify q message signature identifier path peerRoot).eval (answered sha) = true ↔
      eval sha (candidateRoot q message signature identifier path) = some peerRoot := by
  rw [verify, Program.eval_bind]
  cases found : eval sha (candidateRoot q message signature identifier path) with
  | none =>
      rw [eval, Fallible.eval] at found
      rw [found]
      refine ⟨fun h => ?_, fun h => ?_⟩
      · cases h
      · cases h
  | some current =>
      rw [eval, Fallible.eval] at found
      rw [found]
      change constantTimeEqual current.toList peerRoot.toList hashBytes = true ↔ _
      rw [constantTimeEqual_iff current.toList_length peerRoot.toList_length,
        Option.some.injEq, List.Vector.toList_injective.eq_iff]

/-- A successful `initialize` stores the identifier and the build seed. -/
theorem initializeWith_eq_some {identifier : Identifier} {seed : Digest} {allocated : Bool}
    {lms : LmotsLms} (initialized : initializeWith identifier seed allocated = some lms) :
    lms.identifier = identifier ∧ lms.seed = seed := by
  cases allocated with
  | false => cases initialized
  | true =>
      obtain rfl := Option.some.inj initialized
      exact ⟨rfl, rfl⟩

/-- The signature an object's tree was built for is accepted with the object's own path. -/
theorem verify_signed {identifier : Identifier} {seed C : Digest} {q : Nat} {message : Bytes}
    {lms : LmotsLms} {tree : Nat → Digest} {path : Path} (stored : lms.tree = some tree)
    (whole : Built sha identifier seed tree) (extracted : lms.extractPath q = some path)
    (fits : message.length ≤ 970) :
    (verify q message (encodeSignature C (signedChains sha identifier seed q C message)
      length_signedChains) identifier path (tree 1)).eval (answered sha) = true := by
  obtain ⟨hq, blocks⟩ := pathBlocks_extractPath stored extracted
  obtain ⟨low, high, top⟩ := leaf_position hq
  have leaf := whole.leaf q hq
  rw [leafDigest] at leaf
  rw [eval_verify, eval_candidateRoot _ _ hq getU32_encodeSignature fits,
    candidatePublicHash_encodeSignature, blocks, ← leaf,
    HashTree.climb_siblings whole.internal lmsHeight low high, top]

/-- Whatever the hash function, an object whose tree was built signs every message of at
most 970 bytes with every index, and its record and path verify the signature. -/
theorem sign_then_verify (sha : Bytes → Digest) (identifier : Identifier) (seed C : Digest)
    (q : Nat) (message : Bytes) (allocated : Bool) (lms built : LmotsLms)
    (initialized : initializeWith identifier seed allocated = some lms)
    (done : eval sha lms.buildTree = some built)
    (hq : q < lmsLeaves) (fits : message.length ≤ 970) :
    ∃ signature path root,
      eval sha (built.sign q message seed C) = some signature ∧
      built.extractPath q = some path ∧ built.root = some root ∧
      (verify q message signature built.identifier path root).eval (answered sha) = true := by
  obtain ⟨sameIdentifier, tree, stored, whole⟩ := eval_buildTree done
  obtain ⟨rfl, rfl⟩ := initializeWith_eq_some initialized
  obtain ⟨path, extracted⟩ := exists_extractPath stored hq
  refine ⟨_, path, tree 1, eval_sign built hq fits, extracted, by rw [root, stored]; rfl, ?_⟩
  rw [sameIdentifier]
  exact verify_signed stored whole extracted fits

/-- The longest message, signed with the last index. -/
theorem sign_then_verify_longest :
    let sha := digitHash hashBytes
    let message : Bytes := (List.range 970).map UInt8.ofNat
    ∃ built signature path root,
      eval sha (LmotsLms.buildTree
        ⟨.replicate 16 3, .replicate _ 7, some fun _ => zeroDigest⟩) = some built ∧
      eval sha (built.sign 1023 message (.replicate _ 7) (.replicate _ 9)) = some signature ∧
      built.extractPath 1023 = some path ∧ built.root = some root ∧
      (verify 1023 message signature built.identifier path root).eval (answered sha) = true := by
  intro sha message
  obtain ⟨built, done⟩ := @exists_eval_buildTree sha
    ⟨.replicate 16 3, .replicate _ 7, some fun _ => zeroDigest⟩ _ rfl
  have fits : message.length ≤ 970 := by rw [List.length_map, List.length_range]
  obtain ⟨signature, path, root, results⟩ := sign_then_verify sha (.replicate 16 3)
    (.replicate _ 7) (.replicate _ 9) 1023 message true _ built rfl done (by decide) fits
  exact ⟨built, signature, path, root, done, results⟩

end LmotsLms

end Puav
