import PostQuantumUav.Puav.Lms.Completeness

/-!
# An accepted path is the enrolled path

A path repository may answer with any 320 bytes. If `verify` accepts them under
the root of a built tree, they are the bytes `extractPath` returns for the same
index and the signature leads to that index's public hash; otherwise two
different strings with one SHA-256 value are at hand, the first hashed by the
verifier and the second by `buildTree`.

Node numbers are part of every preimage, so different positions of the tree are
hashed from different strings. Two indices that accept one path therefore exhibit
a collision as well.
-/

namespace Puav

open Interaction Cell Hashing

variable {sha : Bytes → Digest}

namespace LmotsLms

variable {identifier : Identifier} {seed : Digest} {q : Nat} {message : Bytes}

section Preimages

theorem leafInput_inj {node : Nat} {d d' : Digest}
    (same : leafInput identifier node d = leafInput identifier node d') : d = d' :=
  List.Vector.toList_injective (List.append_cancel_left same)

theorem internalInput_inj {node : Nat} {l r l' r' : Digest}
    (same : internalInput identifier node l r = internalInput identifier node l' r') :
    l = l' ∧ r = r' := by
  simp only [internalInput, List.append_assoc] at same
  obtain ⟨hl, hr⟩ := List.append_inj (List.append_cancel_left (List.append_cancel_left
    (List.append_cancel_left same))) (l.toList_length.trans l'.toList_length.symm)
  exact ⟨List.Vector.toList_injective hl, List.Vector.toList_injective hr⟩

/-- The node number is read back from any preimage that starts with it. -/
private theorem node_of_prefix {node node' : Nat} (small : node < 4294967296)
    (small' : node' < 4294967296) {rest rest' : Bytes}
    (same : identifier.toList ++ (putU32 (.ofNat node) ++ rest) =
      identifier.toList ++ (putU32 (.ofNat node') ++ rest')) : node = node' := by
  have numbers := (List.append_inj (List.append_cancel_left same) rfl).1
  rw [putU32_inj] at numbers
  have values := congrArg UInt32.toNat numbers
  rwa [UInt32.toNat_ofNat_of_lt' small, UInt32.toNat_ofNat_of_lt' small'] at values

theorem leafInput_node {node node' : Nat} (small : node < 4294967296)
    (small' : node' < 4294967296) {d d' : Digest}
    (same : leafInput identifier node d = leafInput identifier node' d') : node = node' := by
  simp only [leafInput, List.append_assoc] at same
  exact node_of_prefix small small' same

theorem internalInput_node {node node' : Nat} (small : node < 4294967296)
    (small' : node' < 4294967296) {l r l' r' : Digest}
    (same : internalInput identifier node l r = internalInput identifier node' l' r') :
    node = node' := by
  simp only [internalInput, List.append_assoc] at same
  exact node_of_prefix small small' same

end Preimages

section Checks

/-- A candidate public hash exists only for a typed signature of a message that fits. -/
theorem checks_of_lmotsCandidatePublicHash {signature : LmotsSignature} {candidate : Digest}
    (computed : eval sha (lmotsCandidatePublicHash identifier q message signature) =
      some candidate) :
    getU32 signature.toList = lmotsType ∧ message.length ≤ 970 := by
  rw [lmotsCandidatePublicHash] at computed
  split at computed
  · cases computed
  · rename_i typed
    refine ⟨not_not.mp typed, ?_⟩
    by_contra long
    rw [hashMessageWithChecksum, if_pos (by
      simp only [hashBytes, smallHashInputBytes]
      omega)] at computed
    cases computed

theorem checks_of_candidateRoot {signature : LmotsSignature} {path : Path} {reached : Digest}
    (computed : eval sha (candidateRoot q message signature identifier path) = some reached) :
    q < lmsLeaves ∧ getU32 signature.toList = lmotsType ∧ message.length ≤ 970 := by
  rw [candidateRoot] at computed
  split at computed
  · cases computed
  · rename_i hq
    rw [eval_bind] at computed
    obtain ⟨candidate, found, -⟩ := Option.bind_eq_some_iff.mp computed
    exact ⟨by omega, checks_of_lmotsCandidatePublicHash found⟩

end Checks

/-- The strings hashed while verifying. -/
def verifierStrings (sha : Bytes → Digest) (q : Nat) (message : Bytes)
    (signature : LmotsSignature) (identifier : Identifier) (path : Path) (root : Digest) :
    List Bytes :=
  (verify q message signature identifier path root).calls (answered sha)

section Strings

/-- The strings of a climb are hashed by the verifier's loop. -/
theorem climbInputs_subset_hashed (others : List Digest) (node : Nat) (current : Digest) :
    HashTree.climbInputs sha (internalInput identifier) node current others ⊆
      hashed sha (others.foldlM (climbLevel identifier) (node, current)) := by
  induction others generalizing node current with
  | nil => exact List.nil_subset _
  | cons other rest ih =>
      rw [HashTree.climbInputs, List.foldlM_cons]
      have later := hashed_subset_bind_of_eval
        (@eval_climbLevel sha identifier (node, current) other)
        fun state => rest.foldlM (climbLevel identifier) state
      refine List.cons_subset.mpr ⟨hashed_subset_bind _ _ ?_, List.Subset.trans (ih _ _) later⟩
      simp only [climbLevel, Nat.shiftRight_one, parity_eq, HashTree.parentInput]
      split
      · apply hashed_subset_bind
        rw [hashInternal, CryptoHelpers.hashed_sha256 (by rw [length_internalInput]; decide)]
        exact List.mem_singleton_self _
      · apply hashed_subset_bind
        rw [hashInternal, CryptoHelpers.hashed_sha256 (by rw [length_internalInput]; decide)]
        exact List.mem_singleton_self _

theorem hashed_candidateRoot_subset (signature : LmotsSignature) (path : Path) (root : Digest) :
    hashed sha (candidateRoot q message signature identifier path) ⊆
      verifierStrings sha q message signature identifier path root := by
  rw [verifierStrings, verify, Program.calls_bind]
  exact List.subset_append_left _ _

variable {signature : LmotsSignature} {path : Path}

/-- The candidate leaf and every climbed node are hashed by the verifier. -/
theorem climb_mem_verifierStrings (root : Digest) (hq : q < lmsLeaves)
    (typed : getU32 signature.toList = lmotsType) (fits : message.length ≤ 970) :
    leafInput identifier (lmsLeaves + q)
        (candidatePublicHash sha identifier q message signature) ∈
      verifierStrings sha q message signature identifier path root ∧
    HashTree.climbInputs sha (internalInput identifier) (lmsLeaves + q)
        (sha (leafInput identifier (lmsLeaves + q)
          (candidatePublicHash sha identifier q message signature))) (pathBlocks path) ⊆
      verifierStrings sha q message signature identifier path root := by
  have inner := @hashed_candidateRoot_subset sha identifier q message signature path root
  rw [candidateRoot_of_lt signature path hq] at inner
  have afterPublic := List.Subset.trans (hashed_subset_bind_of_eval
    (eval_lmotsCandidatePublicHash signature typed fits) _) inner
  refine ⟨afterPublic (hashed_subset_bind _ _ ?_), ?_⟩
  · rw [hashLeaf, CryptoHelpers.hashed_sha256 (by rw [length_leafInput]; decide)]
    exact List.mem_singleton_self _
  · have afterLeaf := List.Subset.trans
      (hashed_subset_bind_of_eval (eval_hashLeaf _ _) _) afterPublic
    exact List.Subset.trans (climbInputs_subset_hashed _ _ _)
      (List.Subset.trans (hashed_subset_bind _ _) afterLeaf)

end Strings

section Binding

variable {lms built : LmotsLms} {tree : Nat → Digest}

/-- Every node of a built tree is the hash of a string hashed by `buildTree`, and that
string starts with the node's number. -/
theorem node_preimage (done : eval sha lms.buildTree = some built)
    (stored : built.tree = some tree) (whole : Built sha lms.identifier lms.seed tree) :
    (∀ i < lmsLeaves, leafInput lms.identifier (lmsLeaves + i)
        (publicHash sha lms.identifier lms.seed i) ∈ hashed sha lms.buildTree ∧
      tree (lmsLeaves + i) = sha (leafInput lms.identifier (lmsLeaves + i)
        (publicHash sha lms.identifier lms.seed i))) ∧
    ∀ node, 1 ≤ node → node < lmsLeaves →
      internalInput lms.identifier node (tree (2 * node)) (tree (2 * node + 1)) ∈
        hashed sha lms.buildTree ∧
      tree node = sha (internalInput lms.identifier node (tree (2 * node))
        (tree (2 * node + 1))) :=
  ⟨fun i hi => ⟨leafInput_mem_hashed done hi, whole.leaf i hi⟩,
    fun node low high => ⟨internalInput_mem_hashed done stored low high,
      whole.internal node low high⟩⟩

/-- Two different nodes of one layer with the same digest are a collision in the tree. -/
theorem collides_of_equal_nodes (done : eval sha lms.buildTree = some built)
    (stored : built.tree = some tree) (whole : Built sha lms.identifier lms.seed tree)
    {a b : Nat} (ha : a < lmsLeaves) (hb : b < lmsLeaves) (level : Nat)
    (low : level < lmsHeight)
    (differ : (lmsLeaves + a) / 2 ^ level ≠ (lmsLeaves + b) / 2 ^ level)
    (equal : tree ((lmsLeaves + a) / 2 ^ level) = tree ((lmsLeaves + b) / 2 ^ level)) :
    HashTree.Collides sha (hashed sha lms.buildTree) (hashed sha lms.buildTree) := by
  obtain ⟨leaves, nodes⟩ := node_preimage done stored whole
  cases level with
  | zero =>
      rw [Nat.pow_zero, Nat.div_one, Nat.div_one] at differ equal
      obtain ⟨memA, digestA⟩ := leaves a ha
      obtain ⟨memB, digestB⟩ := leaves b hb
      refine ⟨_, memA, _, memB, fun same => differ ?_, ?_⟩
      · exact leafInput_node (by simp only [lmsLeaves] at *; omega)
          (by simp only [lmsLeaves] at *; omega) same
      · rw [← digestA, ← digestB, equal]
  | succ level =>
      have layer : ∀ i < lmsLeaves, 1 ≤ (lmsLeaves + i) / 2 ^ (level + 1) ∧
          (lmsLeaves + i) / 2 ^ (level + 1) < lmsLeaves := by
        intro i hi
        have room : 2 ^ (level + 1) ≤ lmsLeaves :=
          (Nat.pow_le_pow_right (by decide) low.le : 2 ^ (level + 1) ≤ 2 ^ lmsHeight)
        refine ⟨Nat.div_pos (by omega) (Nat.two_pow_pos _), ?_⟩
        have half : (lmsLeaves + i) / 2 ^ (level + 1) ≤ (lmsLeaves + i) / 2 :=
          Nat.div_le_div_left (Nat.le_self_pow (Nat.succ_ne_zero level) 2) (by decide)
        omega
      obtain ⟨memA, digestA⟩ := nodes _ (layer a ha).1 (layer a ha).2
      obtain ⟨memB, digestB⟩ := nodes _ (layer b hb).1 (layer b hb).2
      refine ⟨_, memA, _, memB, fun same => differ ?_, ?_⟩
      · have highA := (layer a ha).2
        have highB := (layer b hb).2
        simp only [lmsLeaves] at *
        exact internalInput_node (by omega) (by omega) same
      · rw [← digestA, ← digestB, equal]

/-- Binding for one verification: the path is the tree's and the public hash is the
signer's, or the verifier found a second preimage of a node of the tree. -/
theorem accepted_path (done : eval sha lms.buildTree = some built)
    (stored : built.tree = some tree) (whole : Built sha lms.identifier lms.seed tree)
    {signature : LmotsSignature} {path : Path}
    (accepted : (verify q message signature lms.identifier path (tree 1)).eval (answered sha) =
      true) :
    (built.extractPath q = some path ∧
      eval sha (lmotsCandidatePublicHash lms.identifier q message signature) =
        eval sha (lmotsPublicHash lms.identifier lms.seed q)) ∨
    HashTree.Collides sha
      (verifierStrings sha q message signature lms.identifier path (tree 1))
      (hashed sha lms.buildTree) := by
  rw [eval_verify] at accepted
  obtain ⟨hq, typed, fits⟩ := checks_of_candidateRoot accepted
  rw [eval_candidateRoot signature path hq typed fits, Option.some.injEq] at accepted
  obtain ⟨leafHashed, climbHashed⟩ :=
    @climb_mem_verifierStrings sha lms.identifier q message signature path (tree 1) hq typed fits
  obtain ⟨leaves, nodes⟩ := node_preimage done stored whole
  obtain ⟨low, high, top⟩ := leaf_position hq
  obtain ⟨ownPath, extracted⟩ := exists_extractPath stored hq
  obtain ⟨-, ownBlocks⟩ := pathBlocks_extractPath stored extracted
  have bound := HashTree.climb_binds whole.internal internalInput_inj (pathBlocks path)
    (by rwa [length_pathBlocks]) high (by rw [length_pathBlocks, top]; exact accepted)
  rw [length_pathBlocks] at bound
  rcases bound with ⟨leaf, siblings⟩ | ⟨x, hx, node, one, below, differ, same⟩
  · obtain ⟨mem, digest⟩ := leaves q hq
    rw [digest] at leaf
    by_cases input : leafInput lms.identifier (lmsLeaves + q)
        (candidatePublicHash sha lms.identifier q message signature) =
        leafInput lms.identifier (lmsLeaves + q) (publicHash sha lms.identifier lms.seed q)
    · left
      rw [eval_lmotsCandidatePublicHash signature typed fits, eval_lmotsPublicHash,
        leafInput_inj input]
      refine ⟨?_, rfl⟩
      rw [extracted, pathBlocks_injective (ownBlocks.trans siblings.symm)]
    · exact .inr ⟨_, leafHashed, _, mem, input, leaf⟩
  · exact .inr ⟨x, climbHashed hx, _, (nodes node one below).1, differ, same⟩

/-- What any path repository can achieve against the record of a built tree: an accepted path
is the one `extractPath` returns and the signature leads to the enrolled public hash, and
no second index accepts the same path; otherwise the hashed strings collide. -/
theorem accepted_path_is_enrolled (sha : Bytes → Digest) (identifier : Identifier)
    (seed root : Digest) (allocated : Bool) (lms built : LmotsLms)
    (initialized : initializeWith identifier seed allocated = some lms)
    (done : eval sha lms.buildTree = some built) (published : built.root = some root)
    (q : Nat) (message : Bytes) (signature : LmotsSignature) (path : Path)
    (accepted : (verify q message signature identifier path root).eval (answered sha) = true) :
    ((built.extractPath q = some path ∧
        eval sha (lmotsCandidatePublicHash identifier q message signature) =
          eval sha (lmotsPublicHash identifier seed q)) ∨
      HashTree.Collides sha (verifierStrings sha q message signature identifier path root)
        (hashed sha lms.buildTree)) ∧
    ∀ q' message' signature', q' ≠ q →
      (verify q' message' signature' identifier path root).eval (answered sha) = true →
      let strings := verifierStrings sha q message signature identifier path root ++
        verifierStrings sha q' message' signature' identifier path root ++
        hashed sha lms.buildTree
      HashTree.Collides sha strings strings := by
  obtain ⟨rfl, rfl⟩ := initializeWith_eq_some initialized
  obtain ⟨-, tree, stored, whole⟩ := eval_buildTree done
  rw [LmotsLms.root, stored] at published
  obtain rfl := Option.some.inj published
  have first := accepted_path done stored whole accepted
  refine ⟨first, ?_⟩
  intro q' message' signature' other accepted'
  rcases first with ⟨own, -⟩ | collision
  · rcases accepted_path done stored whole accepted' with ⟨own', -⟩ | collision
    · obtain ⟨hq, blocks⟩ := pathBlocks_extractPath stored own
      obtain ⟨hq', blocks'⟩ := pathBlocks_extractPath stored own'
      obtain ⟨low, high, top⟩ := leaf_position hq
      obtain ⟨low', high', top'⟩ := leaf_position hq'
      obtain ⟨level, bound, differ, equal⟩ := HashTree.exists_equal_of_siblings_eq lmsHeight
        (fun same => other (Nat.add_left_cancel same).symm) low low' (top.trans top'.symm)
        (blocks.symm.trans blocks')
      exact (collides_of_equal_nodes done stored whole hq hq' level bound differ equal).mono sha
        (List.subset_append_right _ _) (List.subset_append_right _ _)
    · exact collision.mono sha
        (List.Subset.trans (List.subset_append_right _ _) (List.subset_append_left _ _))
        (List.subset_append_right _ _)
  · exact collision.mono sha
      (List.Subset.trans (List.subset_append_left _ _) (List.subset_append_left _ _))
      (List.subset_append_right _ _)

/-- An accepted signature of a message, with the path of its index. -/
theorem accepted_path_is_enrolled_signed :
    let sha := digitHash hashBytes
    let lms : LmotsLms := ⟨.replicate 16 3, .replicate _ 7, some fun _ => zeroDigest⟩
    ∃ built signature path root,
      eval sha lms.buildTree = some built ∧
      (verify 5 [1, 2, 3] signature lms.identifier path root).eval (answered sha) = true ∧
      ((built.extractPath 5 = some path ∧
          eval sha (lmotsCandidatePublicHash lms.identifier 5 [1, 2, 3] signature) =
            eval sha (lmotsPublicHash lms.identifier lms.seed 5)) ∨
        HashTree.Collides sha (verifierStrings sha 5 [1, 2, 3] signature lms.identifier path root)
          (hashed sha lms.buildTree)) := by
  intro sha lms
  obtain ⟨built, done⟩ := @exists_eval_buildTree sha lms _ rfl
  obtain ⟨-, tree, stored, whole⟩ := eval_buildTree done
  obtain ⟨path, extracted⟩ := @exists_extractPath built tree 5 stored (by decide)
  have accepted := @verify_signed sha _ _ (.replicate _ 9) 5 [1, 2, 3] _ _ _ stored whole extracted
    (by decide)
  have published : built.root = some (tree 1) := by
    rw [LmotsLms.root, stored]
    rfl
  exact ⟨built, _, path, tree 1, done, accepted, (accepted_path_is_enrolled sha (.replicate 16 3)
    (.replicate _ 7) (tree 1) true lms built rfl done published 5 [1, 2, 3] _ path accepted).1⟩

end Binding

end LmotsLms

end Puav
