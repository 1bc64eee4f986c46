import PostQuantumUav.Puav.Lms.Basic

/-!
# What the LMS functions compute

One specification for each function of the LMS code: its result under an
arbitrary SHA-256, as a plain function of its arguments. Callers use these
specifications and never unfold a callee.

`Built` says what a completed tree is: every leaf is the hash of the public hash
of its index and every other node is the hash of its two children. `buildTree`
always produces such a tree, and it hashes the preimage of each of its nodes.
-/

namespace Puav

open Interaction Cell

variable {sha : Bytes → Digest} {α β ι : Type}

namespace Hashing

@[simp] theorem eval_pure (a : α) : eval sha (pure a) = some a := rfl

@[simp] theorem eval_failure : eval sha (failure : Hashing α) = none := rfl

@[simp] theorem eval_bind (x : Hashing α) (f : α → Hashing β) :
    eval sha (x >>= f) = (eval sha x).bind (fun a => eval sha (f a)) :=
  Fallible.eval_bind _ x f

theorem hashed_subset_bind (x : Hashing α) (f : α → Hashing β) :
    hashed sha x ⊆ hashed sha (x >>= f) := Fallible.calls_subset_bind x f

theorem hashed_subset_bind_of_eval {x : Hashing α} {a : α} (h : eval sha x = some a)
    (f : α → Hashing β) : hashed sha (f a) ⊆ hashed sha (x >>= f) :=
  Fallible.calls_subset_bind_of_eval h f

theorem eval_foldlM {f : β → ι → Hashing β} {g : β → ι → β} (items : List ι) (init : β)
    (step : ∀ b, ∀ i ∈ items, eval sha (f b i) = some (g b i)) :
    eval sha (items.foldlM f init) = some (items.foldl g init) :=
  Fallible.eval_foldlM items init step

theorem eval_mapM {f : ι → Hashing β} {g : ι → β} (items : List ι)
    (step : ∀ i ∈ items, eval sha (f i) = some (g i)) :
    eval sha (items.mapM f) = some (items.map g) := Fallible.eval_mapM items step

end Hashing

open Hashing

/-- A string short enough for one call is hashed, and nothing else is. -/
theorem CryptoHelpers.eval_sha256 {data : Bytes} (short : data.length ≤ uint32Max) :
    eval sha (CryptoHelpers.sha256 data) = some (sha data) := by
  rw [CryptoHelpers.sha256, if_neg (by omega)]
  rfl

theorem CryptoHelpers.hashed_sha256 {data : Bytes} (short : data.length ≤ uint32Max) :
    hashed sha (CryptoHelpers.sha256 data) = [data] := by
  rw [CryptoHelpers.sha256, if_neg (by omega)]
  rfl

namespace LmotsLms

variable {identifier : Identifier} {seed C : Digest} {q i : Nat} {message : Bytes}

section Lengths

theorem length_chainInput (identifier : Identifier) (q i j : Nat) (current : Digest) :
    (chainInput identifier q i j current).length = 55 := by
  simp only [chainInput, List.length_append, identifier.toList_length, current.toList_length,
    length_putU32, length_putU16, List.length_singleton, hashBytes]

theorem length_leafInput (identifier : Identifier) (node : Nat) (d : Digest) :
    (leafInput identifier node d).length = 54 := by
  simp only [leafInput, List.length_append, identifier.toList_length, d.toList_length,
    length_putU32, length_putU16, hashBytes]

theorem length_internalInput (identifier : Identifier) (node : Nat) (l r : Digest) :
    (internalInput identifier node l r).length = 86 := by
  simp only [internalInput, List.length_append, identifier.toList_length, l.toList_length,
    r.toList_length, length_putU32, length_putU16, hashBytes]

theorem length_publicInput (identifier : Identifier) (q : Nat) (ends : List Digest) :
    (publicInput identifier q ends).length = 22 + hashBytes * ends.length := by
  simp only [publicInput, List.length_append, identifier.toList_length, length_flatten,
    length_putU32, length_putU16]

end Lengths

/-- The private value of one chain. -/
def privateElement (sha : Bytes → Digest) (identifier : Identifier) (seed : Digest)
    (q i : Nat) : Digest :=
  sha (identifier.toList ++ putU32 (.ofNat q) ++ putU16 (.ofNat i) ++ [0xff] ++ seed.toList)

/-- `count` steps of a chain from step `start` on. -/
def chain (sha : Bytes → Digest) (identifier : Identifier) (q i start count : Nat)
    (input : Digest) : Digest :=
  (List.range' start count).foldl
    (fun current j => sha (chainInput identifier q i j current)) input

/-- The message digest followed by its checksum. -/
def digestAndChecksum (sha : Bytes → Digest) (identifier : Identifier) (q : Nat) (C : Digest)
    (message : Bytes) : Bytes :=
  let digest := sha (identifier.toList ++ putU32 (.ofNat q) ++ putU16 dMesg ++ C.toList ++ message)
  digest.toList ++ putU16 (checksum digest.toList)

/-- The ends of all chains, which the public hash covers. -/
def chainEnds (sha : Bytes → Digest) (identifier : Identifier) (seed : Digest) (q : Nat) :
    List Digest :=
  (List.range p).map fun i =>
    chain sha identifier q i 0 maxChain (privateElement sha identifier seed q i)

def publicHash (sha : Bytes → Digest) (identifier : Identifier) (seed : Digest) (q : Nat) :
    Digest :=
  sha (publicInput identifier q (chainEnds sha identifier seed q))

theorem eval_derivePrivateElement :
    eval sha (derivePrivateElement identifier seed q i) =
      some (privateElement sha identifier seed q i) := by
  apply CryptoHelpers.eval_sha256
  simp only [List.length_append, identifier.toList_length, seed.toList_length, length_putU32,
    length_putU16, List.length_singleton]
  decide

theorem eval_chainHash (startStep endStep : Nat) (input : Digest) :
    eval sha (chainHash identifier q i startStep endStep input) =
      some (chain sha identifier q i startStep (endStep - startStep) input) := by
  apply eval_foldlM
  intro current j _
  exact CryptoHelpers.eval_sha256 (by rw [length_chainInput]; decide)

/-- Splitting a chain: the steps up to `middle`, then the remaining ones. -/
theorem chain_add (start first rest : Nat) (input : Digest) :
    chain sha identifier q i start (first + rest) input =
      chain sha identifier q i (start + first) rest
        (chain sha identifier q i start first input) := by
  rw [chain, ← List.range'_append_1, List.foldl_append]
  rfl

theorem coefficientW4_le (data : Bytes) (index : Nat) : (coefficientW4 data index).toNat ≤ 15 := by
  have mask : ∀ v : UInt8, (v &&& 0x0f).toNat ≤ 15 := by
    intro v
    rw [UInt8.toNat_and]
    exact Nat.and_le_right
  unfold coefficientW4
  split
  · exact mask _
  · exact mask _

theorem eval_hashMessageWithChecksum (scratchLength : Nat)
    (fits : 54 + message.length ≤ scratchLength) (small : scratchLength ≤ uint32Max) :
    eval sha (hashMessageWithChecksum identifier q C message scratchLength) =
      some (digestAndChecksum sha identifier q C message) := by
  have short : (identifier.toList ++ putU32 (.ofNat q) ++ putU16 dMesg ++ C.toList ++
      message).length ≤ uint32Max := by
    simp only [List.length_append, identifier.toList_length, C.toList_length, length_putU32,
      length_putU16, hashBytes]
    omega
  have required : ¬ (16 + 4 + 2 + hashBytes + message.length > scratchLength) := by
    simp only [hashBytes]
    omega
  simp only [hashMessageWithChecksum, if_neg required, eval_bind, eval_pure, Option.bind_some,
    CryptoHelpers.eval_sha256 short]
  rfl

theorem eval_lmotsPublicHash :
    eval sha (lmotsPublicHash identifier seed q) = some (publicHash sha identifier seed q) := by
  have chains : eval sha ((List.range p).mapM fun i => do
      let x ← derivePrivateElement identifier seed q i
      chainHash identifier q i 0 maxChain x) = some (chainEnds sha identifier seed q) := by
    apply eval_mapM
    intro i _
    rw [eval_bind, eval_derivePrivateElement, Option.bind_some, eval_chainHash, Nat.sub_zero]
  rw [lmotsPublicHash, eval_bind, chains, Option.bind_some]
  apply CryptoHelpers.eval_sha256
  rw [length_publicInput, chainEnds, List.length_map, List.length_range]
  decide

theorem eval_hashLeaf (node : Nat) (d : Digest) :
    eval sha (hashLeaf identifier node d) = some (sha (leafInput identifier node d)) :=
  CryptoHelpers.eval_sha256 (by rw [length_leafInput]; decide)

theorem eval_hashInternal (node : Nat) (l r : Digest) :
    eval sha (hashInternal identifier node l r) = some (sha (internalInput identifier node l r)) :=
  CryptoHelpers.eval_sha256 (by rw [length_internalInput]; decide)

/-- The leaf of index `q`. -/
def leafDigest (sha : Bytes → Digest) (identifier : Identifier) (seed : Digest) (q : Nat) :
    Digest :=
  sha (leafInput identifier (lmsLeaves + q) (publicHash sha identifier seed q))

/-- What a completed tree is. -/
structure Built (sha : Bytes → Digest) (identifier : Identifier) (seed : Digest)
    (tree : Nat → Digest) : Prop where
  leaf : ∀ q, q < lmsLeaves → tree (lmsLeaves + q) = leafDigest sha identifier seed q
  internal : HashTree.Internal sha (internalInput identifier) tree lmsLeaves

/-- The last layer as the first loop leaves it. -/
private def leafLayer (sha : Bytes → Digest) (identifier : Identifier) (seed : Digest)
    (tree : Nat → Digest) (count : Nat) : Nat → Digest :=
  (List.range count).foldl (fun tree q =>
    Function.update tree (lmsLeaves + q) (leafDigest sha identifier seed q)) tree

private theorem leafLayer_leaf (tree : Nat → Digest) (count : Nat) {q : Nat} (hq : q < count) :
    leafLayer sha identifier seed tree count (lmsLeaves + q) =
      leafDigest sha identifier seed q := by
  induction count with
  | zero => omega
  | succ count ih =>
      rw [leafLayer, List.range_succ, List.foldl_append, List.foldl_cons, List.foldl_nil]
      by_cases last : q = count
      · rw [last, Function.update_self]
      · rw [Function.update_of_ne (by omega)]
        exact ih (by omega)

private theorem eval_leafStep (tree : Nat → Digest) (q : Nat) :
    eval sha (do
      let lmotsHash ← lmotsPublicHash identifier seed q
      let leaf ← hashLeaf identifier (lmsLeaves + q) lmotsHash
      return Function.update tree (lmsLeaves + q) leaf) =
    some (Function.update tree (lmsLeaves + q) (leafDigest sha identifier seed q)) := by
  simp only [eval_bind, eval_lmotsPublicHash, Option.bind_some, eval_hashLeaf, eval_pure]
  rfl

private theorem eval_buildLeaves (tree : Nat → Digest) :
    eval sha (buildLeaves identifier seed tree) =
      some (leafLayer sha identifier seed tree lmsLeaves) :=
  eval_foldlM _ _ fun tree q _ => eval_leafStep tree q

private theorem eval_internalStep (tree : Nat → Digest) (node : Nat) :
    eval sha (do
      let parent ← hashInternal identifier node (tree (2 * node)) (tree (2 * node + 1))
      return Function.update tree node parent) =
    some (Function.update tree node
      (sha (internalInput identifier node (tree (2 * node)) (tree (2 * node + 1))))) := by
  simp only [eval_bind, eval_hashInternal, Option.bind_some, eval_pure]

private theorem eval_buildInternal (tree : Nat → Digest) :
    eval sha (buildInternal identifier tree) =
      some (HashTree.fill sha (internalInput identifier) (lmsLeaves - 1) tree) := by
  rw [← HashTree.foldl_reverse_range'_eq_fill]
  exact eval_foldlM _ _ fun tree node _ => eval_internalStep tree node

/-- The tree `buildTree` leaves, whatever the memory held before. -/
private def finalTree (sha : Bytes → Digest) (identifier : Identifier) (seed : Digest)
    (tree : Nat → Digest) : Nat → Digest :=
  HashTree.fill sha (internalInput identifier) (lmsLeaves - 1)
    (leafLayer sha identifier seed tree lmsLeaves)

private theorem finalTree_built (tree : Nat → Digest) :
    Built sha identifier seed (finalTree sha identifier seed tree) where
  leaf q hq := by
    rw [finalTree, HashTree.fill_above _ _ _ _ (by omega)]
    exact leafLayer_leaf tree lmsLeaves hq
  internal := HashTree.fill_internal sha (internalInput identifier) (lmsLeaves - 1) _

private theorem eval_buildTree_eq {lms : LmotsLms} {allocated : Nat → Digest}
    (memory : lms.tree = some allocated) :
    eval sha lms.buildTree =
      some { lms with
        seed := zeroDigest
        tree := some (finalTree sha lms.identifier lms.seed allocated) } := by
  simp only [buildTree, memory, eval_bind, eval_buildLeaves, eval_buildInternal,
    Option.bind_some, eval_pure]
  rfl

/-- Building succeeds whenever the tree memory was allocated. -/
theorem exists_eval_buildTree {lms : LmotsLms} {allocated : Nat → Digest}
    (memory : lms.tree = some allocated) : ∃ built, eval sha lms.buildTree = some built :=
  ⟨_, eval_buildTree_eq memory⟩

/-- A build that succeeds completes the tree of the object's identifier and seed. -/
theorem eval_buildTree {lms built : LmotsLms} (done : eval sha lms.buildTree = some built) :
    built.identifier = lms.identifier ∧
      ∃ tree, built.tree = some tree ∧ Built sha lms.identifier lms.seed tree := by
  cases memory : lms.tree with
  | none =>
      rw [buildTree, memory] at done
      cases done
  | some allocated =>
      rw [eval_buildTree_eq memory] at done
      cases done
      exact ⟨rfl, _, rfl, finalTree_built allocated⟩

section Hashed

/-- The iteration of index `i` stands between the ones before and after it. -/
private theorem range'_split {start count i : Nat} (low : start ≤ i) (high : i < start + count) :
    List.range' start count =
      List.range' start (i - start) ++ i :: List.range' (i + 1) (start + count - i - 1) := by
  have joined := @List.range'_append_1 start (i - start) (start + count - i)
  rw [show start + (i - start) = i by omega,
    show start + count - i = start + count - i - 1 + 1 by omega, List.range'_succ,
    show i - start + (start + count - i - 1 + 1) = count by omega] at joined
  exact joined.symm

variable {lms built : LmotsLms} {tree : Nat → Digest}

/-- The iteration of every leaf makes its calls. -/
private theorem leafStep_hashed (done : eval sha lms.buildTree = some built) (hq : q < lmsLeaves) :
    ∃ tree : Nat → Digest, hashed sha (do
      let lmotsHash ← lmotsPublicHash lms.identifier lms.seed q
      let leaf ← hashLeaf lms.identifier (lmsLeaves + q) lmotsHash
      return Function.update tree (lmsLeaves + q) leaf) ⊆ hashed sha lms.buildTree := by
  cases memory : lms.tree with
  | none =>
      rw [buildTree, memory] at done
      cases done
  | some allocated =>
      simp only [buildTree, memory]
      have split := @range'_split 0 lmsLeaves q (Nat.zero_le q) (by omega)
      refine ⟨(List.range' 0 (q - 0)).foldl (fun tree q => Function.update tree (lmsLeaves + q)
        (leafDigest sha lms.identifier lms.seed q)) allocated,
        List.Subset.trans ?_ (hashed_subset_bind (buildLeaves _ _ _) _)⟩
      rw [buildLeaves, List.range_eq_range', split]
      exact Fallible.calls_subset_foldlM _ _ _ _ (fun tree q _ => eval_leafStep tree q)

/-- So does the computation of its public hash. -/
theorem lmotsPublicHash_hashed (done : eval sha lms.buildTree = some built) (hq : q < lmsLeaves) :
    hashed sha (lmotsPublicHash lms.identifier lms.seed q) ⊆ hashed sha lms.buildTree := by
  obtain ⟨tree, calls⟩ := leafStep_hashed done hq
  exact List.Subset.trans (hashed_subset_bind _ _) calls

/-- Every leaf preimage of a built tree was hashed while building it. -/
theorem leafInput_mem_hashed (done : eval sha lms.buildTree = some built) (hq : q < lmsLeaves) :
    leafInput lms.identifier (lmsLeaves + q) (publicHash sha lms.identifier lms.seed q) ∈
      hashed sha lms.buildTree := by
  obtain ⟨tree, calls⟩ := leafStep_hashed done hq
  apply calls
  apply hashed_subset_bind_of_eval eval_lmotsPublicHash
  apply hashed_subset_bind
  rw [hashLeaf, CryptoHelpers.hashed_sha256 (by rw [length_leafInput]; decide)]
  exact List.mem_singleton_self _

/-- Every internal preimage of a built tree was hashed while building it. -/
theorem internalInput_mem_hashed (done : eval sha lms.buildTree = some built)
    (stored : built.tree = some tree) {node : Nat} (low : 1 ≤ node) (high : node < lmsLeaves) :
    internalInput lms.identifier node (tree (2 * node)) (tree (2 * node + 1)) ∈
      hashed sha lms.buildTree := by
  cases memory : lms.tree with
  | none =>
      rw [buildTree, memory] at done
      cases done
  | some allocated =>
      rw [eval_buildTree_eq memory, Option.some.injEq] at done
      subst done
      obtain rfl := Option.some.inj stored
      simp only [buildTree, memory]
      apply hashed_subset_bind_of_eval (eval_buildLeaves allocated)
      apply hashed_subset_bind
      -- The loop runs downwards, so the iteration of `node` comes after the higher ones.
      have split := congrArg List.reverse
        (range'_split low (by omega : node < 1 + (lmsLeaves - 1)))
      rw [List.reverse_append, List.reverse_cons, List.append_assoc, List.singleton_append] at split
      have last : node :: (List.range' 1 (node - 1)).reverse = (List.range' 1 node).reverse := by
        rw [show node = node - 1 + 1 by omega, List.range'_1_concat, List.reverse_append,
          Nat.add_sub_cancel, Nat.add_comm 1 (node - 1)]
        rfl
      rw [buildInternal, split]
      -- The remaining iterations fill the nodes up to `node` and leave its children alone.
      have whole := HashTree.foldl_reverse_range'_eq_fill sha (internalInput lms.identifier)
        (lmsLeaves - 1) (leafLayer sha lms.identifier lms.seed allocated lmsLeaves)
      rw [split, List.foldl_append, last, HashTree.foldl_reverse_range'_eq_fill] at whole
      rw [finalTree, ← whole, HashTree.fill_above _ _ _ _ (by omega),
        HashTree.fill_above _ _ _ _ (by omega)]
      apply Fallible.calls_subset_foldlM _ _ _ _ (fun tree node _ => eval_internalStep tree node)
      apply hashed_subset_bind
      rw [hashInternal, CryptoHelpers.hashed_sha256 (by rw [length_internalInput]; decide)]
      exact List.mem_singleton_self _

end Hashed

end LmotsLms

end Puav
