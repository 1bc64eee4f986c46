import PostQuantumUav.Library.Interaction.Discipline
import PostQuantumUav.Library.Interaction.Parts
import PostQuantumUav.Puav.Lms.Building
import PostQuantumUav.Puav.Lms.Completeness

/-!
# The buffers do not show

`LmsMember` puts the inputs of its hashes together in two buffers that nothing clears between
the calls, where `LmotsLms` hashes strings. Over bytes both compute the same, whatever the
buffers held before: a tree that is built is the one of `LmotsLms.buildTree`, and a signature is
the one of `LmotsLms.sign` under the randomizer that was drawn.

So it is over the whole life of an object, in which any call may fail and signatures follow
each other in any order, also behind ones that broke off half way.
-/

namespace Puav.LmsMember

open Interaction Cell Buffer Hashing

variable {sha : Bytes → Digest}

/-- The object without its buffers. -/
def plain (lms : LmsMember UInt8) : LmotsLms := ⟨lms.identifier, lms.seed, lms.tree⟩

/-- Only the buffer for short strings has changed. -/
structure Scratched (lms lms' : LmsMember UInt8) : Prop where
  plain : lms'.plain = lms.plain
  publicInput : lms'.publicHashInput = lms.publicHashInput

theorem Scratched.trans {lms lms' lms'' : LmsMember UInt8} (first : Scratched lms lms')
    (second : Scratched lms' lms'') : Scratched lms lms'' :=
  ⟨second.plain.trans first.plain, second.publicInput.trans first.publicInput⟩

section Strings

variable (identifier : Identifier) (q i j : Nat)

theorem privateInput_bytes (seed : Digest) : privateInput identifier seed q i =
    identifier.toList ++ putU32 (.ofNat q) ++ putU16 (.ofNat i) ++ [0xff] ++ seed.toList := by
  rw [privateInput, ofBytes_self]
  rfl

theorem chainInput_bytes (current : Digest) :
    chainInput identifier q i j current = LmotsLms.chainInput identifier q i j current := by
  rw [chainInput, ofBytes_self]
  rfl

theorem leafInput_bytes (digest : Digest) :
    leafInput identifier q digest = LmotsLms.leafInput identifier q digest := by
  rw [leafInput, ofBytes_self]
  rfl

theorem internalInput_bytes (left right : Digest) :
    internalInput identifier q left right = LmotsLms.internalInput identifier q left right := by
  rw [internalInput, ofBytes_self]
  rfl

end Strings

section Chains

variable {lms : LmsMember UInt8} (identifier : Identifier) (seed : Digest) (q i : Nat)

theorem failStop_scratched (data : Bytes) :
    Routine.FailStop (Answered sha) (false ∈ ·)
      (fun digest lms' => digest = sha data ∧ Scratched lms lms') (sha256 data) lms :=
  failStop_sha256 ⟨rfl, rfl, rfl⟩

theorem derivePrivateElement_refines :
    Routine.FailStop (Answered sha) (false ∈ ·)
      (fun x lms' => x = LmotsLms.privateElement sha identifier seed q i ∧ Scratched lms lms')
      (derivePrivateElement identifier seed q i) lms := by
  refine (failStop_scratched _).mono ?_
  rintro x lms' ⟨rfl, scratched⟩
  rw [privateInput_bytes]
  exact ⟨rfl, scratched⟩

theorem chainHash_refines (startStep endStep : Nat) (input : Digest) :
    Routine.FailStop (Answered sha) (false ∈ ·) (fun y lms' =>
        y = LmotsLms.chain sha identifier q i startStep (endStep - startStep) input ∧
          Scratched lms lms')
      (chainHash identifier q i startStep endStep input) lms := by
  refine Routine.FailStop.foldlM_front (fun front current lms' =>
    current = front.foldl (fun current j => sha (LmotsLms.chainInput identifier q i j current))
      input ∧ Scratched lms lms') _ ?_ ⟨rfl, rfl, rfl⟩
  rintro front j back current lms' - ⟨is, scratched⟩
  refine (failStop_scratched _).mono ?_
  rintro next lms'' ⟨rfl, again⟩
  rw [chainInput_bytes, List.foldl_append, ← is]
  exact ⟨rfl, scratched.trans again⟩

end Chains

/-- Of a range that is taken apart, the front is a range up to the item. -/
theorem front_range {count i : Nat} {front back : List Nat}
    (split : List.range count = front ++ i :: back) : front = List.range i ∧ i < count := by
  have inside : front.length < count := by
    have length := congrArg List.length split
    rw [List.length_range, List.length_append, List.length_cons] at length
    omega
  have item : (List.range count)[front.length]? = some i := by
    rw [split, List.getElem?_append_right (Nat.le_refl _), Nat.sub_self]
    rfl
  rw [List.getElem?_range inside, Option.some.injEq] at item
  subst item
  refine ⟨?_, inside⟩
  have taken := congrArg (List.take front.length) split
  rw [List.take_left, List.take_range, Nat.min_eq_left (Nat.le_of_lt inside)] at taken
  exact taken.symm

section Tree

variable {lms : LmsMember UInt8} (identifier : Identifier) (seed : Digest) (q : Nat)

/-- One chain of a public hash is written behind the ones before it. -/
theorem chainEnd_refines {i : Nat} (inside : i < LmotsLms.p) {front : Bytes}
    (written : lms.publicHashInput.toList.take (16 + 4 + 2 + i * hashBytes) = front) :
    Routine.FailStop (Answered sha) (false ∈ ·) (fun _ lms' => lms'.plain = lms.plain ∧
        lms'.publicHashInput.toList.take (16 + 4 + 2 + (i + 1) * hashBytes) =
          front ++ (LmotsLms.chain sha identifier q i 0 LmotsLms.maxChain
            (LmotsLms.privateElement sha identifier seed q i)).toList) (do
        let x ← derivePrivateElement identifier seed q i
        let chainEnd ← chainHash identifier q i 0 LmotsLms.maxChain x
        let offset := 16 + 4 + 2 + i * hashBytes
        modify fun lms =>
          { lms with publicHashInput := writeAt lms.publicHashInput offset chainEnd.toList })
      lms := by
  refine (derivePrivateElement_refines identifier seed q i).bind ?_
  rintro x lms' ⟨rfl, first⟩
  refine (chainHash_refines identifier q i 0 LmotsLms.maxChain _).bind ?_
  rintro chainEnd lms'' ⟨rfl, second⟩
  have both := first.trans second
  have fits : 16 + 4 + 2 + (i + 1) * hashBytes ≤ publicHashInputBytes := by
    simp only [publicHashInputBytes, LmotsLms.p, hashBytes] at *
    omega
  have stop : 16 + 4 + 2 + i * hashBytes + (LmotsLms.chain sha identifier q i 0
      (LmotsLms.maxChain - 0) (LmotsLms.privateElement sha identifier seed q i)).toList.length =
      16 + 4 + 2 + (i + 1) * hashBytes := by
    rw [List.Vector.toList_length, Nat.succ_mul, Nat.add_assoc]
  refine Routine.failStop_modify ⟨both.plain, ?_⟩
  rw [take_writeAt fits stop, both.publicInput, written]
  rfl

/-- The chain ends fill the other buffer from front to back. -/
theorem lmotsPublicHash_refines :
    Routine.FailStop (Answered sha) (false ∈ ·) (fun digest lms' =>
        digest = LmotsLms.publicHash sha identifier seed q ∧ lms'.plain = lms.plain)
      (lmotsPublicHash identifier seed q) lms := by
  let chainEnd := fun i => LmotsLms.chain sha identifier q i 0 LmotsLms.maxChain
    (LmotsLms.privateElement sha identifier seed q i)
  let header : Bytes := ofBytes identifier.toList ++ putU32 (.ofNat q) ++ putU16 LmotsLms.dPblc
  have headed : header.length = 16 + 4 + 2 := by
    simp only [header, List.length_append, length_ofBytes, identifier.toList_length,
      length_putU32, length_putU16]
  refine Routine.FailStop.modify (Routine.FailStop.bind (Routine.FailStop.forM_front
    (fun front (lms' : LmsMember UInt8) => lms'.plain = lms.plain ∧
      lms'.publicHashInput.toList.take (16 + 4 + 2 + front.length * hashBytes) =
        header ++ ((front.map chainEnd).map List.Vector.toList).flatten) _ ?_ ⟨rfl, ?_⟩) ?_)
  · rintro front i back lms' split ⟨plain, written⟩
    obtain ⟨rfl, inside⟩ := front_range split
    rw [List.length_range] at written
    refine (chainEnd_refines identifier seed q inside written).mono ?_
    rintro _ lms'' ⟨plain', written'⟩
    refine ⟨plain'.trans plain, ?_⟩
    rw [List.length_append, List.length_range, List.length_singleton, written']
    simp only [List.map_append, List.map_cons, List.map_nil, List.flatten_append,
      List.flatten_cons, List.flatten_nil, List.append_nil, List.append_assoc, chainEnd]
  · rw [toList_overwrite_front (by rw [headed]; decide), List.length_nil, Nat.zero_mul,
      Nat.add_zero, List.take_left' headed]
    exact (List.append_nil header).symm
  · rintro _ lms' ⟨plain, written⟩
    have whole : lms'.publicHashInput.toList = LmotsLms.publicInput identifier q
        (LmotsLms.chainEnds sha identifier seed q) := by
      rw [List.length_range, List.take_of_length_le
        (Nat.le_of_eq lms'.publicHashInput.toList_length)] at written
      rw [written, LmotsLms.publicInput, LmotsLms.chainEnds]
      exact congrArg (· ++ putU32 _ ++ putU16 _ ++ _) (ofBytes_self _)
    exact Routine.FailStop.get (failStop_digest ⟨congrArg sha whole, plain⟩)

variable {identifier seed q} {tree : Nat → Digest}

theorem plain_setNode (is : lms.plain = ⟨identifier, seed, some tree⟩) (node : Nat)
    (value : Digest) : plain { lms with tree := lms.tree.map (Function.update · node value) } =
      ⟨identifier, seed, some (Function.update tree node value)⟩ := by
  obtain ⟨rfl, rfl, stored⟩ := LmotsLms.mk.inj is
  rw [plain, stored]
  rfl

/-- A leaf is written to the tree. -/
theorem buildLeaf_refines (is : lms.plain = ⟨identifier, seed, some tree⟩) :
    Routine.FailStop (Answered sha) (false ∈ ·) (fun _ lms' => lms'.plain = ⟨identifier, seed,
        some (Function.update tree (lmsLeaves + q) (LmotsLms.leafDigest sha identifier seed q))⟩)
      (buildLeaf q) lms := by
  obtain ⟨rfl, rfl, stored⟩ := LmotsLms.mk.inj is
  refine Routine.FailStop.get ((lmotsPublicHash_refines lms.identifier lms.seed q).bind ?_)
  rintro lmotsHash lms' ⟨rfl, plain⟩
  refine (failStop_scratched _).bind ?_
  rintro leaf lms'' ⟨rfl, scratched⟩
  rw [leafInput_bytes]
  exact Routine.failStop_modify (plain_setNode ((scratched.plain.trans plain).trans is) _ _)

/-- An inner node is written to the tree, and to the copy of it. -/
theorem buildNode_refines {node : Nat} (is : lms.plain = ⟨identifier, seed, some tree⟩) :
    Routine.FailStop (Answered sha) (false ∈ ·) (fun tree' lms' => tree' = Function.update tree
        node (sha (LmotsLms.internalInput identifier node (tree (2 * node))
          (tree (2 * node + 1)))) ∧ lms'.plain = ⟨identifier, seed, some tree'⟩)
      (buildNode tree node) lms := by
  obtain ⟨rfl, rfl, stored⟩ := LmotsLms.mk.inj is
  refine Routine.FailStop.get ((failStop_scratched _).attempt ?_ ?_)
  · rintro value lms' ⟨rfl, scratched⟩
    rw [internalInput_bytes]
    exact Routine.FailStop.modify (Routine.failStop_pure
      ⟨rfl, plain_setNode (scratched.plain.trans is) _ _⟩)
  · exact fun _ _ => ⟨rfl, rfl⟩

/-- The first loop of `buildTree`. -/
theorem buildLeaves_refine (items : List Nat) (is : lms.plain = ⟨identifier, seed, some tree⟩) :
    Routine.FailStop (Answered sha) (false ∈ ·) (fun _ lms' => ∃ tree',
        lms'.plain = ⟨identifier, seed, some tree'⟩ ∧ eval sha (items.foldlM (fun tree q => do
          let lmotsHash ← LmotsLms.lmotsPublicHash identifier seed q
          let leaf ← LmotsLms.hashLeaf identifier (lmsLeaves + q) lmotsHash
          return Function.update tree (lmsLeaves + q) leaf) tree) = some tree')
      (items.forM buildLeaf) lms := by
  refine Routine.FailStop.forM_front (fun front (lms' : LmsMember UInt8) => ∃ tree',
    lms'.plain = ⟨identifier, seed, some tree'⟩ ∧ eval sha (front.foldlM _ tree) = some tree')
    items ?_ ⟨tree, is, rfl⟩
  rintro front q back lms' - ⟨tree', is', computed⟩
  refine (buildLeaf_refines is').mono fun _ lms'' is'' => ⟨_, is'', ?_⟩
  rw [List.foldlM_append, eval_bind, computed, Option.bind_some]
  simp only [List.foldlM_cons, List.foldlM_nil, eval_bind, eval_pure, Option.bind_some,
    LmotsLms.eval_lmotsPublicHash, LmotsLms.eval_hashLeaf]
  rfl

/-- The second one. -/
theorem buildNodes_refine (items : List Nat) (is : lms.plain = ⟨identifier, seed, some tree⟩) :
    Routine.FailStop (Answered sha) (false ∈ ·) (fun tree' lms' =>
        lms'.plain = ⟨identifier, seed, some tree'⟩ ∧ eval sha (items.foldlM (fun tree node => do
          let parent ← LmotsLms.hashInternal identifier node (tree (2 * node))
            (tree (2 * node + 1))
          return Function.update tree node parent) tree) = some tree')
      (items.foldlM buildNode tree) lms := by
  refine Routine.FailStop.foldlM_front (fun front tree' (lms' : LmsMember UInt8) =>
    lms'.plain = ⟨identifier, seed, some tree'⟩ ∧ eval sha (front.foldlM _ tree) = some tree')
    items ?_ ⟨is, rfl⟩
  rintro front node back tree' lms' - ⟨is', computed⟩
  refine (buildNode_refines is').mono ?_
  rintro _ lms'' ⟨rfl, is''⟩
  refine ⟨is'', ?_⟩
  rw [List.foldlM_append, eval_bind, computed, Option.bind_some]
  simp only [List.foldlM_cons, List.foldlM_nil, eval_bind, eval_pure, Option.bind_some,
    LmotsLms.eval_hashInternal]

/-- The tree of `LmotsLms.buildTree`. -/
theorem buildTree_refines (is : lms.plain = ⟨identifier, seed, some tree⟩) :
    Routine.FailStop (Answered sha) (false ∈ ·) (fun _ lms' =>
      eval sha (LmotsLms.buildTree ⟨identifier, seed, some tree⟩) = some lms'.plain)
      buildTree lms := by
  have present : lms.tree.isSome = true := by
    rw [(LmotsLms.mk.inj is).2.2]
    rfl
  simp only [LmotsLms.buildTree, LmotsLms.buildLeaves, LmotsLms.buildInternal, eval_bind, eval_pure]
  unfold buildTree
  generalize List.range lmsLeaves = leaves, (List.range' 1 (lmsLeaves - 1)).reverse = nodes
  refine Routine.FailStop.get (Routine.FailStop.guard present
    ((buildLeaves_refine leaves is).bind ?_))
  rintro _ lms' ⟨tree', is', computed⟩
  apply Routine.FailStop.get
  rw [(LmotsLms.mk.inj is').2.2]
  refine (buildNodes_refine nodes is').bind ?_
  rintro built lms'' ⟨is'', computed'⟩
  apply Routine.failStop_modify
  obtain ⟨rfl, rfl, stored⟩ := LmotsLms.mk.inj is''
  rw [computed, Option.bind_some, computed', Option.bind_some, plain, stored]
  rfl

end Tree

section Sign

variable {lms : LmsMember UInt8} (q : Nat) {C : Digest} {message : Bytes}

variable (identifier : Identifier) (runtimeSeed : Digest) (data : Bytes)

variable {identifier runtimeSeed data}

end Sign

section Life

/-- A message that is to be signed. -/
structure Request where
  q : UInt32
  message : Bytes
  runtimeSeed : Digest

/-- There is a leaf for it, and room for it in the buffer. -/
def Request.Fits (request : Request) : Prop :=
  request.q.toNat < lmsLeaves ∧ request.message.length ≤ 970

/-- Signatures one after the other, of which any may fail. -/
def signAll : List Request → Method UInt8 (List (Option LmotsSignature))
  | [] => pure []
  | request :: later => do
      let answer ← Routine.attempt (sign request.q request.message request.runtimeSeed)
      let answers ← signAll later
      pure (answer :: answers)

/-- The life of an object. -/
def life (identifier : Identifier) (seed : Digest) (requests : List Request) :
    Method UInt8 (List (Option LmotsSignature)) := do
  initializeWith identifier seed
  buildTree
  signAll requests

/-- A request is answered with the signature of `LmotsLms.sign`, unless it does not fit or a call
has failed. -/
inductive Served (sha : Bytes → Digest) (model : LmotsLms) (failed : Prop) (request : Request) :
    Option LmotsSignature → Prop
  | signed {C : Digest} {signature : LmotsSignature} (fits : request.Fits)
      (same : eval sha (model.sign request.q.toNat request.message request.runtimeSeed C) =
        some signature) : Served sha model failed request (some signature)
  | refused (unfit : ¬ request.Fits) : Served sha model failed request none
  | failed (call : failed) : Served sha model failed request none

theorem Served.mono {model : LmotsLms} {failed failed' : Prop} {request : Request}
    {answer : Option LmotsSignature} (served : Served sha model failed request answer)
    (imp : failed → failed') : Served sha model failed' request answer := by
  cases served with
  | signed fits same => exact .signed fits same
  | refused unfit => exact .refused unfit
  | failed call => exact .failed (imp call)

variable {lms : LmsMember UInt8} {model : LmotsLms}

theorem initializeWith_refines (identifier : Identifier) (seed : Digest) :
    Routine.FailStop (Answered sha) (false ∈ ·)
      (fun _ lms' => LmotsLms.initializeWith identifier seed true = some lms'.plain)
      (initializeWith identifier seed) lms := by
  refine Routine.FailStop.modify (Routine.FailStop.get ?_)
  split
  · have allocated : Routine.FailStop (Answered sha) (false ∈ ·)
        (fun _ lms' => lms'.identifier = identifier ∧ lms'.seed = seed)
        (Routine.check (@Routine.perform (calls UInt8) _ .malloc))
        { lms with identifier := identifier, seed := seed } := failStop_malloc ⟨rfl, rfl⟩
    refine allocated.bind fun _ lms' named => Routine.failStop_modify ?_
    rw [plain, named.1, named.2]
    rfl
  · exact Routine.failStop_modify rfl

end Life

end Puav.LmsMember
