import PostQuantumUav.Library.Bytes.Within
import PostQuantumUav.Library.Interaction.FailStop
import PostQuantumUav.Puav.Lms.Member

/-!
# The tree is built without keeping its seed

Every allocation and every SHA-256 call of `initialize` and `buildTree` may fail, and the
methods return false exactly then. When they succeed, `m_seed` is zero and nothing of the
seed is left in `m_smallHashInput`: the input of an internal node is longer than the
strings that the seed was written in, and covers them. The last one is the input of the root.
-/

namespace Puav.LmsMember

open Interaction Cell Buffer

variable {α : Type} [Cell α]

/-- Allocations and SHA-256 calls may fail. One outcome is recorded for each of them. -/
def Answered (hash : List α → Hash α) : World (calls α) (List Bool) :=
  fun outcomes event outcomes' =>
    match event with
    | ⟨.malloc, (allocated : Bool)⟩ => outcomes' = outcomes ++ [allocated]
    | ⟨.sha256 data, (digest : Option (Hash α))⟩ =>
        (digest = none ∨ digest = some (hash data)) ∧ outcomes' = outcomes ++ [digest.isSome]
    | ⟨.fillRandom, _⟩ => outcomes' = outcomes

/-- The length of the longest string that is put together during construction. -/
abbrev internalInputBytes : Nat := 16 + 4 + 2 + hashBytes + hashBytes

/-- A member without a seed: it has cells of one kind only, but for the first cells of the buffer
in which strings are put together. -/
structure Covered (kind : α → Prop) (front : Nat) (lms : LmsMember α) : Prop where
  seed : lms.seed = zeroHash
  nodes : ∀ tree, lms.tree = some tree → ∀ node, Within kind (tree node).toList
  publicInput : Within kind lms.publicHashInput.toList
  behind : Within kind (lms.smallHashInput.toList.drop front)

/-- A member with a tree under construction: its cells are of the kind, and `behind` is what lies
behind the strings of the construction. -/
structure Building (kind : α → Prop) (identifier : Identifier) (behind : List α)
    (lms : LmsMember α) : Prop where
  allocated : lms.tree.isSome = true
  identifier : lms.identifier = identifier
  nodes : ∀ tree, lms.tree = some tree → ∀ node, Within kind (tree node).toList
  publicInput : Within kind lms.publicHashInput.toList
  behind : lms.smallHashInput.toList.drop internalInputBytes = behind

/-- A member whose tree is complete: the seed is zero, and the buffer has the string of the root
over what was behind it. -/
structure Complete (kind : α → Prop) (identifier : Identifier) (behind : List α)
    (lms : LmsMember α) : Prop where
  seed : lms.seed = zeroHash
  nodes : ∀ tree, lms.tree = some tree → ∀ node, Within kind (tree node).toList
  publicInput : Within kind lms.publicHashInput.toList
  root : ∃ tree, lms.tree = some tree ∧
    lms.smallHashInput.toList = internalInput identifier 1 (tree 2) (tree 3) ++ behind

section Calls

variable {hash : List α → Hash α} {lms : LmsMember α}

omit [Cell α] in
/-- A call to SHA-256 alone. -/
theorem failStop_digest {data : List α} {post : Hash α → LmsMember α → Prop}
    (h : post (hash data) lms) :
    Routine.FailStop (Answered hash) (false ∈ ·) post
      (Routine.orFail (@Routine.perform (calls α) _ (.sha256 data))) lms := by
  refine fun outcomes intact => Routine.ensures_orFail.mpr fun digest outcomes' step =>
    ⟨trivial, ?_⟩
  obtain ⟨rfl | rfl, rfl⟩ := step
  · exact ⟨fun _ => List.mem_append_right _ List.mem_cons_self, nofun⟩
  · refine ⟨nofun, fun b returned => ⟨fun mem => ?_, ?_⟩⟩
    · rcases List.mem_append.mp mem with before | now
      · exact intact before
      · nomatch List.mem_singleton.mp now
    · cases Option.some.inj returned
      exact h

omit [Cell α] in
theorem failStop_sha256 {data : List α} {post : Hash α → LmsMember α → Prop}
    (h : post (hash data) { lms with smallHashInput := overwrite lms.smallHashInput data }) :
    Routine.FailStop (Answered hash) (false ∈ ·) post (sha256 data) lms :=
  Routine.FailStop.modify (failStop_digest h)

omit [Cell α] in
theorem failStop_malloc {post : Unit → LmsMember α → Prop} (h : post () lms) :
    Routine.FailStop (Answered hash) (false ∈ ·) post
      (Routine.check (@Routine.perform (calls α) _ .malloc)) lms := by
  refine fun outcomes intact => Routine.ensures_check.mpr fun allocated outcomes' step =>
    ⟨trivial, ?_⟩
  cases allocated with
  | false =>
      cases step
      exact ⟨fun _ => List.mem_append_right _ List.mem_cons_self, nofun⟩
  | true =>
      cases step
      refine ⟨nofun, fun _ _ => ⟨fun mem => ?_, h⟩⟩
      rcases List.mem_append.mp mem with before | now
      · exact intact before
      · nomatch List.mem_singleton.mp now

end Calls

omit [Cell α] in
/-- Every call can succeed. -/
theorem answered_success (hash : List α → Hash α) (outcomes : List Bool) (c : (calls α).Call)
    (drawn : Hash α) : ∃ a outcomes', Answered hash outcomes ⟨c, a⟩ outcomes' ∧
      (false ∉ outcomes → false ∉ outcomes') := by
  have longer : false ∉ outcomes → false ∉ outcomes ++ [true] := by
    intro intact mem
    rcases List.mem_append.mp mem with before | now
    · exact intact before
    · nomatch List.mem_singleton.mp now
  cases c with
  | malloc => exact ⟨true, _, rfl, longer⟩
  | sha256 data => exact ⟨some (hash data), _, ⟨.inr rfl, rfl⟩, longer⟩
  | fillRandom => exact ⟨drawn, _, rfl, id⟩

section Strings

variable (identifier : Identifier) (q : Nat)

theorem length_privateInput (seed : Hash α) (chainIndex : Nat) :
    (privateInput identifier seed q chainIndex).length = 55 := by
  simp only [privateInput, List.length_append, length_ofBytes, length_putU32, length_putU16,
    List.Vector.toList_length, List.length_cons, List.length_nil]
  rfl

theorem length_chainInput (chainIndex j : Nat) (current : Hash α) :
    (chainInput identifier q chainIndex j current).length = 55 := by
  simp only [chainInput, List.length_append, length_ofBytes, length_putU32, length_putU16,
    List.Vector.toList_length, List.length_cons, List.length_nil]
  rfl

theorem length_leafInput (lmotsHash : Hash α) : (leafInput identifier q lmotsHash).length = 54 := by
  simp only [leafInput, List.length_append, length_ofBytes, length_putU32, length_putU16,
    List.Vector.toList_length]
  rfl

theorem length_internalInput (left right : Hash α) :
    (internalInput identifier q left right).length = internalInputBytes := by
  simp only [internalInput, List.length_append, length_ofBytes, length_putU32, length_putU16,
    List.Vector.toList_length]

theorem within_internalInput {kind : α → Prop} (bytes : ∀ b : UInt8, kind (ofByte b))
    {left right : Hash α} (first : Within kind left.toList) (second : Within kind right.toList) :
    Within kind (internalInput identifier q left right) := by
  simp only [internalInput, within_append, within_ofBytes bytes, within_putU32 bytes,
    within_putU16 bytes, first, second, and_self]

end Strings

section Construction

variable {hash : List α → Hash α} {lms : LmsMember α} {kind : α → Prop} {identifier : Identifier}
  {behind : List α}

omit [Cell α] in
theorem Building.wrote (building : Building kind identifier behind lms) {data : List α}
    (short : data.length ≤ internalInputBytes) : Building kind identifier behind
      { lms with smallHashInput := overwrite lms.smallHashInput data } := by
  refine ⟨building.allocated, building.identifier, building.nodes, building.publicInput, ?_⟩
  have rest : (overwrite lms.smallHashInput data).toList.drop internalInputBytes =
      lms.smallHashInput.toList.drop internalInputBytes := drop_overwrite (by decide) short
  exact rest.trans building.behind

omit [Cell α] in
/-- A node with a hash. -/
theorem Building.setNode (building : Building kind identifier behind lms) (node : Nat)
    {value : Hash α} (hashed : Within kind value.toList) : Building kind identifier behind
      { lms with tree := lms.tree.map (Function.update · node value) } := by
  refine ⟨?_, building.identifier, ?_, building.publicInput, building.behind⟩
  · rw [Option.isSome_map]
    exact building.allocated
  · intro tree updated other
    obtain ⟨old, present, rfl⟩ := Option.map_eq_some_iff.mp updated
    by_cases same : other = node
    · subst same
      rw [Function.update_self]
      exact hashed
    · rw [Function.update_of_ne same]
      exact building.nodes old present other

variable (hashed : ∀ data, Within kind (hash data).toList)

include hashed

theorem failStop_derivePrivateElement (building : Building kind identifier behind lms)
    (own : Identifier) (seed : Hash α) (q chainIndex : Nat) :
    Routine.FailStop (Answered hash) (false ∈ ·)
      (fun value lms => Building kind identifier behind lms ∧ Within kind value.toList)
      (derivePrivateElement own seed q chainIndex) lms := by
  have length := length_privateInput own q seed chainIndex
  exact failStop_sha256 ⟨building.wrote (by rw [length]; decide), hashed _⟩

theorem failStop_chainHash (building : Building kind identifier behind lms) (own : Identifier)
    (q chainIndex startStep endStep : Nat) {input : Hash α} (clean : Within kind input.toList) :
    Routine.FailStop (Answered hash) (false ∈ ·)
      (fun value lms => Building kind identifier behind lms ∧ Within kind value.toList)
      (chainHash own q chainIndex startStep endStep input) lms := by
  refine Routine.FailStop.foldlM _ (fun current j lms built => ?_) ⟨building, clean⟩
  have length := length_chainInput own q chainIndex j current
  exact failStop_sha256 ⟨built.1.wrote (by rw [length]; decide), hashed _⟩

variable (bytes : ∀ b : UInt8, kind (ofByte b))

include bytes

/-- The chains of one leaf are written to the other buffer. -/
theorem failStop_lmotsPublicHash (building : Building kind identifier behind lms)
    (own : Identifier) (seed : Hash α) (q : Nat) :
    Routine.FailStop (Answered hash) (false ∈ ·) (fun _ lms => Building kind identifier behind lms)
      (lmotsPublicHash own seed q) lms := by
  have header : Within kind (ofBytes own.toList ++ putU32 (.ofNat q) ++ putU16 LmotsLms.dPblc) :=
    within_append.mpr ⟨within_append.mpr ⟨within_ofBytes bytes _, within_putU32 bytes _⟩,
      within_putU16 bytes _⟩
  refine Routine.FailStop.modify (Routine.FailStop.bind (@Routine.FailStop.forM _ _ _ _ _ _ _ _
    (Building kind identifier behind) _ (fun i lms building => ?_)
    ⟨building.allocated, building.identifier, building.nodes,
      building.publicInput.overwrite header, building.behind⟩) fun _ lms building => ?_)
  · refine (failStop_derivePrivateElement hashed building own seed q i).bind
      fun x lms built => ?_
    refine (failStop_chainHash hashed built.1 own q i 0 LmotsLms.maxChain built.2).bind
      fun chainEnd lms built => ?_
    exact Routine.failStop_modify ⟨built.1.allocated, built.1.identifier, built.1.nodes,
      built.1.publicInput.writeAt _ built.2, built.1.behind⟩
  · exact Routine.FailStop.get (failStop_digest building)

theorem failStop_buildLeaf (building : Building kind identifier behind lms) (q : Nat) :
    Routine.FailStop (Answered hash) (false ∈ ·) (fun _ lms => Building kind identifier behind lms)
      (buildLeaf q) lms := by
  apply Routine.FailStop.get
  refine (failStop_lmotsPublicHash hashed bytes building lms.identifier lms.seed q).bind
    fun lmotsHash lms' building => ?_
  have length := length_leafInput lms.identifier (lmsLeaves + q) lmotsHash
  have leaf : Routine.FailStop (Answered hash) (false ∈ ·) (fun leaf lms =>
      Building kind identifier behind lms ∧ Within kind leaf.toList)
      (sha256 (leafInput lms.identifier (lmsLeaves + q) lmotsHash)) lms' :=
    failStop_sha256 ⟨building.wrote (by rw [length]; decide), hashed _⟩
  exact leaf.bind fun leaf lms built => Routine.failStop_modify (built.1.setNode _ built.2)

omit bytes in
/-- The input of an internal node covers all that was written before. The loop has its own copy of
the tree. -/
theorem failStop_buildNode (building : Building kind identifier behind lms) {tree : Nat → Hash α}
    (stored : lms.tree = some tree) (node : Nat) :
    Routine.FailStop (Answered hash) (false ∈ ·) (fun tree' lms' =>
      Building kind identifier behind lms' ∧ lms'.tree = some tree' ∧
      (∃ value, tree' = Function.update tree node value) ∧ lms'.smallHashInput.toList =
        internalInput identifier node (tree (2 * node)) (tree (2 * node + 1)) ++ behind)
      (buildNode tree node) lms := by
  apply Routine.FailStop.get
  rw [building.identifier]
  let input := internalInput identifier node (tree (2 * node)) (tree (2 * node + 1))
  have length : input.length = internalInputBytes := length_internalInput _ _ _ _
  have written : (overwrite lms.smallHashInput input).toList = input ++ behind := by
    rw [toList_overwrite_front (by rw [length]; decide), length, building.behind]
  have digest : Routine.FailStop (Answered hash) (false ∈ ·) (fun value lms' =>
      Building kind identifier behind lms' ∧ Within kind value.toList ∧
        lms'.tree = some tree ∧ lms'.smallHashInput.toList = input ++ behind) (sha256 input) lms :=
    failStop_sha256 ⟨building.wrote (Nat.le_of_eq length), hashed _, stored, written⟩
  refine digest.attempt ?_ ?_
  · rintro value lms' ⟨building, clean, stored, scratch⟩
    refine Routine.FailStop.modify
      (Routine.failStop_pure ⟨building.setNode node clean, ?_, ⟨value, rfl⟩, scratch⟩)
    rw [stored]
    rfl
  · exact fun _ _ => ⟨rfl, rfl⟩

omit bytes in
/-- The root comes last. -/
theorem failStop_buildNodes (building : Building kind identifier behind lms) {tree : Nat → Hash α}
    (stored : lms.tree = some tree) (items : List Nat) :
    Routine.FailStop (Answered hash) (false ∈ ·) (fun _ lms =>
      Complete kind identifier behind { lms with seed := zeroHash })
      ((items ++ [1]).foldlM buildNode tree) lms := by
  rw [List.foldlM_append]
  have inner : Routine.FailStop (Answered hash) (false ∈ ·) (fun tree lms =>
      Building kind identifier behind lms ∧ lms.tree = some tree)
      (items.foldlM buildNode tree) lms :=
    Routine.FailStop.foldlM items (fun tree node lms built =>
      (failStop_buildNode hashed built.1 built.2 node).mono
        fun _ _ next => ⟨next.1, next.2.1⟩) ⟨building, stored⟩
  refine inner.bind fun tree lms built => ?_
  rw [List.foldlM_cons]
  refine (failStop_buildNode hashed built.1 built.2 1).bind ?_
  rintro _ lms' ⟨building, stored, ⟨value, rfl⟩, scratch⟩
  refine Routine.failStop_pure ⟨rfl, building.nodes, building.publicInput, _, stored, ?_⟩
  rw [Function.update_of_ne (by decide), Function.update_of_ne (by decide)]
  exact scratch

/-- A tree that was built leaves nothing of its seed but what its nodes have. -/
theorem failStop_buildTree (building : Building kind identifier behind lms) :
    Routine.FailStop (Answered hash) (false ∈ ·) (fun _ lms => Complete kind identifier behind lms)
      buildTree lms := by
  have leaves : ∀ items : List Nat, Routine.FailStop (Answered hash) (false ∈ ·)
      (fun _ lms => Building kind identifier behind lms) (items.forM buildLeaf) lms := fun items =>
    Routine.FailStop.forM items (fun q lms building => failStop_buildLeaf hashed bytes building q)
      building
  have nodes : (List.range' 1 (lmsLeaves - 1)).reverse =
      (List.range' 2 (lmsLeaves - 2)).reverse ++ [1] := by
    rw [show lmsLeaves - 1 = lmsLeaves - 2 + 1 from rfl, List.range'_succ, List.reverse_cons]
  unfold buildTree
  rw [nodes]
  generalize List.range lmsLeaves = items, (List.range' 2 (lmsLeaves - 2)).reverse = inner at *
  refine Routine.FailStop.get (Routine.FailStop.guard building.allocated ?_)
  refine (leaves items).bind fun _ lms building => Routine.FailStop.get ?_
  obtain ⟨leaves, present⟩ := Option.isSome_iff_exists.mp building.allocated
  rw [present]
  exact (failStop_buildNodes hashed building present inner).bind
    fun _ lms complete => Routine.failStop_modify complete

omit hashed in
theorem failStop_initializeWith (identifier : Identifier) (seed : Hash α)
    (publicInput : Within kind lms.publicHashInput.toList) :
    Routine.FailStop (Answered hash) (false ∈ ·) (fun _ lms' => Building kind identifier
      (lms.smallHashInput.toList.drop internalInputBytes) lms')
      (initializeWith identifier seed) lms := by
  have started : ∀ lms' : LmsMember α, lms'.identifier = identifier →
      lms'.publicHashInput = lms.publicHashInput → lms'.smallHashInput = lms.smallHashInput →
      Building kind identifier (lms.smallHashInput.toList.drop internalInputBytes)
        { lms' with tree := some fun _ => zeroHash } := by
    intro lms' named same scratch
    refine ⟨rfl, named, fun tree zero node => ?_, same ▸ publicInput, scratch ▸ rfl⟩
    cases Option.some.inj zero
    exact within_replicate (bytes 0)
  refine Routine.FailStop.modify (Routine.FailStop.get ?_)
  split
  · have allocated : Routine.FailStop (Answered hash) (false ∈ ·) (fun _ lms' =>
        lms'.identifier = identifier ∧ lms'.publicHashInput = lms.publicHashInput ∧
          lms'.smallHashInput = lms.smallHashInput)
        (Routine.check (@Routine.perform (calls α) _ .malloc))
        { lms with identifier := identifier, seed := seed } :=
      failStop_malloc ⟨rfl, rfl, rfl⟩
    exact allocated.bind fun _ lms' kept =>
      Routine.failStop_modify (started lms' kept.1 kept.2.1 kept.2.2)
  · exact Routine.failStop_modify (started _ rfl rfl rfl)

omit hashed in
theorem Complete.covered (complete : Complete kind identifier behind lms)
    (rest : Within kind behind) : Covered kind 0 lms := by
  obtain ⟨tree, stored, scratch⟩ := complete.root
  refine ⟨complete.seed, complete.nodes, complete.publicInput, ?_⟩
  rw [List.drop_zero, scratch]
  exact within_append.mpr ⟨within_internalInput identifier 1 bytes
    (complete.nodes tree stored 2) (complete.nodes tree stored 3), rest⟩

end Construction

end Puav.LmsMember
