import PostQuantumUav.Library.Interaction.Discipline
import PostQuantumUav.Puav.Boot
import PostQuantumUav.Puav.Lms.Refinement

/-!
# The seed of the tree after `begin`

`begin` copies the seed into `m_bootSeed`, into `m_seed` of the LMS object and into the
strings that this object hashes. Every step may fail, and the two methods of the LMS
object run on its fields as they are.

`m_bootSeed` is zeroed behind the construction of the tree only, so it keeps the seed
exactly when an allocation or a hash of the construction failed. The failure of an internal
node is followed by `secureZero` of `m_seed`, the failure of a leaf is not.
-/

namespace Puav.ProposedUavProtocol

open Interaction Cell Buffer

variable {α κ : Type} [Cell α]

/-- What is behind the calls of `begin`: the methods of the LMS object, a derivation that
gives the seed or fails, and other calls with any answer. The outcomes of the allocation and of
the hashes of the LMS object are recorded. -/
def Provisioning (hash : List α → Hash α) (seed : Hash α) :
    World (calls α κ) (LmsMember α × List Bool) :=
  fun s event t =>
    match event with
    | ⟨.initializeLms identifier value, (ok : Bool)⟩ => ∃ result,
        Routine.Run (LmsMember.Answered hash) (LmsMember.initializeWith identifier value) s.1 s.2
          result t.1 t.2 ∧ ok = result.isSome
    | ⟨.buildTree, (ok : Bool)⟩ => ∃ result,
        Routine.Run (LmsMember.Answered hash) LmsMember.buildTree s.1 s.2 result t.1 t.2 ∧
          ok = result.isSome
    | ⟨.hkdfSha256 _ _ _ _, key⟩ =>
        (∀ value, key = some value → List.Vector.toList value = seed.toList) ∧ t = s
    | _ => t = s

/-- Nothing of the seed is left. -/
def Erased (seed : Hash α) (object : ProposedUavProtocol α κ) (lms : LmsMember α) : Prop :=
  object.bootSeed = LmsMember.zeroHash ∧ lms.seed = LmsMember.zeroHash ∧
    ¬ seed.toList <:+: lms.smallHashInput.toList

section Rest

/-- A call to the LMS object that sets it up. -/
def Call.SetsUp : Call α κ → Prop
  | .initializeLms _ _ => True
  | .buildTree => True
  | _ => False

/-- Steps that leave the LMS object alone and keep `m_bootSeed`. -/
def afterwards (bootSeed : Hash α) : Discipline (calls α κ) (ProposedUavProtocol α κ) where
  allowed c := ¬c.SetsUp
  answered _ _ := True
  kept object := object.bootSeed = bootSeed

variable {hash : List α → Hash α} {seed bootSeed : Hash α}

theorem Provisioning.other {s t : LmsMember α × List Bool} {c : Call α κ}
    {a : (calls α κ).Answer c} (other : ¬c.SetsUp) (step : Provisioning hash seed s ⟨c, a⟩ t) :
    t = s := by
  cases c with
  | initializeLms _ _ => exact absurd trivial other
  | buildTree => exact absurd trivial other
  | hkdfSha256 _ _ _ _ => exact step.2
  | _ => exact step

omit [Cell α] in
theorem obeys_other {c : Call α κ} (other : ¬c.SetsUp) :
    Routine.Obeys (afterwards bootSeed) (fun _ => True) (call c : Method α κ _) :=
  (Routine.obeys_perform other).any

/-- A routine of such steps keeps the seed's copies as they are. -/
theorem ensures_afterwards {β : Type} {r : Method α κ β}
    (obeys : Routine.Obeys (afterwards bootSeed) (fun _ => True) r)
    {object : ProposedUavProtocol α κ} (same : object.bootSeed = bootSeed)
    (s : LmsMember α × List Bool) :
    Routine.Ensures (Provisioning hash seed) (fun _ => True) (fun _ object' t =>
      object'.bootSeed = bootSeed ∧ t = s) r object s := by
  have step : ∀ s' (c : Call α κ) (a : (calls α κ).Answer c) t, ¬c.SetsUp → s' = s →
      Provisioning hash seed s' ⟨c, a⟩ t → True ∧ t = s := by
    rintro _ c a t other rfl step
    exact ⟨trivial, Provisioning.other other step⟩
  refine (obeys.ensures step (fun _ _ => trivial) same rfl).mono ?_
  exact fun _ _ _ after => ⟨after.1, after.2.2⟩

omit [Cell α] in
theorem obeys_initializePersistentCounter : Routine.Obeys (afterwards bootSeed) (fun _ => True)
    (initializePersistentCounter : Method α κ Unit) := by
  refine Routine.Obeys.get fun protocol _ => ?_
  refine (Routine.Obeys.check_any (obeys_other id)).andThen fun _ => ?_
  refine Routine.Obeys.andThen ?_ fun _ => ?_
  · exact Routine.Obeys.ite (Routine.Obeys.andThen (obeys_other id) fun _ =>
      Routine.obeys_pure trivial) (Routine.obeys_pure trivial)
  · exact Routine.Obeys.andThen (obeys_other id) fun nextQ => (Routine.obeys_guard _).any

end Rest

section Exhausted

variable (hash : List α → Hash α) (seed : Hash α)

/-- `initialize` without memory for the tree. -/
theorem run_initializeWith (identifier : Identifier) :
    Routine.Run (LmsMember.Answered hash) (LmsMember.initializeWith identifier seed)
      LmsMember.constructed [] none
      { LmsMember.constructed with identifier := identifier, seed := seed } [false] :=
  .step (a := false) rfl (.stop _ _)

/-- `begin` on a device that has no memory for the tree. -/
theorem run_start {config : NodeConfig} (valid : ¬ (config.numberOfSessions = 0 ∨
    config.firstQ + config.numberOfSessions > .ofNat lmsLeaves)) :
    Routine.Run (Provisioning hash seed) (start : Method α κ Unit) (constructed config)
      (LmsMember.constructed, []) none { constructed config with bootSeed := seed }
      ({ LmsMember.constructed with identifier := config.lmsIdentifier, seed := seed },
        [false]) := by
  rw [start]
  refine (Routine.run_get).bind ((Routine.run_guard valid).bind ?_)
  refine .step (a := some LmsMember.zeroHash) rfl ?_
  refine .step (a := some LmsMember.zeroHash) rfl ?_
  refine .step (a := some seed) ⟨?_, rfl⟩ ?_
  · rintro _ returned
    cases Option.some.inj returned
    rfl
  · exact .step (a := false) ⟨none, run_initializeWith hash seed _, rfl⟩ (.stop _ _)

end Exhausted

section Begin

variable {hash : List α → Hash α} {seed : Hash α} {object : ProposedUavProtocol α κ}
  {initialized complete : LmsMember α → Prop}

/-- The two methods that `begin` calls of a new LMS object. They fail with a failed call, and
otherwise the first one leads to `initialized` and the second one to `complete`. -/
structure Constructs (hash : List α → Hash α) (identifier : Identifier) (seed : Hash α)
    (initialized complete : LmsMember α → Prop) : Prop where
  initializes : Routine.FailStop (LmsMember.Answered hash) (false ∈ ·) (fun _ => initialized)
    (LmsMember.initializeWith identifier seed) LmsMember.constructed
  builds : ∀ lms, initialized lms → Routine.FailStop (LmsMember.Answered hash) (false ∈ ·)
    (fun _ => complete) LmsMember.buildTree lms

/-- Either no call of the LMS object failed and `m_bootSeed` is zero, or `begin` gives up behind
one that did, with the seed in `m_bootSeed`. -/
def Settled (seed : Hash α) (complete : LmsMember α → Prop) (result : Option Unit)
    (object : ProposedUavProtocol α κ) (t : LmsMember α × List Bool) : Prop :=
  (object.bootSeed = LmsMember.zeroHash ∧ false ∉ t.2 ∧
    (result = none ∧ t.1 = LmsMember.constructed ∨ complete t.1)) ∨
    (result = none ∧ object.bootSeed = seed ∧ false ∈ t.2)

/-- The derivation gives the seed or fails. -/
theorem ensures_deriveSeed {s : LmsMember α × List Bool} (ikm salt info : List α) :
    Routine.Ensures (Provisioning hash seed) (fun _ => True) (fun result object' t =>
      object' = object ∧ t = s ∧ ∀ value, result = some value → value = seed)
      (hkdfSha256 ikm salt info hashBytes : Method α κ (Hash α)) object s := by
  refine Routine.ensures_orFail.mpr fun key t step => ⟨trivial, rfl, step.2, ?_⟩
  exact fun value returned => List.Vector.toList_injective (step.1 value returned)

/-- A method of the LMS object, called behind `if (!...) return false`. -/
theorem ensures_setUp {r : LmsMember.Method α Unit} {post : LmsMember α → Prop}
    {s : LmsMember α × List Bool} {c : Method α κ Bool}
    (stops : Routine.FailStop (LmsMember.Answered hash) (false ∈ ·) (fun _ => post) r s.1)
    (intact : false ∉ s.2)
    (runs : Routine.Ensures (Provisioning hash seed) (fun _ => True) (fun ok object' t =>
      object' = object ∧ ∃ result, Routine.Run (LmsMember.Answered hash) r s.1 s.2 result t.1 t.2 ∧
        ok = some result.isSome) c object s) :
    Routine.Ensures (Provisioning hash seed) (fun _ => True) (fun result object' t =>
      object' = object ∧ (result = none → false ∈ t.2) ∧
        (result = some () → false ∉ t.2 ∧ post t.1)) (Routine.check c) object s := by
  refine Routine.ensures_check.mpr (runs.mono ?_)
  rintro _ _ t ⟨rfl, result, run, rfl⟩
  obtain ⟨failed, succeeded⟩ := (stops s.2 intact).post_of_run run trivial
  cases result with
  | none => exact ⟨rfl, fun _ => failed rfl, nofun⟩
  | some _ => exact ⟨rfl, nofun, fun _ => succeeded () rfl⟩

theorem ensures_initializeLms {identifier : Identifier}
    (constructs : Constructs hash identifier seed initialized complete) :
    Routine.Ensures (Provisioning hash seed) (fun _ => True) (fun result object' t =>
      object' = object ∧ (result = none → false ∈ t.2) ∧
        (result = some () → false ∉ t.2 ∧ initialized t.1))
      (Routine.check (call (.initializeLms identifier seed)) : Method α κ Unit) object
      (LmsMember.constructed, []) := by
  refine ensures_setUp constructs.initializes List.not_mem_nil ?_
  rintro ok t ⟨result, run, rfl⟩
  exact ⟨trivial, rfl, result, run, rfl⟩

theorem ensures_buildTree {identifier : Identifier}
    (constructs : Constructs hash identifier seed initialized complete)
    {s : LmsMember α × List Bool} (holds : initialized s.1) (intact : false ∉ s.2) :
    Routine.Ensures (Provisioning hash seed) (fun _ => True) (fun result object' t =>
      object' = object ∧ (result = none → false ∈ t.2) ∧
        (result = some () → false ∉ t.2 ∧ complete t.1))
      (Routine.check (call .buildTree) : Method α κ Unit) object s := by
  refine ensures_setUp (constructs.builds s.1 holds) intact ?_
  rintro ok t ⟨result, run, rfl⟩
  exact ⟨trivial, rfl, result, run, rfl⟩

theorem ensures_prepareLmsAndLedger
    (constructs : Constructs hash object.config.lmsIdentifier seed initialized complete)
    (zeroed : object.bootSeed = LmsMember.zeroHash) :
    Routine.Ensures (Provisioning hash seed) (fun _ => True) (fun result object' t =>
      Settled seed complete result object' t ∧ (result = some () → complete t.1))
      prepareLmsAndLedger object (LmsMember.constructed, []) := by
  have unused : ∀ object : ProposedUavProtocol α κ, object.bootSeed = LmsMember.zeroHash →
      Settled seed complete none object (LmsMember.constructed, []) := fun object same =>
    .inl ⟨same, List.not_mem_nil, .inl ⟨rfl, rfl⟩⟩
  rw [prepareLmsAndLedger, Routine.ensures_bind, Routine.ensures_get]
  have digest := Routine.Obeys.orFail_any (@obeys_other α κ LmsMember.zeroHash
    (.sha256 (ofBytes object.config.hardcodedHelperData.toList)) id)
  refine (ensures_afterwards digest zeroed _).bind ?_ ?_
  · rintro object' _ ⟨same, rfl⟩
    exact ⟨unused object' same, nofun⟩
  rintro _ object' _ ⟨same, rfl⟩
  have reconstructed := Routine.Obeys.orFail_any (@obeys_other α κ LmsMember.zeroHash
    .reconstruct id)
  refine (ensures_afterwards reconstructed same _).bind ?_ ?_
  · rintro object' _ ⟨same, rfl⟩
    exact ⟨unused object' same, nofun⟩
  rintro pufRoot object' _ ⟨same, rfl⟩
  have derived := @ensures_deriveSeed α κ _ hash seed object' (LmsMember.constructed, [])
  refine (derived pufRoot.toList [] _).bind ?_ ?_
  · rintro _ _ ⟨rfl, rfl, _⟩
    exact ⟨unused _ same, nofun⟩
  rintro value object' _ ⟨rfl, rfl, isSeed⟩
  obtain rfl := (isSeed value rfl).symm
  rw [Routine.ensures_bind, Routine.ensures_modify]
  refine (ensures_initializeLms constructs).bind ?_ ?_
  · rintro _ t ⟨rfl, failed, _⟩
    exact ⟨.inr ⟨rfl, rfl, failed rfl⟩, nofun⟩
  rintro _ _ t ⟨rfl, _, succeeded⟩
  obtain ⟨intact, holds⟩ := succeeded rfl
  refine (ensures_buildTree constructs holds intact).bind ?_ ?_
  · rintro _ t ⟨rfl, failed, _⟩
    exact ⟨.inr ⟨rfl, rfl, failed rfl⟩, nofun⟩
  rintro _ _ t ⟨rfl, _, succeeded⟩
  obtain ⟨intact, holds⟩ := succeeded rfl
  rw [Routine.ensures_bind, Routine.ensures_modify]
  refine (ensures_afterwards ?_ rfl t).mono ?_
  · refine (Routine.Obeys.check_any (obeys_other id)).andThen fun _ => ?_
    refine (Routine.Obeys.check_any (obeys_other id)).andThen fun _ => ?_
    refine (Routine.Obeys.check_any (obeys_other id)).andThen fun _ => ?_
    refine (Routine.Obeys.check_any (obeys_other id)).andThen fun _ => ?_
    refine Routine.Obeys.andThen (Routine.Obeys.ite (Routine.Obeys.check_any (obeys_other id))
      (Routine.obeys_pure trivial)) fun _ => ?_
    refine (Routine.Obeys.orFail_any (obeys_other id)).andThen fun record => ?_
    refine Routine.Obeys.andThen (Routine.obeys_modify fun _ same => same) fun _ => ?_
    refine Routine.Obeys.get fun protocol _ => (Routine.obeys_guard _).bind fun _ _ => ?_
    refine Routine.Obeys.ite ?_ (Routine.obeys_pure trivial)
    exact Routine.Obeys.andThen (obeys_other id) fun now => (Routine.obeys_guard _).any
  · rintro _ object' _ ⟨same, rfl⟩
    exact ⟨.inl ⟨same, intact, .inr holds⟩, fun _ => holds⟩

/-- Behind everything that `begin` may stop at. -/
theorem ensures_start {config : NodeConfig}
    (constructs : Constructs hash config.lmsIdentifier seed initialized complete) :
    Routine.Ensures (Provisioning hash seed) (fun _ => True) (fun result object t =>
      Settled seed complete result object t ∧ (result = some () → complete t.1))
      (start : Method α κ Unit) (constructed config) (LmsMember.constructed, []) := by
  rw [start, Routine.ensures_bind, Routine.ensures_get]
  refine Routine.ensures_bind.mpr (Routine.ensures_guard.mpr ⟨fun _ => ?_, fun _ => ?_⟩)
  · have prepared := @ensures_prepareLmsAndLedger α κ _ hash seed (constructed config) _ _
      constructs rfl
    refine prepared.bind ?_ ?_
    · exact fun object t settled => ⟨settled.1, nofun⟩
    rintro _ object t ⟨⟨zeroed, intact, _⟩ | ⟨failed, _⟩, holds⟩
    · refine (ensures_afterwards ?_ zeroed t).mono ?_
      · refine (Routine.Obeys.check_any (obeys_other id)).andThen fun _ => ?_
        refine obeys_initializePersistentCounter.andThen fun _ => ?_
        exact Routine.obeys_modify fun _ same => same
      · rintro _ object' _ ⟨same, rfl⟩
        exact ⟨.inl ⟨same, intact, .inr (holds rfl)⟩, fun _ => holds rfl⟩
    · nomatch failed
  · exact ⟨.inl ⟨rfl, List.not_mem_nil, .inl ⟨rfl, rfl⟩⟩, nofun⟩

/-- What lies behind the strings of the construction in the buffer of a new object. -/
def unwritten : List α :=
  (LmsMember.constructed : LmsMember α).smallHashInput.toList.drop LmsMember.internalInputBytes

theorem constructs_kind (kind : α → Prop) (bytes : ∀ b : UInt8, kind (ofByte b))
    (hashed : ∀ data, Within kind (hash data).toList) (identifier : Identifier) (seed : Hash α) :
    Constructs hash identifier seed (LmsMember.Building kind identifier unwritten)
      (LmsMember.Complete kind identifier unwritten) where
  initializes := LmsMember.failStop_initializeWith bytes identifier seed
    (within_replicate (bytes 0))
  builds _ building := LmsMember.failStop_buildTree hashed bytes building

/-- For cells of any type, both copies of the seed are zero exactly when no call of the LMS object
failed. -/
theorem start_zeroes (nonzero : seed ≠ LmsMember.zeroHash) {config : NodeConfig}
    {result : Option Unit} {object' : ProposedUavProtocol α κ} {lms' : LmsMember α}
    {outcomes : List Bool} (run : Routine.Run (Provisioning hash seed) start (constructed config)
      (LmsMember.constructed, []) result object' (lms', outcomes)) :
    (object'.bootSeed = LmsMember.zeroHash ∧ lms'.seed = LmsMember.zeroHash) ↔
      false ∉ outcomes := by
  have constructs := constructs_kind (fun _ => True) (fun _ => trivial)
    (fun data => within_true (hash data).toList) config.lmsIdentifier seed
  rcases ((ensures_start constructs).post_of_run run trivial).1 with
    ⟨zeroed, intact, ⟨_, rfl⟩ | complete⟩ | ⟨_, held, failed⟩
  · exact ⟨fun _ => intact, fun _ => ⟨zeroed, rfl⟩⟩
  · exact ⟨fun _ => intact, fun _ => ⟨zeroed, complete.seed⟩⟩
  · exact ⟨fun zeroed => absurd (held.symm.trans zeroed.1) nonzero,
      fun intact => absurd failed intact⟩

end Begin

section Started

variable (hash : List α → Hash α) (seed : Hash α)

/-- A started device of the pair. -/
def startedObject : ProposedUavProtocol α κ :=
  { constructed (pairedNode .initiator .signerCarried) with
    peerRecord := pairedRecord, ready := true }

/-- The LMS object with its seed and an empty tree. -/
def initializedLms (identifier : Identifier) : LmsMember α where
  identifier := identifier
  seed := seed
  tree := some fun _ => LmsMember.zeroHash
  smallHashInput := .replicate _ (ofByte 0)
  publicHashInput := .replicate _ (ofByte 0)

theorem provisioning_initializeLms (identifier : Identifier) :
    Provisioning hash seed (LmsMember.constructed, [])
      ⟨(.initializeLms identifier seed : Call α κ), true⟩
      (initializedLms seed identifier, [true]) := by
  have run : Routine.Run (LmsMember.Answered hash) (LmsMember.initializeWith identifier seed)
      LmsMember.constructed [] (some ()) (initializedLms seed identifier) [true] :=
    .step (a := true) rfl (.stop _ _)
  exact ⟨some (), run, rfl⟩

/-- A tree is built where every call succeeds. -/
theorem provisioning_buildTree {lms : LmsMember α} (allocated : lms.tree.isSome = true) :
    ∃ lms' outcomes, Provisioning hash seed (lms, [true]) ⟨(.buildTree : Call α κ), true⟩
      (lms', outcomes) := by
  have building : LmsMember.Building (fun _ => True) lms.identifier
      (lms.smallHashInput.toList.drop LmsMember.internalInputBytes) lms :=
    ⟨allocated, rfl, fun _ _ _ => within_true _, within_true _, rfl⟩
  have stops := LmsMember.failStop_buildTree (fun data => within_true (hash data).toList)
    (fun _ => trivial) building
  obtain ⟨_, lms', outcomes, built, _⟩ := stops.exists_run (fun outcomes c =>
    LmsMember.answered_success hash outcomes c LmsMember.zeroHash) (s := [true])
    (nomatch List.mem_singleton.mp ·)
  exact ⟨lms', outcomes, some (), built, rfl⟩

/-- `begin` on a device where every call succeeds. -/
theorem run_started : ∃ lms outcomes, Routine.Run (Provisioning hash seed)
    (start : Method α κ Unit) (constructed (pairedNode .initiator .signerCarried))
    (LmsMember.constructed, []) (some ()) startedObject (lms, outcomes) := by
  obtain ⟨lms, outcomes, built⟩ := @provisioning_buildTree α κ _ hash seed (initializedLms seed
    (constructed (pairedNode .initiator .signerCarried) :
      ProposedUavProtocol α κ).config.lmsIdentifier) rfl
  refine ⟨lms, outcomes, ?_⟩
  refine .step (a := some LmsMember.zeroHash) rfl ?_
  refine .step (a := some LmsMember.zeroHash) rfl ?_
  refine .step (a := some seed) ⟨?_, rfl⟩ ?_
  · rintro _ returned
    cases Option.some.inj returned
    rfl
  refine .step (a := true) (provisioning_initializeLms hash seed _) ?_
  refine .step (a := true) built ?_
  refine .step (a := true) rfl ?_
  refine .step (a := true) rfl ?_
  refine .step (a := true) rfl ?_
  refine .step (a := true) rfl ?_
  refine .step (a := some pairedRecord) rfl ?_
  refine .step (a := true) rfl ?_
  refine .step (a := true) rfl ?_
  exact .step (a := (0 : UInt32)) rfl (.stop _ _)

end Started

section Bytes

variable {sha : Bytes → Digest} {seed : Digest}

/-- The seed is not by chance in the string that is hashed for the root of its tree, nor in the
zeros behind it. -/
def Apart (sha : Bytes → Digest) (identifier : Identifier) (seed : Digest) : Prop :=
  ∀ tree, LmotsLms.Built sha identifier seed tree →
    ¬ seed.toList <:+: LmotsLms.internalInput identifier 1 (tree 2) (tree 3) ++ unwritten

theorem not_infix_zeros (nonzero : seed ≠ LmsMember.zeroHash) :
    ¬ seed.toList <:+: (LmsMember.constructed : LmsMember UInt8).smallHashInput.toList := by
  intro inside
  refine nonzero (List.Vector.toList_injective (List.eq_replicate_iff.mpr
    ⟨seed.toList_length, fun x mem => ?_⟩))
  exact List.eq_of_mem_replicate (inside.subset mem)

/-- The buffer of a complete tree has the string of the root of `LmotsLms.buildTree`. -/
theorem constructs_bytes (sha : Bytes → Digest) (identifier : Identifier) (seed : Digest) :
    Constructs sha identifier seed
      (fun lms => LmsMember.Building (fun _ => True) identifier unwritten lms ∧
        lms.plain = ⟨identifier, seed, some fun _ => LmotsLms.zeroDigest⟩)
      (fun lms => lms.seed = LmsMember.zeroHash ∧ ∃ tree, LmotsLms.Built sha identifier seed tree ∧
        lms.smallHashInput.toList =
          LmotsLms.internalInput identifier 1 (tree 2) (tree 3) ++ unwritten) := by
  have constructs := constructs_kind (fun _ => True) (fun _ => trivial)
    (fun data => within_true (sha data).toList) identifier seed
  refine ⟨constructs.initializes.and ((LmsMember.initializeWith_refines identifier seed).mono
    fun _ lms same => (Option.some.inj same).symm), fun lms started => ?_⟩
  refine ((constructs.builds lms started.1).and (LmsMember.buildTree_refines started.2)).mono ?_
  rintro _ lms' ⟨complete, built⟩
  obtain ⟨tree, stored, scratch⟩ := complete.root
  obtain ⟨_, tree', stored', whole⟩ := LmotsLms.eval_buildTree built
  obtain rfl : tree = tree' := Option.some.inj (stored.symm.trans stored')
  exact ⟨complete.seed, tree, whole, scratch.trans
    (congrArg (· ++ unwritten) (LmsMember.internalInput_bytes identifier 1 _ _))⟩

/-- After `begin`, both copies of the seed are zero exactly when the allocation and every hash of
the tree's construction succeeded, as far as they were reached; and then nothing of the seed is in
the buffer. -/
theorem start_erases (nonzero : seed ≠ LmsMember.zeroHash) (config : NodeConfig)
    (result : Option Unit) (object' : ProposedUavProtocol UInt8 κ) (lms' : LmsMember UInt8)
    (outcomes : List Bool) (run : Routine.Run (Provisioning sha seed) start (constructed config)
      (LmsMember.constructed, []) result object' (lms', outcomes)) :
    ((object'.bootSeed = LmsMember.zeroHash ∧ lms'.seed = LmsMember.zeroHash) ↔
        false ∉ outcomes) ∧
      (Apart sha config.lmsIdentifier seed → (Erased seed object' lms' ↔ false ∉ outcomes)) := by
  have zeroes := start_zeroes nonzero run
  refine ⟨zeroes, fun apart => ⟨fun erased => zeroes.mp ⟨erased.1, erased.2.1⟩, fun intact => ?_⟩⟩
  have clean : ¬ seed.toList <:+: lms'.smallHashInput.toList := by
    rcases ((ensures_start (constructs_bytes sha config.lmsIdentifier seed)).post_of_run run
      trivial).1 with ⟨_, _, ⟨_, rfl⟩ | ⟨_, tree, whole, scratch⟩⟩ | ⟨_, _, failed⟩
    · exact not_infix_zeros nonzero
    · exact scratch ▸ apart tree whole
    · exact absurd failed intact
  exact ⟨(zeroes.mpr intact).1, (zeroes.mpr intact).2, clean⟩

/-- Digests of two kinds, by the length of the string. -/
def parityHash (data : Bytes) : Digest := .replicate _ (if data.length % 2 = 0 then 1 else 2)

theorem apart_parityHash : Apart parityHash (pairedNode .initiator .signerCarried).lmsIdentifier
    (.replicate _ 7) := by
  intro tree built inside
  have digests : ∀ data, Within (· ≠ 7) (parityHash data).toList := by
    intro data
    apply within_replicate
    split <;> decide
  have children : Within (· ≠ 7) (tree 2).toList ∧ Within (· ≠ 7) (tree 3).toList := by
    rw [built.internal 2 (by decide) (by decide), built.internal 3 (by decide) (by decide)]
    exact ⟨digests _, digests _⟩
  have zeros : Within (· ≠ 7) (unwritten : Bytes) := fun x mem =>
    List.eq_of_mem_replicate (List.mem_of_mem_drop mem) ▸ by decide
  have clean : Within (· ≠ 7) (LmotsLms.internalInput
      (pairedNode .initiator .signerCarried).lmsIdentifier 1 (tree 2) (tree 3) ++ unwritten) := by
    have number : (putU32 (.ofNat 1) : Bytes) = [0, 0, 0, 1] := rfl
    have kind : (putU16 LmotsLms.dIntr : Bytes) = [0x83, 0x83] := rfl
    simp only [LmotsLms.internalInput, number, kind, within_append, within_cons, within_nil]
    exact ⟨⟨⟨⟨⟨within_replicate (by decide), by decide⟩, by decide⟩, children.1⟩, children.2⟩,
      zeros⟩
  exact clean 7 (inside.subset List.mem_cons_self) rfl

/-- A device that starts is left without its seed. -/
theorem start_erases_started : ∃ (object' : ProposedUavProtocol UInt8 Unit)
    (lms' : LmsMember UInt8) (outcomes : List Bool),
    Routine.Run (Provisioning parityHash (.replicate _ 7)) start
      (constructed (pairedNode .initiator .signerCarried)) (LmsMember.constructed, []) (some ())
      object' (lms', outcomes) ∧ Erased (.replicate _ 7) object' lms' := by
  obtain ⟨lms', outcomes, run⟩ := @run_started UInt8 Unit _ parityHash (.replicate _ 7)
  have nonzero : (.replicate _ 7 : Digest) ≠ LmsMember.zeroHash := by decide
  have complete := ((ensures_start (constructs_bytes parityHash _ _)).post_of_run run trivial).2 rfl
  have intact := (start_zeroes nonzero run).mp ⟨rfl, complete.1⟩
  exact ⟨_, lms', outcomes, run,
    ((start_erases nonzero _ _ _ _ _ run).2 apart_parityHash).mpr intact⟩

/-- Without memory for the tree, `begin` returns false with the seed in two of its places. -/
theorem start_keeps_seed : ∃ (seed : Hash UInt8) (object' : ProposedUavProtocol UInt8 Unit)
    (lms' : LmsMember UInt8), seed ≠ LmsMember.zeroHash ∧
      Routine.Run (Provisioning (fun _ => .replicate _ 0) seed) start
        (constructed (pairedNode .initiator .signerCarried)) (LmsMember.constructed, []) none
        object' (lms', [false]) ∧ object'.bootSeed = seed ∧ lms'.seed = seed :=
  ⟨.replicate _ 7, _, _, by decide, run_start _ _ (by decide), rfl, rfl⟩

end Bytes

end Puav.ProposedUavProtocol
