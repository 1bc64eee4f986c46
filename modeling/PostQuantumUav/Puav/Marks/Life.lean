import PostQuantumUav.Puav.Lms.Marks
import PostQuantumUav.Puav.Marks.Sessions
import PostQuantumUav.Puav.SessionSecrets

/-!
# Lives of bytes, with marks in the seed

On bytes, a buffer may contain the seed by chance. Marks tell a copy from a coincidence: the
bytes of the seed are marked, a copy of a marked cell has the mark, and a digest has none.

Every life of a device is the life of a device on such cells, without the marks. So what holds
of copies is said of the bytes of the real device: a field contains the seed if it does so in
the life with marks. The secrets of all signatures are gone exactly as long as no signature
gets the digest of its message.
-/

namespace Puav.ProposedUavProtocol

open Interaction Cell Buffer

variable {β κ : Type} [Cell β]

theorem marking_bytes : Marking (ofByte : UInt8 → β) toByte :=
  ⟨cellMap_ofByte, cellMap_toByte, toByte_ofByte⟩

theorem ofByte_injective : Function.Injective (ofByte : UInt8 → β) := marking_bytes.injective

section Worlds

variable {sha : Bytes → Digest} {seed : Digest} {marked : Hash β} {kind : β → Prop}
  (bytes : ∀ b : UInt8, kind (ofByte b))

include bytes

theorem closed_unmarkedHash (sha : Bytes → Digest) :
    Closed (LmsMember.unmarkedHash sha : List β → Hash β) kind := by
  refine ⟨bytes, fun data => ?_⟩
  rw [LmsMember.unmarkedHash, toList_cellsOf]
  exact within_ofBytes bytes _

theorem within_placed {size : Nat} (v : List.Vector UInt8 size) :
    Within kind (List.Vector.map (ofByte : UInt8 → β) v).toList := by
  rw [List.Vector.toList_map]
  exact within_ofBytes bytes _

/-- Every answer has one that corresponds, without marks. -/
theorem Imaging.exists_answer {c : Call UInt8 κ} {c' : Call β κ}
    {answers : (calls UInt8 κ).Answer c → (calls β κ).Answer c' → Prop}
    (corresponds : Imaging ofByte toByte c c' answers) (a : (calls UInt8 κ).Answer c) :
    ∃ a', answers a a' ∧ c'.Answers kind a' := by
  have placed : ∀ {size : Nat} (a : Option (List.Vector UInt8 size)) v,
      a.map (List.Vector.map (ofByte : UInt8 → β)) = some v → Within kind v.toList := by
    rintro size a _ returned
    obtain ⟨value, _, rfl⟩ := Option.map_eq_some_iff.mp returned
    exact within_placed bytes value
  cases corresponds with
  | fillNonce => exact ⟨List.Vector.map ofByte a, rfl, within_placed bytes a⟩
  | sendMessage _ _ _ _ => exact ⟨a, optionRel_self a, trivial⟩
  | receiveMessage _ _ _ _ => exact ⟨(a.1, a.2.map ofByte), rfl, within_ofBytes bytes a.2⟩
  | sha256 _ => exact ⟨_, optionRel_image _ a, placed a⟩
  | hmacSha256 _ _ => exact ⟨_, optionRel_image _ a, placed a⟩
  | deriveSeed _ _ _ =>
      exact ⟨_, optionRel_map (fun a a' => a = List.Vector.map toByte a')
        (fun v => (LmsMember.toByte_cellsOf v).symm) a, trivial⟩
  | deriveKeys _ _ _ => exact ⟨_, optionRel_image _ a, trivial⟩
  | reconstruct => exact ⟨_, optionRel_image _ a, trivial⟩
  | kemMakeKey => exact ⟨a, optionRel_self a, trivial⟩
  | kemEncodePublicKey _ => exact ⟨_, optionRel_image _ a, placed a⟩
  | kemDecodePublicKey _ => exact ⟨a, optionRel_self a, trivial⟩
  | kemEncapsulate _ =>
      refine ⟨_, optionRel_image _ a, fun pair returned => ?_⟩
      obtain ⟨value, _, rfl⟩ := Option.map_eq_some_iff.mp returned
      exact within_placed bytes value.1
  | kemDecapsulate _ _ => exact ⟨_, optionRel_image _ a, trivial⟩
  | sign _ _ _ => exact ⟨_, optionRel_image _ a, placed a⟩
  | extractPath _ => exact ⟨_, optionRel_image _ a, placed a⟩
  | fetchPeerPath _ _ =>
      refine ⟨_, optionRel_image _ a, fun pair returned => ?_⟩
      obtain ⟨value, _, rfl⟩ := Option.map_eq_some_iff.mp returned
      exact within_placed bytes value.1
  | fetchPeerRoot _ => exact ⟨a, optionRel_self a, trivial⟩
  | kemFree => exact ⟨a, trivial, trivial⟩
  | note _ _ => exact ⟨a, trivial, trivial⟩
  | _ => exact ⟨a, rfl, trivial⟩

omit bytes in
theorem isSome_eq {R : Unit → Unit → Prop} {a b : Option Unit} (related : Option.Rel R a b) :
    a.isSome = b.isSome := by
  cases related with
  | none => rfl
  | some _ => rfl

/-- What is behind `begin` on bytes is behind it on marked cells. -/
theorem provisioning_image (same : seed = marked.map toByte) {s t : LmsMember UInt8 × List Bool}
    {c : Call UInt8 κ} {a : (calls UInt8 κ).Answer c} (step : Provisioning sha seed s ⟨c, a⟩ t)
    {s' : LmsMember β × List Bool} {c' : Call β κ}
    {answers : (calls UInt8 κ).Answer c → (calls β κ).Answer c' → Prop}
    (like : s.1 = s'.1.mapCells toByte ∧ s'.2 = s.2)
    (corresponds : Imaging ofByte toByte c c' answers) :
    ∃ a' t', answers a a' ∧ Provisioning (LmsMember.unmarkedHash sha) marked s' ⟨c', a'⟩ t' ∧
      t.1 = t'.1.mapCells toByte ∧ t'.2 = t.2 := by
  obtain ⟨a', both, _⟩ := corresponds.exists_answer bytes a
  obtain ⟨lms', outcomes⟩ := s'
  obtain ⟨likeLms, rfl⟩ : s.1 = lms'.mapCells toByte ∧ outcomes = s.2 := like
  cases corresponds with
  | initializeLms identifier value =>
      obtain ⟨result, run, rfl⟩ := step
      obtain ⟨result', last, run', related, stop⟩ :=
        (LmsMember.images_initializeWith cellMap_toByte identifier rfl).answered likeLms run
      exact ⟨result'.isSome, (last, t.2), isSome_eq related, ⟨result', run', rfl⟩, stop, rfl⟩
  | buildTree =>
      obtain ⟨result, run, rfl⟩ := step
      obtain ⟨result', last, run', related, stop⟩ :=
        (LmsMember.images_buildTree cellMap_toByte).answered likeLms run
      exact ⟨result'.isSome, (last, t.2), isSome_eq related, ⟨result', run', rfl⟩, stop, rfl⟩
  | deriveSeed _ _ _ =>
      obtain ⟨isSeed, rfl⟩ := step
      cases a with
      | none => exact ⟨none, (lms', t.2), .none, ⟨nofun, rfl⟩, likeLms, rfl⟩
      | some value =>
          have bytes : value = marked.map toByte :=
            (List.Vector.toList_injective (isSeed value rfl)).trans same
          refine ⟨some marked, (lms', t.2), .some bytes, ⟨?_, rfl⟩, likeLms, rfl⟩
          rintro _ returned
          cases Option.some.inj returned
          rfl
  | deriveKeys _ _ _ =>
      obtain ⟨isSeed, rfl⟩ := step
      cases a with
      | none => exact ⟨none, (lms', t.2), .none, ⟨nofun, rfl⟩, likeLms, rfl⟩
      | some value =>
          have impossible := congrArg List.length (isSeed value rfl)
          rw [List.Vector.toList_length, List.Vector.toList_length] at impossible
          exact absurd impossible (by decide)
  | _ =>
      obtain rfl : t = s := step
      exact ⟨a', (lms', t.2), both, rfl, likeLms, rfl⟩

/-- A call of `sign` on marked cells. -/
def SignCall.onCells (call : SignCall UInt8) : SignCall β :=
  ⟨call.q, LmsMember.digestCells call.digests⟩

/-- What is behind a session on bytes is behind it on marked cells. -/
theorem sessions_image (plain : ∀ x, kind x → ofByte (toByte x) = x)
    (same : seed = marked.map toByte) {config : NodeConfig}
    {s t : LmsMember UInt8 × List (SignCall UInt8)} {c : Call UInt8 κ}
    {a : (calls UInt8 κ).Answer c}
    (step : Sessions sha seed (fun _ => True) config s ⟨c, a⟩ t)
    {s' : LmsMember β × List (SignCall β)} {c' : Call β κ}
    {answers : (calls UInt8 κ).Answer c → (calls β κ).Answer c' → Prop}
    (like : s.1 = s'.1.mapCells toByte ∧ s'.2 = s.2.map SignCall.onCells)
    (corresponds : Imaging ofByte toByte c c' answers) :
    ∃ a' t', answers a a' ∧
      Sessions (LmsMember.unmarkedHash sha) marked kind config s' ⟨c', a'⟩ t' ∧
      t.1 = t'.1.mapCells toByte ∧ t'.2 = t.2.map SignCall.onCells := by
  have closed : Closed (LmsMember.unmarkedHash sha : List β → Hash β) kind :=
    closed_unmarkedHash bytes sha
  obtain ⟨a', both, clean⟩ := corresponds.exists_answer bytes a
  obtain ⟨lms', signs⟩ := s'
  obtain ⟨likeLms, rfl⟩ : s.1 = lms'.mapCells toByte ∧ signs = s.2.map SignCall.onCells := like
  cases corresponds with
  | sign q message runtimeSeed =>
      obtain ⟨digests, run, calls⟩ := step
      have message_bytes : message = (message.map (ofByte : UInt8 → β)).map toByte := by
        rw [List.map_map]
        exact (List.map_id'' toByte_ofByte _).symm
      obtain ⟨signature, last, run', related, stop⟩ := (LmsMember.images_sign cellMap_toByte q
        message_bytes (rfl : runtimeSeed.map toByte = _)).hashes bytes likeLms run
      have signed := ((LmsMember.ensures_sign closed.bytes closed.hashed q _ runtimeSeed
        lms').post_of_run run' trivial).signature
      refine ⟨signature, (last, t.2.map SignCall.onCells), ?_, ⟨_, run', ?_⟩, stop, rfl⟩
      · cases related with
        | none => exact .none
        | @some v v' erased =>
            refine .some (List.Vector.toList_injective ?_)
            rw [erased, List.Vector.toList_map, List.Vector.toList_map, List.map_map]
            exact ((List.map_congr_left fun x mem => plain x (signed v' rfl x mem)).trans
              (List.map_id _)).symm
      · rw [calls, List.map_append]
        rfl
  | deriveSeed _ _ info =>
      obtain ⟨isSeed, rfl⟩ := step
      by_cases seedInfo : info = lmsSeedInfo config.deviceId config.credentialVersion
          config.lmsIdentifier
      · cases a with
        | none => exact ⟨none, (lms', _), .none, ⟨fun _ => nofun, rfl⟩, likeLms, rfl⟩
        | some value =>
            have bytes : value = marked.map toByte :=
              (List.Vector.toList_injective (isSeed seedInfo value rfl)).trans same
            refine ⟨some marked, (lms', _), .some bytes, ⟨fun _ => ?_, rfl⟩, likeLms, rfl⟩
            rintro _ returned
            cases Option.some.inj returned
            rfl
      · refine ⟨a', (lms', _), both, ⟨fun placed => absurd ?_ seedInfo, rfl⟩, likeLms, rfl⟩
        rw [← map_lmsSeedInfo cellMap_ofByte] at placed
        exact List.map_injective_iff.mpr ofByte_injective placed
  | deriveKeys _ _ info =>
      obtain ⟨isSeed, rfl⟩ := step
      refine ⟨a', (lms', _), both, ⟨fun placed value returned => ?_, rfl⟩, likeLms, rfl⟩
      rw [← map_lmsSeedInfo cellMap_ofByte] at placed
      obtain rfl := List.map_injective_iff.mpr ofByte_injective placed
      cases both with
      | none => nomatch returned
      | @some key _ _ =>
          have impossible := congrArg List.length (isSeed rfl key rfl)
          rw [List.Vector.toList_length, List.Vector.toList_length] at impossible
          exact absurd impossible (by decide)
  | _ =>
      obtain rfl : t = s := step.2
      exact ⟨a', (lms', _), both, ⟨clean, rfl⟩, likeLms, rfl⟩

end Worlds

section Lives

variable {sha : Bytes → Digest} {seed : Digest} {marked : Hash β} {kind : β → Prop}
  {config : NodeConfig}

/-- The object and the LMS object of a device, with marks that a life on marked cells has put on
them. -/
structure Tracks [DecidableEq β] (sha : Bytes → Digest) (marked : Hash β) (kind : β → Prop)
    (config : NodeConfig) (object : ProposedUavProtocol UInt8 κ) (lms : LmsMember UInt8)
    (signs : List (SignCall UInt8)) (object' : ProposedUavProtocol β κ) (lms' : LmsMember β) :
    Prop where
  reached : Reached κ (LmsMember.unmarkedHash sha) marked kind config object' lms'
    (signs.map SignCall.onCells)
  object : Like ofByte toByte object object'
  lms : lms = lms'.mapCells toByte

theorem undigested_onCells {signs : List (SignCall UInt8)} :
    Undigested (signs.map (SignCall.onCells : SignCall UInt8 → SignCall β)) ↔
      Undigested signs := by
  constructor
  · intro undigested call mem digest first
    refine undigested _ (List.mem_map_of_mem mem) (cellsOf digest) ?_
    rw [SignCall.onCells, LmsMember.digestCells, List.head?_map, first]
    rfl
  · intro undigested _ mem digest first
    obtain ⟨call, listed, rfl⟩ := List.mem_map.mp mem
    rw [SignCall.onCells, LmsMember.digestCells, List.head?_map] at first
    obtain ⟨_ | digest, held, image⟩ := Option.map_eq_some_iff.mp first
    · nomatch image
    · exact undigested call listed digest held

variable [DecidableEq β] (bytes : ∀ b : UInt8, kind (ofByte b))
  (plain : ∀ x, kind x → ofByte (toByte x) = x) (same : seed = marked.map toByte)

include bytes plain same

/-- A session on bytes is one on marked cells. -/
theorem Tracks.session {object object' : ProposedUavProtocol UInt8 κ} {lms lms' : LmsMember UInt8}
    {earlier signs : List (SignCall UInt8)} {above : ProposedUavProtocol β κ}
    {lmsAbove : LmsMember β}
    (tracks : Tracks sha marked kind config object lms earlier above lmsAbove) (role : Role)
    {result : Option (Option (View UInt8))}
    (run : Routine.Run (Sessions sha seed (fun _ => True) config)
      (ProposedUavProtocol.session role) object (lms, []) result object' (lms', signs)) :
    ∃ result' above' lmsAbove', Routine.Run (Sessions (LmsMember.unmarkedHash sha) marked kind
        config) (ProposedUavProtocol.session role) above (lmsAbove, []) result' above'
        (lmsAbove', signs.map SignCall.onCells) ∧
      Tracks sha marked kind config object' lms' (earlier ++ signs) above' lmsAbove' := by
  obtain ⟨result', above', ⟨lmsAbove', _⟩, run', _, object, lms, rfl⟩ := Routine.Images.run
    (fun s (s' : LmsMember β × List (SignCall β)) => s.1 = s'.1.mapCells toByte ∧
      s'.2 = s.2.map SignCall.onCells)
    (fun s c a t step s' c' answers => sessions_image bytes plain same step)
    (copies_session cellMap_ofByte ofByte_injective role) run tracks.object
    (lmsAbove, []) ⟨tracks.lms, rfl⟩
  refine ⟨result', above', lmsAbove', run', ?_, object, lms⟩
  rw [List.map_append]
  exact tracks.reached.session role run'

/-- Every life on bytes is one on marked cells. -/
theorem Reached.tracks {object : ProposedUavProtocol UInt8 κ} {lms : LmsMember UInt8}
    {signs : List (SignCall UInt8)}
    (reached : Reached κ sha seed (fun _ => True) config object lms signs) :
    ∃ above lmsAbove, Tracks sha marked kind config object lms signs above lmsAbove := by
  induction reached with
  | started run =>
      have constructed : Like ofByte toByte (constructed config : ProposedUavProtocol UInt8 κ)
          (constructed config : ProposedUavProtocol β κ) :=
        ⟨_, (cellMap_toByte.map_replicate _).symm, constructed_marked cellMap_ofByte config⟩
      obtain ⟨_, above, ⟨lmsAbove, outcomes⟩, run', related, object, lms, rfl⟩ :=
        Routine.Images.run (fun s (s' : LmsMember β × List Bool) =>
            s.1 = s'.1.mapCells toByte ∧ s'.2 = s.2)
          (fun s c a t step s' c' answers => provisioning_image bytes same step)
          (copies_start marking_bytes) run constructed
          (LmsMember.constructed, []) ⟨(LmsMember.mapCells_constructed cellMap_toByte).symm, rfl⟩
      cases related
      exact ⟨above, lmsAbove, .started run', object, lms⟩
  | session _ role run ih =>
      obtain ⟨above, lmsAbove, tracks⟩ := ih
      obtain ⟨_, above', lmsAbove', _, tracks'⟩ := tracks.session bytes plain same role run
      exact ⟨above', lmsAbove', tracks'⟩

end Lives

section Bytes

variable {sha : Bytes → Digest} {seed : Digest} {config : NodeConfig}

/-- Numbers below 256 are bytes; a larger one is a byte with a mark. -/
def markedSeed (seed : Digest) : Hash Nat := seed.map fun b => 256 + b.toNat

theorem toByte_markedSeed (seed : Digest) : (markedSeed seed).map toByte = seed := by
  apply List.Vector.toList_injective
  rw [markedSeed, List.Vector.toList_map, List.Vector.toList_map, List.map_map]
  refine List.map_id'' (fun b => ?_) _
  apply UInt8.toNat_inj.mp
  change (UInt8.ofNat (256 + b.toNat)).toNat = b.toNat
  rw [UInt8.toNat_ofNat', Nat.add_mod_left, Nat.mod_eq_of_lt b.toNat_lt]

theorem unmarked_bytes (b : UInt8) : (ofByte b : Nat) < 256 := b.toNat_lt

theorem unmarked_plain (x : Nat) (unmarked : x < 256) : (ofByte (toByte x : UInt8) : Nat) = x :=
  (UInt8.toNat_ofNat').trans (Nat.mod_eq_of_lt unmarked)

/-- The marks tell the seed apart, for every hash. -/
theorem mark_markedSeed (sha : Bytes → Digest) (seed : Digest) :
    Mark (LmsMember.unmarkedHash sha) (· < 256) (markedSeed seed) where
  toClosed := closed_unmarkedHash unmarked_bytes sha
  seed := by
    refine ⟨256 + (seed.head).toNat, ?_, Nat.not_lt.mpr (Nat.le_add_right _ _)⟩
    rw [markedSeed, List.Vector.toList_map]
    apply List.mem_map_of_mem
    rw [← List.Vector.cons_head_tail seed, List.Vector.toList_cons, List.Vector.head_cons]
    exact List.mem_cons_self

/-- No field has a copy of the seed, or a value of a chain below a signature of the life. -/
def Gone (sha : Bytes → Digest) (seed : Digest) (config : NodeConfig)
    (object : ProposedUavProtocol UInt8 κ) (lms : LmsMember UInt8)
    (signs : List (SignCall UInt8)) : Prop :=
  ∀ object' lms', Tracks sha (markedSeed seed) (· < 256) config object lms signs object' lms' →
    Wiped (LmsMember.unmarkedHash sha) (markedSeed seed) object' lms' (signs.map SignCall.onCells)

/-- A life whose sessions so far left the signatures without digests: behind its next session the
secrets of all signatures are gone exactly when that session left its own without one, and the key
of the key encapsulation is freed. After a digest, the bytes of a secret are in a field. -/
theorem session_secrets {object object' : ProposedUavProtocol UInt8 κ} {lms lms' : LmsMember UInt8}
    {earlier signs : List (SignCall UInt8)}
    (reached : Reached κ sha seed (fun _ => True) config object lms earlier)
    (before : Undigested earlier) (role : Role) {result : Option (Option (View UInt8))}
    (run : Routine.Run (Sessions sha seed (fun _ => True) config) (session role) object (lms, [])
      result object' (lms', signs)) :
    (∃ above lmsAbove, Tracks sha (markedSeed seed) (· < 256) config object' lms'
      (earlier ++ signs) above lmsAbove) ∧
    ((Gone sha seed config object' lms' (earlier ++ signs) ∧ object'.kemInitialized = false) ↔
      Undigested signs) ∧
    (Wiped sha seed object' lms' (earlier ++ signs) → Undigested signs) := by
  have mark := mark_markedSeed sha seed
  obtain ⟨above, lmsAbove, tracks⟩ := reached.tracks unmarked_bytes unmarked_plain
    (toByte_markedSeed seed).symm
  obtain ⟨_, above', lmsAbove', run', tracks'⟩ := tracks.session unmarked_bytes unmarked_plain
    (toByte_markedSeed seed).symm role run
  refine ⟨⟨above', lmsAbove', tracks'⟩, ⟨fun left => ?_, fun undigested => ⟨?_, ?_⟩⟩, ?_⟩
  · have wiped := left.1 above' lmsAbove' tracks'
    rw [List.map_append] at wiped
    exact undigested_onCells.mp (undigested_of_wiped mark.toClosed tracks.reached run' wiped)
  · intro last lmsLast tracked
    exact tracked.reached.wiped mark
      (undigested_onCells.mpr (undigested_append.mpr ⟨before, undigested⟩))
  · obtain ⟨bootSeed, _, rfl⟩ := tracks'.object
    exact (tracks'.reached.between mark.toClosed).kem
  · exact undigested_of_wiped ⟨fun _ => trivial, fun data => within_true _⟩ reached run

section Example

variable (sha) (seed)

/-- The buffer behind a signature whose second hash fails. -/
def unhashedSign (q : Nat) (message : Bytes) (lms : LmsMember UInt8) : LmsMember UInt8 :=
  { lms.withMessage q LmsMember.zeroHash message with
    smallHashInput := overwrite (lms.withMessage q LmsMember.zeroHash message).smallHashInput
      (LmsMember.privateInput lms.identifier seed q 0) }

theorem run_unhashedSign {q : UInt32} (bounded : q < .ofNat lmsLeaves) {message : Bytes}
    (length : message.length = lmotsSignedObjectBytes) (lms : LmsMember UInt8) :
    Routine.Run (LmsMember.Hashes sha fun _ => True) (LmsMember.sign q message seed) lms [] none
      (unhashedSign seed q.toNat message lms)
      [some (sha (LmsMember.messageInput lms.identifier q.toNat LmsMember.zeroHash message)),
        none] := by
  have fits : ¬ 16 + 4 + 2 + hashBytes + message.length > LmotsLms.smallHashInputBytes := by
    rw [length]
    decide
  have chains : List.range LmotsLms.p = 0 :: List.range' 1 (LmotsLms.p - 1) := by
    rw [List.range_eq_range']
    rfl
  rw [LmsMember.sign, chains]
  generalize List.range' 1 (LmotsLms.p - 1) = rest
  refine (Routine.run_guard (UInt32.not_le.mpr bounded)).bind (Routine.run_get.bind ?_)
  refine .step (a := LmsMember.zeroHash) ⟨within_true _, rfl⟩ ?_
  have hashed : Routine.Run (LmsMember.Hashes sha fun _ => True)
      (LmsMember.hashMessageWithChecksum lms.identifier q.toNat LmsMember.zeroHash message
        LmotsLms.smallHashInputBytes) lms []
      (some (LmsMember.withChecksum (sha
        (LmsMember.messageInput lms.identifier q.toNat LmsMember.zeroHash message))))
      (lms.withMessage q.toNat LmsMember.zeroHash message)
      [some (sha (LmsMember.messageInput lms.identifier q.toNat LmsMember.zeroHash message))] :=
    (Routine.run_guard fits).bind (.step ⟨.inr rfl, rfl⟩ (.stop _ _))
  apply hashed.bind
  exact .step (a := (none : Option Digest)) ⟨.inl rfl, rfl⟩ (.stop _ _)

theorem sessions_unhashedSign {config : NodeConfig} (q : UInt32) (bounded : q < .ofNat lmsLeaves)
    {message : Bytes} (length : message.length = lmotsSignedObjectBytes)
    (lms : LmsMember UInt8) :
    Sessions sha seed (fun _ => True) config (lms, [])
      ⟨(.sign q message seed : Call UInt8 κ), none⟩
      (unhashedSign seed q.toNat message lms, [⟨q, [some (sha (LmsMember.messageInput
        lms.identifier q.toNat LmsMember.zeroHash message)), none]⟩]) :=
  ⟨_, run_unhashedSign sha seed bounded length lms, rfl⟩

/-- A started device, after a session that could not send its first message. -/
def stoppedObject : ProposedUavProtocol UInt8 Unit :=
  { startedObject with m0 := m0Message (pairedNode .initiator .signerCarried) (.replicate _ 5) }

theorem run_stoppedSession (lms : LmsMember UInt8) :
    Routine.Run (Sessions sha seed (fun _ => True) (pairedNode .initiator .signerCarried))
      (session .initiator : Method UInt8 Unit _) startedObject (lms, []) (some none)
      stoppedObject (lms, []) :=
  .step (a := (8 : UInt32)) ⟨trivial, rfl⟩ <|
    .step (a := (.replicate _ 5 : Nonce UInt8)) ⟨within_true _, rfl⟩ <|
    .step (a := (0 : UInt64)) ⟨trivial, rfl⟩ <|
    .step (a := (none : Option UInt32)) ⟨trivial, rfl⟩ <| .stop _ _

/-- A later session, whose signature fails at its second hash. -/
theorem run_unsignedSession (lms : LmsMember UInt8) :
    ∃ object' t, Routine.Run (Sessions sha seed (fun _ => True)
        (pairedNode .initiator .signerCarried)) (session .initiator : Method UInt8 Unit _)
        stoppedObject (lms, []) (some none) object' t ∧
      ∃ message digest, t = (unhashedSign seed 0 message lms, [⟨0, [some digest, none]⟩]) := by
  have some_true : ∀ {size : Nat} (a : Option (List.Vector UInt8 size)) v, a = some v →
      Within (fun _ => True) v.toList := fun _ _ _ => within_true _
  have derived : ∀ value, some seed = some value → List.Vector.toList value = seed.toList := by
    rintro _ returned
    cases Option.some.inj returned
    rfl
  have sign := fun message length => @sessions_unhashedSign Unit sha seed
    (pairedNode .initiator .signerCarried) 0 (by decide) message length lms
  exact ⟨_, _, .step (a := (0 : UInt32)) ⟨trivial, rfl⟩ <|
    .step (a := (.replicate _ 6 : Nonce UInt8)) ⟨within_true _, rfl⟩ <|
    .step (a := (0 : UInt64)) ⟨trivial, rfl⟩ <|
    .step (a := some (0 : UInt32)) ⟨trivial, rfl⟩ <|
    .step (a := (some ⟨msgM1Chal, 1, m1Bytes, ⟨2, 5000⟩, 120⟩, (m1Message
      (pairedNode .responder .signerCarried) (.replicate _ 6) (.replicate _ 9)).toList))
      ⟨within_true _, rfl⟩ <|
    .step (a := (0 : UInt64)) ⟨trivial, rfl⟩ <|
    .step (a := some (.replicate _ 0 : Digest)) ⟨some_true _, rfl⟩ <|
    .step (a := (0 : UInt64)) ⟨trivial, rfl⟩ <|
    .step (a := true) ⟨trivial, rfl⟩ <|
    .step (a := (0 : UInt64)) ⟨trivial, rfl⟩ <|
    .step (a := some ()) ⟨trivial, rfl⟩ <|
    .step (a := some (.replicate _ 0 : KemPublicKey UInt8)) ⟨some_true _, rfl⟩ <|
    .step (a := (0 : UInt64)) ⟨trivial, rfl⟩ <|
    .step (a := (0 : UInt32)) ⟨trivial, rfl⟩ <|
    .step (a := (4 : Nat)) ⟨trivial, rfl⟩ <|
    .step (a := (0 : UInt64)) ⟨trivial, rfl⟩ <|
    .step (a := some (.replicate _ 0 : Digest)) ⟨trivial, rfl⟩ <|
    .step (a := (0 : UInt64)) ⟨trivial, rfl⟩ <|
    .step (a := (0 : UInt64)) ⟨trivial, rfl⟩ <|
    .step (a := some seed) ⟨fun _ => derived, rfl⟩ <|
    .step (a := (0 : UInt64)) ⟨trivial, rfl⟩ <|
    .step (a := (0 : UInt64)) ⟨trivial, rfl⟩ <|
    .step (a := (none : Option (SignatureCells UInt8))) (sign _ (List.Vector.toList_length _)) <|
    .step (a := (0 : UInt64)) ⟨trivial, rfl⟩ <|
    .step (a := ()) ⟨trivial, rfl⟩ <| .stop _ _, _, _, rfl⟩

/-- A session that stops leaves nothing; the next one leaves a secret. -/
theorem session_secrets_unhashed : ∃ (object' : ProposedUavProtocol UInt8 Unit)
    (lms lms' : LmsMember UInt8) (signs : List (SignCall UInt8)),
    (Gone parityHash (.replicate _ 7) (pairedNode .initiator .signerCarried) stoppedObject lms [] ∧
      stoppedObject.kemInitialized = false) ∧
    Routine.Run (Sessions parityHash (.replicate _ 7) (fun _ => True)
      (pairedNode .initiator .signerCarried)) (session .initiator) stoppedObject (lms, [])
      (some none) object' (lms', signs) ∧
    ¬ (Gone parityHash (.replicate _ 7) (pairedNode .initiator .signerCarried) object' lms' signs ∧
      object'.kemInitialized = false) := by
  obtain ⟨lms, outcomes, started⟩ := @run_started UInt8 Unit _ parityHash (.replicate _ 7)
  have none : Undigested ([] : List (SignCall UInt8)) := fun _ mem => nomatch mem
  have stopped := run_stoppedSession parityHash (.replicate _ 7) lms
  obtain ⟨object', _, run, message, digest, rfl⟩ :=
    run_unsignedSession parityHash (.replicate _ 7) lms
  have reached := Reached.session (.started started) .initiator stopped
  refine ⟨object', lms, _, _, ?_, run, fun left => ?_⟩
  · exact (session_secrets (.started started) none .initiator stopped).2.1.mpr none
  · have undigested := (session_secrets reached none .initiator run).2.1.mp left
    exact undigested _ List.mem_cons_self digest rfl

/-- Behind a session that failed in its signature, the seed is in the buffer of the LMS object. -/
theorem session_keeps_seed : ∃ (seed : Digest) (object' : ProposedUavProtocol UInt8 Unit)
    (lms lms' : LmsMember UInt8) (signs : List (SignCall UInt8)), seed ≠ LmsMember.zeroHash ∧
    Reached Unit parityHash seed (fun _ => True) (pairedNode .initiator .signerCarried)
      stoppedObject lms [] ∧
    Routine.Run (Sessions parityHash seed (fun _ => True)
      (pairedNode .initiator .signerCarried)) (session .initiator) stoppedObject (lms, [])
      (some none) object' (lms', signs) ∧
    seed.toList <:+: lms'.smallHashInput.toList ∧
    ¬ Wiped parityHash seed object' lms' signs := by
  obtain ⟨lms, outcomes, started⟩ := @run_started UInt8 Unit _ parityHash (.replicate _ 7)
  have stopped := run_stoppedSession parityHash (.replicate _ 7) lms
  obtain ⟨object', _, run, message, digest, rfl⟩ :=
    run_unsignedSession parityHash (.replicate _ 7) lms
  have length := LmsMember.length_privateInput lms.identifier 0 (.replicate _ 7 : Digest) 0
  have inside : (List.Vector.replicate hashBytes 7 : Digest).toList <:+:
      (unhashedSign (.replicate _ 7) 0 message lms).smallHashInput.toList :=
    LmsMember.infix_overwrite (by rw [length]; decide) (LmsMember.infix_privateInput _ _ _ _)
  refine ⟨.replicate _ 7, object', lms, _, _, by decide,
    Reached.session (.started started) .initiator stopped, run, inside, fun wiped => ?_⟩
  refine wiped _ (.inl rfl) _ ?_ inside
  simp only [fields, List.mem_cons, true_or, or_true]

end Example

end Bytes

end Puav.ProposedUavProtocol
