import PostQuantumUav.Puav.Lms.Signing
import PostQuantumUav.Puav.SeedErasure
import PostQuantumUav.Puav.SessionStages

/-!
# What a session leaves of its signing secrets

The seed is derived anew for each signature and passes through the buffer of the LMS
object, in which the values of the chains follow it. A session erases neither.

In the life of a device, the secrets of all its signatures are gone as long as no signature
gets the digest of its message, and the first one that does leaves one of them in the buffer.
The key of the key encapsulation is freed in every case.
-/

namespace Puav.ProposedUavProtocol

open Interaction Cell Buffer

variable {α κ : Type} [Cell α]

/-- A call of `sign`: its index and the answers to its hashes. -/
structure SignCall (α : Type) where
  q : UInt32
  digests : List (Option (Hash α))

/-- What is behind the calls of a session: `sign` of the LMS object, the derivation of its seed,
and other calls whose answers are of the kind. The calls of `sign` are recorded. -/
def Sessions (hash : List α → Hash α) (seed : Hash α) (kind : α → Prop) (config : NodeConfig) :
    World (calls α κ) (LmsMember α × List (SignCall α)) :=
  fun s event t =>
    match event with
    | ⟨.sign q message runtimeSeed, signature⟩ => ∃ digests,
        Routine.Run (LmsMember.Hashes hash kind) (LmsMember.sign q message runtimeSeed) s.1 []
          signature t.1 digests ∧ t.2 = s.2 ++ [⟨q, digests⟩]
    | ⟨.hkdfSha256 _ _ info _, key⟩ =>
        (info = lmsSeedInfo config.deviceId config.credentialVersion config.lmsIdentifier →
          ∀ value, key = some value → List.Vector.toList value = seed.toList) ∧ t = s
    | ⟨c, a⟩ => c.Answers kind a ∧ t = s

/-- The fields that hold cells, those of the LMS object included. -/
def fields (object : ProposedUavProtocol α κ) (lms : LmsMember α) : List (List α) :=
  [object.bootSeed.toList, object.m0.toList, object.m1.toList, object.m2.toList,
    object.m3.toList, object.m4.toList, object.mu.toList, object.signInput.toList,
    object.result.toList, lms.seed.toList,
    lms.tree.elim [] fun nodes => (List.range lmsTreeNodes).flatMap fun node => (nodes node).toList,
    lms.smallHashInput.toList, lms.publicHashInput.toList]

/-- The seed, and the values of the chains below a signature. -/
def Secret (hash : List α → Hash α) (seed : Hash α) (identifier : Identifier)
    (signs : List (SignCall α)) (secret : List α) : Prop :=
  secret = seed.toList ∨ ∃ call ∈ signs, ∃ digest, call.digests.head? = some (some digest) ∧
    LmsMember.Below hash identifier seed call.q.toNat digest secret

/-- No field contains one of the secrets. -/
def Wiped (hash : List α → Hash α) (seed : Hash α) (object : ProposedUavProtocol α κ)
    (lms : LmsMember α) (signs : List (SignCall α)) : Prop :=
  ∀ secret, Secret hash seed lms.identifier signs secret → ∀ field ∈ fields object lms,
    ¬ secret <:+: field

/-- No signature got the digest of its message. -/
def Undigested (signs : List (SignCall α)) : Prop :=
  ∀ call ∈ signs, ∀ digest, call.digests.head? ≠ some (some digest)

omit [Cell α] in
theorem undigested_append {signs signs' : List (SignCall α)} :
    Undigested (signs ++ signs') ↔ Undigested signs ∧ Undigested signs' := List.forall_mem_append

/-- Bytes and digests are of the kind. -/
structure Closed (hash : List α → Hash α) (kind : α → Prop) : Prop where
  bytes : ∀ b : UInt8, kind (ofByte b)
  hashed : ∀ data, Within kind (hash data).toList

/-- The kind tells the seed apart from bytes and digests: it has a cell that is not of the kind. -/
structure Mark (hash : List α → Hash α) (kind : α → Prop) (seed : Hash α) : Prop extends
    Closed hash kind where
  seed : ∃ x ∈ seed.toList, ¬ kind x

/-- Cells of the kind do not contain the seed. -/
theorem Mark.not_infix {hash : List α → Hash α} {kind : α → Prop} {seed : Hash α}
    (mark : Mark hash kind seed) {cells : List α} (clean : Within kind cells) :
    ¬ seed.toList <:+: cells := by
  obtain ⟨x, mem, other⟩ := mark.seed
  exact fun inside => other (clean x (inside.subset mem))

section Kem

variable {σ : Type} {world : World (calls α κ) σ} {object : ProposedUavProtocol α κ} {s : σ}

/-- The cleanup frees the key, whatever came before. -/
theorem ensures_cleaned {β : Type} (body : Method α κ β) :
    Routine.Ensures world (fun _ => True) (fun _ object' _ => object'.kemInitialized = false)
      (cleaned body) object s := by
  have any : Routine.Ensures world (fun _ => True) (fun _ _ _ => True) body object s :=
    Program.Ensures.mono (Program.Ensures.of_step (fun _ _ _ _ _ => trivial) _ trivial)
      (fun _ kept => kept) fun _ _ kept => kept
  refine Routine.ensures_bind.mpr (Routine.ensures_attempt.mpr (any.mono ?_))
  intro outcome object t _
  have freed : Routine.Ensures world (fun _ => True) (fun result object' _ =>
      result = some () ∧ object'.kemInitialized = false) freeKem object t := by
    rw [freeKem, Routine.ensures_bind, Routine.ensures_get]
    refine Routine.ensures_ite.mpr ⟨fun _ => ?_, fun unset => ?_⟩
    rotate_left
    · exact ⟨rfl, Bool.eq_false_of_not_eq_true unset⟩
    exact fun _ _ _ => ⟨trivial, rfl, rfl⟩
  refine Routine.ensures_bind.mpr (Routine.ensures_bind.mpr (freed.mono ?_))
  rintro _ object' _ ⟨rfl, free⟩
  cases outcome with
  | none => exact free
  | some _ => exact free

variable [DecidableEq α]

/-- A session that does not reach its cleanup has not set the key. -/
theorem ensures_session_kem (free : object.kemInitialized = false) (role : Role) :
    Routine.Ensures world (fun _ => True) (fun _ object' _ => object'.kemInitialized = false)
      (session role) object s := by
  cases role with
  | initiator =>
      refine Routine.ensures_attempt.mpr (Routine.Ensures.perform fun random t _ => ⟨trivial, ?_⟩)
      rw [Routine.ensures_bind, Routine.ensures_modify]
      exact ensures_cleaned _
  | responder =>
      let d : Discipline (calls α κ) (ProposedUavProtocol α κ) :=
        ⟨fun _ => True, fun _ _ => True, fun object => object.kemInitialized = false⟩
      have received : Routine.Obeys d (fun _ => True)
          (receiveProtocolMessage msgM0Req 0 m0Bytes m0Bytes storeM0 true) := by
        refine Routine.Obeys.bind (Routine.obeys_perform trivial) fun answer _ => ?_
        refine Routine.Obeys.andThen (Routine.obeys_modify fun _ free => free) fun _ => ?_
        refine (Routine.obeys_held _).andThen fun packet => ?_
        refine (Routine.obeys_guard _).bind fun _ _ => ?_
        exact Routine.Obeys.andThen (Routine.obeys_modify fun _ free => free) fun _ =>
          Routine.obeys_pure trivial
      apply Routine.ensures_attempt.mpr
      rw [runResponderOnce, Routine.ensures_bind, Routine.ensures_modify]
      refine Routine.Ensures.bind (received.ensures (fun _ _ _ _ _ _ _ => ⟨trivial, trivial⟩)
        (fun _ _ => trivial) free (trivial : (fun _ => True) s)) ?_ ?_
      · exact fun _ _ after => after.1
      · exact fun packet object' t _ => ensures_cleaned _

end Kem

def Call.IsSign : Call α κ → Prop
  | .sign _ _ _ => True
  | _ => False

section Stages

variable {hash : List α → Hash α} {seed : Hash α} {kind : α → Prop} {config : NodeConfig}

/-- Calls other than `sign`, on an object whose buffers are of the kind. -/
def unsigned (hash : List α → Hash α) (seed : Hash α) (kind : α → Prop) (config : NodeConfig) :
    Discipline (calls α κ) (ProposedUavProtocol α κ) where
  allowed c := ¬c.IsSign
  answered c a := ∃ s t, Sessions hash seed kind config s ⟨c, a⟩ t
  kept object := object.config = config ∧ Within kind object.buffers ∧
    object.bootSeed = LmsMember.zeroHash

theorem Sessions.unchanged {s t : LmsMember α × List (SignCall α)} {c : Call α κ}
    {a : (calls α κ).Answer c} (other : ¬c.IsSign)
    (step : Sessions hash seed kind config s ⟨c, a⟩ t) : t = s := by
  cases c with
  | sign _ _ _ => exact absurd trivial other
  | hkdfSha256 _ _ _ _ => exact step.2
  | _ => exact step.2

theorem unsigned_keeps (s : LmsMember α × List (SignCall α) → Prop) :
    Routine.Keeps (unsigned hash seed kind config : Discipline (calls α κ) _)
      (Sessions hash seed kind config) s := by
  intro _ c a _ other now step
  cases Sessions.unchanged other step
  exact ⟨⟨_, _, step⟩, now⟩

variable (closed : Closed hash kind)

include closed

/-- A signature is of the kind, as every other answer is. -/
theorem Sessions.answers {s t : LmsMember α × List (SignCall α)} {c : Call α κ}
    {a : (calls α κ).Answer c} (step : Sessions hash seed kind config s ⟨c, a⟩ t) :
    c.Answers kind a := by
  cases c with
  | sign q message runtimeSeed =>
      obtain ⟨digests, run, _⟩ := step
      exact ((LmsMember.ensures_sign closed.bytes closed.hashed q message runtimeSeed
        s.1).post_of_run run trivial).signature
  | hkdfSha256 _ _ _ _ => exact trivial
  | _ => exact step.1

theorem unsigned_frame :
    Frame (unsigned hash seed kind config : Discipline (calls α κ) _) kind where
  bytes := closed.bytes
  isLocal c isLocal _ := by
    cases c with
    | sign _ _ _ => exact absurd isLocal id
    | _ => exact id
  answers _ _ answered := by
    obtain ⟨_, _, step⟩ := answered
    exact step.answers closed
  buffers _ kept := kept.2.1
  same _ _ kept sameConfig _ sameSeed stored :=
    ⟨sameConfig.trans kept.1, stored, sameSeed.trans kept.2.2⟩

theorem obeys_runtimeSeed :
    Routine.Obeys (unsigned hash seed kind config : Discipline (calls α κ) _) (· = seed)
      timedRuntimeSeed := by
  have frame : Frame (unsigned hash seed kind config : Discipline (calls α κ) _) kind :=
    unsigned_frame closed
  refine Routine.Obeys.get fun protocol kept => ?_
  refine Routine.Obeys.bind (obeys_timed frame
    (Routine.Obeys.orFail_any (obeys_call frame trivial trivial))) fun pufRoot _ => ?_
  refine obeys_timed frame (Routine.Obeys.orFail
    (Routine.Obeys.mono (Routine.obeys_perform id) ?_))
  rintro key ⟨_, _, derived, _⟩ value returned
  exact List.Vector.toList_injective (derived (by rw [kept.1]) value returned)

/-- At most one call of `sign`, on a message of the kind. -/
def SignedOnce (hash : List α → Hash α) (seed : Hash α) (kind : α → Prop) (lms : LmsMember α)
    (t : LmsMember α × List (SignCall α)) : Prop :=
  t = (lms, []) ∨ ∃ q message signature digests, Within kind message ∧
    message.length = lmotsSignedObjectBytes ∧
    LmsMember.Signs hash kind q message seed lms signature t.1 digests ∧ t.2 = [⟨q, digests⟩]

theorem signing_stages (lms : LmsMember α) :
    Stages (Sessions hash seed kind config)
      (unsigned hash seed kind config : Discipline (calls α κ) _) kind (· = seed) (fun _ => True)
      (· = (lms, [])) (fun _ t => t = (lms, [])) (SignedOnce hash seed kind lms) where
  frame := unsigned_frame closed
  seeds := obeys_runtimeSeed closed
  before_keeps := unsigned_keeps _
  reserved_keeps _ := unsigned_keeps _
  after_keeps := unsigned_keeps _
  after_of_before _ start := .inl start
  after_of_reserved _ _ start := .inl start
  always_of_after _ _ := trivial
  reserves object s kept start := by
    refine ((obeys_reserveQ (fun _ => id) fun _ => id).ensures (unsigned_keeps (· = (lms, [])))
      (fun _ _ => trivial) kept start).mono ?_
    exact fun _ _ _ after => ⟨after.1, fun _ => .inl after.2.2, fun _ _ => after.2.2⟩
  signs q message runtimeSeed s a t clean isSeed start step := by
    have answers := step.answers closed
    obtain ⟨digests, run, calls⟩ := step
    obtain rfl := isSeed
    cases start
    have signs := (LmsMember.ensures_sign closed.bytes closed.hashed q message.toList runtimeSeed
      lms).post_of_run run trivial
    exact ⟨.inr ⟨q, _, _, digests, clean, message.toList_length, signs, calls⟩, answers⟩

variable [DecidableEq α]

/-- A session calls `sign` at most once, and keeps the buffers of the kind. -/
theorem signedOnce_session (lms : LmsMember α) (role : Role) :
    Routine.Moves (unsigned hash seed kind config) (Sessions hash seed kind config)
      (fun _ => True) (SignedOnce hash seed kind lms) (· = (lms, []))
      (SignedOnce hash seed kind lms) (fun _ => True)
      (session role : Method α κ (Option (View α))) := by
  have receives : ∀ (type : UInt8) (session : UInt32) (capacity : Nat),
      (unsigned hash seed kind config : Discipline (calls α κ) _).allowed
        (.receiveMessage type session capacity receiveTimeoutMs) := fun _ _ _ => id
  cases role with
  | initiator =>
      exact (((signing_stages closed lms).moves_runInitiatorSession receives).attempt
        fun _ now => now).mono (fun _ now => now) (fun _ now => now) fun _ _ => trivial
  | responder =>
      exact (((signing_stages closed lms).moves_runResponderOnce receives).attempt
        fun _ now => now).mono (fun _ now => now) (fun _ now => now) fun _ _ => trivial

end Stages

section Life

variable (κ) in
/-- The object and the LMS object of a device that has started, and after each of its sessions,
with the calls of `sign` so far. -/
inductive Reached [DecidableEq α] (hash : List α → Hash α) (seed : Hash α) (kind : α → Prop)
    (config : NodeConfig) : ProposedUavProtocol α κ → LmsMember α → List (SignCall α) → Prop where
  | started {object : ProposedUavProtocol α κ} {lms : LmsMember α} {outcomes : List Bool}
      (run : Routine.Run (Provisioning hash seed) start (constructed config)
        (LmsMember.constructed, []) (some ()) object (lms, outcomes)) :
      Reached hash seed kind config object lms []
  | session {object object' : ProposedUavProtocol α κ} {lms lms' : LmsMember α}
      {earlier signs : List (SignCall α)} {result : Option (Option (View α))}
      (reached : Reached hash seed kind config object lms earlier) (role : Role)
      (run : Routine.Run (Sessions hash seed kind config) (ProposedUavProtocol.session role) object
        (lms, []) result object' (lms', signs)) :
      Reached hash seed kind config object' lms' (earlier ++ signs)

/-- Between sessions, cells of another kind are at most in the front of one buffer. -/
structure BetweenSessions (kind : α → Prop) (config : NodeConfig)
    (object : ProposedUavProtocol α κ) (lms : LmsMember α) : Prop where
  config : object.config = config
  buffers : Within kind object.buffers
  bootSeed : object.bootSeed = LmsMember.zeroHash
  kem : object.kemInitialized = false
  covered : LmsMember.Covered kind 55 lms

variable {hash : List α → Hash α} {seed : Hash α} {kind : α → Prop} {config : NodeConfig}
  (closed : Closed hash kind)

include closed

theorem between_started {object : ProposedUavProtocol α κ} {lms : LmsMember α}
    {outcomes : List Bool} (run : Routine.Run (Provisioning hash seed) start (constructed config)
      (LmsMember.constructed, []) (some ()) object (lms, outcomes)) :
    BetweenSessions kind config object lms ∧ LmsMember.Covered kind 0 lms := by
  let d : Discipline (calls α κ) (ProposedUavProtocol α κ) := ⟨fun _ => True, fun _ _ => True,
    fun object => object.config = config ∧ Within kind object.buffers ∧
      object.kemInitialized = false⟩
  have zeros : ∀ size, Within kind (List.Vector.replicate size (ofByte 0 : α)).toList :=
    fun _ => within_replicate (closed.bytes 0)
  have obeys : Routine.Obeys d (fun _ => True) (start : Method α κ Unit) :=
    obeys_start (fun _ _ kept => kept) (fun _ _ kept => kept) (fun _ => trivial)
      fun _ _ kept => kept
  have keeps : Routine.Keeps d (Provisioning hash seed) fun _ => True :=
    fun _ _ _ _ _ _ _ => ⟨trivial, trivial⟩
  have constructed : d.kept (constructed config) := ⟨rfl, within_buffers.mpr ⟨zeros _, zeros _,
    zeros _, zeros _, zeros _, zeros _, zeros _, zeros _⟩, rfl⟩
  have ensured : ∀ s, Routine.Ensures (Provisioning hash seed) (fun _ => True) _ start
      (ProposedUavProtocol.constructed config) s := fun s =>
    obeys.ensures keeps (fun _ now => now) constructed trivial
  obtain ⟨⟨sameConfig, buffers, kem⟩, _⟩ := (ensured _).post_of_run run trivial
  have constructs := constructs_kind kind closed.bytes closed.hashed config.lmsIdentifier seed
  obtain ⟨settled, complete⟩ := (ensures_start constructs).post_of_run run trivial
  have covered := (complete rfl).covered closed.bytes
    fun x mem => zeros _ x (List.mem_of_mem_drop mem)
  rcases settled with ⟨bootSeed, _⟩ | ⟨failed, _⟩
  · exact ⟨⟨sameConfig, buffers, bootSeed, kem, covered.mono⟩, covered⟩
  · nomatch failed

variable [DecidableEq α] {object object' : ProposedUavProtocol α κ} {lms lms' : LmsMember α}
  {earlier signs : List (SignCall α)} {result : Option (Option (View α))}

/-- What one session leaves. -/
theorem BetweenSessions.session (between : BetweenSessions kind config object lms) {role : Role}
    (run : Routine.Run (Sessions hash seed kind config) (ProposedUavProtocol.session role) object
      (lms, []) result object' (lms', signs)) :
    BetweenSessions kind config object' lms' ∧ SignedOnce hash seed kind lms (lms', signs) := by
  have kem := (ensures_session_kem between.kem role).post_of_run run trivial
  have ensured := @signedOnce_session α κ _ hash seed kind config closed _ lms role object (lms, [])
    ⟨between.config, between.buffers, between.bootSeed⟩ rfl
  obtain ⟨⟨sameConfig, buffers, bootSeed⟩, failed, succeeded⟩ := ensured.post_of_run run trivial
  have once : SignedOnce hash seed kind lms (lms', signs) := by
    cases result with
    | none => exact failed rfl
    | some outcome => exact (succeeded outcome rfl).2
  refine ⟨⟨sameConfig, buffers, bootSeed, kem, ?_⟩, once⟩
  rcases once with unsigned | ⟨q, message, signature, digests, clean, length, signs, _⟩
  · cases unsigned
    exact between.covered
  · exact signs.covered closed.bytes between.covered clean length

theorem Reached.between (reached : Reached κ hash seed kind config object lms earlier) :
    BetweenSessions kind config object lms := by
  induction reached with
  | started run => exact (between_started closed run).1
  | session _ role run ih => exact (ih.session closed run).1

omit [DecidableEq α] in
/-- A session without a digest leaves the buffer of the kind: its message covers what was there. -/
theorem covered_session (between : BetweenSessions kind config object lms)
    (covered : LmsMember.Covered kind 0 lms)
    (once : SignedOnce hash seed kind lms (lms', signs)) (undigested : Undigested signs) :
    LmsMember.Covered kind 0 lms' := by
  rcases once with unsigned | ⟨q, message, signature, digests, clean, length, signed, calls⟩
  · cases unsigned
    exact covered
  obtain rfl : signs = [⟨q, digests⟩] := calls
  rcases digests with _ | ⟨_ | digest, later⟩
  · obtain rfl : lms' = lms := (signed.uncalled rfl).2
    exact covered
  · obtain ⟨_, C, drawn, rfl⟩ := signed.undigested rfl
    exact between.covered.withMessage closed.bytes q.toNat drawn clean length
  · exact absurd rfl (undigested _ List.mem_cons_self digest)

theorem Reached.covered (reached : Reached κ hash seed kind config object lms earlier)
    (undigested : Undigested earlier) : LmsMember.Covered kind 0 lms := by
  induction reached with
  | started run => exact (between_started closed run).2
  | session reached role run ih =>
      obtain ⟨before, now⟩ := undigested_append.mp undigested
      have between := reached.between closed
      exact covered_session closed between (ih before) (between.session closed run).2 now

omit [DecidableEq α] in
/-- Only one field may have cells of another kind. -/
theorem BetweenSessions.within_fields (between : BetweenSessions kind config object lms)
    {field : List α} (listed : field ∈ fields object lms) :
    field = lms.smallHashInput.toList ∨ Within kind field := by
  have zero : Within kind (LmsMember.zeroHash : Hash α).toList := within_replicate (closed.bytes 0)
  obtain ⟨m0, m1, m2, m3, m4, mu, signInput, result⟩ := within_buffers.mp between.buffers
  simp only [fields, List.mem_cons, List.not_mem_nil, or_false] at listed
  rcases listed with rfl | rfl | rfl | rfl | rfl | rfl | rfl | rfl | rfl | rfl | rfl | rfl | rfl
  · exact .inr (between.bootSeed ▸ zero)
  · exact .inr m0
  · exact .inr m1
  · exact .inr m2
  · exact .inr m3
  · exact .inr m4
  · exact .inr mu
  · exact .inr signInput
  · exact .inr result
  · exact .inr (between.covered.seed ▸ zero)
  · refine .inr fun y mem => ?_
    cases tree : lms.tree with
    | none =>
        rw [tree] at mem
        nomatch mem
    | some nodes =>
        rw [tree, Option.elim_some] at mem
        obtain ⟨node, _, inside⟩ := List.mem_flatMap.mp mem
        have clean := between.covered.nodes nodes tree node
        exact clean y inside
  · exact .inl rfl
  · exact .inr between.covered.publicInput

/-- A session that got the digest of its message leaves a secret, whatever came before it. -/
theorem undigested_of_wiped (reached : Reached κ hash seed kind config object lms earlier)
    {role : Role} (run : Routine.Run (Sessions hash seed kind config) (session role) object
      (lms, []) result object' (lms', signs))
    (wiped : Wiped hash seed object' lms' (earlier ++ signs)) : Undigested signs := by
  obtain ⟨_, once⟩ := (reached.between closed).session closed run
  rcases once with unsigned | ⟨q, message, signature, digests, _, _, signed, calls⟩
  · cases unsigned
    exact fun call mem => nomatch mem
  obtain rfl : signs = [⟨q, digests⟩] := calls
  intro call mem digest first
  obtain rfl := List.mem_singleton.mp mem
  obtain ⟨⟨secret, below, inside⟩, _⟩ := signed.digested digest first
  refine wiped secret (.inr ⟨_, List.mem_append_right _ mem, digest, first, below⟩) _ ?_ inside
  simp only [fields, List.mem_cons, true_or, or_true]

omit closed in
/-- In a life without a digest for a signature, the secrets of all signatures are gone. -/
theorem Reached.wiped (mark : Mark hash kind seed)
    (reached : Reached κ hash seed kind config object lms earlier)
    (undigested : Undigested earlier) : Wiped hash seed object lms earlier := by
  have covered := reached.covered mark.toClosed undigested
  rintro secret (rfl | ⟨call, mem, digest, first, _⟩) field listed
  · rcases (reached.between mark.toClosed).within_fields mark.toClosed listed with rfl | clean
    · exact mark.not_infix covered.behind
    · exact mark.not_infix clean
  · exact absurd first (undigested call mem digest)

end Life

end Puav.ProposedUavProtocol
