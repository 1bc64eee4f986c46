import PostQuantumUav.Gcs.Acceptance

/-!
# Acknowledged paths are stored

Every reply in the network answers a request of the device, and a reply to a path
request was made when the path had been stored. Paths of the device are only
overwritten by the same path, so an acknowledgement that matches a request's
version and index proves that path stored, with one exception: the
acknowledgement of a root reads as that of path zero.
-/

namespace Gcs.Net

open Interaction Puav Cell Buffer

/-- The path of leaf `q` is stored under the device's version. -/
def IsStored (lms : LmotsLms) (deviceId : Identity) (version : UInt32) (ledger : Ledger)
    (q : Nat) : Prop :=
  ∃ path, lms.extractPath q = some path ∧
    ledger.paths (deviceId.toList, version.toNat, q) = some path.toList

/-- A request that the device can have sent while it enrols. -/
structure IsOwn (lms : LmotsLms) (deviceId : Identity) (version : UInt32) (request : Bytes) :
    Prop where
  device : slice request 8 idBytes = deviceId.toList
  enrols : readByte request 4 = opEnrollRoot ∨
    readByte request 4 = opEnrollPath ∧ u32be request 40 = version.toNat ∧
      ∃ path, lms.extractPath (u32be request 44) = some path ∧
        slice request 48 320 = path.toList

/-- The index in the acknowledgement of a request. -/
def acknowledgedQ (request : Bytes) : Nat :=
  if readByte request 4 = opEnrollRoot then 0 else u32be request 44

section Invariant

variable (hmac : Bytes → Tag) (lms : LmotsLms) (deviceId : Identity) (version : UInt32)
variable (known : Nat → Prop)

/-- What the network holds in every state of an enrolment; the leaves in `known` are
those whose path is already known to be stored. -/
structure Enrolling (net : Net) : Prop where
  own : ∀ request ∈ net.requests, IsOwn lms deviceId version request
  answers : ∀ reply ∈ net.replies, IsOwn lms deviceId version reply.request ∧
    reply.bytes = buildAck hmac deviceId.toList (u32be reply.request 40)
      (acknowledgedQ reply.request) 0
  stored : ∀ reply ∈ net.replies, readByte reply.request 4 = opEnrollPath →
    IsStored lms deviceId version net.ledger (u32be reply.request 44)
  kept : ∀ q, known q → IsStored lms deviceId version net.ledger q

end Invariant

section Steps

variable {hmac : Bytes → Tag} {lms : LmotsLms} {client : GcsLedgerClient} {version : UInt32}
variable {known : Nat → Prop} {net net' : Net} {delivers : Bytes → Reply → Prop}

theorem enrolling_initial (ledger : Ledger) :
    Enrolling hmac lms client.deviceId version (fun _ => False) (initial ledger) where
  own _ mem := absurd mem List.not_mem_nil
  answers _ mem := absurd mem List.not_mem_nil
  stored _ mem := absurd mem List.not_mem_nil
  kept _ known := known.elim

/-- A packet of another device writes no path of this one. -/
theorem IsStored.other {ledger ledger' : Ledger} {packet reply : Bytes} {q : Nat}
    (held : IsStored lms client.deviceId version ledger q)
    (foreign : slice packet 8 idBytes ≠ client.deviceId.toList)
    (turn : handle hmac ledger packet = .replied ledger' reply) :
    IsStored lms client.deviceId version ledger' q := by
  obtain ⟨path, extracted, present⟩ := held
  refine ⟨path, extracted, ?_⟩
  rcases handle_replied turn with ⟨_, paths, _⟩ | ⟨_, rfl, _⟩ | ⟨_, rfl⟩
  · rwa [paths]
  · rw [Ledger.paths_upsertPath, Function.update_of_ne]
    · exact present
    · intro key
      exact foreign (congrArg Prod.fst key).symm
  · exact present

/-- A request of the device overwrites a stored path only by itself. -/
theorem IsStored.own {ledger ledger' : Ledger} {request reply : Bytes} {q : Nat}
    (held : IsStored lms client.deviceId version ledger q)
    (sent : IsOwn lms client.deviceId version request)
    (turn : handle hmac ledger request = .replied ledger' reply) :
    IsStored lms client.deviceId version ledger' q := by
  obtain ⟨path, extracted, present⟩ := held
  refine ⟨path, extracted, ?_⟩
  rcases handle_replied turn with ⟨_, paths, _⟩ | ⟨op, rfl, _⟩ | ⟨_, rfl⟩
  · rwa [paths]
  · rw [Ledger.paths_upsertPath, Function.update_apply]
    split
    · rename_i key
      obtain isRoot | ⟨_, _, path', extracted', written⟩ := sent.enrols
      · exact absurd (op.symm.trans isRoot) (by decide)
      have index : q = u32be request 44 := congrArg (fun key => key.2.2) key
      rw [index, extracted'] at extracted
      rw [written, Option.some.inj extracted]
    · exact present
  · exact present

/-- The reply to an enrolment is an acknowledgement, and that of a path is sent when
the path is stored. -/
theorem IsOwn.replied {ledger ledger' : Ledger} {request reply : Bytes}
    (sent : IsOwn lms client.deviceId version request)
    (turn : handle hmac ledger request = .replied ledger' reply) :
    reply = buildAck hmac client.deviceId.toList (u32be request 40) (acknowledgedQ request) 0 ∧
      (readByte request 4 = opEnrollPath →
        IsStored lms client.deviceId version ledger' (u32be request 44)) := by
  rcases handle_replied turn with ⟨op, _, ack⟩ | ⟨op, rfl, ack⟩ | ⟨op, _⟩
  · rw [acknowledgedQ, if_pos op, ← sent.device]
    exact ⟨ack, fun isPath => absurd (op.symm.trans isPath) (by decide)⟩
  · have notRoot : readByte request 4 ≠ opEnrollRoot := by
      rw [op]
      decide
    obtain isRoot | ⟨_, versions, path, extracted, written⟩ := sent.enrols
    · exact absurd isRoot notRoot
    rw [acknowledgedQ, if_neg notRoot, ← sent.device]
    refine ⟨ack, fun _ => ⟨path, extracted, ?_⟩⟩
    rw [Ledger.paths_upsertPath, sent.device, versions, Function.update_self, written]
  · rcases sent.enrols with isRoot | ⟨isPath, _⟩
    · rw [isRoot] at op
      exact absurd op (by decide)
    · rw [isPath] at op
      exact absurd op (by decide)

theorem Enrolling.serverStep (held : Enrolling hmac lms client.deviceId version known net)
    (step : ServerStep hmac client net net') :
    Enrolling hmac lms client.deviceId version known net' := by
  cases step with
  | own sent turn =>
      have own := held.own _ sent
      obtain ⟨bytes, stored⟩ := own.replied turn
      refine ⟨held.own, ?_, ?_, fun q mem => (held.kept q mem).own own turn⟩
      · rintro r (_ | ⟨_, old⟩)
        · exact ⟨own, bytes⟩
        · exact held.answers r old
      · rintro r (_ | ⟨_, old⟩) isPath
        · exact stored isPath
        · exact (held.stored r old isPath).own own turn
  | other foreign turn =>
      exact ⟨held.own, held.answers, fun r old isPath =>
        (held.stored r old isPath).other foreign turn, fun q mem =>
        (held.kept q mem).other foreign turn⟩

theorem Enrolling.serverSteps (held : Enrolling hmac lms client.deviceId version known net)
    (steps : Relation.ReflTransGen (ServerStep hmac client) net net') :
    Enrolling hmac lms client.deviceId version known net' := by
  induction steps with
  | refl => exact held
  | tail _ step ih => exact ih.serverStep step

/-- The world around the client during one exchange. -/
theorem serves {request : Bytes} (own : IsOwn lms client.deviceId version request) :
    GcsLedgerClient.Serves (world hmac client delivers) request
      (Enrolling hmac lms client.deviceId version known)
      (fun net => Enrolling hmac lms client.deviceId version known net ∧ net.awaited = request)
      (fun net packet => packet.source = client.gcs →
        ∃ reply ∈ net.replies, reply.bytes = packet.bytes ∧ delivers request reply) where
  discard := by
    rintro net _ held ⟨before, steps, ⟨⟩⟩
    exact held.serverSteps steps
  send := by
    rintro net _ sent held ⟨before, steps, ⟨⟩⟩
    have now := (held.elim id And.left).serverSteps steps
    refine ⟨⟨?_, now.answers, now.stored, now.kept⟩, rfl⟩
    rintro r (_ | ⟨_, old⟩)
    · exact own
    · exact now.own r old
  rounds := by
    rintro net _ rounds held ⟨before, steps, ⟨⟩⟩
    exact ⟨held.1.serverSteps steps, (replies_subset steps).2.trans held.2⟩
  parse := by
    rintro net _ packet held ⟨before, steps, answered⟩
    have waits := (replies_subset steps).2.trans held.2
    cases answered with
    | parsePacket _ arrives =>
        refine ⟨⟨held.1.serverSteps steps, waits⟩, ?_⟩
        rintro p found source
        simpa only [waits] using arrives p found source
  tag := by
    rintro net _ data tag held ⟨before, steps, ⟨⟩⟩
    refine ⟨⟨held.1.serverSteps steps, (replies_subset steps).2.trans held.2⟩, ?_⟩
    intro p arrived source
    obtain ⟨reply, mem, rest⟩ := arrived source
    exact ⟨reply, (replies_subset steps).1 mem, rest⟩

/-- A full acknowledgement in the buffer names the version and index of a request that
the server has answered. -/
theorem Enrolling.acknowledges {client' : GcsLedgerClient} {packet : Transport.Packet}
    {reply : Reply} {rootOrPathVersion q : UInt32}
    (held : Enrolling hmac lms client.deviceId version known net)
    (accepted : client'.Holds GcsLedgerClient.opAck rootOrPathVersion q packet ackBytes)
    (mem : reply ∈ net.replies) (same : reply.bytes = packet.bytes) :
    u32be reply.request 40 = rootOrPathVersion.toNat ∧
      (q = GcsLedgerClient.anyQ ∨ acknowledgedQ reply.request = q.toNat) := by
  obtain ⟨_, versions, index⟩ := GcsLedgerClient.expected_ack.mp accepted.expected
  obtain ⟨-, -, versionField, qField, -⟩ := slice_buildAck hmac client.deviceId.toList
    (u32be reply.request 40) (acknowledgedQ reply.request) 0
  rw [← (held.answers reply mem).2, same, ← accepted.slice_eq (by decide)] at versionField qField
  rw [versionField, getU32_putU32_self] at versions
  rw [qField, getU32_putU32_self] at index
  have small : acknowledgedQ reply.request < 4294967296 := by
    rw [acknowledgedQ]
    split
    · decide
    · exact UInt32.toNat_lt _
  refine ⟨?_, index.imp_right fun index => ?_⟩
  · rw [← versions, u32be, UInt32.ofNat_toNat]
  · rw [← index, UInt32.toNat_ofNat', Nat.mod_eq_of_lt small]

end Steps

section Contracts

open GcsLedgerClient

variable {hmac : Bytes → Tag} {lms : LmotsLms} {client object : GcsLedgerClient}
variable {version : UInt32} {known : Nat → Prop} {net : Net} {delivers : Bytes → Reply → Prop}

/-- What every call of the enrolment keeps. -/
abbrev Running (hmac : Bytes → Tag) (lms : LmotsLms) (client : GcsLedgerClient)
    (version : UInt32) (known : Nat → Prop) (object : GcsLedgerClient) (net : Net) : Prop :=
  Kept client object ∧ Enrolling hmac lms client.deviceId version known net

theorem authenticate_ensures {α : Type} {request : Bytes} {f : Bytes → Method α}
    {post : Option α → GcsLedgerClient → Net → Prop}
    (held : Enrolling hmac lms client.deviceId version known net)
    (failed : ∀ t, Enrolling hmac lms client.deviceId version known t → post none object t)
    (tagged : ∀ tag t, Enrolling hmac lms client.deviceId version known t →
      Routine.Ensures (world hmac client delivers) (fun _ => True) post
        (f (GcsLedgerClient.withTag request tag)) object t) :
    Routine.Ensures (world hmac client delivers) (fun _ => True) post
      (authenticate request >>= f) object net := by
  rw [authenticate, bind_assoc]
  apply Routine.Ensures.perform
  rintro tag t ⟨before, steps, ⟨⟩⟩
  have now := held.serverSteps steps
  refine ⟨trivial, ?_⟩
  cases tag with
  | none => exact failed _ now
  | some tag => exact tagged tag _ now

theorem acknowledge_ensures {expectedVersion q : UInt32} {request : Bytes}
    (held : Running hmac lms client version known object net)
    (own : IsOwn lms client.deviceId version request) :
    Routine.Ensures (world hmac client delivers) (fun _ => True) (fun result object' t =>
      Running hmac lms client version known object' t ∧ (result = some () →
        ∃ reply ∈ t.replies, delivers request reply ∧
          u32be reply.request 40 = expectedVersion.toNat ∧
          (q = anyQ ∨ acknowledgedQ reply.request = q.toNat)))
      (acknowledge expectedVersion q request) object net := by
  refine (sendAndReceive_ensures (serves own) held.2).bind ?_ ?_
  · rintro object' t ⟨state, kept, -⟩
    exact ⟨⟨held.1.trans kept, state.elim id And.left⟩, fun result => nomatch result⟩
  · rintro length object' t ⟨state, kept, accepts⟩
    have running : Running hmac lms client version known object' t :=
      ⟨held.1.trans kept, state.elim id And.left⟩
    simp only [Routine.ensures_bind (r := get), Routine.ensures_get, Routine.ensures_guard]
    refine ⟨fun full => ⟨running, fun _ => ?_⟩, fun _ => ⟨running, fun result => nomatch result⟩⟩
    obtain ⟨-, -, accepted⟩ := accepts length rfl
    obtain ⟨packet, arrived, holds⟩ := accepted length rfl
    rw [full.1] at holds
    obtain ⟨reply, mem, same, delivered⟩ := arrived (holds.source.trans running.1.gcs)
    exact ⟨reply, mem, delivered, running.2.acknowledges holds mem same⟩

theorem enrollOwnRoot_ensures {rootVersion suiteId : UInt32} {status : UInt8}
    {expiryUnix : UInt64} (held : Running hmac lms client version known object net) :
    Routine.Ensures (world hmac client delivers) (fun _ => True)
      (fun _ object' t => Running hmac lms client version known object' t)
      (enrollOwnRoot lms rootVersion suiteId status expiryUnix) object net := by
  simp only [enrollOwnRoot, Routine.ensures_bind (r := get), Routine.ensures_get]
  cases lms.root with
  | none => exact held
  | some root =>
      refine authenticate_ensures held.2 (fun _ now => ⟨held.1, now⟩) fun tag t now => ?_
      obtain ⟨-, op, id, -⟩ := enrollRootRequest_fields object.deviceId tag rootVersion
        lms.identifier root suiteId status expiryUnix
      refine (acknowledge_ensures ⟨held.1, now⟩ ⟨?_, .inl ?_⟩).mono fun _ _ _ h => h.1
      · exact id.trans (congrArg List.Vector.toList held.1.deviceId)
      · exact readByte_of_slice op

/-- The request for the path of leaf `q`. -/
theorem isOwn_enrollPathRequest {q : UInt32} {path : Path} {tag : Digest} {request : Bytes}
    (device : object.deviceId = client.deviceId) (extracted : lms.extractPath q.toNat = some path)
    (built : GcsLedgerClient.withTag (enrollPathRequest object.deviceId version q path) tag =
      request) :
    IsOwn lms client.deviceId version request ∧ readByte request 4 = opEnrollPath ∧
      u32be request 40 = version.toNat ∧ u32be request 44 = q.toNat := by
  obtain ⟨-, op, id, versionField, qField, pathField⟩ :=
    enrollPathRequest_fields object.deviceId tag version q path
  rw [built] at id op versionField qField pathField
  have versions : u32be request 40 = version.toNat := by
    rw [u32be, versionField, getU32_putU32_self]
  have index : u32be request 44 = q.toNat := by
    rw [u32be, qField, getU32_putU32_self]
  have extracted' : lms.extractPath (u32be request 44) = some path := by
    rw [index]
    exact extracted
  have opField := readByte_of_slice op
  exact ⟨⟨id.trans (congrArg _ device), .inr ⟨opField, versions, path, extracted', pathField⟩⟩,
    opField, versions, index⟩

/-- An acknowledged path is stored, unless the acknowledgement may be that of the root. -/
theorem enrollPath_ensures {q : UInt32} (held : Running hmac lms client version known object net) :
    Routine.Ensures (world hmac client noRootForPathZero) (fun _ => True)
      (fun result object' t => Running hmac lms client version known object' t ∧
        (result = some () → IsStored lms client.deviceId version t.ledger q.toNat))
      (enrollPath lms version q) object net := by
  simp only [enrollPath, Routine.ensures_bind (r := get), Routine.ensures_get]
  cases extracted : lms.extractPath q.toNat with
  | none => exact ⟨held, fun result => nomatch result⟩
  | some path =>
      refine authenticate_ensures held.2
        (fun _ now => ⟨⟨held.1, now⟩, fun result => nomatch result⟩) fun tag t now => ?_
      obtain ⟨own, op, versions, index⟩ :=
        isOwn_enrollPathRequest held.1.deviceId extracted rfl
      refine (acknowledge_ensures ⟨held.1, now⟩ own).mono ?_
      rintro result object' t' ⟨running, acknowledged⟩
      refine ⟨running, fun done => ?_⟩
      obtain ⟨reply, mem, delivered, sameVersion, sameQ⟩ := acknowledged done
      have bound : q.toNat < lmsLeaves := LmotsLms.lt_of_extractPath extracted
      have sameQ : acknowledgedQ reply.request = q.toNat := by
        refine sameQ.resolve_left fun any => ?_
        rw [any] at bound
        exact absurd bound (by decide)
      rcases (running.2.answers reply mem).1.enrols with isRoot | ⟨isPath, _⟩
      · -- The index of a root's acknowledgement is zero.
        rw [acknowledgedQ, if_pos isRoot] at sameQ
        exact absurd ⟨op, index.trans sameQ.symm, isRoot, sameVersion.trans versions.symm⟩ delivered
      · have stored := running.2.stored reply mem isPath
        rw [acknowledgedQ, if_neg (by rw [isPath]; decide)] at sameQ
        rwa [sameQ] at stored

theorem Enrolling.learn {known' : Nat → Prop}
    (held : Enrolling hmac lms client.deviceId version known net)
    (stored : ∀ q, known' q → known q ∨ IsStored lms client.deviceId version net.ledger q) :
    Enrolling hmac lms client.deviceId version known' net :=
  ⟨held.own, held.answers, held.stored, fun q mem => (stored q mem).elim (held.kept q) id⟩

/-- The leaves whose path the first iterations of `enrollOwnPaths` enrolled. -/
def Enrolled (firstQ : UInt32) (iterations : List Nat) (q : Nat) : Prop :=
  ∃ i ∈ iterations, q = (firstQ + .ofNat i).toNat

theorem enrollOwnPaths_ensures {firstQ count : UInt32}
    (held : Running hmac lms client version (fun _ => False) object net) :
    Routine.Ensures (world hmac client noRootForPathZero) (fun _ => True)
      (fun result object' t => result = some () → Running hmac lms client version
        (Enrolled firstQ (List.range count.toNat)) object' t)
      (enrollOwnPaths lms version firstQ count) object net := by
  simp only [enrollOwnPaths, Routine.ensures_bind (r := guard _), Routine.ensures_guard]
  refine ⟨fun _ => ?_, fun _ result => by cases result⟩
  have start : Running hmac lms client version (Enrolled firstQ []) object net :=
    ⟨held.1, held.2.learn fun q mem => absurd mem (by simp [Enrolled])⟩
  refine (Routine.Ensures.forM
    (fun done => Running hmac lms client version (Enrolled firstQ done)) (fun _ _ => True)
    ?_ start).mono fun _ _ _ outcome => outcome.2
  intro done i _ object' t running
  refine (enrollPath_ensures running).mono ?_
  rintro result object'' t' ⟨running', stored⟩
  refine ⟨fun _ => trivial, fun succeeded => ⟨running'.1, running'.2.learn ?_⟩⟩
  rintro q ⟨j, mem, rfl⟩
  rcases List.mem_append.mp mem with old | new
  · exact .inl ⟨j, old, rfl⟩
  · rw [List.mem_singleton.mp new]
    exact .inr (stored succeeded)

/-- A range that is enrolled without leaving the tree does not wrap around. -/
theorem enrolled_of_mem {firstQ count : UInt32} {ledger : Ledger} {q : Nat}
    (stored : ∀ q, Enrolled firstQ (List.range count.toNat) q →
      IsStored lms client.deviceId version ledger q)
    (first : firstQ.toNat ≤ q) (last : q < firstQ.toNat + count.toNat) :
    Enrolled firstQ (List.range count.toNat) q := by
  have sum : ∀ i, i < 4294967296 → (firstQ + .ofNat i).toNat = (firstQ.toNat + i) % 4294967296 := by
    intro i small
    rw [UInt32.toNat_add, UInt32.toNat_ofNat', Nat.mod_eq_of_lt small]
  have counted := count.toNat_lt
  refine ⟨q - firstQ.toNat, List.mem_range.mpr (by omega), ?_⟩
  rw [sum _ (by omega)]
  by_contra wraps
  -- Otherwise the iteration at the largest 32-bit number enrolled a leaf outside the tree.
  have index : (firstQ + .ofNat (4294967295 - firstQ.toNat)).toNat = 4294967295 := by
    rw [sum _ (by omega)]
    have := firstQ.toNat_lt
    omega
  obtain ⟨path, extracted, _⟩ :=
    stored _ ⟨4294967295 - firstQ.toNat, List.mem_range.mpr (by omega), rfl⟩
  rw [index] at extracted
  exact absurd (LmotsLms.lt_of_extractPath extracted) (by decide)

end Contracts

section Runs

open GcsLedgerClient LmotsLms

variable {hmac : Bytes → Tag} {lms : LmotsLms} {client client₁ client₂ : GcsLedgerClient}
variable {rootVersion suiteId version firstQ count : UInt32} {status : UInt8}
variable {expiryUnix : UInt64} {rootResult : Option Unit} {ledger : Ledger} {middle last : Net}

/-- When the enrolment of the root and then of the paths has returned true, every path of
the range is stored, in every run that delivers no acknowledgement of a root to the wait
for path zero. -/
theorem acknowledged_paths_are_stored
    (root : Routine.Run (world hmac client noRootForPathZero)
      (enrollOwnRoot lms rootVersion suiteId status expiryUnix) client (initial ledger)
      rootResult client₁ middle)
    (paths : Routine.Run (world hmac client noRootForPathZero)
      (enrollOwnPaths lms version firstQ count) client₁ middle (some ()) client₂ last)
    {q : Nat} (first : firstQ.toNat ≤ q) (bound : q < firstQ.toNat + count.toNat) :
    ∃ path, lms.extractPath q = some path ∧
      last.ledger.paths (client.deviceId.toList, version.toNat, q) = some path.toList := by
  have start : Running hmac lms client version (fun _ => False) client (initial ledger) :=
    ⟨⟨rfl, rfl, rfl⟩, enrolling_initial ledger⟩
  have between := (enrollOwnRoot_ensures start).post_of_run root trivial
  have finished := (enrollOwnPaths_ensures between).post_of_run paths trivial rfl
  exact finished.2.kept q (enrolled_of_mem finished.2.kept first bound)

section Several

/-- A device whose identity, keys and tree have values, at the standard server port. -/
def ownClient : GcsLedgerClient :=
  ⟨⟨2, 5001⟩, .replicate _ 1, .replicate _ 2, .replicate _ 0, 0, 0⟩

/-- A tree whose nodes all differ. -/
def ownLms : LmotsLms :=
  ⟨.replicate _ 3, .replicate _ 0, some fun node => digitHash _ (putU32 (.ofNat node))⟩

def ownRoot : RootRecord :=
  ⟨ownLms.identifier.toList, (digitHash hashBytes (putU32 (.ofNat 1))).toList, 0, 1, 0⟩

def ownRootRequest : Bytes :=
  tagged (digitHash _) (enrollRootRequest ownClient.deviceId 1 ownLms.identifier
    (digitHash _ (putU32 (.ofNat 1))) 0 1 0)

def ownPath (q : Nat) : Path :=
  encodePath (pathDigests (fun node => digitHash _ (putU32 (.ofNat node))) (lmsLeaves + q)
    lmsHeight) (length_pathDigests _ _ _)

def ownPathRequest (q : UInt32) : Bytes :=
  tagged (digitHash _) (enrollPathRequest ownClient.deviceId 1 q (ownPath q.toNat))

def ownAck (q : UInt32) : Bytes := buildAck (digitHash _) ownClient.deviceId.toList 1 q.toNat 0

/-- The network behind the enrolment of the root, and behind that of each path. -/
def ownNet : Net :=
  (initial ⟨fun _ => none, fun _ => none⟩).replied ownRootRequest
    ⟨Function.update (fun _ => none) (ownClient.deviceId.toList, 1) (some ownRoot), fun _ => none⟩
    (ownAck 0)

def withPath (net : Net) (q : UInt32) : Net :=
  net.replied (ownPathRequest q) (net.ledger.upsertPath ownClient.deviceId.toList 1 q.toNat
    (ownPath q.toNat).toList) (ownAck q)

theorem noRootForPathZero_ownPath (awaited : Bytes) (q : UInt32) :
    noRootForPathZero awaited ⟨ownAck q, ownPathRequest q⟩ := by
  apply noRootForPathZero_of_path
  dsimp only
  exact tagged_pathRequest_op ..

theorem ownPath_extracted {q : UInt32} (leaf : q.toNat < lmsLeaves) :
    ownLms.extractPath q.toNat = some (ownPath q.toNat) := if_neg (Nat.not_le.mpr leaf)

theorem ownPathRequest_eq {object : GcsLedgerClient} (kept : Kept ownClient object) (q : UInt32) :
    tagged (digitHash _) (enrollPathRequest object.deviceId 1 q (ownPath q.toNat)) =
      ownPathRequest q := by
  rw [kept.deviceId]
  rfl

theorem ownPath_run {object : GcsLedgerClient} {net : Net} (kept : Kept ownClient object)
    {q : UInt32} (leaf : q.toNat < lmsLeaves) :
    Routine.Run (world (digitHash _) ownClient noRootForPathZero) (enrollPath ownLms 1 q) object net
      (some ()) (exchanged object (ownPathRequest q) (ownAck q)) (net.withPath q) :=
  enrollPath_replied_run (ownPath_extracted leaf) kept (ownPathRequest_eq kept q) rfl
    (noRootForPathZero_ownPath _ q)

/-- The acknowledgement of path zero arrives a second time. -/
theorem ownPath_repeated_run {object : GcsLedgerClient} {net : Net} (kept : Kept ownClient object)
    (mem : ⟨ownAck 0, ownPathRequest 0⟩ ∈ net.replies) :
    Routine.Run (world (digitHash _) ownClient noRootForPathZero) (enrollPath ownLms 1 1) object net
      (some ()) (received (exchanged object (ownPathRequest 1) (ownAck 0)) (ownAck 1))
      (net.withPath 1) :=
  enrollPath_repeated_run (ownPath_extracted (by decide)) kept (ownPathRequest_eq kept 1) rfl
    (noRootForPathZero_ownPath _ 1) mem (noRootForPathZero_ownPath _ 0) rfl (by decide)

/-- Three leaves; the acknowledgement of the first path arrives again during the second exchange,
which makes five replies that the client reads. -/
theorem acknowledged_paths_are_stored_repeated : ∃ client₁ middle client₂ last,
    Routine.Run (world (digitHash _) ownClient noRootForPathZero) (enrollOwnRoot ownLms 1 0 1 0)
      ownClient (initial ⟨fun _ => none, fun _ => none⟩) (some ()) client₁ middle ∧
    Routine.Run (world (digitHash _) ownClient noRootForPathZero) (enrollOwnPaths ownLms 1 0 3)
      client₁ middle (some ()) client₂ last ∧
    client₂.rxBytes = 5 * 84 ∧
    ∀ q, q < 3 → ∃ path, ownLms.extractPath q = some path ∧
      last.ledger.paths (ownClient.deviceId.toList, 1, q) = some path.toList := by
  have start : Kept ownClient (exchanged ownClient ownRootRequest (ownAck 0)) := ⟨rfl, rfl, rfl⟩
  have rootOp : readByte ownRootRequest 4 = opEnrollRoot := tagged_rootRequest_op ..
  have root : Routine.Run (world (digitHash _) ownClient noRootForPathZero)
      (enrollOwnRoot ownLms 1 0 1 0) ownClient (initial ⟨fun _ => none, fun _ => none⟩) (some ())
      (exchanged ownClient ownRootRequest (ownAck 0)) ownNet :=
    enrollOwnRoot_run rfl (by decide) (Ledger.upsertRoot_of_absent rfl (Nat.zero_le _))
      ⟨rfl, rfl, rfl⟩ rfl rfl (noRootForPathZero_of_root rootOp)
  have zero := @ownPath_run _ ownNet start 0 (by decide)
  have first := kept_exchanged start (ownPathRequest 0) (ownAck 0)
  have one := @ownPath_repeated_run _ (ownNet.withPath 0) first List.mem_cons_self
  have second := kept_received (kept_exchanged first (ownPathRequest 1) (ownAck 0)) (ownAck 1)
  have two := @ownPath_run _ ((ownNet.withPath 0).withPath 1) second 2 (by decide)
  have paths := enrollOwnPaths_run_three zero one two
  exact ⟨_, _, _, _, root, paths, rfl, fun q leaf =>
    acknowledged_paths_are_stored root paths (Nat.zero_le _) leaf⟩

end Several

section Single

/-- A device whose identity, keys and tree are zero, at the standard server port. -/
def zeroClient : GcsLedgerClient :=
  ⟨⟨0, 5001⟩, .replicate _ 0, .replicate _ 0, .replicate _ 0, 0, 0⟩

def zeroLms : LmotsLms := ⟨.replicate _ 0, .replicate _ 0, some fun _ => .replicate _ 0⟩

def zeroHmac (_ : Bytes) : Tag := .replicate _ 0

def emptyLedger : Ledger := ⟨fun _ => none, fun _ => none⟩

/-- The ledger that holds the root of `zeroLms`. -/
def rootLedger : Ledger :=
  { emptyLedger with
    roots := Function.update emptyLedger.roots (zeroClient.deviceId.toList, 1) <|
      some ⟨zeroLms.identifier.toList, (List.Vector.replicate hashBytes 0).toList, 0, 1, 0⟩ }

def rootAck : Bytes := buildAck zeroHmac zeroClient.deviceId.toList 1 0 0

def rootRequest : Bytes :=
  tagged zeroHmac (enrollRootRequest zeroClient.deviceId 1 zeroLms.identifier (.replicate _ 0)
    0 1 0)

/-- The network when the root has been enrolled. -/
def rootNet : Net := (initial emptyLedger).replied rootRequest rootLedger rootAck

theorem zero_root_run {delivers : Bytes → Reply → Prop}
    (delivered : delivers rootRequest ⟨rootAck, rootRequest⟩) :
    Routine.Run (world zeroHmac zeroClient delivers) (enrollOwnRoot zeroLms 1 0 1 0) zeroClient
      (initial emptyLedger) (some ()) (exchanged zeroClient rootRequest rootAck) rootNet :=
  enrollOwnRoot_run rfl (by decide) (Ledger.upsertRoot_of_absent rfl (Nat.zero_le _))
    ⟨rfl, rfl, rfl⟩ rfl rfl delivered

/-- The path of leaf zero in the tree of zeros. -/
def zeroPath : Path :=
  encodePath (pathDigests (fun _ => .replicate _ 0) lmsLeaves lmsHeight) (length_pathDigests _ _ _)

theorem zeroPath_extracted : zeroLms.extractPath (0 : UInt32).toNat = some zeroPath := rfl

/-- The acknowledgement of the root, delivered once more to the wait for path zero, ends the
enrolment with true while the server has stored no path. -/
theorem repeated_root_ack_acknowledges_path_zero :
    ∃ client₁ middle client₂ last,
      Routine.Run (world zeroHmac zeroClient anyReply) (enrollOwnRoot zeroLms 1 0 1 0) zeroClient
        (initial emptyLedger) (some ()) client₁ middle ∧
      Routine.Run (world zeroHmac zeroClient anyReply) (enrollOwnPaths zeroLms 1 0 1) client₁ middle
        (some ()) client₂ last ∧
      last.ledger.paths (zeroClient.deviceId.toList, 1, 0) = none := by
  refine ⟨_, _, _, _, zero_root_run trivial, enrollOwnPaths_run_single
    (enrollPath_run zeroPath_extracted rfl rfl .refl List.mem_cons_self trivial rfl rfl), rfl⟩

end Single

end Runs

end Gcs.Net
