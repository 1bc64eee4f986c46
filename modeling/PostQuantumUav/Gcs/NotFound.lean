import Mathlib.Logic.Relation
import PostQuantumUav.Gcs.Requests
import PostQuantumUav.Puav.GcsExchange

/-!
# Which request a refusal ends

A client and the server over a network that keeps every datagram: each may arrive any
number of times, late and in any order, or never, and nothing is forged. The state
remembers the tables at every turn of the server and the client's calls since its
current operation began.

The client compares the version and index of a record, and neither of a refusal. Its
query of a path is ended by any NOT_FOUND, whichever request that one answered.
-/

namespace Gcs

open Interaction Puav Cell Buffer

/-- The tables now and at the earlier turns of the server, all requests and replies, and the
calls of the current operation, latest first. -/
structure Traffic where
  ledger : Ledger
  earlier : List Ledger
  requests : List Bytes
  replies : List Bytes
  log : List (Event GcsLedgerClient.calls)

namespace Traffic

/-- The tables at every turn so far, in order. -/
def moments (s : Traffic) : List Ledger := s.earlier ++ [s.ledger]

/-- The tables from the state `s` on. -/
def during (s t : Traffic) : List Ledger := t.moments.drop s.earlier.length

def initial (ledger : Ledger) : Traffic := ⟨ledger, [], [], [], []⟩

/-- An operation begins. -/
def fresh (s : Traffic) : Traffic := { s with log := [] }

section World

variable (hmac : Bytes → Tag) (server : Transport.Endpoint)

/-- The server takes a datagram of the client, or any packet from elsewhere. -/
inductive ServerStep (s : Traffic) : Traffic → Prop where
  | own {request reply : Bytes} {ledger : Ledger} (sent : request ∈ s.requests)
      (turn : handle hmac s.ledger request = .replied ledger reply) :
      ServerStep s { s with
        ledger := ledger, earlier := s.moments, replies := reply :: s.replies }
  | other {packet reply : Bytes} {ledger : Ledger}
      (turn : handle hmac s.ledger packet = .replied ledger reply) :
      ServerStep s { s with ledger := ledger, earlier := s.moments }

/-- How the calls of the client are answered; a packet from the server is one of its replies. -/
inductive Answered (s : Traffic) : Event GcsLedgerClient.calls → Prop where
  | discardPending : Answered s ⟨.discardPending, ()⟩
  | hmacSha256 (data : Bytes) (tag : Option Digest) (correct : ∀ t, tag = some t → t = hmac data) :
      Answered s ⟨.hmacSha256 data, tag⟩
  | sendPacket (request : Bytes) (sent : Bool) : Answered s ⟨.sendPacket request, sent⟩
  | pollRounds (rounds : Nat) : Answered s ⟨.pollRounds, rounds⟩
  | parsePacket (packet : Option Transport.Packet)
      (arrives : ∀ p, packet = some p → p.source = server → p.bytes ∈ s.replies) :
      Answered s ⟨.parsePacket, packet⟩
  | espTimer (now : UInt64) : Answered s ⟨.espTimer, now⟩

/-- The state after a call: what was sent stays in the network. -/
def after (s : Traffic) (event : Event GcsLedgerClient.calls) : Traffic :=
  { s with
    log := event :: s.log
    requests := match event.call with
      | .sendPacket request => request :: s.requests
      | _ => s.requests }

/-- Any turns of the server happen between two calls. -/
def world : World GcsLedgerClient.calls Traffic := fun s event t =>
  ∃ before, Relation.ReflTransGen (ServerStep hmac) s before ∧
    Answered hmac server before event ∧ t = before.after event

/-- The operations of a client. -/
inductive Operation where
  | enrollOwnRoot (lms : LmotsLms) (version suiteId : UInt32) (status : UInt8) (expiryUnix : UInt64)
  | enrollOwnPaths (lms : LmotsLms) (version firstQ count : UInt32)
  | fetchPeerRoot (version : UInt32)
  | fetchPeerPath (version q : UInt32)

def Operation.method : Operation → GcsLedgerClient.Method Unit
  | .enrollOwnRoot lms version suiteId status expiryUnix =>
      GcsLedgerClient.enrollOwnRoot lms version suiteId status expiryUnix
  | .enrollOwnPaths lms version firstQ count =>
      GcsLedgerClient.enrollOwnPaths lms version firstQ count
  | .fetchPeerRoot version => do
      let _ ← GcsLedgerClient.fetchPeerRoot version
  | .fetchPeerPath version q => do
      let _ ← GcsLedgerClient.fetchPeerPath version q

/-- The states that operations lead to, some of which may have been cut short. -/
inductive Reached : Traffic → Prop where
  | initial (ledger : Ledger) : Reached (initial ledger)
  | call {s t : Traffic} (client : GcsLedgerClient) (operation : Operation)
      {rest : Program GcsLedgerClient.calls (Option Unit × GcsLedgerClient)} (reached : Reached s)
      (exec : Program.Exec (world hmac server) (operation.method.on client) s.fresh rest t) :
      Reached t

/-- A packet that the client takes for a refusal of the server. -/
structure Refusal (packet : Transport.Packet) (tag : Digest) : Prop where
  source : packet.source = server
  short : packet.bytes.length ≤ maxGcsPacketBytes
  long : 8 + hmacBytes ≤ packet.bytes.length
  magic : slice packet.bytes 0 4 = GcsLedgerClient.magic
  authentic : slice packet.bytes (packet.bytes.length - hmacBytes) hmacBytes = tag.toList
  op : readByte packet.bytes 4 = GcsLedgerClient.opNotFound

/-- The query of a path received a refusal last, before it stopped its timer. -/
def EndsRefused (t : Traffic) : Prop :=
  ∃ (now : UInt64) (packet : Transport.Packet) (tag : Digest) (earlier : List _),
    Refusal server packet tag ∧
    t.log = ⟨.espTimer, now⟩ ::
      ⟨.hmacSha256 (packet.bytes.take (packet.bytes.length - hmacBytes)), some tag⟩ ::
      ⟨.parsePacket, some packet⟩ :: earlier

end World

section Turns

variable {hmac : Bytes → Tag} {server : Transport.Endpoint} {s t u : Traffic}

/-- Rows are replaced and never deleted. -/
structure Grows (ledger ledger' : Ledger) : Prop where
  roots : ∀ key, ledger'.roots key = none → ledger.roots key = none
  paths : ∀ key, ledger'.paths key = none → ledger.paths key = none

theorem grows_handle {ledger ledger' : Ledger} {packet reply : Bytes}
    (turn : handle hmac ledger packet = .replied ledger' reply) : Grows ledger ledger' := by
  rcases handle_writes turn with ⟨_, _, _, _, stored⟩ | ⟨_, _, _, _, _, rfl⟩ | rfl
  · constructor
    · intro key absent
      rw [Ledger.roots_upsertRoot stored, Function.update_apply] at absent
      split at absent
      · cases absent
      · exact absent
    · intro key absent
      rwa [Ledger.paths_upsertRoot stored] at absent
  · constructor
    · intro key absent
      rwa [Ledger.roots_upsertPath] at absent
    · intro key absent
      rw [Ledger.paths_upsertPath, Function.update_apply] at absent
      split at absent
      · cases absent
      · exact absent
  · exact ⟨fun _ => id, fun _ => id⟩

theorem readByte_buildAck_ne (deviceId : Bytes) (version q : Nat) (status : UInt8) :
    readByte (buildAck hmac deviceId version q status) 4 ≠ opNotFound := by
  rw [readByte_of_slice (slice_buildAck hmac deviceId version q status).2.1]
  decide

theorem readByte_buildRootResponse_ne (deviceId : Bytes) (version : Nat) (record : RootRecord) :
    readByte (buildRootResponse hmac deviceId version record) 4 ≠ opNotFound := by
  have op : slice (buildRootResponse hmac deviceId version record) 4 1 = [opRootRecord] := by
    rw [buildRootResponse, slice_withTag]
    · simp [rootRecordBytes]
    · simp [rootRecordBytes, tagBytes]
  rw [readByte_of_slice op]
  decide

theorem readByte_buildPathResponse_ne (deviceId : Bytes) (version q : Nat) (path : Bytes) :
    readByte (buildPathResponse hmac deviceId version q path) 4 ≠ opNotFound := by
  have op : slice (buildPathResponse hmac deviceId version q path) 4 1 = [opPathRecord] := by
    rw [buildPathResponse, slice_withTag]
    · simp [pathRecordBytes]
    · simp [pathRecordBytes, tagBytes]
  rw [readByte_of_slice op]
  decide

/-- A turn that refuses writes nothing, and tables with fewer rows refuse the same packet. -/
theorem refused_cases {ledger ledger' : Ledger} {packet reply : Bytes}
    (turn : handle hmac ledger packet = .replied ledger' reply)
    (op : readByte reply 4 = opNotFound) :
    ledger' = ledger ∧ (∃ target version q, reply = buildNotFound hmac target version q) ∧
      ∀ earlier, Grows earlier ledger → handle hmac earlier packet = .replied earlier reply := by
  rcases handle_cases turn with ⟨_, _, _, _, _, _, answer⟩ | ⟨_, _, _, _, _, _, _, answer⟩ |
    ⟨_, same, deviceId, target, version, parsed, answer⟩ |
    ⟨_, same, deviceId, target, version, q, parsed, answer⟩
  · rw [answer] at op
    exact absurd op (readByte_buildAck_ne _ _ _ _)
  · rw [answer] at op
    exact absurd op (readByte_buildAck_ne _ _ _ _)
  · cases found : ledger.roots (target, version) with
    | some record =>
        rw [found] at answer
        rw [answer] at op
        exact absurd op (readByte_buildRootResponse_ne _ _ _)
    | none =>
        rw [found] at answer
        refine ⟨same, ⟨target, version, 0, answer⟩, ?_⟩
        intro earlier grows
        rw [handle_getRoot parsed, grows.roots _ found, answer]
  · cases found : ledger.paths (target, version, q) with
    | some path =>
        rw [found] at answer
        rw [answer] at op
        exact absurd op (readByte_buildPathResponse_ne _ _ _ _)
    | none =>
        rw [found] at answer
        refine ⟨same, ⟨target, version, q, answer⟩, ?_⟩
        intro earlier grows
        rw [handle_getPath parsed, grows.paths _ found, answer]

/-- Every reply in the network was computed by the server for some packet. -/
def Genuine (hmac : Bytes → Tag) (s : Traffic) : Prop :=
  ∀ reply ∈ s.replies, ∃ ledger packet ledger', handle hmac ledger packet = .replied ledger' reply

/-- No refusal is in the network, and none of the requests there would be refused. -/
structure Quiet (hmac : Bytes → Tag) (s : Traffic) : Prop where
  replies : ∀ reply ∈ s.replies, readByte reply 4 ≠ opNotFound
  requests : ∀ request ∈ s.requests, ∀ ledger reply,
    handle hmac s.ledger request = .replied ledger reply → readByte reply 4 ≠ opNotFound

theorem Genuine.serverStep (genuine : Genuine hmac s) (step : ServerStep hmac s t) :
    Genuine hmac t := by
  cases step with
  | own sent turn =>
      intro reply member
      rcases List.mem_cons.mp member with rfl | old
      · exact ⟨_, _, _, turn⟩
      · exact genuine reply old
  | other turn => exact genuine

theorem ServerStep.grows (step : ServerStep hmac s t) : Grows s.ledger t.ledger := by
  cases step with
  | own sent turn => exact grows_handle turn
  | other turn => exact grows_handle turn

theorem Quiet.serverStep (quiet : Quiet hmac s) (step : ServerStep hmac s t) : Quiet hmac t := by
  have grows := step.grows
  have still : ∀ request ∈ s.requests, ∀ ledger reply,
      handle hmac t.ledger request = .replied ledger reply → readByte reply 4 ≠ opNotFound := by
    intro request member ledger reply turn op
    exact quiet.requests request member _ reply ((refused_cases turn op).2.2 _ grows) op
  cases step with
  | own sent turn =>
      constructor
      · intro reply member
        rcases List.mem_cons.mp member with rfl | old
        · exact quiet.requests _ sent _ _ turn
        · exact quiet.replies reply old
      · exact still
  | other turn => exact ⟨quiet.replies, still⟩

theorem ServerStep.moments (step : ServerStep hmac s t) : s.moments <+: t.moments := by
  cases step with
  | own sent turn => exact List.prefix_append _ _
  | other turn => exact List.prefix_append _ _

end Turns

section Calls

open GcsLedgerClient

variable {hmac : Bytes → Tag} {server : Transport.Endpoint} {s t u : Traffic}

theorem Genuine.serverSteps (genuine : Genuine hmac s)
    (steps : Relation.ReflTransGen (ServerStep hmac) s t) : Genuine hmac t := by
  induction steps with
  | refl => exact genuine
  | tail _ step ih => exact ih.serverStep step

theorem Reached.genuine (reached : Reached hmac server s) : Genuine hmac s := by
  induction reached with
  | initial ledger => exact nofun
  | @call s t client operation rest reached exec ih =>
      have fresh : Genuine hmac s.fresh := ih
      have step : ∀ u event v, world hmac server u event v → Genuine hmac u → Genuine hmac v := by
        rintro u event _ ⟨before, steps, _, rfl⟩ held
        have now : Genuine hmac before := held.serverSteps steps
        exact now
      exact (exec.ensures (Program.Ensures.of_step step _ fresh) fresh).1

theorem moments_serverSteps (steps : Relation.ReflTransGen (ServerStep hmac) s t) :
    s.moments <+: t.moments := by
  induction steps with
  | refl => exact List.prefix_refl _
  | tail _ step ih => exact ih.trans step.moments

/-- An operation of the client adds to the moments. -/
theorem moments_run {α : Type} {r : Method α} {client client' : GcsLedgerClient}
    {result : Option α} (run : Routine.Run (world hmac server) r client s result client' t) :
    s.moments <+: t.moments := by
  have step : ∀ u event v, world hmac server u event v → s.moments <+: u.moments →
      s.moments <+: v.moments := by
    rintro u event _ ⟨before, steps, _, rfl⟩ front
    have now : u.moments <+: before.moments := moments_serverSteps steps
    exact front.trans now
  have kept := Program.Ensures.of_step step (r.on client) (List.prefix_refl s.moments)
  exact run.post_of_done kept (List.prefix_refl _)

/-- The state at the start belongs to the moments of the operation. -/
theorem mem_during (front : s.moments <+: t.moments) : s.ledger ∈ during s t := by
  obtain ⟨more, whole⟩ := front
  rw [during, ← whole, moments, List.append_assoc, List.drop_left]
  exact List.mem_cons_self

/-- While the path is stored, nothing that could reach the client is a refusal. -/
structure Listening (hmac : Bytes → Tag) (server : Transport.Endpoint) (key : Bytes × Nat × Nat)
    (s : Traffic) : Prop where
  quiet : Quiet hmac s
  stored : s.ledger.paths key ≠ none
  heard : ∀ packet : Transport.Packet, (⟨.parsePacket, some packet⟩ : Event calls) ∈ s.log →
    packet.source = server → readByte packet.bytes 4 ≠ opNotFound

variable {key : Bytes × Nat × Nat}

/-- A request that is not refused while the path is stored. -/
def Asks (hmac : Bytes → Tag) (key : Bytes × Nat × Nat) (request : Bytes) : Prop :=
  ∀ ledger ledger' reply, ledger.paths key ≠ none →
    handle hmac ledger request = .replied ledger' reply → readByte reply 4 ≠ opNotFound

theorem Listening.serverSteps (held : Listening hmac server key s)
    (steps : Relation.ReflTransGen (ServerStep hmac) s t) : Listening hmac server key t := by
  induction steps with
  | refl => exact held
  | tail _ step ih =>
      refine ⟨ih.quiet.serverStep step, fun absent => ?_, ?_⟩
      · exact ih.stored (step.grows.paths key absent)
      · cases step with
        | own sent turn => exact ih.heard
        | other turn => exact ih.heard

/-- A call keeps this unless it sends a request of another kind. -/
theorem Listening.call (held : Listening hmac server key s) {event : Event calls}
    (step : world hmac server s event t)
    (sends : ∀ request, event.call = .sendPacket request → Asks hmac key request) :
    Listening hmac server key t := by
  obtain ⟨before, steps, answered, rfl⟩ := step
  have now := held.serverSteps steps
  cases answered with
  | parsePacket packet arrives =>
      refine ⟨⟨now.quiet.replies, now.quiet.requests⟩, now.stored, ?_⟩
      intro p member source
      rcases List.mem_cons.mp member with same | old
      · cases same
        exact now.quiet.replies _ (arrives p rfl source)
      · exact now.heard p old source
  | sendPacket request sent =>
      refine ⟨⟨now.quiet.replies, ?_⟩, now.stored, ?_⟩
      · intro r member ledger reply turn
        rcases List.mem_cons.mp member with rfl | old
        · exact sends r rfl _ ledger reply now.stored turn
        · exact now.quiet.requests r old ledger reply turn
      · intro p member source
        exact now.heard p ((List.mem_cons.mp member).resolve_left nofun) source
  | discardPending | hmacSha256 _ _ _ | pollRounds _ | espTimer _ =>
      refine ⟨⟨now.quiet.replies, now.quiet.requests⟩, now.stored, ?_⟩
      intro p member source
      exact now.heard p ((List.mem_cons.mp member).resolve_left nofun) source

theorem eq_of_answered {data : Bytes} {tag : Digest}
    (answered : Answered hmac server s ⟨.hmacSha256 data, some tag⟩) : tag = hmac data := by
  cases answered with
  | hmacSha256 _ _ correct => exact correct tag rfl

/-- The client's query of a stored path is no request that could be refused. -/
theorem asks_getPathRequest (deviceId peerId : Identity) (version : UInt32) {q : UInt32}
    (inside : q.toNat < 1024) : Asks hmac (peerId.toList, version.toNat, q.toNat)
      (tagged hmac (getPathRequest deviceId peerId version q)) := by
  intro ledger ledger' reply stored turn
  have parsed : parseGetPath hmac (tagged hmac (getPathRequest deviceId peerId version q)) = _ :=
    parseGetPath_request deviceId peerId version inside rfl
  have answered : handle hmac ledger _ = _ := handle_getPath parsed
  obtain ⟨path, found⟩ := Option.ne_none_iff_exists'.mp stored
  rw [found, turn] at answered
  cases answered
  exact readByte_buildPathResponse_ne _ _ _ _

theorem serves_listening {request : Bytes} (asks : Asks hmac key request) :
    Serves (world hmac server) request (Listening hmac server key) (Listening hmac server key)
      (fun _ _ => True) where
  discard held step := held.call step nofun
  send held step := by
    refine (held.elim id id).call step ?_
    intro r same
    cases same
    exact asks
  rounds held step := held.call step nofun
  parse held step := ⟨held.call step nofun, fun _ _ => trivial⟩
  tag held step := ⟨held.call step nofun, fun _ _ => trivial⟩

theorem authenticate_listening {α : Type} {request : Bytes} {f : Bytes → Method α}
    {client : GcsLedgerClient} {post : Option α → GcsLedgerClient → Traffic → Prop}
    (held : Listening hmac server key s)
    (failed : ∀ t, Listening hmac server key t → post none client t)
    (next : ∀ t, Listening hmac server key t →
      Routine.Ensures (world hmac server) (fun _ => True) post (f (tagged hmac request)) client t) :
    Routine.Ensures (world hmac server) (fun _ => True) post (authenticate request >>= f)
      client s := by
  rw [authenticate, bind_assoc]
  refine Routine.Ensures.perform fun (tag : Option Digest) t step => ⟨trivial, ?_⟩
  have now := held.call step nofun
  cases tag with
  | none => exact failed t now
  | some tag =>
      obtain ⟨_, _, answered, _⟩ := step
      obtain rfl := eq_of_answered answered
      exact next t now

/-- A query of a stored path hears no refusal when none was in the network. -/
theorem fetchPeerPath_listening (version q : UInt32) (client : GcsLedgerClient)
    (held : Listening hmac server (client.peerId.toList, version.toNat, q.toNat) s) :
    Routine.Ensures (world hmac server) (fun _ => True)
      (fun _ _ t => Listening hmac server (client.peerId.toList, version.toNat, q.toNat) t)
      (fetchPeerPath version q) client s := by
  rw [fetchPeerPath]
  refine Routine.ensures_bind.mpr (Routine.ensures_guard.mpr ⟨fun inside => ?_, fun _ => held⟩)
  refine Routine.ensures_bind.mpr (Routine.ensures_get.mpr ?_)
  have asks : Asks hmac (client.peerId.toList, version.toNat, q.toNat) _ :=
    asks_getPathRequest client.deviceId client.peerId version inside
  refine authenticate_listening held (fun _ now => now) fun t now => ?_
  generalize tagged hmac (getPathRequest client.deviceId client.peerId version q) = request at *
  refine Routine.Ensures.perform fun (start : UInt64) t step => ⟨trivial, ?_⟩
  have ready := now.call step nofun
  refine Routine.ensures_bind.mpr (Routine.ensures_attempt.mpr ?_)
  refine (sendAndReceive_ensures (serves_listening asks) ready).mono ?_
  rintro received client' u ⟨after, _⟩
  refine Routine.Ensures.perform fun (stop : UInt64) v step => ⟨trivial, ?_⟩
  have last := (after.elim id id).call step nofun
  refine Routine.ensures_bind.mpr (Routine.ensures_get.mpr ?_)
  dsimp only
  split
  · exact last
  · exact last

/-- A call that the network answers without a turn of the server. -/
theorem world_of_answered {event : Event calls} (answered : Answered hmac server s event) :
    world hmac server s event (s.after event) :=
  ⟨s, .refl, answered, rfl⟩

theorem answered_hmac (data : Bytes) :
    Answered hmac server s ⟨.hmacSha256 data, some (hmac data)⟩ := by
  refine .hmacSha256 data _ ?_
  intro tag same
  exact (Option.some.inj same).symm

/-- The call in which the client computes the tag of a packet. -/
def checking (hmac : Bytes → Tag) (bytes : Bytes) : Event calls :=
  ⟨.hmacSha256 (bytes.take (bytes.length - hmacBytes)),
    some (hmac (bytes.take (bytes.length - hmacBytes)))⟩

/-- A refusal that the server built is one for the client. -/
theorem refusal_buildNotFound {target bytes : Bytes} {version q : Nat}
    (made : buildNotFound hmac target version q = bytes) :
    Refusal server ⟨bytes, server⟩ (hmac (bytes.take (bytes.length - hmacBytes))) := by
  obtain ⟨magic, op, -⟩ := slice_statusPacket hmac opNotFound target version q 1
  have sized := length_statusPacket hmac opNotFound target version q 1
  have tag := drop_statusPacket hmac opNotFound target version q 1
  rw [buildNotFound] at made
  rw [made] at magic op sized tag
  refine ⟨rfl, ?_, ?_, magic, ?_, readByte_of_slice op⟩
  · rw [sized]
    decide
  · rw [sized]
    decide
  · change slice bytes (bytes.length - hmacBytes) hmacBytes = _
    rw [sized, slice, List.take_of_length_le, tag]
    rw [List.length_drop, sized]
    decide

variable {client : GcsLedgerClient} {expectedOp : UInt8} {version q : UInt32} {bytes : Bytes}

/-- The client after it has sent a request. -/
def asking (client : GcsLedgerClient) (request : Bytes) : GcsLedgerClient :=
  { client with txBytes := client.txBytes + .ofNat request.length }

/-- The client after it has received a packet. -/
def hearing (client : GcsLedgerClient) (bytes : Bytes) : GcsLedgerClient :=
  { client with
    buffer := overwrite client.buffer bytes, rxBytes := client.rxBytes + .ofNat bytes.length }

/-- The client compares neither version nor index of a refusal. -/
theorem examine_refused (gcs : client.gcs = server)
    (refusal : Refusal server ⟨bytes, server⟩ (hmac (bytes.take (bytes.length - hmacBytes)))) :
    Routine.Run (world hmac server) (examine expectedOp version q ⟨bytes, server⟩) client s none
      (hearing client bytes) (s.after (checking hmac bytes)) := by
  have read : ∀ {offset count : Nat}, offset + count ≤ bytes.length →
      slice (overwrite client.buffer bytes).toList offset count = slice bytes offset count :=
    fun inside => slice_overwrite refusal.short inside
  have long : 8 + hmacBytes ≤ bytes.length := refusal.long
  have room : hmacBytes ≤ bytes.length := Nat.le_trans (by decide) long
  have front : (overwrite client.buffer bytes).toList.take (bytes.length - hmacBytes) =
      bytes.take (bytes.length - hmacBytes) := by
    have same := @read 0 (bytes.length - hmacBytes) (by omega)
    rwa [slice, slice, List.drop_zero, List.drop_zero] at same
  have op : readByte (overwrite client.buffer bytes).toList 4 = GcsLedgerClient.opNotFound :=
    (readByte_congr (read (Nat.le_trans (by decide) long))).trans refusal.op
  have head := (read (Nat.le_trans (by decide) long)).trans refusal.magic
  have tag := (read (Nat.le_of_eq (Nat.sub_add_cancel room))).trans refusal.authentic
  have genuine : ¬ (server ≠ client.gcs ∨
      slice (overwrite client.buffer bytes).toList 0 4 ≠ GcsLedgerClient.magic) := by
    rintro (other | other)
    · exact other gcs.symm
    · exact other head
  rw [examine]
  dsimp only
  rw [if_neg (Nat.not_lt.mpr refusal.short)]
  refine (Routine.run_modify _).bind ?_
  rw [if_neg (Nat.not_lt.mpr long)]
  refine (Routine.run_modify _).bind (Routine.run_get.bind ?_)
  dsimp only
  rw [if_neg genuine, front]
  refine (Routine.run_perform (world_of_answered (answered_hmac _))).bind ?_
  rw [if_neg, if_pos op]
  · exact Routine.run_failure.failed
  · rw [tag]
    exact not_not_intro ((constantTimeEqual_iff (List.Vector.toList_length _)
      (List.Vector.toList_length _)).mpr rfl)

/-- The state when an exchange waits for its first packet. -/
def waiting (s : Traffic) (request : Bytes) : Traffic :=
  ((s.after ⟨.discardPending, ()⟩).after ⟨.sendPacket request, true⟩).after ⟨.pollRounds, (1 : Nat)⟩

/-- The state when the client has checked a packet of the server. -/
def heard (s : Traffic) (hmac : Bytes → Tag) (server : Transport.Endpoint) (bytes : Bytes) :
    Traffic :=
  (s.after ⟨.parsePacket, some ⟨bytes, server⟩⟩).after (checking hmac bytes)

/-- Any refusal in the network may end any exchange. -/
theorem sendAndReceive_refused {request : Bytes} (gcs : client.gcs = server)
    (refusal : Refusal server ⟨bytes, server⟩ (hmac (bytes.take (bytes.length - hmacBytes))))
    (steps : Relation.ReflTransGen (ServerStep hmac) (s.waiting request) u)
    (member : bytes ∈ u.replies) :
    Routine.Run (world hmac server) (sendAndReceive expectedOp version q request) client s none
      (hearing (asking client request) bytes)
      (u.heard hmac server bytes) := by
  rw [sendAndReceive]
  refine (Routine.run_perform (world_of_answered .discardPending)).bind ?_
  apply Routine.Run.failed
  rw [attempt]
  refine (Routine.run_perform (world_of_answered (.sendPacket request true))).bind ?_
  refine (Routine.run_guard rfl).bind ((Routine.run_modify _).bind ?_)
  refine (Routine.run_perform (world_of_answered (.pollRounds 1))).bind ?_
  have arrives : Answered hmac server u ⟨.parsePacket, some ⟨bytes, server⟩⟩ := by
    refine .parsePacket _ ?_
    intro packet same _
    cases same
    exact member
  refine (Routine.run_perform ⟨u, steps, arrives, rfl⟩).bind ?_
  have source : (asking client request).gcs = server := gcs
  exact (examine_refused source refusal).failed

theorem authenticate_run (request : Bytes) : Routine.Run (world hmac server) (authenticate request)
    client s (some (tagged hmac request)) client
    (s.after ⟨.hmacSha256 (request.take (request.length - hmacBytes)),
      some (hmac (request.take (request.length - hmacBytes)))⟩) :=
  (Routine.run_perform (world_of_answered (answered_hmac _))).bind (Routine.run_pure _)

/-- The state when a query has its request and has started its timer. -/
def asked (s : Traffic) (hmac : Bytes → Tag) (request : Bytes) : Traffic :=
  (s.after ⟨.hmacSha256 (request.take (request.length - hmacBytes)),
    some (hmac (request.take (request.length - hmacBytes)))⟩).after ⟨.espTimer, (0 : UInt64)⟩

/-- The client's calls leave the tables alone. -/
theorem during_waiting (s : Traffic) (request other : Bytes) :
    during s ((s.asked hmac request).waiting other) = [s.ledger] := List.drop_left

theorem during_heard (event : Event calls) :
    during s ((u.heard hmac server bytes).after event) = during s u := rfl

theorem endsRefused_heard
    (refusal : Refusal server ⟨bytes, server⟩ (hmac (bytes.take (bytes.length - hmacBytes)))) :
    EndsRefused server ((u.heard hmac server bytes).after ⟨.espTimer, (0 : UInt64)⟩) :=
  ⟨0, ⟨bytes, server⟩, _, u.log, refusal, rfl⟩

/-- Any refusal in the network may end the query of any path. -/
theorem fetchPeerPath_refused (gcs : client.gcs = server) (inside : q < .ofNat lmsLeaves)
    (refusal : Refusal server ⟨bytes, server⟩ (hmac (bytes.take (bytes.length - hmacBytes))))
    {request : Bytes} (built : getPathRequest client.deviceId client.peerId version q = request)
    (steps : Relation.ReflTransGen (ServerStep hmac)
      ((s.asked hmac request).waiting (tagged hmac request)) u) (member : bytes ∈ u.replies) :
    ∃ metrics client', Routine.Run (world hmac server) (fetchPeerPath version q) client s
      (some (none, metrics)) client'
      ((u.heard hmac server bytes).after ⟨.espTimer, (0 : UInt64)⟩) := by
  let after := hearing (asking client (tagged hmac request)) bytes
  refine ⟨⟨0 - 0, after.txBytes - client.txBytes, after.rxBytes - client.rxBytes⟩, after, ?_⟩
  rw [fetchPeerPath]
  refine (Routine.run_guard inside).bind (Routine.run_get.bind ?_)
  rw [built]
  refine (authenticate_run request).bind ?_
  refine (Routine.run_perform (world_of_answered (.espTimer 0))).bind ?_
  refine (sendAndReceive_refused gcs refusal steps member).attempt.bind ?_
  refine (Routine.run_perform (world_of_answered (.espTimer 0))).bind (Routine.run_get.bind ?_)
  dsimp only
  rw [if_neg (fun received => nomatch received.1)]
  exact Routine.run_pure _

/-- A refusal that is in the network, or that an old request would still receive. -/
theorem exists_refusal (genuine : Genuine hmac s) (loud : ¬ Quiet hmac s) (request : Bytes) :
    ∃ u reply, Relation.ReflTransGen (ServerStep hmac) ((s.asked hmac request).waiting
        (tagged hmac request)) u ∧ reply ∈ u.replies ∧
      Refusal server ⟨reply, server⟩ (hmac (reply.take (reply.length - hmacBytes))) ∧
      ∀ ledger ∈ during s u, ledger = s.ledger := by
  by_cases silent : ∀ reply ∈ s.replies, readByte reply 4 ≠ opNotFound
  · have answered : ∃ old ∈ s.requests, ∃ ledger reply,
        handle hmac s.ledger old = .replied ledger reply ∧ readByte reply 4 = opNotFound := by
      by_contra none
      apply loud
      refine ⟨silent, fun old member ledger reply turn op => none ?_⟩
      exact ⟨old, member, ledger, reply, turn, op⟩
    obtain ⟨old, member, ledger, reply, turn, op⟩ := answered
    obtain ⟨rfl, ⟨target, version, q, made⟩, -⟩ := refused_cases turn op
    refine ⟨_, reply, .single (.own (List.mem_cons_of_mem _ member) turn), List.mem_cons_self,
      refusal_buildNotFound made.symm, ?_⟩
    intro ledger held
    have twice : ledger ∈ (s.earlier ++ [s.ledger] ++ [s.ledger]).drop s.earlier.length := held
    rw [List.append_assoc, List.drop_left] at twice
    simpa using twice
  · simp only [not_forall, not_not] at silent
    obtain ⟨reply, member, op⟩ := silent
    obtain ⟨_, _, _, turn⟩ := genuine reply member
    obtain ⟨-, ⟨target, version, q, made⟩, -⟩ := refused_cases turn op
    refine ⟨_, reply, .refl, member, refusal_buildNotFound made.symm, ?_⟩
    rw [during_waiting]
    exact fun ledger => List.mem_singleton.mp

/-- From any state that the client's operations lead to, a refusal ends the query of a path only
when the path was missing at some moment of the query, exactly if the path is missing at the
start or no refusal of any request is under way. -/
theorem refused_query_iff (reached : Reached hmac server s) (gcs : client.gcs = server)
    (version q : UInt32) :
    (∀ result client' t,
      Routine.Run (world hmac server) (fetchPeerPath version q) client s.fresh result client' t →
      EndsRefused server t →
      ∃ ledger ∈ during s t, ledger.paths (client.peerId.toList, version.toNat, q.toNat) = none) ↔
    (q < .ofNat lmsLeaves →
      s.ledger.paths (client.peerId.toList, version.toNat, q.toNat) = none ∨ Quiet hmac s) := by
  constructor
  · intro missing inside
    by_contra neither
    obtain ⟨stored, loud⟩ := not_or.mp neither
    have genuine : Genuine hmac s.fresh := reached.genuine
    have loud : ¬ Quiet hmac s.fresh := fun quiet => loud ⟨quiet.replies, quiet.requests⟩
    obtain ⟨u, reply, steps, member, refusal, same⟩ := @exists_refusal _ server _ genuine loud
      (getPathRequest client.deviceId client.peerId version q)
    obtain ⟨metrics, client', run⟩ := fetchPeerPath_refused gcs inside refusal rfl steps member
    obtain ⟨ledger, held, absent⟩ := missing _ _ _ run (endsRefused_heard refusal)
    rw [during_heard] at held
    rw [same ledger held] at absent
    exact stored absent
  · intro condition result client' t run refused
    by_cases inside : q < .ofNat lmsLeaves
    · by_cases absent : s.ledger.paths (client.peerId.toList, version.toNat, q.toNat) = none
      · exact ⟨s.ledger, @mem_during s.fresh _ (moments_run run), absent⟩
      · have quiet := (condition inside).resolve_left absent
        have start : Listening hmac server (client.peerId.toList, version.toNat, q.toNat) s.fresh :=
          ⟨⟨quiet.replies, quiet.requests⟩, absent, nofun⟩
        have last := (fetchPeerPath_listening version q client start).post_of_run run trivial
        obtain ⟨now, packet, tag, earlier, refusal, log⟩ := refused
        refine absurd refusal.op (last.heard packet ?_ refusal.source)
        rw [log]
        exact List.mem_cons_of_mem _ (List.mem_cons_of_mem _ List.mem_cons_self)
    · have ends : Routine.Ensures (world hmac server) (fun _ => True) (fun _ _ t => t.log = [])
          (fetchPeerPath version q) client s.fresh := by
        rw [fetchPeerPath]
        exact Routine.ensures_bind.mpr (Routine.ensures_guard.mpr
          ⟨fun small => absurd small inside, fun _ => rfl⟩)
      obtain ⟨now, packet, tag, earlier, refusal, log⟩ := refused
      rw [ends.post_of_run run trivial] at log
      cases log

end Calls

section Earlier

open GcsLedgerClient

/-- A client whose identity and peer are zero, at the standard server port. -/
def inquirer : GcsLedgerClient :=
  ⟨⟨0, 5001⟩, .replicate _ 0, .replicate _ 0, .replicate _ 0, 0, 0⟩

def constantHmac (_ : Bytes) : Tag := .replicate _ 0

/-- The peer's path of leaf five, which is in the tables all the time. -/
def fifthPath : Bytes := List.replicate pathBytes 0

def fifthLedger : Ledger :=
  ⟨fun _ => none, Function.update (fun _ => none) (inquirer.peerId.toList, 1, 5) (some fifthPath)⟩

def fourthRequest : Bytes :=
  tagged constantHmac (getPathRequest inquirer.deviceId inquirer.peerId 1 4)

/-- The refusal of the path of leaf four. -/
def fourthRefusal : Bytes := buildNotFound constantHmac inquirer.peerId.toList 1 4

theorem fifthPath_stored :
    fifthLedger.paths (inquirer.peerId.toList, 1, 5) = some fifthPath := by
  rw [fifthLedger]
  dsimp only
  rw [Function.update_self]

theorem fourth_refused :
    handle constantHmac fifthLedger fourthRequest = .replied fifthLedger fourthRefusal := by
  have parsed : parseGetPath constantHmac fourthRequest = _ :=
    parseGetPath_request inquirer.deviceId inquirer.peerId 1 (q := 4) (by decide) rfl
  have absent : fifthLedger.paths (inquirer.peerId.toList, 1, 4) = none := by
    rw [fifthLedger]
    dsimp only
    rw [Function.update_of_ne]
    intro same
    exact absurd (congrArg (fun key => key.2.2) same) (by decide)
  have answered : handle constantHmac fifthLedger fourthRequest = _ := handle_getPath parsed
  have one : (1 : UInt32).toNat = 1 := rfl
  have four : (4 : UInt32).toNat = 4 := rfl
  rw [one, four, absent] at answered
  exact answered

/-- A query of leaf four was refused, and leaves its refusal in the network. -/
theorem fourth_query : ∃ s, Reached constantHmac inquirer.gcs s ∧ s.ledger = fifthLedger ∧
    fourthRefusal ∈ s.replies := by
  have refusal : Refusal inquirer.gcs ⟨fourthRefusal, inquirer.gcs⟩ (constantHmac _) :=
    refusal_buildNotFound rfl
  obtain ⟨metrics, client', run⟩ := @fetchPeerPath_refused _ _ (initial fifthLedger).fresh _
    inquirer 1 4 _ rfl (by decide) refusal _ rfl
    (.single (.own List.mem_cons_self fourth_refused)) List.mem_cons_self
  exact ⟨_, .call inquirer (.fetchPeerPath 1 4) (.initial fifthLedger)
    (run.bind (Routine.run_pure ())), rfl, List.mem_cons_self⟩

/-- The query of another leaf, whose path is stored all the time, may be ended by that refusal. -/
theorem other_refusal_ends_query : ∃ s, Reached constantHmac inquirer.gcs s ∧
    ∃ metrics client' t, Routine.Run (world constantHmac inquirer.gcs) (fetchPeerPath 1 5) inquirer
      s.fresh (some (none, metrics)) client' t ∧ EndsRefused inquirer.gcs t ∧
    ∀ ledger ∈ during s t, ledger.paths (inquirer.peerId.toList, 1, 5) = some fifthPath := by
  obtain ⟨s, reached, stored, member⟩ := fourth_query
  have refusal : Refusal inquirer.gcs ⟨fourthRefusal, inquirer.gcs⟩ (constantHmac _) :=
    refusal_buildNotFound rfl
  obtain ⟨metrics, client', run⟩ := @fetchPeerPath_refused _ _ s.fresh _ inquirer 1 5 _ rfl
    (by decide) refusal _ rfl .refl member
  refine ⟨s, reached, metrics, client', _, run, endsRefused_heard refusal, ?_⟩
  intro ledger held
  rw [during_heard] at held
  change ledger ∈ during s.fresh _ at held
  rw [during_waiting] at held
  obtain rfl := List.mem_singleton.mp held
  rw [← fifthPath_stored, ← stored]
  rfl

/-- When that refusal is in the network, only a missing path explains it for certain. -/
theorem refused_query_iff_fourth : ∃ s, Reached constantHmac inquirer.gcs s ∧
    fourthRefusal ∈ s.replies ∧
    ((∀ result client' t, Routine.Run (world constantHmac inquirer.gcs) (fetchPeerPath 1 5) inquirer
        s.fresh result client' t → EndsRefused inquirer.gcs t →
        ∃ ledger ∈ during s t, ledger.paths (inquirer.peerId.toList, 1, 5) = none) ↔
      ((5 : UInt32) < .ofNat lmsLeaves →
        s.ledger.paths (inquirer.peerId.toList, 1, 5) = none ∨ Quiet constantHmac s)) := by
  obtain ⟨s, reached, stored, member⟩ := fourth_query
  exact ⟨s, reached, member, refused_query_iff reached rfl 1 5⟩

end Earlier

end Traffic

end Gcs
