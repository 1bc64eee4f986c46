import PostQuantumUav.Apqe.GatewayPackets
import PostQuantumUav.Library.WrappingClock

/-!
# What a query costs

The client of the gateway in a world with a true clock. Time passes during every call,
requests and answers may be lost, and any packet may arrive; a reading of the clock shows
its low 32 bits only. The world keeps the times of the readings, the requests that were
handed to the socket and the packets that came.

An attempt that gets no answer leaves the reading at its start behind and counts its
request. The reading at an acceptance is compared with the start of the last attempt.
-/

namespace Apqe.FabricUdpClient

open Interaction Buffer WrappingClock

structure Watch where
  now : Nat
  readings : List Nat
  sent : List Bytes
  received : List Transport.Packet

inductive Watched : World calls Watch
  | discardPending (s : Watch) (later : Nat) (le : s.now ≤ later) :
      Watched s ⟨.discardPending, ()⟩ { s with now := later }
  | hmacSha256 (s : Watch) (data : Bytes) (tag : Option Digest) (later : Nat) (le : s.now ≤ later) :
      Watched s ⟨.hmacSha256 data, tag⟩ { s with now := later }
  | micros (s : Watch) (later : Nat) (le : s.now ≤ later) :
      Watched s ⟨.micros, reading later⟩ { s with now := later, readings := s.readings ++ [later] }
  | sendPacket (s : Watch) (request : Bytes) (ok : Bool) (later : Nat) (le : s.now ≤ later) :
      Watched s ⟨.sendPacket request, ok⟩ { s with now := later, sent := s.sent ++ [request] }
  | pollRounds (s : Watch) (rounds : Nat) (later : Nat) (le : s.now ≤ later) :
      Watched s ⟨.pollRounds, rounds⟩ { s with now := later }
  | parsePacket (s : Watch) (packet : Option Transport.Packet) (later : Nat) (le : s.now ≤ later) :
      Watched s ⟨.parsePacket, packet⟩
        { s with now := later, received := s.received ++ packet.toList }

variable {c c' c'' : FabricUdpClient} {s t u : Watch}

/-- A part of a query that reads no clock and sends nothing. -/
structure Waited (c c' : FabricUdpClient) (s t : Watch) : Prop where
  usage : c'.usage = c.usage
  readings : t.readings = s.readings
  sent : t.sent = s.sent
  later : s.now ≤ t.now

theorem Waited.refl (c : FabricUdpClient) (s : Watch) : Waited c c s s :=
  ⟨rfl, rfl, rfl, Nat.le_refl _⟩

theorem Waited.trans (first : Waited c c' s t) (second : Waited c' c'' t u) : Waited c c'' s u :=
  ⟨second.usage.trans first.usage, second.readings.trans first.readings,
    second.sent.trans first.sent, Nat.le_trans first.later second.later⟩

/-- The end of a wait that started with `beginUs`: the accepted packet is the last one. -/
structure Accepts (beginUs : UInt32) (stop : Nat) (packet : Transport.Packet)
    (c c' : FabricUdpClient) (s t : Watch) : Prop where
  readings : t.readings = s.readings ++ [stop]
  sent : t.sent = s.sent
  received : t.received.getLast? = some packet
  start : s.now ≤ stop
  later : stop ≤ t.now
  wallUs : c'.usage.wallUs = c.usage.wallUs + ((reading stop).toUInt64 - beginUs.toUInt64)
  appTx : c'.usage.appTx = c.usage.appTx
  appRx : c'.usage.appRx = c.usage.appRx + .ofNat packet.bytes.length

theorem Accepts.after {beginUs : UInt32} {stop : Nat} {packet : Transport.Packet}
    (first : Waited c c' s t) (second : Accepts beginUs stop packet c' c'' t u) :
    Accepts beginUs stop packet c c'' s u where
  readings := by rw [second.readings, first.readings]
  sent := second.sent.trans first.sent
  received := second.received
  start := Nat.le_trans first.later second.start
  later := second.later
  wallUs := by rw [second.wallUs, first.usage]
  appTx := by rw [second.appTx, first.usage]
  appRx := by rw [second.appRx, first.usage]

/-- How a wait may end: with nothing, with an accepted answer, or with a failure on either side
of an acceptance. -/
def EndsWait (beginUs : UInt32) (c : FabricUdpClient) (s : Watch) :
    Option (Option Bytes) → FabricUdpClient → Watch → Prop
  | some none, c', t => Waited c c' s t
  | some (some _), c', t => ∃ stop packet, Accepts beginUs stop packet c c' s t
  | none, c', t => Waited c c' s t ∨ ∃ stop packet, Accepts beginUs stop packet c c' s t

theorem EndsWait.after {beginUs : UInt32} {result : Option (Option Bytes)} (first : Waited c c' s t)
    (second : EndsWait beginUs c' t result c'' u) : EndsWait beginUs c s result c'' u := by
  have accepts : (∃ stop packet, Accepts beginUs stop packet c' c'' t u) →
      ∃ stop packet, Accepts beginUs stop packet c c'' s u :=
    fun ⟨stop, packet, accepts⟩ => ⟨stop, packet, accepts.after first⟩
  match result, second with
  | some none, second => exact first.trans second
  | some (some _), second => exact accepts second
  | none, .inl second => exact .inl (first.trans second)
  | none, .inr second => exact .inr (accepts second)

section Wait

variable (op : UInt8) (requestId : UInt32) (responseCapacity : Nat) (beginUs : UInt32)

/-- The tag of an answer takes time and no more. -/
theorem ensures_computeTag (data : Bytes) (c : FabricUdpClient) (s : Watch) :
    Routine.Ensures Watched (fun _ => True) (fun _ c' t =>
      c' = c ∧ Waited c c' s t ∧ t.received = s.received) (computeTag data) c s := by
  refine Routine.Ensures.perform fun (tag : Option Digest) t answered => ⟨trivial, ?_⟩
  cases answered with
  | hmacSha256 _ _ _ later le =>
      have waited : Waited c c s { s with now := later } := ⟨rfl, rfl, rfl, le⟩
      cases tag with
      | none => exact ⟨rfl, waited, rfl⟩
      | some tag => exact ⟨rfl, waited, rfl⟩

theorem ensures_examine (packet : Transport.Packet) (c : FabricUdpClient) (s : Watch)
    (last : s.received.getLast? = some packet) :
    Routine.Ensures Watched (fun _ => True) (EndsWait beginUs c s)
      (examine op requestId responseCapacity beginUs packet) c s := by
  have stored (rx) : Waited c { c with rx := rx } s s := ⟨rfl, rfl, rfl, Nat.le_refl _⟩
  unfold examine
  refine Routine.ensures_ite.mpr ⟨fun _ => Waited.refl c s, fun _ => ?_⟩
  rw [Routine.ensures_bind, Routine.ensures_modify]
  refine Routine.ensures_ite.mpr ⟨fun _ => stored _, fun _ => ?_⟩
  rw [Routine.ensures_bind, Routine.ensures_get]
  refine Routine.ensures_ite.mpr ⟨fun _ => stored _, fun _ => ?_⟩
  refine Routine.ensures_ite.mpr ⟨fun _ => stored _, fun _ => ?_⟩
  refine (ensures_computeTag _ _ _).bind ?_ ?_
  · rintro _ t ⟨rfl, waited, _⟩
    exact .inl ((stored _).trans waited)
  rintro tag _ t ⟨rfl, waited, received⟩
  have before := (stored _).trans waited
  refine Routine.ensures_ite.mpr ⟨fun _ => before, fun _ => ?_⟩
  refine Routine.Ensures.perform fun (now : UInt32) u answered => ⟨trivial, ?_⟩
  cases answered with
  | micros _ stop le =>
      rw [Routine.ensures_bind, Routine.ensures_modify]
      have accepts (status fabricUs) : Accepts beginUs stop packet c
          { c with
            rx := overwrite c.rx packet.bytes
            lastStatus := status
            usage := { c.usage with
              wallUs := c.usage.wallUs + ((reading stop).toUInt64 - beginUs.toUInt64)
              appRx := c.usage.appRx + .ofNat packet.bytes.length
              fabricUs := fabricUs } } s
          { t with now := stop, readings := t.readings ++ [stop] } :=
        ⟨congrArg (· ++ [stop]) waited.readings, waited.sent, by rw [received, last],
          Nat.le_trans waited.later le, Nat.le_refl _, rfl, rfl, rfl⟩
      rw [Routine.ensures_bind, Routine.ensures_guard]
      refine ⟨fun _ => ?_, fun _ => .inr ⟨stop, packet, accepts _ _⟩⟩
      rw [Routine.ensures_bind, Routine.ensures_guard]
      exact ⟨fun _ => ⟨stop, packet, accepts _ _⟩, fun _ => .inr ⟨stop, packet, accepts _ _⟩⟩

/-- The wait loop of an attempt. -/
theorem ensures_awaitAnswer (rounds : Nat) (c : FabricUdpClient) (s : Watch) :
    Routine.Ensures Watched (fun _ => True) (EndsWait beginUs c s)
      (awaitAnswer op requestId responseCapacity beginUs rounds) c s := by
  induction rounds generalizing c s with
  | zero => exact Waited.refl c s
  | succ rounds ih =>
      refine Routine.Ensures.perform fun (packet : Option Transport.Packet) t answered =>
        ⟨trivial, ?_⟩
      cases answered with
      | parsePacket _ _ later le =>
          have parsed (received) : Waited c c s { s with now := later, received := received } :=
            ⟨rfl, rfl, rfl, le⟩
          cases packet with
          | none => exact (ih c _).mono fun _ _ _ ended => ended.after (parsed _)
          | some packet =>
              refine (ensures_examine op requestId responseCapacity beginUs packet c _
                List.getLast?_concat).bind ?_ ?_
              · intro c' t' ended
                exact ended.after (parsed _)
              · intro accepted c' t' ended
                cases accepted with
                | none =>
                    have waited := (parsed _).trans ended
                    exact (ih c' t').mono fun _ _ _ ended => ended.after waited
                | some payload => exact ended.after (parsed _)

end Wait

section Attempts

/-- Transmissions of a request that got no answer, with the times at which they began. -/
structure Tried (request : Bytes) (begins : List Nat) (c c' : FabricUdpClient) (s t : Watch) :
    Prop where
  readings : t.readings = s.readings ++ begins
  sent : t.sent = s.sent ++ List.replicate begins.length request
  begun : ∀ start ∈ begins, s.now ≤ start ∧ start ≤ t.now
  later : s.now ≤ t.now
  wallUs : c'.usage.wallUs = c.usage.wallUs
  appRx : c'.usage.appRx = c.usage.appRx

/-- Transmissions of which the last one, begun at `start`, was answered. -/
structure Obtains (request : Bytes) (begins : List Nat) (start stop : Nat)
    (packet : Transport.Packet) (c c' : FabricUdpClient) (s t : Watch) : Prop where
  readings : t.readings = s.readings ++ begins ++ [start, stop]
  sent : t.sent = s.sent ++ List.replicate (begins.length + 1) request
  received : t.received.getLast? = some packet
  begun : ∀ first ∈ begins, s.now ≤ first ∧ first ≤ start
  from_start : s.now ≤ start
  ordered : start ≤ stop
  later : stop ≤ t.now
  wallUs : c'.usage.wallUs = c.usage.wallUs + measured start stop
  appRx : c'.usage.appRx = c.usage.appRx + .ofNat packet.bytes.length

theorem Obtains.after {request : Bytes} {begins : List Nat} {first start stop : Nat}
    {packet : Transport.Packet} (before : Tried request [first] c c' s t)
    (answers : Obtains request begins start stop packet c' c'' t u) :
    Obtains request (first :: begins) start stop packet c c'' s u where
  readings := by
    rw [answers.readings, before.readings]
    simp only [List.append_assoc, List.cons_append, List.nil_append]
  sent := by
    rw [answers.sent, before.sent, List.append_assoc, List.length_singleton,
      List.replicate_append_replicate]
    congr 2
    exact Nat.add_comm _ _
  received := answers.received
  begun := by
    have begun := before.begun first List.mem_cons_self
    have start_le := answers.from_start
    intro time member
    rcases List.mem_cons.mp member with rfl | member
    · exact ⟨begun.1, Nat.le_trans begun.2 start_le⟩
    · have later := answers.begun time member
      exact ⟨Nat.le_trans before.later later.1, later.2⟩
  from_start := Nat.le_trans before.later answers.from_start
  ordered := answers.ordered
  later := answers.later
  wallUs := by rw [answers.wallUs, before.wallUs]
  appRx := by rw [answers.appRx, before.appRx]

theorem Tried.trans {request : Bytes} {begins : List Nat} {first : Nat}
    (before : Tried request [first] c c' s t) (tried : Tried request begins c' c'' t u) :
    Tried request (first :: begins) c c'' s u where
  readings := by
    rw [tried.readings, before.readings, List.append_assoc]
    rfl
  sent := by
    rw [tried.sent, before.sent, List.append_assoc, List.length_singleton,
      List.replicate_append_replicate]
    congr 2
    exact Nat.add_comm _ _
  begun := by
    have begun := before.begun first List.mem_cons_self
    intro time member
    rcases List.mem_cons.mp member with rfl | member
    · exact ⟨begun.1, Nat.le_trans begun.2 tried.later⟩
    · have later := tried.begun time member
      exact ⟨Nat.le_trans before.later later.1, later.2⟩
  later := Nat.le_trans before.later tried.later
  wallUs := tried.wallUs.trans before.wallUs
  appRx := tried.appRx.trans before.appRx

/-- What a failed query leaves behind: transmissions, or an answer that was accepted first. -/
def EndsFailed (request : Bytes) (c : FabricUdpClient) (s : Watch) (c' : FabricUdpClient)
    (t : Watch) : Prop :=
  (∃ begins, Tried request begins c c' s t) ∨
    ∃ begins start stop packet, Obtains request begins start stop packet c c' s t

/-- How an attempt may end. -/
def EndsAttempt (request : Bytes) (c : FabricUdpClient) (s : Watch) :
    Option (Option Bytes) → FabricUdpClient → Watch → Prop
  | some none, c', t => (∃ first, Tried request [first] c c' s t) ∧
      c'.usage.appTx = c.usage.appTx + .ofNat request.length
  | some (some _), c', t => (∃ start stop packet, Obtains request [] start stop packet c c' s t) ∧
      c'.usage.appTx = c.usage.appTx + .ofNat request.length
  | none, c', t => EndsFailed request c s c' t

/-- How the attempts of a query end. -/
def EndsAttempts (request : Bytes) (retries : Nat) (c : FabricUdpClient) (s : Watch) :
    Option Bytes → FabricUdpClient → Watch → Prop
  | some _, c', t => ∃ begins start stop packet, begins.length < retries ∧
      Obtains request begins start stop packet c c' s t ∧
      c'.usage.appTx = c.usage.appTx + .ofNat ((begins.length + 1) * request.length)
  | none, c', t => EndsFailed request c s c' t

variable (op : UInt8) (requestId : UInt32) (responseCapacity : Nat) (request : Bytes)

/-- An attempt ends as its wait does, which starts on `c'` and `t` after the transmission. -/
theorem EndsWait.endsAttempt {start : Nat} (begun : s.now ≤ start) (le : start ≤ t.now)
    (usage : c'.usage = { c.usage with appTx := c.usage.appTx + .ofNat request.length })
    (readings : t.readings = s.readings ++ [start]) (sent : t.sent = s.sent ++ [request])
    {result : Option (Option Bytes)} (ended : EndsWait (reading start) c' t result c'' u) :
    EndsAttempt request c s result c'' u := by
  have tried (ended : Waited c' c'' t u) : Tried request [start] c c'' s u :=
    { readings := ended.readings.trans readings
      sent := ended.sent.trans sent
      begun := fun time member =>
        List.mem_singleton.mp member ▸ ⟨begun, Nat.le_trans le ended.later⟩
      later := Nat.le_trans begun (Nat.le_trans le ended.later)
      wallUs := by rw [ended.usage, usage]
      appRx := by rw [ended.usage, usage] }
  have answers {stop : Nat} {packet : Transport.Packet}
      (ended : Accepts (reading start) stop packet c' c'' t u) :
      Obtains request [] start stop packet c c'' s u :=
    { readings := by
        rw [ended.readings, readings, List.append_nil]
        exact List.append_assoc _ [start] [stop]
      sent := ended.sent.trans sent
      received := ended.received
      begun := fun _ member => nomatch member
      from_start := begun
      ordered := Nat.le_trans le ended.start
      later := ended.later
      wallUs := by
        rw [ended.wallUs, usage]
        rfl
      appRx := by rw [ended.appRx, usage] }
  match result, ended with
  | some none, ended => exact ⟨⟨start, tried ended⟩, by rw [ended.usage, usage]⟩
  | some (some _), ⟨stop, packet, ended⟩ =>
      exact ⟨⟨start, stop, packet, answers ended⟩, by rw [ended.appTx, usage]⟩
  | none, .inl ended => exact .inl ⟨_, tried ended⟩
  | none, .inr ⟨stop, packet, ended⟩ => exact .inr ⟨_, start, stop, packet, answers ended⟩

theorem ensures_attempt (c : FabricUdpClient) (s : Watch) :
    Routine.Ensures Watched (fun _ => True) (EndsAttempt request c s)
      (attempt op requestId responseCapacity request) c s := by
  unfold attempt
  refine Routine.Ensures.perform fun (_ : Unit) _ answered => ⟨trivial, ?_⟩
  cases answered with
  | discardPending _ idle idle_le =>
  refine Routine.Ensures.perform fun (beginUs : UInt32) _ answered => ⟨trivial, ?_⟩
  cases answered with
  | micros _ start start_le =>
  refine Routine.Ensures.perform fun (ok : Bool) _ answered => ⟨trivial, ?_⟩
  cases answered with
  | sendPacket _ _ _ later later_le =>
  have begun : s.now ≤ start := Nat.le_trans idle_le start_le
  rw [Routine.ensures_bind, Routine.ensures_guard]
  refine ⟨fun _ => ?_, fun _ => .inl ⟨[start], ?_⟩⟩
  · rw [Routine.ensures_bind, Routine.ensures_modify]
    refine Routine.Ensures.perform fun (rounds : Nat) _ answered => ⟨trivial, ?_⟩
    cases answered with
    | pollRounds _ _ waiting waiting_le =>
    exact (ensures_awaitAnswer op requestId responseCapacity _ rounds _ _).mono
      fun _ _ _ ended =>
        ended.endsAttempt request begun (Nat.le_trans later_le waiting_le) rfl rfl rfl
  · exact
      { readings := rfl
        sent := rfl
        begun := by
          intro time member
          cases List.mem_singleton.mp member
          exact ⟨begun, later_le⟩
        later := Nat.le_trans begun later_le
        wallUs := rfl
        appRx := rfl }

theorem ensures_attempts (retries : Nat) (c : FabricUdpClient) (s : Watch) :
    Routine.Ensures Watched (fun _ => True) (EndsAttempts request retries c s)
      (attempts op requestId responseCapacity request retries) c s := by
  induction retries generalizing c s with
  | zero =>
      have tried : Tried request [] c c s s :=
        { readings := (List.append_nil _).symm
          sent := (List.append_nil _).symm
          begun := fun _ member => nomatch member
          later := Nat.le_refl _
          wallUs := rfl
          appRx := rfl }
      exact .inl ⟨[], tried⟩
  | succ retries ih =>
      refine (ensures_attempt op requestId responseCapacity request c s).bind ?_ ?_
      · exact fun _ _ ended => ended
      intro answer c' t ended
      cases answer with
      | some payload =>
          obtain ⟨⟨start, stop, packet, answers⟩, appTx⟩ := ended
          refine ⟨[], start, stop, packet, Nat.zero_lt_succ _, answers, ?_⟩
          rw [appTx, List.length_nil, Nat.zero_add, Nat.one_mul]
      | none =>
          obtain ⟨⟨first, tried⟩, appTx⟩ := ended
          refine (ih c' t).mono fun result c'' u later => ?_
          match result, later with
          | some _, ⟨begins, start, stop, packet, fewer, answers, appTx'⟩ =>
              refine ⟨first :: begins, start, stop, packet, Nat.succ_lt_succ fewer,
                answers.after tried, ?_⟩
              rw [appTx', appTx, UInt32.add_assoc, ← UInt32.ofNat_add, List.length_cons,
                Nat.succ_mul (begins.length + 1), Nat.add_comm]
          | none, .inl ⟨begins, later⟩ => exact .inl ⟨_, tried.trans later⟩
          | none, .inr ⟨begins, start, stop, packet, answers⟩ =>
              exact .inr ⟨_, start, stop, packet, answers.after tried⟩

variable {request}

theorem Waited.answers {begins : List Nat} {start stop : Nat} {packet : Transport.Packet}
    (first : Waited c c' s t) (answers : Obtains request begins start stop packet c' c'' t u) :
    Obtains request begins start stop packet c c'' s u where
  readings := by rw [answers.readings, first.readings]
  sent := by rw [answers.sent, first.sent]
  received := answers.received
  begun time member :=
    ⟨Nat.le_trans first.later (answers.begun time member).1, (answers.begun time member).2⟩
  from_start := Nat.le_trans first.later answers.from_start
  ordered := answers.ordered
  later := answers.later
  wallUs := by rw [answers.wallUs, first.usage]
  appRx := by rw [answers.appRx, first.usage]

theorem Waited.tried {begins : List Nat} (first : Waited c c' s t)
    (tried : Tried request begins c' c'' t u) : Tried request begins c c'' s u where
  readings := by rw [tried.readings, first.readings]
  sent := by rw [tried.sent, first.sent]
  begun time member :=
    ⟨Nat.le_trans first.later (tried.begun time member).1, (tried.begun time member).2⟩
  later := Nat.le_trans first.later tried.later
  wallUs := by rw [tried.wallUs, first.usage]
  appRx := by rw [tried.appRx, first.usage]

theorem Waited.endsAttempts {retries : Nat} {result : Option Bytes} (first : Waited c c' s t)
    (ended : EndsAttempts request retries c' t result c'' u) :
    EndsAttempts request retries c s result c'' u := by
  match result, ended with
  | some _, ⟨begins, start, stop, packet, fewer, answers, appTx⟩ =>
      exact ⟨begins, start, stop, packet, fewer, first.answers answers, by rw [appTx, first.usage]⟩
  | none, .inl ⟨begins, tried⟩ => exact .inl ⟨begins, first.tried tried⟩
  | none, .inr ⟨begins, start, stop, packet, answers⟩ =>
      exact .inr ⟨begins, start, stop, packet, first.answers answers⟩

/-- A query that does not send anything. -/
theorem Waited.endsFailed (request : Bytes) (waited : Waited c c' s t) :
    EndsFailed request c s c' t :=
  .inl ⟨[],
    { readings := waited.readings.trans (List.append_nil _).symm
      sent := waited.sent.trans (List.append_nil _).symm
      begun := fun _ member => nomatch member
      later := waited.later
      wallUs := congrArg (·.wallUs) waited.usage
      appRx := congrArg (·.appRx) waited.usage }⟩

/-- The size of a request on the wire. -/
def requestLength (payload : Bytes) : Nat :=
  gatewayRequestHeaderBytes + payload.length + gatewayTagBytes

theorem ensures_transact (slot : UInt16) (payload : Bytes) (c : FabricUdpClient) (s : Watch) :
    Routine.Ensures Watched (fun _ => True) (fun result c' t =>
      ∃ request, request.length = requestLength payload ∧
        EndsAttempts request gatewayRetries c s result c' t)
      (transact op responseCapacity slot payload) c s := by
  unfold transact
  rw [Routine.ensures_bind, Routine.ensures_guard]
  have some_request : ∃ request : Bytes, request.length = requestLength payload :=
    ⟨List.replicate _ 0, List.length_replicate⟩
  obtain ⟨request, sized⟩ := some_request
  refine ⟨fun _ => ?_, fun _ => ⟨request, sized, (Waited.refl c s).endsFailed request⟩⟩
  refine Routine.ensures_bind.mpr (Routine.ensures_get.mpr ?_)
  refine Routine.ensures_bind.mpr (Routine.ensures_modify.mpr ?_)
  have numbered : Waited c { c with nextRequestId := c.nextRequestId + 1 } s s :=
    ⟨rfl, rfl, rfl, Nat.le_refl _⟩
  refine (ensures_computeTag _ _ s).bind ?_ ?_
  · rintro _ t ⟨rfl, waited, _⟩
    exact ⟨request, sized, (numbered.trans waited).endsFailed request⟩
  rintro tag _ t ⟨rfl, waited, _⟩
  refine (ensures_attempts op c.nextRequestId responseCapacity _ gatewayRetries _ t).mono ?_
  intro result c' u ended
  refine ⟨_, ?_, (numbered.trans waited).endsAttempts ended⟩
  rw [List.length_append, length_requestBody, tag.toList_length]
  rfl

end Attempts

end Apqe.FabricUdpClient
