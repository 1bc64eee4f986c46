import PostQuantumUav.Apqe.AnswerAttribution
import PostQuantumUav.Apqe.QueryClock

/-!
# The account of an answered query

A query that is answered after several attempts has sent its request once for each of
them and counted it every time, and it has counted the accepted answer. Its wall time
starts with the last attempt, so that it is the full time exactly when no time was lost:
none between the first and the last transmission, and no wrap of the clock after that.
-/

namespace Apqe.FabricUdpClient

open Interaction WrappingClock Board

/-- What the counters should show after so many attempts between two times. -/
structure Accounted (before after : GatewayUsage) (attempts requestLength responseLength : Nat)
    (first stop : Nat) : Prop where
  appTx : after.appTx = before.appTx + .ofNat (attempts * requestLength)
  appRx : after.appRx = before.appRx + .ofNat responseLength
  wallUs : after.wallUs = before.wallUs + .ofNat (stop - first)

/-- What happens in an answered query: the transmissions begin at `first` and at the later
times, and the last packet is accepted at `stop`. -/
structure Answered (request : Bytes) (first : Nat) (later : List Nat) (stop : Nat)
    (packet : Transport.Packet) (s t : Watch) : Prop where
  readings : t.readings = s.readings ++ first :: (later ++ [stop])
  sent : t.sent = s.sent ++ List.replicate (later.length + 1) request
  received : t.received.getLast? = some packet
  few : later.length + 1 ≤ gatewayRetries
  started : first ≤ later.getLastD first
  ordered : later.getLastD first ≤ stop

/-- The microseconds that the wall time does not show. -/
def lost (first last stop : Nat) : Nat := last - first + 2 ^ 32 * wraps last stop

theorem accounted_iff_wallUs {before after : GatewayUsage}
    {attempts requestLength responseLength first last stop : Nat}
    (appTx : after.appTx = before.appTx + .ofNat (attempts * requestLength))
    (appRx : after.appRx = before.appRx + .ofNat responseLength)
    (wallUs : after.wallUs = before.wallUs + measured last stop) (started : first ≤ last)
    (ordered : last ≤ stop) :
    Accounted before after attempts requestLength responseLength first stop ↔
      2 ^ 64 ∣ lost first last stop := by
  rw [lost, ← measured_eq_iff started ordered]
  refine ⟨fun accounted => ?_, fun whole => ⟨appTx, appRx, by rw [wallUs, whole]⟩⟩
  have same := accounted.wallUs
  rw [wallUs] at same
  exact (UInt64.add_right_inj _).mp same

/-- The last time of a list that is given with its last element. -/
theorem getLastD_concat (times : List Nat) (last default : Nat) :
    (times ++ [last]).getLastD default = last := by
  rw [List.getLastD_eq_getLast?, List.getLast?_concat]
  rfl

/-- An answered query counts every request and the accepted response, and it counts the full
time from the first transmission to the acceptance exactly when no time is lost. -/
theorem transact_accounted_iff {op : UInt8} {responseCapacity : Nat} {slot : UInt16}
    {payload answer : Bytes} {c c' : FabricUdpClient} {s t : Watch}
    (run : Routine.Run Watched (transact op responseCapacity slot payload) c s (some answer) c' t) :
    ∃ request first later stop packet, request.length = requestLength payload ∧
      Answered request first later stop packet s t ∧
      (Accounted c.usage c'.usage (later.length + 1) request.length packet.bytes.length first stop ↔
        2 ^ 64 ∣ lost first (later.getLastD first) stop) := by
  obtain ⟨request, sized, begins, start, stop, packet, fewer, answers, appTx⟩ :=
    (ensures_transact op responseCapacity slot payload c s).post_of_run run trivial
  have readings := answers.readings
  have sent := answers.sent
  refine ⟨request, ?_⟩
  cases begins with
  | nil =>
      refine ⟨start, [], stop, packet, sized, ⟨?_, sent, answers.received, fewer, Nat.le_refl _,
        answers.ordered⟩, ?_⟩
      · rw [readings, List.append_nil]
        rfl
      · exact accounted_iff_wallUs appTx answers.appRx answers.wallUs (Nat.le_refl _)
          answers.ordered
  | cons first more =>
      have last := getLastD_concat more start first
      have started := (answers.begun first List.mem_cons_self).2
      have count : (more ++ [start]).length = (first :: more).length := by
        simp only [List.length_append, List.length_cons, List.length_nil]
      refine ⟨first, more ++ [start], stop, packet, sized,
        ⟨?_, ?_, answers.received, ?_, ?_, ?_⟩, ?_⟩
      · rw [readings]
        simp only [List.append_assoc, List.cons_append, List.nil_append]
      · rw [count]
        exact sent
      · rw [count]
        exact fewer
      · rw [last]
        exact started
      · rw [last]
        exact answers.ordered
      · rw [last, count]
        exact accounted_iff_wallUs appTx answers.appRx answers.wallUs started answers.ordered

section Late

/-- The answer to the first ping of a board. -/
def pong : Answer := ⟨0, ⟨gwPing, 1, 0, []⟩, ⟨gwOk, 0, []⟩⟩

def pongPacket : Transport.Packet :=
  ⟨Gateway.response exampleHmac pong.request pong.outcome, exampleGateway⟩

def pingRequest : Bytes := requestPacket exampleHmac gwPing 1 0 []

/-- The network after a ping that waited for the timeout of five seconds, and one that was answered
in ten microseconds. -/
def lateWatch : Watch where
  now := 5000010
  readings := [0, 5000000, 5000010]
  sent := [pingRequest, pingRequest]
  received := [pongPacket]

/-- An attempt without an answer. -/
theorem lostAttempt_run (op : UInt8) (requestId : UInt32) (responseCapacity : Nat) (request : Bytes)
    (c : FabricUdpClient) (s : Watch) (waiting : Nat) :
    Routine.Run Watched (attempt op requestId responseCapacity request) c s (some none)
      { c with usage := { c.usage with appTx := c.usage.appTx + .ofNat request.length } }
      ⟨s.now + waiting, s.readings ++ [s.now], s.sent ++ [request], s.received⟩ := by
  rw [attempt]
  refine (Routine.run_perform (.discardPending s s.now (Nat.le_refl _))).bind ?_
  refine (Routine.run_perform (.micros s s.now (Nat.le_refl _))).bind ?_
  refine (Routine.run_perform (.sendPacket _ request true s.now (Nat.le_refl _))).bind ?_
  refine (Routine.run_guard rfl).bind ((Routine.run_modify _).bind ?_)
  exact (Routine.run_perform (.pollRounds _ 0 (s.now + waiting) (Nat.le_add_right _ _))).bind
    (Routine.run_pure _)

theorem late_run : ∃ c', c'.usage.wallUs = 10 ∧ Routine.Run Watched (transact gwPing 0 0 [])
    exampleClient ⟨0, [], [], []⟩ (some []) c' lateWatch := by
  have fits : Fits pong gwPing 1 0 := ⟨rfl, rfl, rfl, Nat.zero_le _, Nat.le_refl _⟩
  refine ⟨accepting { exampleClient with
    nextRequestId := 2
    usage := { exampleClient.usage with
      appTx := 0 + .ofNat pingRequest.length + .ofNat pingRequest.length } } pongPacket.bytes
    (reading 5000000) (reading 5000010), by decide, ?_⟩
  rw [transact]
  refine (Routine.run_guard (by decide)).bind (Routine.run_get.bind ?_)
  refine (Routine.run_modify _).bind (Routine.Run.bind ((Routine.run_perform
    (.hmacSha256 _ _ (some (exampleHmac [])) 0 (Nat.le_refl _))).bind (Routine.run_pure _)) ?_)
  change Routine.Run _ (attempts gwPing 1 0 pingRequest (4 + 1 + 1)) _ _ _ _ _
  rw [attempts]
  refine (lostAttempt_run gwPing 1 0 pingRequest _ _ 5000000).bind ?_
  change Routine.Run _ (attempts gwPing 1 0 pingRequest (4 + 1)) _ _ _ _ _
  rw [attempts]
  refine Routine.Run.bind (a := some []) ?_ (Routine.run_pure _)
  rw [attempt]
  refine (Routine.run_perform (.discardPending _ 5000000 (Nat.le_refl _))).bind ?_
  refine (Routine.run_perform (.micros _ 5000000 (Nat.le_refl _))).bind ?_
  refine (Routine.run_perform (.sendPacket _ pingRequest true 5000000 (Nat.le_refl _))).bind ?_
  refine (Routine.run_guard rfl).bind ((Routine.run_modify _).bind ?_)
  refine (Routine.run_perform (.pollRounds _ 1 5000000 (Nat.le_refl _))).bind ?_
  rw [awaitAnswer]
  refine (Routine.run_perform (.parsePacket _ (some pongPacket) 5000000 (Nat.le_refl _))).bind ?_
  refine Routine.Run.bind (a := some []) ?_ (Routine.run_pure _)
  exact examine_accepts fits (reading 5000000) (reading 5000010) rfl rfl
    (fun data => .hmacSha256 _ data _ 5000000 (Nat.le_refl _)) (.micros _ 5000010 (by decide))

/-- The account of a query that was answered at the second attempt. -/
theorem late_account : ∃ c', Routine.Run Watched (transact gwPing 0 0 []) exampleClient
    ⟨0, [], [], []⟩ (some []) c' lateWatch ∧
    ∃ request first later stop packet, request.length = requestLength [] ∧
      Answered request first later stop packet ⟨0, [], [], []⟩ lateWatch ∧
      (Accounted exampleClient.usage c'.usage (later.length + 1) request.length packet.bytes.length
        first stop ↔ 2 ^ 64 ∣ lost first (later.getLastD first) stop) := by
  obtain ⟨c', _, run⟩ := late_run
  exact ⟨c', run, transact_accounted_iff run⟩

/-- The five seconds of the lost attempt are missing from the wall time. -/
theorem late_wallUs : ∃ c', Routine.Run Watched (transact gwPing 0 0 []) exampleClient
    ⟨0, [], [], []⟩ (some []) c' lateWatch ∧
    Answered pingRequest 0 [5000000] 5000010 pongPacket ⟨0, [], [], []⟩ lateWatch ∧
    ¬ Accounted exampleClient.usage c'.usage 2 pingRequest.length pongPacket.bytes.length 0
      5000010 := by
  obtain ⟨c', wallUs, run⟩ := late_run
  refine ⟨c', run, ⟨rfl, rfl, rfl, by decide, by decide, by decide⟩, fun accounted => ?_⟩
  have full := accounted.wallUs
  rw [wallUs] at full
  revert full
  decide

end Late

end Apqe.FabricUdpClient
