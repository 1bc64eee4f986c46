import PostQuantumUav.Apqe.AnswerAttribution
import PostQuantumUav.Apqe.CredentialRoundTrip
import PostQuantumUav.Apqe.HonestSession
import PostQuantumUav.Apqe.SessionDurations

/-!
# A session while the clock wraps

Every duration of a session is true exactly when the clock does not wrap inside one of
its intervals, on both sides and however the session ends. The readings are widened
before they are subtracted, so that each wrap takes away `2 ^ 32` microseconds.

Two enrolled devices can meet this: their session succeeds, while the clock wraps
right after the initiator's first reading.
-/

namespace Apqe

open Interaction WrappingClock ApqeProtocol

/-- The intervals are shorter than a turn of the clock. -/
def Short (spans : List Span) : Prop := ∀ span ∈ spans, span.stop - span.start < 2 ^ 32

/-- The metric is the sum of the true durations. -/
def TrueDuration (metrics : SessionMetrics) (spans : List Span) (d : Duration) : Prop :=
  d.us metrics = .ofNat (elapsedSum (intervals spans d))

/-- No interval of the duration contains a wrap of the clock. -/
def Unwrapped (spans : List Span) (d : Duration) : Prop :=
  ∀ span ∈ spans, span.duration = d → wraps span.start span.stop = 0

section Durations

variable {plan outer : List Duration} {s t : Clocked} {start : Nat} {spans ends : List Span}
  {o : ApqeProtocol}

theorem mem_intervals {d : Duration} {interval : Nat × Nat} :
    interval ∈ intervals spans d ↔
      ∃ span ∈ spans, span.duration = d ∧ (span.start, span.stop) = interval := by
  simp only [intervals, List.mem_map, List.mem_filter, decide_eq_true_eq, and_assoc]

/-- A recorded duration, which is a sum of measured intervals. -/
theorem ApqeProtocol.Recorded.duration_iff (recorded : Recorded plan outer s start spans ends o t)
    (few : plan.length + outer.length < 2 ^ 32) (short : Short (spans ++ ends)) (d : Duration) :
    TrueDuration o.metrics (spans ++ ends) d ↔ Unwrapped (spans ++ ends) d := by
  have count : (intervals (spans ++ ends) d).length < 2 ^ 32 := by
    have most : (intervals (spans ++ ends) d).length ≤ (spans ++ ends).length := by
      rw [intervals, List.length_map]
      exact List.length_filter_le _ _
    have planned := recorded.planned.length_le
    have closed := recorded.closed.length_le
    rw [List.length_map] at planned closed
    rw [List.length_append] at most
    omega
  have forward : ∀ interval ∈ intervals (spans ++ ends) d, interval.1 ≤ interval.2 := by
    intro interval member
    obtain ⟨span, measured, _, rfl⟩ := mem_intervals.mp member
    exact (recorded.ordered span measured).2.1
  have brief : ∀ interval ∈ intervals (spans ++ ends) d, interval.2 - interval.1 < 2 ^ 32 := by
    intro interval member
    obtain ⟨span, measured, _, rfl⟩ := mem_intervals.mp member
    exact short span measured
  rw [TrueDuration, recorded.durations, measuredSum_eq_iff forward brief count]
  constructor
  · intro all span member same
    exact all _ (mem_intervals.mpr ⟨span, member, same, rfl⟩)
  · intro all interval member
    obtain ⟨span, measured, same, rfl⟩ := mem_intervals.mp member
    exact all span measured same

/-- Every measurement of a session was recorded, all of them when it went through, and short
durations are true exactly where the clock did not wrap. -/
def TrueUnlessWrapped {α : Type} (plan outer : List Duration) (s : Clocked) (result : Option α)
    (o : ApqeProtocol) (t : Clocked) : Prop :=
  ∃ start spans ends, Recorded plan outer s start spans ends o t ∧
    (result = none ∨ spans.map Span.duration = plan ∧ ends.map Span.duration = outer) ∧
    (Short (spans ++ ends) → ∀ d : Duration,
      TrueDuration o.metrics (spans ++ ends) d ↔ Unwrapped (spans ++ ends) d)

theorem ApqeProtocol.SessionEnds.trueUnlessWrapped {α : Type} {result : Option α}
    (ended : SessionEnds plan outer s result o t) (few : plan.length + outer.length < 2 ^ 32) :
    TrueUnlessWrapped plan outer s result o t := by
  obtain ⟨start, spans, ends, recorded, complete⟩ := ended
  exact ⟨start, spans, ends, recorded, complete, fun short => recorded.duration_iff few short⟩

end Durations

section Answers

open FabricUdpClient Board Buffer

theorem credentialOf_run (c : FabricUdpClient) (w : Watch) (credential : FabricCredential) :
    Routine.Run Watched (credentialOf (serializeCredential credential)) c w (some credential)
      { c with recordScratch := overwrite c.recordScratch (serializeCredential credential) } w := by
  refine (Routine.run_modify _).bind ?_
  refine (Routine.run_guard (Gateway.length_serializeCredential credential)).bind ?_
  apply Routine.run_get.bind
  rw [parseCredential_serialized]
  exact Routine.run_pure _

/-- A gateway may answer every query at once, with any credential. -/
theorem exists_answered (c : FabricUdpClient) {now later : Nat} (le : now ≤ later) (op : UInt8)
    (slot : UInt16) (payload : Bytes) (small : payload.length ≤ fabricRecordBytes)
    (credential : FabricCredential) : ∃ c' w, w.now = later ∧
      Routine.Run Watched (transact op fabricRecordBytes slot payload >>= credentialOf) c
        ⟨now, [], [], []⟩ (some credential) c' w := by
  have sized := Gateway.length_serializeCredential credential
  let a : Answer := ⟨0, ⟨op, c.nextRequestId, slot, payload⟩,
    ⟨gwOk, 0, serializeCredential credential⟩⟩
  have fits : Fits a op c.nextRequestId fabricRecordBytes :=
    ⟨rfl, rfl, rfl, Nat.le_of_eq sized, Nat.le_of_eq sized⟩
  have still := Nat.le_refl later
  have answered : Routine.Run Watched (transact op fabricRecordBytes slot payload) c
      ⟨now, [], [], []⟩ (some (serializeCredential credential)) _
      ⟨later, [later, later], [requestPacket exampleHmac op c.nextRequestId slot payload],
        [⟨Gateway.response exampleHmac a.request a.outcome, c.gateway⟩]⟩ :=
    transact_accepts (a := a) small rfl fits (reading later) (reading later)
      (fun data => .hmacSha256 _ data _ later le) (.discardPending _ later still)
      (.micros _ later still) (.sendPacket _ _ true later still) (.pollRounds _ 1 later still)
      (.parsePacket _ _ later still) (fun data => .hmacSha256 _ data _ later still)
      (.micros _ later still)
  exact ⟨_, _, rfl, answered.bind (credentialOf_run _ _ credential)⟩

end Answers

section Wrapping

/-- The times at which the session read the clock itself. -/
def Clocked.reads (s : Clocked) : List Nat :=
  s.marks.filterMap fun
    | .read time => some time
    | .query _ _ => none

/-- The last time before the first wrap. -/
abbrev lastBefore : Nat := 2 ^ 32 - 1

/-- One microsecond behind the wrap. -/
abbrev firstAfter : Nat := 2 ^ 32 + 1

/-- The time of the next call: the clock wraps behind the first reading. -/
def Clocked.next (s : Clocked) : Nat := max s.now (if s.reads = [] then lastBefore else firstAfter)

/-- Both enrolled devices are found in any slot. -/
def openLedger : CredentialLedger where
  record identityHash _ :=
    if identityHash = (pairedDevice true).identityHash paddingCrypto then
      some ((pairedDevice true).credential paddingCrypto 0)
    else some ((pairedDevice false).credential paddingCrypto 0)
  index tid :=
    if tid = (pairedDevice true).tid paddingCrypto 0 then
      some ((pairedDevice true).credential paddingCrypto 0)
    else some ((pairedDevice false).credential paddingCrypto 0)

theorem openLedger_record (identityHash : Block) (slot : UInt16) :
    ∃ credential, openLedger.record identityHash slot = some credential := by
  simp only [openLedger]
  split
  · exact ⟨_, rfl⟩
  · exact ⟨_, rfl⟩

theorem openLedger_index (tid : Block) : ∃ credential, openLedger.index tid = some credential := by
  simp only [openLedger]
  split
  · exact ⟨_, rfl⟩
  · exact ⟨_, rfl⟩

/-- An honest party whose calls are made at those times. -/
def Wrapping : World calls (Party × Clocked) := fun s event t =>
  Party.Answered paddingCrypto openLedger s.1 event t.1 ∧ Clocked.Timed s.2 event t.2 ∧
    t.2.now = s.2.next

theorem untimed_responsive {party party' : Party} {s : Clocked} {c : Call} {a : calls.Answer c}
    (plain : Clocked.Untimed c)
    (answered : Party.Answered paddingCrypto openLedger party ⟨c, a⟩ party') :
    ∃ (a : calls.Answer c) (t : Party × Clocked), Wrapping (party, s) ⟨c, a⟩ t :=
  ⟨a, (party', { s with now := s.next }), answered,
    .untimed s c a plain _ (Nat.le_max_left _ _), rfl⟩

theorem wrapping_responsive : World.Responsive Wrapping := by
  rintro ⟨party, s⟩ c
  obtain ⟨a, party', answered⟩ := Party.answered_responsive paddingCrypto openLedger party c
  have later : s.now ≤ s.next := Nat.le_max_left _ _
  cases c with
  | micros =>
      exact ⟨reading s.next, (party, { s with now := s.next, marks := s.marks ++ [.read s.next] }),
        .micros _, .micros s _ later, rfl⟩
  | queryByIdentitySlot identityHash slot usage =>
      obtain ⟨credential, found⟩ := openLedger_record identityHash slot
      obtain ⟨fabric, w, now, run⟩ := exists_answered (s.client usage) later gwQueryIdSlot slot
        identityHash.toList (by rw [List.Vector.toList_length]; decide) credential
      refine ⟨(some credential, fabric.usage), (party, _), ?_,
        .queryByIdentitySlot s identityHash slot usage _ fabric w run, now⟩
      rw [← found]
      exact .queryByIdentitySlot _ _ _ _
  | queryByTid tid usage =>
      obtain ⟨credential, found⟩ := openLedger_index tid
      obtain ⟨fabric, w, now, run⟩ := exists_answered (s.client usage) later gwQueryTid 0
        tid.toList (by rw [List.Vector.toList_length]; decide) credential
      refine ⟨(some credential, fabric.usage), (party, _), ?_,
        .queryByTid s tid usage _ fabric w run, now⟩
      rw [← found]
      exact .queryByTid _ _ _
  | sha256 data => exact untimed_responsive trivial answered
  | randomBytes => exact untimed_responsive trivial answered
  | keypairDeterministic seed => exact untimed_responsive trivial answered
  | encrypt message publicKey coins => exact untimed_responsive trivial answered
  | decrypt ciphertext secretKey => exact untimed_responsive trivial answered
  | sendMessage destination type session data => exact untimed_responsive trivial answered
  | receiveMessage type session outputCapacity timeoutMs =>
      exact untimed_responsive trivial answered

/-- Only a reading of the session itself is read. -/
theorem reads_timed {s t : Clocked} {event : Event calls} (timed : Clocked.Timed s event t) :
    t.reads = s.reads ∨ t.reads = s.reads ++ [t.now] := by
  have query (w : FabricUdpClient.Watch) : (s.marks ++ w.marks).filterMap (fun
      | .read time => some time
      | .query _ _ => none) = s.reads := by
    rw [List.filterMap_append, FabricUdpClient.Watch.marks, Clocked.reads]
    split
    · split
      · exact List.append_nil _
      · exact List.append_nil _
    · exact List.append_nil _
  cases timed with
  | micros later le =>
      refine .inr ?_
      rw [Clocked.reads, List.filterMap_append]
      rfl
  | queryByIdentitySlot => exact .inl (query _)
  | queryByTid => exact .inl (query _)
  | untimed => exact .inl rfl

/-- The first reading is made before the wrap and every other one behind it. -/
def Wrapped (s : Clocked) : Prop :=
  (s.reads = [] ∧ s.now ≤ lastBefore) ∨
    ∃ rest, s.reads = lastBefore :: rest ∧ (∀ time ∈ rest, time = firstAfter) ∧ s.now ≤ firstAfter

theorem wrapped_step {s : Party × Clocked} {event : Event calls} {t : Party × Clocked}
    (step : Wrapping s event t) (before : Wrapped s.2) : Wrapped t.2 := by
  obtain ⟨_, timed, now⟩ := step
  rcases before with ⟨none, le⟩ | ⟨rest, first, later, le⟩
  · have before : t.2.now = lastBefore := by
      rw [now, Clocked.next, if_pos none]
      exact Nat.max_eq_right le
    rcases reads_timed timed with same | read
    · exact .inl ⟨same.trans none, Nat.le_of_eq before⟩
    · refine .inr ⟨[], ?_, nofun, ?_⟩
      · rw [read, none, before]
        rfl
      · rw [before]
        decide
  · have after : t.2.now = firstAfter := by
      rw [now, Clocked.next, first, if_neg (List.cons_ne_nil _ _)]
      exact Nat.max_eq_right le
    rcases reads_timed timed with same | read
    · exact .inr ⟨rest, same.trans first, later, Nat.le_of_eq after⟩
    · refine .inr ⟨rest ++ [t.2.now], ?_, ?_, Nat.le_of_eq after⟩
      · rw [read, first]
        rfl
      · intro time member
        rcases List.mem_append.mp member with member | member
        · exact later time member
        · exact (List.mem_singleton.mp member).trans after

/-- The session of the first of the paired devices. -/
def pairedHandshake : Handshake where
  crypto := paddingCrypto
  initiator := pairedDevice true
  responder := pairedDevice false
  slot := 0
  initiatorRandom _ := .replicate _ 3
  responderRandom _ := .replicate _ 4

theorem pairedHandshake_enrolled : pairedHandshake.Enrolled openLedger where
  initiatorPeer := rfl
  responderPeer := rfl
  initiator := by
    simp only [openLedger, pairedHandshake, if_true]
  responder := by
    simp only [openLedger, pairedHandshake]
    exact if_neg paired_identityHash_ne
  byTid := by
    simp only [openLedger, pairedHandshake, if_true]

/-- The session succeeds at those times. -/
theorem wrapping_run : ∃ o' t key,
    Routine.Run Clocked.Timed (runInitiatorSession 1 0) (pairedProtocol true)
      ⟨0, Board.exampleClient, []⟩ (some key) o' t ∧ Wrapped t := by
  obtain ⟨⟨_, _, _, runR⟩, endR⟩ := (@Handshake.responder_finishes pairedHandshake openLedger
    (pairedProtocol false) [] ⟨rfl, rfl, rfl, rfl⟩ pairedHandshake_enrolled 1).total
      (Party.answered_responsive paddingCrypto openLedger)
  obtain ⟨_, record, confirms, _⟩ := endR _ _ _ runR
  have finishes := @Handshake.initiator_finishes pairedHandshake openLedger (pairedProtocol true) []
    ⟨rfl, rfl, rfl, rfl⟩ pairedHandshake_enrolled 1 record confirms
  obtain ⟨⟨result, o'⟩, ⟨party, t⟩, run⟩ := Program.exists_exec wrapping_responsive
    ((runInitiatorSession 1 0).on (pairedProtocol true))
    (⟨fun _ => .replicate _ 3, 0,
      [⟨msgM2, 1, pairedHandshake.m2.toList⟩, ⟨msgResult, 1, record⟩], []⟩,
      ⟨0, Board.exampleClient, []⟩)
  have fresh : Wrapped ⟨0, Board.exampleClient, []⟩ := .inl ⟨rfl, Nat.zero_le _⟩
  have kept (s event t) (step : Wrapping s event t) : Wrapped s.2 → Wrapped t.2 := wrapped_step step
  have wrapped : Wrapped t := run.post_of_done (Program.Ensures.of_step kept _ fresh) fresh
  have honest : Routine.Run (Party.Answered paddingCrypto openLedger) _ _ _ _ _ _ :=
    run.project Prod.fst fun _ _ _ step => step.1
  have timed : Routine.Run Clocked.Timed _ _ _ _ _ _ :=
    run.project Prod.snd fun _ _ _ step => step.2.1
  obtain ⟨rfl, _⟩ := finishes.post_of_run honest trivial
  exact ⟨o', t, _, timed, wrapped⟩

/-- The interval of the protocol is the one with the wrap. -/
theorem wrapped_protocol {plan : List Duration} {t : Clocked} {o : ApqeProtocol} {start : Nat}
    {spans ends : List Span} (absent : Duration.protocol ∉ plan)
    (recorded : Recorded plan [.protocol, .confirmed] ⟨0, Board.exampleClient, []⟩ start spans ends
      o t)
    (through : spans.map Span.duration = plan)
    (closed : ends.map Span.duration = [.protocol, .confirmed]) (wrapped : Wrapped t) :
    Short (spans ++ ends) ∧ intervals (spans ++ ends) .protocol = [(lastBefore, firstAfter)] := by
  have read : t.reads = start :: ((spans.flatMap Span.marks).filterMap (fun
      | .read time => some time
      | .query _ _ => none) ++ ends.map Span.stop) := by
    rw [Clocked.reads, recorded.marks, List.nil_append, List.filterMap_cons, List.filterMap_append,
      List.filterMap_map]
    have stops : ends.map Span.stop = ends.filterMap (some ∘ Span.stop) :=
      congrFun List.filterMap_eq_map.symm ends
    rw [stops]
    rfl
  rcases wrapped with ⟨none, _⟩ | ⟨rest, first, later, le⟩
  · rw [none] at read
    cases read
  rw [first] at read
  obtain ⟨rfl, rfl⟩ := List.cons.inj read
  constructor
  · intro span member
    obtain ⟨begun, _, ended⟩ := recorded.ordered span member
    simp only [lastBefore, firstAfter] at begun le
    omega
  · obtain ⟨protocol, more, rfl, same, more_eq⟩ := List.map_eq_cons_iff.mp closed
    have begun := recorded.together protocol List.mem_cons_self
    have ended := later protocol.stop (List.mem_append_right _ List.mem_cons_self)
    have none : intervals more .protocol = [] := by
      apply intervals_eq_nil
      rw [more_eq]
      decide
    have single : intervals [protocol] .protocol = [(lastBefore, firstAfter)] := by
      rw [intervals, List.filter_singleton, same, begun.symm, ended.symm]
      rfl
    rw [← through] at absent
    rw [intervals_append, intervals_eq_nil absent, ← List.singleton_append, intervals_append, none,
      single]
    rfl

/-- The durations of both sides of a session, in every run. -/
theorem durations_true_iff (session : UInt32) (o o' : ApqeProtocol) (s t : Clocked)
    (result : Option Block) :
    (∀ slot, Routine.Run Clocked.Timed (runInitiatorSession session slot) o s result o' t →
      TrueUnlessWrapped initiatorPlan [.protocol, .confirmed] s result o' t) ∧
    (∀ incoming, Routine.Run Clocked.Timed (runResponderSession session incoming) o s result o' t →
      TrueUnlessWrapped responderPlan [.protocol] s result o' t) := by
  constructor
  · intro slot run
    exact ((ensures_runInitiatorSession session slot o s).post_of_run run trivial).trueUnlessWrapped
      (by decide)
  · intro incoming run
    exact ((ensures_runResponderSession session incoming o s).post_of_run run
      trivial).trueUnlessWrapped (by decide)

/-- Every method has a run at those times. -/
theorem exists_timed_run {α : Type} (r : Method α) (o : ApqeProtocol) (party : Party) :
    ∃ result o' t, Routine.Run Clocked.Timed r o ⟨0, Board.exampleClient, []⟩ result o' t := by
  obtain ⟨⟨result, o'⟩, t, run⟩ := Program.exists_exec wrapping_responsive (r.on o)
    (party, ⟨0, Board.exampleClient, []⟩)
  exact ⟨result, o', t.2, run.project Prod.snd fun _ _ _ step => step.2.1⟩

theorem durations_true_iff_paired :
    (∃ o' t key, TrueUnlessWrapped initiatorPlan [.protocol, .confirmed]
      ⟨0, Board.exampleClient, []⟩ (some (key : Block)) o' t) ∧
    ∃ result o' t, TrueUnlessWrapped responderPlan [.protocol] ⟨0, Board.exampleClient, []⟩
      (result : Option Block) o' t := by
  obtain ⟨o', t, key, run, _⟩ := wrapping_run
  obtain ⟨result, object, world, answered⟩ := exists_timed_run
    (runResponderSession 1 ⟨msgM1, 1, m1Bytes, ⟨0, 0⟩, m1Bytes⟩) (pairedProtocol false)
    ⟨fun _ => .replicate _ 4, 0, [], []⟩
  exact ⟨⟨o', t, key, (durations_true_iff 1 _ _ _ _ _).1 0 run⟩,
    ⟨result, object, world, (durations_true_iff 1 _ _ _ _ _).2 _ answered⟩⟩

/-- The measurement of a session of two microseconds is more than half a million years. -/
theorem wrapped_durations : ∃ o' t key,
    Routine.Run Clocked.Timed (runInitiatorSession 1 0) (pairedProtocol true)
      ⟨0, Board.exampleClient, []⟩ (some key) o' t ∧
    ∃ start spans ends, Recorded initiatorPlan [.protocol, .confirmed] ⟨0, Board.exampleClient, []⟩
      start spans ends o' t ∧ Short (spans ++ ends) ∧
      intervals (spans ++ ends) .protocol = [(2 ^ 32 - 1, 2 ^ 32 + 1)] ∧
      ¬ TrueDuration o'.metrics (spans ++ ends) .protocol := by
  obtain ⟨o', t, key, run, wrapped⟩ := wrapping_run
  obtain ⟨start, spans, ends, recorded, complete⟩ :=
    (ensures_runInitiatorSession 1 0 _ _).post_of_run run trivial
  obtain ⟨through, closed⟩ := complete.resolve_left nofun
  obtain ⟨short, protocol⟩ := wrapped_protocol (by decide) recorded through closed wrapped
  refine ⟨o', t, key, run, start, spans, ends, recorded, short, protocol, fun same => ?_⟩
  rw [TrueDuration, recorded.durations, protocol] at same
  exact absurd same (by decide)

end Wrapping

end Apqe
