import PostQuantumUav.Apqe.ApqeProtocol
import PostQuantumUav.Apqe.QueryClock

/-!
# What a session measures

A session of the comparison protocol in a world with a true clock, in which a query of
the ledger is a run of the gateway's client against the same clock. The world marks the
readings of the session and, for a query whose answer was accepted, the interval that
the client measured.

The measured intervals of a method are a list of spans, each for one duration of the
metrics. A method adds to every duration what the readings of its spans show, and a
session that goes through measures the operations of its plan, in order.
-/

namespace Apqe

open Interaction WrappingClock

/-- The durations of a session's metrics that are measured with the clock. -/
inductive Duration where
  | sha
  | puf
  | fuzzyReconstruction
  | kyberKeygen
  | kyberEncrypt
  | kyberDecrypt
  | fabricWall
  | protocol
  | confirmed
  deriving DecidableEq

def Duration.us (metrics : SessionMetrics) : Duration → UInt64
  | .sha => metrics.shaUs
  | .puf => metrics.pufUs
  | .fuzzyReconstruction => metrics.fuzzyReconstructionUs
  | .kyberKeygen => metrics.kyberKeygenUs
  | .kyberEncrypt => metrics.kyberEncryptUs
  | .kyberDecrypt => metrics.kyberDecryptUs
  | .fabricWall => metrics.fabricWallUs
  | .protocol => metrics.protocolUs
  | .confirmed => metrics.confirmedUs

/-- What the world remembers of a session's measurements. -/
inductive Mark where
  | read (time : Nat)
  | query (start stop : Nat)

/-- The interval of a query that was answered: its last two readings. A query that is not has
one reading for each transmission. -/
def FabricUdpClient.Watch.marks (w : FabricUdpClient.Watch) : List Mark :=
  match w.readings.reverse with
  | stop :: start :: _ => if w.sent.length < w.readings.length then [.query start stop] else []
  | _ => []

/-- The true time, the client of the gateway and the marks so far. -/
structure Clocked where
  now : Nat
  fabric : FabricUdpClient
  marks : List Mark

namespace Clocked

/-- The method of the client that a call stands for, on the counters that the call passes. -/
def client (s : Clocked) (usage : GatewayUsage) : FabricUdpClient :=
  { s.fabric with usage := usage }

/-- A call that neither reads the clock nor queries the ledger. -/
def Untimed : ApqeProtocol.Call → Prop
  | .micros => False
  | .queryByIdentitySlot _ _ _ => False
  | .queryByTid _ _ => False
  | _ => True

open FabricUdpClient (Watch Watched)

/-- The watch at the start of a query. -/
def watch (s : Clocked) : Watch := ⟨s.now, [], [], []⟩

inductive Timed : World ApqeProtocol.calls Clocked
  | micros (s : Clocked) (later : Nat) (le : s.now ≤ later) :
      Timed s ⟨.micros, reading later⟩
        { s with now := later, marks := s.marks ++ [.read later] }
  | queryByIdentitySlot (s : Clocked) (identityHash : Block) (slot : UInt16) (usage : GatewayUsage)
      (found : Option FabricCredential) (fabric : FabricUdpClient) (w : Watch)
      (run : Routine.Run Watched (FabricUdpClient.queryByIdentitySlot identityHash slot)
        (s.client usage) s.watch found fabric w) :
      Timed s ⟨.queryByIdentitySlot identityHash slot usage, (found, fabric.usage)⟩
        ⟨w.now, fabric, s.marks ++ w.marks⟩
  | queryByTid (s : Clocked) (tid : Block) (usage : GatewayUsage)
      (found : Option FabricCredential) (fabric : FabricUdpClient) (w : Watch)
      (run : Routine.Run Watched (FabricUdpClient.queryByTid tid) (s.client usage) s.watch found
        fabric w) :
      Timed s ⟨.queryByTid tid usage, (found, fabric.usage)⟩ ⟨w.now, fabric, s.marks ++ w.marks⟩
  | untimed (s : Clocked) (c : ApqeProtocol.Call) (a : ApqeProtocol.calls.Answer c)
      (plain : Untimed c) (later : Nat) (le : s.now ≤ later) :
      Timed s ⟨c, a⟩ { s with now := later }

end Clocked

/-- An interval that is measured for a duration. -/
structure Span where
  duration : Duration
  start : Nat
  stop : Nat

/-- A query is marked by its client, everything else by two readings. -/
def Span.marks (span : Span) : List Mark :=
  if span.duration = .fabricWall then [.query span.start span.stop]
  else [.read span.start, .read span.stop]

/-- The intervals of one duration. -/
def intervals (spans : List Span) (d : Duration) : List (Nat × Nat) :=
  (spans.filter fun span => span.duration = d).map fun span => (span.start, span.stop)

theorem intervals_singleton (d d' : Duration) (start stop : Nat) :
    intervals [⟨d, start, stop⟩] d' = if d' = d then [(start, stop)] else [] := by
  rw [intervals, List.filter_singleton]
  by_cases same : d' = d
  · subst same
    simp only [decide_true, if_true, cond_true, List.map_cons, List.map_nil]
  · have other : ¬ d = d' := fun equal => same equal.symm
    simp only [other, same, decide_false, cond_false, if_false, List.map_nil]

theorem intervals_append (spans more : List Span) (d : Duration) :
    intervals (spans ++ more) d = intervals spans d ++ intervals more d := by
  rw [intervals, List.filter_append, List.map_append]
  rfl

section Queries

open FabricUdpClient

/-- A query may end without an accepted answer, and fails then, or it marks the interval that it
adds to the wall time. -/
def QueryEnds {α : Type} (c : FabricUdpClient) (s : Watch) (found : Option α) (c' : FabricUdpClient)
    (w : Watch) : Prop :=
  s.now ≤ w.now ∧ ((w.marks = [] ∧ c'.usage.wallUs = c.usage.wallUs ∧ found = none) ∨
    ∃ start stop, s.now ≤ start ∧ start ≤ stop ∧ stop ≤ w.now ∧ w.marks = [.query start stop] ∧
      c'.usage.wallUs = c.usage.wallUs + measured start stop)

variable {c c' : FabricUdpClient} {now : Nat} {w : Watch} {request : Bytes}

theorem queryEnds_tried {α : Type} {begins : List Nat}
    (tried : Tried request begins c c' ⟨now, [], [], []⟩ w) :
    QueryEnds c ⟨now, [], [], []⟩ (none : Option α) c' w := by
  refine ⟨tried.later, .inl ⟨?_, tried.wallUs, rfl⟩⟩
  have sent := congrArg List.length tried.sent
  have readings := congrArg List.length tried.readings
  simp only [List.length_append, List.length_replicate, List.length_nil] at sent readings
  unfold Watch.marks
  split
  · exact if_neg (by omega)
  · rfl

theorem queryEnds_obtains {α : Type} (found : Option α) {begins : List Nat} {start stop : Nat}
    {packet : Transport.Packet}
    (answers : Obtains request begins start stop packet c c' ⟨now, [], [], []⟩ w) :
    QueryEnds c ⟨now, [], [], []⟩ found c' w := by
  have later := Nat.le_trans answers.ordered answers.later
  refine ⟨Nat.le_trans answers.from_start later, .inr ⟨start, stop, answers.from_start,
    answers.ordered, answers.later, ?_, answers.wallUs⟩⟩
  have sent := congrArg List.length answers.sent
  have readings := congrArg List.length answers.readings
  have reversed : w.readings.reverse = stop :: start :: begins.reverse := by
    rw [answers.readings]
    simp only [List.nil_append, List.reverse_append, List.reverse_cons, List.reverse_nil,
      List.cons_append]
  simp only [List.length_append, List.length_replicate, List.length_nil, List.length_cons]
    at sent readings
  unfold Watch.marks
  rw [reversed]
  exact if_pos (by omega)

/-- A query of the client ends as its transaction does. -/
theorem ensures_query {op : UInt8} {slot : UInt16} {payload : Bytes} (c : FabricUdpClient)
    (now : Nat) :
    Routine.Ensures Watched (fun _ => True) (QueryEnds c ⟨now, [], [], []⟩)
      (transact op fabricRecordBytes slot payload >>= credentialOf) c ⟨now, [], [], []⟩ := by
  refine (ensures_transact op fabricRecordBytes slot payload c _).bind ?_ ?_
  · rintro c' w ⟨request, _, ended⟩
    rcases ended with ⟨begins, tried⟩ | ⟨begins, start, stop, packet, answers⟩
    · exact queryEnds_tried tried
    · exact queryEnds_obtains none answers
  · rintro answer c' w ⟨request, _, begins, start, stop, packet, _, answers, _⟩
    have ended (found : Option FabricCredential) := queryEnds_obtains found answers
    unfold credentialOf
    refine Routine.ensures_bind.mpr (Routine.ensures_modify.mpr ?_)
    refine Routine.ensures_bind.mpr (Routine.ensures_guard.mpr ⟨fun _ => ?_, fun _ => ended none⟩)
    exact ended _

end Queries

namespace ApqeProtocol

variable {α β : Type} {o o' o'' : ApqeProtocol} {s t u : Clocked}

/-- A part of a session that measured these intervals. -/
structure Advances (spans : List Span) (o o' : ApqeProtocol) (s t : Clocked) : Prop where
  marks : t.marks = s.marks ++ spans.flatMap Span.marks
  durations : ∀ d : Duration, d.us o'.metrics = d.us o.metrics + measuredSum (intervals spans d)
  ordered : ∀ span ∈ spans, s.now ≤ span.start ∧ span.start ≤ span.stop ∧ span.stop ≤ t.now
  later : s.now ≤ t.now

/-- Nothing is measured while the time passes. -/
theorem advances_nil (unchanged : ∀ d : Duration, d.us o'.metrics = d.us o.metrics)
    (marks : t.marks = s.marks) (later : s.now ≤ t.now) : Advances [] o o' s t where
  marks := marks.trans (List.append_nil _).symm
  durations d := (unchanged d).trans (UInt64.add_zero _).symm
  ordered := nofun
  later := later

theorem Advances.trans {spans more : List Span} (first : Advances spans o o' s t)
    (second : Advances more o' o'' t u) : Advances (spans ++ more) o o'' s u where
  marks := by rw [second.marks, first.marks, List.flatMap_append, List.append_assoc]
  durations d := by
    rw [second.durations, first.durations, intervals_append, measuredSum_append, UInt64.add_assoc]
  ordered := by
    intro span member
    rcases List.mem_append.mp member with member | member
    · obtain ⟨start, le, stop⟩ := first.ordered span member
      exact ⟨start, le, Nat.le_trans stop second.later⟩
    · obtain ⟨start, le, stop⟩ := second.ordered span member
      exact ⟨Nat.le_trans first.later start, le, stop⟩
  later := Nat.le_trans first.later second.later

/-- A method that measures the operations of the plan; one that fails has measured the first of
them. -/
def Measures (plan : List Duration) (r : Method α) : Prop :=
  ∀ o s, Routine.Ensures Clocked.Timed (fun _ => True) (fun result o' t =>
    ∃ spans, Advances spans o o' s t ∧ spans.map Span.duration <+: plan ∧
      (result = none ∨ spans.map Span.duration = plan)) r o s

section Rules

variable {plan plan' : List Duration}

theorem measures_pure (a : α) : Measures [] (pure a) := fun _ _ =>
  ⟨[], advances_nil (fun _ => rfl) rfl (Nat.le_refl _), List.prefix_refl _, .inr rfl⟩

theorem measures_failure : Measures plan (failure : Method α) := fun _ _ =>
  ⟨[], advances_nil (fun _ => rfl) rfl (Nat.le_refl _), List.nil_prefix, .inl rfl⟩

theorem measures_get : Measures [] (get : Method ApqeProtocol) := fun _ _ =>
  ⟨[], advances_nil (fun _ => rfl) rfl (Nat.le_refl _), List.prefix_refl _, .inr rfl⟩

theorem measures_modify {f : ApqeProtocol → ApqeProtocol}
    (unchanged : ∀ o (d : Duration), d.us (f o).metrics = d.us o.metrics) :
    Measures [] (modify f : Method PUnit) := fun o _ =>
  ⟨[], advances_nil (unchanged o) rfl (Nat.le_refl _), List.prefix_refl _, .inr rfl⟩

/-- A sequence measures one plan after the other. -/
theorem Measures.bind {r : Method α} {f : α → Method β} (first : Measures plan r)
    (second : ∀ a, Measures plan' (f a)) : Measures (plan ++ plan') (r >>= f) := by
  intro o s
  refine (first o s).bind ?_ ?_
  · rintro o' t ⟨spans, advances, front, _⟩
    exact ⟨spans, advances, front.trans (List.prefix_append _ _), .inl rfl⟩
  · rintro a o' t ⟨spans, advances, _, done⟩
    have whole : spans.map Span.duration = plan := done.resolve_left nofun
    refine (second a o' t).mono ?_
    rintro result o'' u ⟨more, rest, front, done⟩
    refine ⟨spans ++ more, advances.trans rest, ?_, ?_⟩
    · rw [List.map_append, whole]
      exact (List.prefix_append_right_inj _).mpr front
    · rw [List.map_append, whole]
      exact done.imp_right fun more => congrArg (plan ++ ·) more

/-- A part that measures nothing comes first. -/
theorem Measures.skip {r : Method α} {f : α → Method β} (first : Measures [] r)
    (second : ∀ a, Measures plan (f a)) : Measures plan (r >>= f) := first.bind second

/-- A reading of the clock. -/
theorem ensures_micros {f : UInt32 → Method β} {post : Option β → ApqeProtocol → Clocked → Prop}
    (next : ∀ later, s.now ≤ later → Routine.Ensures Clocked.Timed (fun _ => True) post
      (f (reading later)) o { s with now := later, marks := s.marks ++ [.read later] }) :
    Routine.Ensures Clocked.Timed (fun _ => True) post (micros >>= f) o s := by
  refine Routine.Ensures.perform fun (now : UInt32) _ answered => ⟨trivial, ?_⟩
  cases answered with
  | untimed _ _ _ plain => exact absurd plain id
  | micros _ later le => exact next later le

theorem measures_guard (c : Prop) [Decidable c] : Measures [] (guard c) := by
  rw [guard]
  split
  · exact measures_pure ()
  · exact measures_failure

theorem measures_perform {c : Call} (plain : Clocked.Untimed c) :
    Measures [] (@Routine.perform calls _ c) := by
  intro o s a t answered
  refine ⟨trivial, [], ?_, List.prefix_refl _, .inr rfl⟩
  cases answered with
  | untimed _ _ _ _ later le => exact advances_nil (fun _ => rfl) rfl le
  | _ => exact absurd plain id

theorem measures_sha256 (data : Bytes) : Measures [] (sha256 data) := by
  refine (measures_perform (c := .sha256 data) trivial).skip fun (digest : Option Block) => ?_
  cases digest with
  | none => exact measures_failure
  | some digest => exact measures_pure digest

theorem measures_sendMessage (destination : Transport.Endpoint) (type : UInt8) (session : UInt32)
    (data : Bytes) : Measures [] (sendMessage destination type session data) := by
  refine (measures_perform (c := .sendMessage destination type session data) trivial).skip
    fun (framed : Option UInt32) => ?_
  cases framed with
  | none => exact measures_failure
  | some framed => exact measures_pure framed

/-- The metric of one duration grows and the others stay. -/
def AddsTo (add : UInt64 → SessionMetrics → SessionMetrics) (d : Duration) : Prop :=
  ∀ us metrics (d' : Duration),
    d'.us (add us metrics) = if d' = d then d'.us metrics + us else d'.us metrics

/-- An operation that measures nothing itself is one span of its duration. -/
theorem measures_timed {add : UInt64 → SessionMetrics → SessionMetrics} {d : Duration}
    (adds : AddsTo add d) (clocked : d ≠ .fabricWall) {operation : Method α}
    (untimed : Measures [] operation) : Measures [d] (timed add operation) := by
  intro o s
  unfold timed
  refine ensures_micros fun start le => ?_
  refine Routine.ensures_bind.mpr (Routine.ensures_attempt.mpr ?_)
  refine (untimed o _).mono ?_
  rintro result o' t ⟨spans, advances, front, _⟩
  obtain rfl : spans = [] := List.map_eq_nil_iff.mp (List.prefix_nil.mp front)
  refine ensures_micros fun stop le' => ?_
  have ordered := Nat.le_trans advances.later le'
  have spanned : Advances [⟨d, start, stop⟩] o
      { o' with metrics := add (measured start stop) o'.metrics } s
      { t with now := stop, marks := t.marks ++ [.read stop] } :=
    { marks := by
        rw [advances.marks]
        simp only [List.flatMap_cons, List.flatMap_nil, Span.marks, if_neg clocked, List.append_nil,
          List.append_assoc, List.cons_append, List.nil_append]
      durations := by
        intro d'
        have kept : d'.us o'.metrics = d'.us o.metrics :=
          (advances.durations d').trans (UInt64.add_zero _)
        rw [adds, kept, intervals_singleton]
        split
        · exact congrArg (_ + ·) (UInt64.add_zero _).symm
        · exact (UInt64.add_zero _).symm
      ordered := by
        intro span member
        cases List.mem_singleton.mp member
        exact ⟨le, ordered, Nat.le_refl _⟩
      later := Nat.le_trans le ordered }
  rw [Routine.ensures_bind, Routine.ensures_modify]
  cases result with
  | none => exact ⟨_, spanned, List.prefix_refl _, .inl rfl⟩
  | some value => exact ⟨_, spanned, List.prefix_refl _, .inr rfl⟩

theorem us_withUsage (metrics : SessionMetrics) (usage : GatewayUsage) (d : Duration) :
    d.us (metrics.withUsage usage) = if d = .fabricWall then usage.wallUs else d.us metrics := by
  cases d <;> rfl

/-- What a query does with its answer. -/
theorem measures_answered {found : Option FabricCredential} {fabric : FabricUdpClient}
    {w : FabricUdpClient.Watch}
    (ended : QueryEnds (s.client o.metrics.usage) s.watch found fabric w) :
    Routine.Ensures Clocked.Timed (fun _ => True) (fun result o' t =>
      ∃ spans, Advances spans o o' s t ∧ spans.map Span.duration <+: [.fabricWall] ∧
        (result = none ∨ spans.map Span.duration = [.fabricWall])) (do
      modify fun protocol => { protocol with metrics := protocol.metrics.withUsage fabric.usage }
      let some credential := found | failure
      pure credential : Method FabricCredential) o ⟨w.now, fabric, s.marks ++ w.marks⟩ := by
  obtain ⟨later, outcome⟩ := ended
  rw [Routine.ensures_bind, Routine.ensures_modify]
  rcases outcome with ⟨marks, wallUs, rfl⟩ | ⟨start, stop, begun, ordered, ended, marks, wallUs⟩
  · refine ⟨[], advances_nil (fun d => ?_) ?_ later, List.nil_prefix, .inl rfl⟩
    · rw [us_withUsage, wallUs]
      split
      · rename_i same
        rw [same]
        rfl
      · rfl
    · rw [marks, List.append_nil]
  · have spanned : Advances [⟨.fabricWall, start, stop⟩] o
        { o with metrics := o.metrics.withUsage fabric.usage } s
        ⟨w.now, fabric, s.marks ++ w.marks⟩ :=
      { marks := by rw [marks]; rfl
        durations := by
          intro d
          rw [us_withUsage, wallUs, intervals_singleton]
          split
          · rename_i same
            rw [same]
            exact congrArg (_ + ·) (UInt64.add_zero _).symm
          · exact (UInt64.add_zero _).symm
        ordered := by
          intro span member
          cases List.mem_singleton.mp member
          exact ⟨begun, ordered, ended⟩
        later := later }
    cases found with
    | none => exact ⟨_, spanned, List.prefix_refl _, .inl rfl⟩
    | some credential => exact ⟨_, spanned, List.prefix_refl _, .inr rfl⟩

theorem measures_queryByIdentitySlot (identityHash : Block) (slot : UInt16) :
    Measures [.fabricWall] (queryByIdentitySlot identityHash slot) := by
  intro o s
  refine Routine.ensures_bind.mpr (Routine.ensures_get.mpr ?_)
  refine Routine.Ensures.perform fun answer t answered => ⟨trivial, ?_⟩
  cases answered with
  | untimed _ _ _ plain => exact absurd plain id
  | queryByIdentitySlot _ _ _ _ found fabric w run =>
      exact measures_answered ((ensures_query _ _).post_of_run run trivial)

theorem measures_queryByTid (tid : Block) : Measures [.fabricWall] (queryByTid tid) := by
  intro o s
  refine Routine.ensures_bind.mpr (Routine.ensures_get.mpr ?_)
  refine Routine.Ensures.perform fun answer t answered => ⟨trivial, ?_⟩
  cases answered with
  | untimed _ _ _ plain => exact absurd plain id
  | queryByTid _ _ _ found fabric w run =>
      exact measures_answered ((ensures_query _ _).post_of_run run trivial)

theorem measures_timedShaParts (data : Bytes) : Measures [.sha] (timedShaParts data) :=
  measures_timed (d := .sha) (fun _ _ d => by cases d <;> rfl) (by decide) (measures_sha256 data)

theorem measures_timedReconstruct : Measures [.fuzzyReconstruction] timedReconstruct :=
  measures_get.skip fun _ =>
    measures_timed (d := .fuzzyReconstruction) (fun _ _ d => by cases d <;> rfl) (by decide)
      (measures_sha256 _)

theorem measures_timedKeygen (seed : Block) : Measures [.kyberKeygen] (timedKeygen seed) := by
  refine measures_timed (d := .kyberKeygen) (fun _ _ d => by cases d <;> rfl) (by decide) ?_
  exact (measures_perform (c := .keypairDeterministic seed) trivial).skip fun _ =>
    measures_modify fun _ _ => rfl

theorem measures_timedPufMap (input : Block) : Measures [.puf] (timedPufMap input) :=
  measures_get.skip fun _ => measures_timed (d := .puf) (fun _ _ d => by cases d <;> rfl)
    (by decide) (measures_pure _)

theorem measures_timedPufInverse (tid : Block) : Measures [.puf] (timedPufInverse tid) := by
  refine measures_get.skip fun protocol => ?_
  refine measures_timed (d := .puf) (fun _ _ d => by cases d <;> rfl) (by decide) ?_
  refine Measures.skip ?_ fun _ => measures_pure _
  exact (measures_sha256 _).skip fun _ => measures_sha256 _

theorem measures_verifyCredential (credential : FabricCredential) :
    Measures [.sha] (verifyCredential credential) :=
  (measures_timedShaParts _).bind fun _ => measures_guard _

theorem measures_encryptBlock (ei : List.Vector UInt8 eiBytes) (i : Fin eiBlocks) :
    Measures [.kyberEncrypt] (encryptBlock ei i) := by
  refine (measures_perform (c := .randomBytes) trivial).skip fun coins => ?_
  refine measures_get.skip fun protocol => ?_
  refine measures_timed (d := .kyberEncrypt) (fun _ _ d => by cases d <;> rfl) (by decide) ?_
  refine (measures_perform (c := .encrypt _ _ _) trivial).skip fun _ => ?_
  exact measures_modify fun _ _ => rfl

theorem measures_decryptBlock (ei : List.Vector UInt8 eiBytes) (i : Fin eiBlocks) :
    Measures [.kyberDecrypt] (decryptBlock ei i) := by
  refine measures_get.skip fun protocol => ?_
  refine measures_timed (d := .kyberDecrypt) (fun _ _ d => by cases d <;> rfl) (by decide) ?_
  exact (measures_perform (c := .decrypt _ _) trivial).skip fun _ => measures_pure _

theorem measures_sendCounted (destination : Transport.Endpoint) (type : UInt8) (session : UInt32)
    (data : Bytes) : Measures [] (sendCounted destination type session data) :=
  (measures_sendMessage _ _ _ _).skip fun _ => measures_modify fun _ d => by cases d <;> rfl

theorem measures_countReceived (received : Transport.Received) (length : Nat) :
    Measures [] (countReceived received length) :=
  measures_modify fun _ d => by cases d <;> rfl

end Rules

end ApqeProtocol

end Apqe
