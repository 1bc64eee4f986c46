import PostQuantumUav.Apqe.SessionClock

/-!
# The durations of a session

Both sides of a session, with the operations that each measures in order. The time of
the protocol and that of the confirmation start with the session and are set once.

Every duration is the sum of what the readings of its intervals show. When the intervals
are shorter than a turn of the clock, all durations are true exactly when the clock does
not wrap inside an interval.
-/

namespace Apqe.ApqeProtocol

open Interaction WrappingClock

section Plans

/-- The measured operations of `sendM1`. -/
def m1Plan : List Duration :=
  [.fuzzyReconstruction, .kyberKeygen, .fabricWall, .fabricWall, .sha, .sha, .puf] ++
    (List.replicate eiBlocks .kyberEncrypt ++ [.sha])

/-- The operations that the initiator measures, up to its last message. -/
def initiatorPlan : List Duration :=
  m1Plan ++ ([.puf, .sha, .sha, .puf, .puf] ++ [.sha, .sha])

/-- The operations that the responder measures, up to its last check. -/
def responderPlan : List Duration :=
  [.fuzzyReconstruction, .kyberKeygen] ++ (List.replicate eiBlocks .kyberDecrypt ++ [.sha]) ++
    ([.fabricWall, .sha, .puf, .sha, .puf, .puf, .sha] ++ [.puf, .sha, .sha])

variable {α β ι : Type}

/-- A loop measures one operation in every round. -/
theorem measures_forM {d : Duration} {f : ι → Method PUnit} (round : ∀ i, Measures [d] (f i))
    (items : List ι) : Measures (List.replicate items.length d) (items.forM f) := by
  induction items with
  | nil => exact measures_pure _
  | cons i rest ih =>
      change Measures ([d] ++ List.replicate rest.length d) (f i >>= fun _ => rest.forM f)
      exact (round i).bind fun _ => ih

theorem measures_foldlM {d : Duration} {f : α → ι → Method α}
    (round : ∀ a i, Measures [d] (f a i)) (items : List ι) (a : α) :
    Measures (List.replicate items.length d) (items.foldlM f a) := by
  induction items generalizing a with
  | nil => exact measures_pure _
  | cons i rest ih =>
      change Measures ([d] ++ List.replicate rest.length d) (f a i >>= rest.foldlM f)
      exact (round a i).bind ih

theorem measures_verifyCredentials : Measures [.sha, .sha] verifyCredentials := by
  refine measures_get.skip fun protocol => ?_
  refine (measures_guard _).skip fun _ => (measures_guard _).skip fun _ => ?_
  refine Measures.bind (measures_verifyCredential _) fun _ => ?_
  exact (measures_verifyCredential _).bind fun _ => measures_guard _

/-- A part that leaves the metrics alone. -/
theorem Measures.set {plan : List Duration} {f : ApqeProtocol → ApqeProtocol} {g : PUnit → Method α}
    (unchanged : ∀ o, (f o).metrics = o.metrics) (next : ∀ u, Measures plan (g u)) :
    Measures plan (modify f >>= g) :=
  (measures_modify fun o d => congrArg d.us (unchanged o)).skip next

theorem measures_receiveMessage (type : UInt8) (session : UInt32) (capacity : Nat)
    (timeoutMs : UInt32) :
    Measures [] (@Routine.perform calls _ (.receiveMessage type session capacity timeoutMs)) :=
  measures_perform (c := .receiveMessage type session capacity timeoutMs) trivial

theorem measures_randomBytes : Measures [] randomBytes :=
  measures_perform (c := .randomBytes) trivial

theorem measures_sendM1 (session : UInt32) (slot : UInt16) :
    Measures m1Plan (sendM1 session slot) := by
  refine measures_timedReconstruct.bind fun seed => ?_
  refine (measures_timedKeygen seed).bind fun _ => measures_get.skip fun protocol => ?_
  refine (measures_queryByIdentitySlot _ _).bind fun own => .set (fun _ => rfl) fun _ => ?_
  refine (measures_queryByIdentitySlot _ _).bind fun peer => .set (fun _ => rfl) fun _ => ?_
  refine measures_verifyCredentials.bind fun _ => ?_
  refine (measures_timedPufInverse _).bind fun ci => measures_randomBytes.skip fun ni => ?_
  refine (measures_forM (measures_encryptBlock _) (List.finRange eiBlocks)).bind fun _ => ?_
  refine (measures_timedShaParts _).bind fun h1 => .set (fun _ => rfl) fun _ => ?_
  exact measures_get.skip fun _ => (measures_sendCounted _ _ _ _).skip fun _ => measures_pure _

theorem measures_receiveM2 (session : UInt32) (ni : Block) :
    Measures [.puf, .sha, .sha, .puf, .puf] (receiveM2 session ni) := by
  refine (measures_receiveMessage _ _ _ _).skip fun (received, bytes) => ?_
  refine .set (fun _ => rfl) fun _ => ?_
  cases received with
  | none => exact measures_failure
  | some received =>
  refine (measures_guard _).skip fun _ => (measures_countReceived _ _).skip fun _ => ?_
  refine measures_get.skip fun protocol => (measures_timedPufMap _).bind fun tkJi => ?_
  refine (measures_timedShaParts _).bind fun expectedH2 => (measures_guard _).skip fun _ => ?_
  refine (measures_timedShaParts _).bind fun cjHash => (measures_timedPufMap _).bind fun tkI => ?_
  exact (measures_timedPufMap _).bind fun tkIj => measures_pure _

theorem measures_sendM3 (session : UInt32) (ni : Block) (keys : InitiatorKeys) :
    Measures [.sha, .sha] (sendM3 session ni keys) := by
  refine .set (fun _ => rfl) fun _ => ?_
  refine (measures_timedShaParts _).bind fun sessionKey => ?_
  refine (measures_timedShaParts _).bind fun h3 => ?_
  refine .set (fun _ => rfl) fun _ => measures_get.skip fun protocol => ?_
  exact (measures_sendCounted _ _ _ _).skip fun _ => measures_pure _

theorem measures_openM1 : Measures ([.fuzzyReconstruction, .kyberKeygen] ++
    (List.replicate eiBlocks .kyberDecrypt ++ [.sha])) openM1 := by
  refine measures_timedReconstruct.bind fun seed => (measures_timedKeygen seed).bind fun _ => ?_
  refine (measures_foldlM measures_decryptBlock (List.finRange eiBlocks) _).bind fun ei => ?_
  refine (measures_timedShaParts _).bind fun expectedH1 => measures_get.skip fun protocol => ?_
  exact (measures_guard _).skip fun _ => measures_pure _

theorem measures_sendM2 (session : UInt32) (source : Transport.Endpoint) (opened : Opened) :
    Measures [.fabricWall, .sha, .puf, .sha, .puf, .puf, .sha] (sendM2 session source opened) := by
  refine (measures_queryByTid _).bind fun peer => .set (fun _ => rfl) fun _ => ?_
  refine measures_get.skip fun protocol => (measures_guard _).skip fun _ => ?_
  refine (measures_verifyCredential _).bind fun _ => (measures_timedPufInverse _).bind fun cj => ?_
  refine (measures_timedShaParts _).bind fun ciHash => (measures_timedPufMap _).bind fun tkJi => ?_
  refine (measures_timedPufMap _).bind fun tkJ => .set (fun _ => rfl) fun _ => ?_
  refine measures_randomBytes.skip fun nj => .set (fun _ => rfl) fun _ => ?_
  refine (measures_timedShaParts _).bind fun h2 => .set (fun _ => rfl) fun _ => ?_
  exact measures_get.skip fun _ => (measures_sendCounted _ _ _ _).skip fun _ => measures_pure _

theorem measures_receiveM3 (session : UInt32) (keys : ResponderKeys) :
    Measures [.puf, .sha, .sha] (receiveM3 session keys) := by
  refine (measures_receiveMessage _ _ _ _).skip fun (received, bytes) => ?_
  refine .set (fun _ => rfl) fun _ => ?_
  cases received with
  | none => exact measures_failure
  | some received =>
  refine (measures_guard _).skip fun _ => (measures_countReceived _ _).skip fun _ => ?_
  refine measures_get.skip fun protocol => (measures_timedPufMap _).bind fun tkIj => ?_
  refine (measures_timedShaParts _).bind fun sessionKey => ?_
  refine (measures_timedShaParts _).bind fun expectedH3 => (measures_guard _).skip fun _ => ?_
  exact measures_pure _

end Plans

/-- What a session has measured so far: the spans of its operations, and those of the whole
session, which begin with it and end after the last operation. -/
structure Recorded (plan outer : List Duration) (s : Clocked) (start : Nat) (spans ends : List Span)
    (o : ApqeProtocol) (t : Clocked) : Prop where
  marks : t.marks = s.marks ++ .read start :: (spans.flatMap Span.marks ++
    ends.map fun span => .read span.stop)
  planned : spans.map Span.duration <+: plan
  closed : ends.map Span.duration <+: outer
  complete : ends = [] ∨ spans.map Span.duration = plan
  together : ∀ span ∈ ends, span.start = start
  ordered : ∀ span ∈ spans ++ ends, start ≤ span.start ∧ span.start ≤ span.stop ∧ span.stop ≤ t.now
  later : s.now ≤ start ∧ start ≤ t.now
  durations : ∀ d : Duration, d.us o.metrics = measuredSum (intervals (spans ++ ends) d)

/-- Every end of a session: one that goes through has measured everything. -/
def SessionEnds {α : Type} (plan outer : List Duration) (s : Clocked) (result : Option α)
    (o : ApqeProtocol) (t : Clocked) : Prop :=
  ∃ start spans ends, Recorded plan outer s start spans ends o t ∧
    (result = none ∨ spans.map Span.duration = plan ∧ ends.map Span.duration = outer)

section Recording

variable {α β : Type} {plan outer : List Duration} {s t u : Clocked} {o o' : ApqeProtocol}
  {start : Nat} {spans ends : List Span}

/-- A part that measures nothing keeps the record. -/
theorem Recorded.advance (recorded : Recorded plan outer s start spans ends o t)
    (advances : Advances [] o o' t u) : Recorded plan outer s start spans ends o' u where
  marks := (advances.marks.trans (List.append_nil _)).trans recorded.marks
  planned := recorded.planned
  closed := recorded.closed
  complete := recorded.complete
  together := recorded.together
  ordered span member := by
    obtain ⟨first, le, last⟩ := recorded.ordered span member
    exact ⟨first, le, Nat.le_trans last advances.later⟩
  later := ⟨recorded.later.1, Nat.le_trans recorded.later.2 advances.later⟩
  durations d := ((advances.durations d).trans (UInt64.add_zero _)).trans (recorded.durations d)

theorem Recorded.ensures {r : Method α} {f : α → Method β}
    (recorded : Recorded plan outer s start spans ends o t) (measures : Measures [] r)
    (next : ∀ a o' u, Recorded plan outer s start spans ends o' u →
      Routine.Ensures Clocked.Timed (fun _ => True) (SessionEnds plan outer s) (f a) o' u) :
    Routine.Ensures Clocked.Timed (fun _ => True) (SessionEnds plan outer s) (r >>= f) o t := by
  refine (measures o t).bind ?_ ?_
  · rintro o' u ⟨more, advances, front, _⟩
    obtain rfl : more = [] := List.map_eq_nil_iff.mp (List.prefix_nil.mp front)
    exact ⟨start, spans, ends, recorded.advance advances, .inl rfl⟩
  · rintro a o' u ⟨more, advances, front, _⟩
    obtain rfl : more = [] := List.map_eq_nil_iff.mp (List.prefix_nil.mp front)
    exact next a o' u (recorded.advance advances)

theorem intervals_eq_nil {d : Duration} (absent : d ∉ spans.map Span.duration) :
    intervals spans d = [] := by
  rw [intervals, List.map_eq_nil_iff, List.filter_eq_nil_iff]
  intro span member equal
  exact absent (List.mem_map.mpr ⟨span, member, of_decide_eq_true equal⟩)

/-- The metric of one duration is replaced and the others stay. -/
def Sets (set : UInt64 → SessionMetrics → SessionMetrics) (d : Duration) : Prop :=
  ∀ us metrics (d' : Duration), d'.us (set us metrics) = if d' = d then us else d'.us metrics

theorem sets_protocolUs : Sets (fun us metrics => { metrics with protocolUs := us }) .protocol :=
  fun _ _ d => by cases d <;> rfl

theorem sets_confirmedUs : Sets (fun us metrics => { metrics with confirmedUs := us }) .confirmed :=
  fun _ _ d => by cases d <;> rfl

/-- The second reading of a duration of the whole session: the metric is set to the
difference. -/
theorem Recorded.close {d : Duration} {set : UInt64 → SessionMetrics → SessionMetrics}
    (recorded : Recorded plan outer s start spans ends o t)
    (sets : Sets set d)
    (fresh : d ∉ (spans ++ ends).map Span.duration) (through : spans.map Span.duration = plan)
    (next : ends.map Span.duration ++ [d] <+: outer) {stop : Nat} (le : t.now ≤ stop) :
    Recorded plan outer s start spans (ends ++ [⟨d, start, stop⟩])
      { o with metrics := set (measured start stop) o.metrics }
      { t with now := stop, marks := t.marks ++ [.read stop] } where
  marks := by
    change t.marks ++ _ = _
    rw [recorded.marks, List.map_append, List.append_assoc, List.cons_append, List.append_assoc]
    rfl
  planned := recorded.planned
  closed := by
    rw [List.map_append]
    exact next
  complete := .inr through
  together := by
    intro span member
    rcases List.mem_append.mp member with member | member
    · exact recorded.together span member
    · cases List.mem_singleton.mp member
      rfl
  ordered := by
    intro span member
    rw [← List.append_assoc] at member
    rcases List.mem_append.mp member with member | member
    · obtain ⟨first, le', last⟩ := recorded.ordered span member
      exact ⟨first, le', Nat.le_trans last le⟩
    · cases List.mem_singleton.mp member
      exact ⟨Nat.le_refl _, Nat.le_trans recorded.later.2 le, Nat.le_refl _⟩
  later := ⟨recorded.later.1, Nat.le_trans recorded.later.2 le⟩
  durations := by
    intro d'
    rw [sets, ← List.append_assoc, intervals_append, measuredSum_append, intervals_singleton]
    by_cases same : d' = d
    · subst same
      rw [if_pos rfl, if_pos rfl, intervals_eq_nil fresh]
      exact ((UInt64.zero_add _).trans (UInt64.add_zero _)).symm
    · rw [if_neg same, if_neg same, recorded.durations]
      exact (UInt64.add_zero _).symm

/-- A session starts with empty metrics and a reading of the clock. -/
theorem ensures_session {init : ApqeProtocol → ApqeProtocol} {body : Method α}
    {tail : UInt32 → α → Method β} (zero : ∀ o (d : Duration), d.us (init o).metrics = 0)
    (measures : Measures plan body)
    (rest : ∀ start spans a o t, Recorded plan outer s start spans [] o t →
      spans.map Span.duration = plan →
      Routine.Ensures Clocked.Timed (fun _ => True) (SessionEnds plan outer s)
        (tail (reading start) a) o t) :
    Routine.Ensures Clocked.Timed (fun _ => True) (SessionEnds plan outer s) (do
      modify init
      let protocolStart ← micros
      let a ← body
      tail protocolStart a) o s := by
  refine Routine.ensures_bind.mpr (Routine.ensures_modify.mpr ?_)
  refine ensures_micros fun start le => ?_
  have record {o' : ApqeProtocol} {t : Clocked} {spans : List Span}
      (advances : Advances spans (init o) o' ⟨start, s.fabric, s.marks ++ [.read start]⟩ t)
      (front : spans.map Span.duration <+: plan) : Recorded plan outer s start spans [] o' t :=
    { marks := by rw [advances.marks, List.map_nil, List.append_nil, List.append_assoc]; rfl
      planned := front
      closed := List.nil_prefix
      complete := .inl rfl
      together := nofun
      ordered := by rw [List.append_nil]; exact advances.ordered
      later := ⟨le, advances.later⟩
      durations := by
        intro d
        rw [advances.durations, zero, UInt64.zero_add, List.append_nil] }
  refine (measures _ _).bind ?_ ?_
  · rintro o' t ⟨spans, advances, front, _⟩
    exact ⟨start, spans, [], record advances front, .inl rfl⟩
  · rintro a o' t ⟨spans, advances, front, done⟩
    exact rest start spans a o' t (record advances front) (done.resolve_left nofun)

theorem Recorded.ensures_pure {a : α} (recorded : Recorded plan outer s start spans ends o t)
    (through : spans.map Span.duration = plan) (closed : ends.map Span.duration = outer) :
    Routine.Ensures Clocked.Timed (fun _ => True) (SessionEnds plan outer s) (pure a) o t :=
  ⟨start, spans, ends, recorded, .inr ⟨through, closed⟩⟩

theorem Recorded.ensures_failure (recorded : Recorded plan outer s start spans ends o t) :
    Routine.Ensures Clocked.Timed (fun _ => True) (SessionEnds plan outer s)
      (failure : Method α) o t :=
  ⟨start, spans, ends, recorded, .inl rfl⟩

end Recording

section Sessions

variable {s t : Clocked} {o : ApqeProtocol} {start stop : Nat} {spans : List Span}

/-- The initiator's last measurement ends when the responder's answer has arrived. -/
theorem ensures_receiveResult (session : UInt32) (sessionKey : Block)
    (recorded : Recorded initiatorPlan [.protocol, .confirmed] s start spans
      [⟨.protocol, start, stop⟩] o t) (through : spans.map Span.duration = initiatorPlan) :
    Routine.Ensures Clocked.Timed (fun _ => True)
      (SessionEnds initiatorPlan [.protocol, .confirmed] s)
      (receiveResult session (reading start) sessionKey) o t := by
  refine recorded.ensures (measures_receiveMessage _ _ _ _) fun (received, bytes) o t recorded => ?_
  refine recorded.ensures (measures_modify fun _ _ => rfl) fun _ o t recorded => ?_
  cases received with
  | none => exact recorded.ensures_failure
  | some received =>
  refine recorded.ensures (measures_guard _) fun _ o t recorded => ?_
  have fresh : Duration.confirmed ∉
      (spans ++ [(⟨.protocol, start, stop⟩ : Span)]).map Span.duration := by
    rw [List.map_append, through]
    change Duration.confirmed ∉ initiatorPlan ++ [.protocol]
    decide
  refine ensures_micros fun confirmed le => ?_
  refine Routine.ensures_bind.mpr (Routine.ensures_modify.mpr ?_)
  have recorded := recorded.close sets_confirmedUs fresh through (List.prefix_refl _) le
  refine recorded.ensures measures_get fun protocol o t recorded => ?_
  cases decodeResult protocol.result session with
  | none => exact recorded.ensures_failure
  | some decoded =>
  refine recorded.ensures (measures_sha256 _) fun aKeyHash o t recorded => ?_
  rw [guard]
  split
  · exact recorded.ensures_pure through rfl
  · exact recorded.ensures_failure

theorem ensures_runInitiatorSession (session : UInt32) (slot : UInt16) (o : ApqeProtocol)
    (s : Clocked) : Routine.Ensures Clocked.Timed (fun _ => True)
      (SessionEnds initiatorPlan [.protocol, .confirmed] s) (runInitiatorSession session slot)
      o s := by
  have whole : runInitiatorSession session slot = (do
      modify fun protocol => { protocol with metrics := {} }
      let protocolStart ← micros
      let (sessionKey) ← sendM1 session slot >>= fun ni =>
        receiveM2 session ni >>= sendM3 session ni
      let now ← micros
      modify fun protocol => { protocol with metrics := { protocol.metrics with
        protocolUs := now.toUInt64 - protocolStart.toUInt64 } }
      receiveResult session protocolStart sessionKey
      pure sessionKey) := by
    simp only [bind_assoc]
    rfl
  rw [whole]
  refine ensures_session (fun _ d => by cases d <;> rfl) ((measures_sendM1 _ _).bind fun ni =>
    (measures_receiveM2 _ _).bind (measures_sendM3 _ _)) ?_
  intro start spans sessionKey o t recorded through
  have fresh : Duration.protocol ∉ (spans ++ []).map Span.duration := by
    rw [List.append_nil, through]
    decide
  refine ensures_micros fun stop le => ?_
  refine Routine.ensures_bind.mpr (Routine.ensures_modify.mpr ?_)
  have recorded := recorded.close sets_protocolUs fresh through ⟨_, rfl⟩ le
  refine (ensures_receiveResult session sessionKey recorded through).bind ?_ ?_
  · rintro o t ⟨start, spans, ends, recorded, _⟩
    exact ⟨start, spans, ends, recorded, .inl rfl⟩
  · rintro _ o t ⟨start, spans, ends, recorded, done⟩
    obtain ⟨through, closed⟩ := done.resolve_left nofun
    exact recorded.ensures_pure through closed

theorem ensures_runResponderSession (session : UInt32) (incoming : Transport.Received)
    (o : ApqeProtocol) (s : Clocked) : Routine.Ensures Clocked.Timed (fun _ => True)
      (SessionEnds responderPlan [.protocol] s) (runResponderSession session incoming) o s := by
  have whole : runResponderSession session incoming = (do
      modify fun protocol => { protocol with metrics := {
        directAppRx := .ofNat m1Bytes
        directFramedRx := .ofNat incoming.framedBytes } }
      let protocolStart ← micros
      let (sessionKey) ← openM1 >>= fun opened =>
        sendM2 session incoming.source opened >>= receiveM3 session
      sendResult session incoming.source protocolStart sessionKey
      pure sessionKey) := by
    simp only [bind_assoc]
    rfl
  rw [whole]
  refine ensures_session (fun _ d => by cases d <;> rfl) (measures_openM1.bind fun opened =>
    (measures_sendM2 _ _ _).bind (measures_receiveM3 _)) ?_
  intro start spans sessionKey o t recorded through
  simp only [sendResult, bind_assoc]
  have fresh : Duration.protocol ∉ (spans ++ []).map Span.duration := by
    rw [List.append_nil, through]
    decide
  refine ensures_micros fun stop le => ?_
  refine Routine.ensures_bind.mpr (Routine.ensures_modify.mpr ?_)
  have recorded := recorded.close sets_protocolUs fresh through (List.prefix_refl _) le
  refine recorded.ensures (measures_sha256 _) fun keyHash o t recorded => ?_
  refine recorded.ensures (measures_modify fun _ _ => rfl) fun _ o t recorded => ?_
  refine recorded.ensures measures_get fun protocol o t recorded => ?_
  refine recorded.ensures (measures_sendMessage _ _ _ _) fun _ o t recorded => ?_
  exact recorded.ensures_pure through rfl

end Sessions

end Apqe.ApqeProtocol
