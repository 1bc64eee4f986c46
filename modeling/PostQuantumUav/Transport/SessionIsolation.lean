import PostQuantumUav.Apqe.ApqeProtocol
import PostQuantumUav.Apqe.FragmentedUdp
import PostQuantumUav.Puav.MessageDelivery
import PostQuantumUav.Puav.SessionStages
import PostQuantumUav.Puav.Boot

/-!
# The session of a responder's messages

A responder takes the session number of the message that opens its session, and waits for
messages of that session from then on. The receiving loop compares the number of every
datagram with the one that it waits for, unless the latter is zero.

The opening message is received under that exception, and its number is whatever its
sender wrote. A session that is opened with the number zero therefore takes the datagrams of
every session, and only such a session does.
-/

namespace Transport

open Interaction Cell Buffer

/-- A message that a call delivered: the session number it reports, and the numbers of the
datagrams that were copied. -/
structure Delivered where
  type : UInt8
  session : UInt32
  carried : List UInt32

/-- The message and all its datagrams are of the session. -/
def Delivered.Carries (message : Delivered) (session : UInt32) : Prop :=
  message.session = session ∧ ∀ number ∈ message.carried, number = session

/-- Every message behind the opening one is of its session. -/
def Isolated (log : List Delivered) : Prop :=
  ∀ opening later, log = opening :: later → opening.session ≠ 0 →
    ∀ message ∈ later, message.Carries opening.session

/-- What a call that has ended with `outcome` returns, with the messages delivered so far. -/
def Outcome.Answers {format : Format} (outcome : Outcome format) (log : List Delivered)
    (answer : Option Received × Bytes) (log' : List Delivered) : Prop :=
  match outcome with
  | .waiting _ => False
  | .timedOut _ => answer.1 = none ∧ log' = log
  | .delivered received s _ =>
      answer = (some received, (List.range received.length).map s.output) ∧
        log' = log ++ [⟨received.type, received.session, s.copied.map Datagram.session⟩]

section Calls

variable {format : Format} {read : Packet → Option (Datagram format)}
  {body : Reassembly format → Packet → Reassembly format × Option Received}
  {type : UInt8} {expectedSession startMs timeoutMs : UInt32} {capacity : Nat}
  {output : Nat → UInt8} {polls : List Poll} {log log' : List Delivered}
  {answer : Option Received × Bytes}

/-- A delivered message is of one session, and of the one that the call waits for. -/
theorem Receives.carries
    (receives : Receives body (candidate read type expectedSession capacity) capacity)
    (ended : (receiveLoop body startMs timeoutMs (.initial format output) polls).Answers log answer
      log') : (answer.1 = none ∧ log' = log) ∨ ∃ received message, answer.1 = some received ∧
        log' = log ++ [message] ∧ message.Carries received.session ∧
        (expectedSession = 0 ∨ received.session = expectedSession) := by
  cases outcome : receiveLoop body startMs timeoutMs (.initial format output) polls with
  | waiting s =>
      rw [outcome] at ended
      exact absurd ended id
  | timedOut rest =>
      rw [outcome] at ended
      exact .inl ended
  | delivered received s rest =>
      rw [outcome] at ended
      obtain ⟨rfl, rfl⟩ := ended
      obtain ⟨opener, h⟩ := delivery_of_delivered receives outcome
      have session : received.session = opener.session := by
        rw [h.report]
        rfl
      refine .inr ⟨received, _, rfl, rfl, ⟨rfl, fun number mem => ?_⟩, ?_⟩
      · obtain ⟨d, copied, rfl⟩ := List.mem_map.mp mem
        obtain ⟨_, fits, _⟩ := firstFragment_some (h.mem_copied.mp copied).2
        rw [session]
        exact congrArg Opening.session fits.1
      · obtain ⟨poll, _, arrived⟩ := List.mem_filterMap.mp (List.mem_of_mem_head? h.head)
        obtain ⟨packet, _, found⟩ := Option.bind_eq_some_iff.mp arrived
        rw [session]
        exact (candidate_eq_some_iff.mp found).2.2.1

theorem Isolated.append {opening : Delivered} {later : List Delivered} {message : Delivered}
    (isolated : Isolated (opening :: later)) (same : opening.session ≠ 0 →
      message.Carries opening.session) : Isolated (opening :: later ++ [message]) := by
  intro first rest whole nonzero m mem
  cases whole
  rcases List.mem_append.mp mem with old | new
  · exact isolated opening later rfl nonzero m old
  · cases List.mem_singleton.mp new
    exact same nonzero

end Calls

/-- A session that was opened with a number. -/
def OpenedBy (session : UInt32) (log : List Delivered) : Prop :=
  ∃ opening later, log = opening :: later ∧ opening.session = session ∧ Isolated log

theorem isolated_of_opened {session : UInt32} {log : List Delivered}
    (opened : OpenedBy session log) : Isolated log := by
  obtain ⟨_, _, _, _, isolated⟩ := opened
  exact isolated

theorem isolated_nil : Isolated [] := nofun

theorem opened_singleton (message : Delivered) : OpenedBy message.session [message] := by
  refine ⟨message, [], rfl, rfl, ?_⟩
  intro opening later whole _ m mem
  cases whole
  nomatch mem

theorem OpenedBy.append {session : UInt32} {log : List Delivered} {message : Delivered}
    (opened : OpenedBy session log) (same : session ≠ 0 → message.Carries session) :
    OpenedBy session (log ++ [message]) := by
  obtain ⟨opening, later, rfl, rfl, isolated⟩ := opened
  exact ⟨opening, later ++ [message], rfl, rfl, isolated.append same⟩

end Transport

namespace Puav.ProposedUavProtocol

open Interaction Cell Buffer Transport

variable {κ : Type}

/-- Receiving calls go through any rounds of the transport, and the other calls may be answered
in any way. -/
def Datagrams : World (calls UInt8 κ) (List Delivered) :=
  fun log event log' =>
    match event with
    | ⟨.receiveMessage type session outputCapacity timeoutMs, answer⟩ => ∃ output startMs polls,
        (FragmentedUdp.receiveMessage type session output outputCapacity startMs timeoutMs
          polls).Answers log answer log'
    | _ => log' = log

/-- Receiving calls wait for one session only. -/
def oneSession (session : UInt32) : Discipline (calls UInt8 κ) (ProposedUavProtocol UInt8 κ) where
  allowed
    | .receiveMessage _ expectedSession _ _ => expectedSession = session
    | _ => True
  answered _ _ := True
  kept _ := True

theorem oneSession_frame (session : UInt32) :
    Frame (oneSession session : Discipline (calls UInt8 κ) _) (fun _ => True) where
  bytes _ := trivial
  isLocal c isLocal _ := by
    cases c with
    | receiveMessage _ _ _ _ => exact absurd isLocal id
    | _ => exact trivial
  answers c a _ := answers_true c a
  buffers _ _ := within_true _
  same _ _ _ _ _ _ _ := trivial

/-- A session that is waited for by its number stays isolated. -/
theorem oneSession_keeps (session : UInt32) :
    Routine.Keeps (oneSession session : Discipline (calls UInt8 κ) _) Datagrams
      (OpenedBy session) := by
  intro log c a log' allowed opened step
  refine ⟨trivial, ?_⟩
  cases c with
  | receiveMessage type expectedSession capacity timeoutMs =>
      obtain rfl : expectedSession = session := allowed
      obtain ⟨output, startMs, polls, ended⟩ := step
      rcases (FragmentedUdp.receives type expectedSession capacity).carries ended with
        ⟨_, rfl⟩ | ⟨received, message, _, rfl, carries, waited⟩
      · exact opened
      · refine opened.append fun nonzero => ?_
        exact waited.resolve_left nonzero ▸ carries
  | _ =>
      cases step
      exact opened

theorem stages_oneSession (session : UInt32) :
    Stages Datagrams (oneSession session : Discipline (calls UInt8 κ) _) (fun _ => True)
      (fun _ => True) (OpenedBy session) (OpenedBy session) (fun _ => OpenedBy session)
      (OpenedBy session) := by
  refine stages_of_keeps (oneSession_frame session) (fun c indexed => ?_) (oneSession_keeps session)
  cases c with
  | receiveMessage _ _ _ _ => exact absurd indexed id
  | _ => exact trivial

/-- The opening message decides which session the responder waits for. -/
theorem ensures_receiveM0 (object : ProposedUavProtocol UInt8 κ) :
    Routine.Ensures Datagrams Isolated (fun result _ log => Isolated log ∧
      ∀ packet, result = some packet → OpenedBy packet.session log)
      (receiveProtocolMessage msgM0Req 0 m0Bytes m0Bytes storeM0 true) object [] := by
  refine Routine.Ensures.perform fun answer log step => ?_
  obtain ⟨received, cells⟩ := answer
  obtain ⟨output, startMs, polls, ended⟩ := step
  rw [Routine.ensures_bind, Routine.ensures_modify]
  rcases (FragmentedUdp.receives msgM0Req 0 m0Bytes).carries ended with
    ⟨rfl, rfl⟩ | ⟨packet, message, rfl, rfl, carries, _⟩
  · exact ⟨isolated_nil, isolated_nil, nofun⟩
  · have opened : OpenedBy packet.session [message] := carries.1 ▸ opened_singleton message
    have isolated := isolated_of_opened opened
    refine ⟨isolated, ?_⟩
    rw [Routine.ensures_bind, Routine.ensures_orFail, Routine.ensures_pure]
    change Routine.Ensures _ _ _ (_ >>= _) _ _
    rw [Routine.ensures_bind, Routine.ensures_guard]
    refine ⟨fun _ => ?_, fun _ => ?_⟩
    · refine ⟨isolated, fun packet' returned => ?_⟩
      cases Option.some.inj returned
      exact opened
    · exact ⟨isolated, nofun⟩

/-- At every point of a responder's run, the messages are isolated. -/
theorem ensures_runResponderOnce (object : ProposedUavProtocol UInt8 κ) :
    Routine.Ensures Datagrams Isolated (fun _ _ => Isolated) runResponderOnce object [] := by
  rw [runResponderOnce, Routine.ensures_bind, Routine.ensures_modify]
  refine (ensures_receiveM0 _).bind (fun _ _ after => after.1) fun packet object' log after => ?_
  have stages := @stages_oneSession κ packet.session
  have moves := stages.moves_cleaned (@Stages.moves_responderSession _ _ _ _ _ _ _ _ _ _ _ _
    stages _ packet fun _ _ => rfl)
  refine Program.Ensures.mono (moves object' log trivial (after.2 packet rfl))
    (fun _ => isolated_of_opened) ?_
  intro outcome log' moved
  obtain ⟨result, object''⟩ := outcome
  cases result with
  | none => exact isolated_of_opened (moved.2.1 rfl)
  | some view => exact isolated_of_opened (moved.2.2 view rfl).2

section Example

/-- A message that is sent to a waiting call may arrive. -/
theorem datagrams_delivered {type : UInt8} {session expectedSession timeoutMs : UInt32}
    {capacity size : Nat} {data : Bytes} (length : data.length = size) (nonempty : 1 ≤ size)
    (short : size ≤ maxProtocolMessageBytes) (room : size ≤ capacity) (typed : type ≠ 0xff)
    (expected : expectedSession = session ∨ expectedSession = 0) (time : 0 < timeoutMs)
    (source : Endpoint) (log : List Delivered) :
    ∃ framedBytes carried, Datagrams log
      ⟨(.receiveMessage type expectedSession capacity timeoutMs : Call UInt8 κ),
        (some ⟨type, session, size, source, framedBytes⟩, data)⟩
      (log ++ [⟨type, session, carried⟩]) := by
  subst length
  have awaits : Awaits FragmentedUdp.readOneDatagram type session expectedSession capacity data :=
    ⟨FragmentedUdp.adequate, fun _ _ => FragmentedUdp.readOneDatagram_eq, nonempty, short, room,
      typed, expected⟩
  obtain ⟨polls, s, delivered, bytes⟩ := awaits.delivered_in_order
    (FragmentedUdp.receives type expectedSession capacity) time source fun _ => 0
  refine ⟨data.length + Transport.fragmentHeaderBytes * fragmentsOf data,
    s.copied.map Datagram.session, fun _ => 0, 0, polls, ?_⟩
  rw [FragmentedUdp.receiveMessage, delivered]
  exact ⟨Prod.ext rfl bytes.symm, rfl⟩

/-- A responder of the pair, as it starts a session. -/
def pairedResponder : ProposedUavProtocol UInt8 κ :=
  { constructed (pairedNode .responder .signerCarried) with
    peerRecord := pairedRecord, ready := true }

/-- The responder answers an M0 with the number zero, and waits with that number for M2. -/
theorem exec_zeroSession : ∃ (rest : Program (calls UInt8 κ) (Option (View UInt8) × _))
    (carried carried' : List UInt32), Program.Exec Datagrams (runResponderOnce.on pairedResponder)
      [] rest [⟨msgM0Req, 0, carried⟩, ⟨msgM2Init, 7, carried'⟩] := by
  let m0 := m0Message (pairedNode .initiator .signerCarried) (.replicate _ 0 : Nonce UInt8)
  let packet (framedBytes : Nat) : Received := ⟨msgM0Req, 0, m0Bytes, ⟨1, 5000⟩, framedBytes⟩
  obtain ⟨framed, carried, first⟩ := @datagrams_delivered κ msgM0Req 0 0 receiveTimeoutMs m0Bytes
    m0Bytes _ m0.toList_length (by decide) (by decide) (by decide) (by decide) (.inl rfl)
    (by decide) ⟨1, 5000⟩ []
  obtain ⟨framed', carried', second⟩ := @datagrams_delivered κ msgM2Init 7 0 receiveTimeoutMs
    m2MaxBytes _ _ (List.length_replicate (n := m2BytesForMode .signerCarried) (a := (0 : UInt8)))
    (by decide) (by decide) (by decide) (by decide) (.inr rfl) (by decide) ⟨1, 5000⟩
    ([] ++ [⟨msgM0Req, 0, carried⟩])
  have opened : ∃ object : ProposedUavProtocol UInt8 κ,
      (object.config = pairedNode .responder .signerCarried ∧
        object.m0 = overwrite (.replicate _ 0) m0.toList) ∧
      Routine.Run Datagrams (receiveProtocolMessage msgM0Req 0 m0Bytes m0Bytes storeM0 true)
        { cleared pairedResponder with result := .replicate _ 0 } [] (some (packet framed)) object
        ([] ++ [⟨msgM0Req, 0, carried⟩]) :=
    ⟨_, ⟨rfl, rfl⟩, .step first (.stop _ _)⟩
  obtain ⟨object, ⟨config, stored⟩, opened⟩ := opened
  have valid : ValidM0 object.config object.m0 (block object.m0 66 nonceBytes) := by
    rw [config, stored]
    decide
  have session : ∃ rest, Program.Exec Datagrams ((responderSession (packet framed)).on object)
      ([] ++ [⟨msgM0Req, 0, carried⟩]) rest
      ([] ++ [⟨msgM0Req, 0, carried⟩] ++ [⟨msgM2Init, 7, carried'⟩]) := by
    refine ⟨?_, ?_⟩
    rotate_left
    refine .step (a := (0 : UInt64)) rfl ?_
    change Program.Exec _ ((sendM1 0 ⟨1, 5000⟩ >>= _ : Method UInt8 κ (View UInt8)).on object) _ _ _
    rw [sendM1, bind_assoc]
    refine Routine.Run.bind_exec Routine.run_get ?_
    rw [bind_assoc]
    refine Routine.Run.bind_exec (Routine.run_guard valid) ?_
    refine .step (a := (.replicate _ 0 : Nonce UInt8)) rfl ?_
    refine .step (a := (0 : UInt64)) rfl ?_
    refine .step (a := some (.replicate _ 0 : Hash UInt8)) rfl ?_
    refine .step (a := (0 : UInt64)) rfl ?_
    refine .step (a := some (0 : UInt32)) rfl ?_
    refine .step second ?_
    exact .stop _ _
  obtain ⟨_, session⟩ := session
  obtain ⟨_, attempted⟩ := Routine.exec_attempt session
  obtain ⟨rest, cleaned⟩ := Routine.exec_bind attempted fun outcome => do
    cleanup
    Routine.orFail (pure outcome)
  refine ⟨rest, carried, carried', ?_⟩
  exact Routine.Run.bind_exec (Routine.run_modify _) (Routine.Run.bind_exec opened cleaned)

end Example

end Puav.ProposedUavProtocol

namespace Apqe

namespace ApqeProtocol

open Interaction Cell Buffer Transport SoftwarePuf

/-- Receiving calls go through any rounds of the transport, and the other calls may be answered
in any way. -/
def Datagrams : World calls (List Delivered) :=
  fun log event log' =>
    match event with
    | ⟨.receiveMessage type session outputCapacity timeoutMs, answer⟩ => ∃ output startMs polls,
        (FragmentedUdp.receiveMessage type session output outputCapacity startMs timeoutMs
          polls).Answers log answer log'
    | _ => log' = log

def Call.Receives : Call → Prop
  | .receiveMessage _ _ _ _ => True
  | _ => False

/-- Receiving calls wait for one session only. -/
def oneSession (session : UInt32) : Discipline calls ApqeProtocol where
  allowed
    | .receiveMessage _ expectedSession _ _ => expectedSession = session
    | _ => True
  answered _ _ := True
  kept _ := True

theorem oneSession_keeps (session : UInt32) :
    Routine.Keeps (oneSession session) Datagrams (OpenedBy session) := by
  intro log c a log' allowed opened step
  refine ⟨trivial, ?_⟩
  cases c with
  | receiveMessage type expectedSession capacity timeoutMs =>
      obtain rfl : expectedSession = session := allowed
      obtain ⟨output, startMs, polls, ended⟩ := step
      rcases (FragmentedUdp.receives type expectedSession capacity).carries ended with
        ⟨_, rfl⟩ | ⟨received, message, _, rfl, carries, waited⟩
      · exact opened
      · refine opened.append fun nonzero => ?_
        exact waited.resolve_left nonzero ▸ carries
  | _ =>
      cases step
      exact opened

section Responder

variable {session : UInt32}

theorem obeys_changed (f : ApqeProtocol → ApqeProtocol) :
    Routine.Obeys (oneSession session) (fun _ => True) (modify f : Method PUnit) :=
  Routine.obeys_modify fun _ _ => trivial

theorem obeys_made {c : Call} (other : ¬c.Receives) :
    Routine.Obeys (oneSession session) (fun _ => True) (@Routine.perform calls _ c) := by
  refine (Routine.obeys_perform ?_).any
  cases c with
  | receiveMessage _ _ _ _ => exact absurd trivial other
  | _ => exact trivial

theorem obeys_sha256 (data : Bytes) :
    Routine.Obeys (oneSession session) (fun _ => True) (sha256 data) := by
  refine (obeys_made id).andThen fun digest => ?_
  cases digest with
  | none => exact Routine.obeys_failure
  | some digest => exact Routine.obeys_pure trivial

theorem obeys_sendMessage (destination : Endpoint) (type : UInt8) (data : Bytes) :
    Routine.Obeys (oneSession session) (fun _ => True)
      (sendMessage destination type session data) := by
  refine (obeys_made id).andThen fun framed => ?_
  cases framed with
  | none => exact Routine.obeys_failure
  | some framed => exact Routine.obeys_pure trivial

theorem obeys_timed {β : Type} {add : UInt64 → SessionMetrics → SessionMetrics}
    {operation : Method β} (h : Routine.Obeys (oneSession session) (fun _ => True) operation) :
    Routine.Obeys (oneSession session) (fun _ => True) (timed add operation) := by
  refine (obeys_made id).andThen fun start => h.attempt.any.andThen fun result => ?_
  refine (obeys_made id).andThen fun now => Routine.Obeys.andThen (obeys_changed _) fun _ => ?_
  cases result with
  | none => exact Routine.obeys_failure
  | some value => exact Routine.obeys_pure trivial

theorem obeys_timedShaParts (data : Bytes) :
    Routine.Obeys (oneSession session) (fun _ => True) (timedShaParts data) :=
  obeys_timed (obeys_sha256 data)

theorem obeys_timedPufMap (input : Block) :
    Routine.Obeys (oneSession session) (fun _ => True) (timedPufMap input) :=
  Routine.Obeys.get fun _ _ => obeys_timed (Routine.obeys_pure trivial)

theorem obeys_openM1 : Routine.Obeys (oneSession session) (fun _ => True) openM1 := by
  refine Routine.Obeys.andThen (Routine.Obeys.get fun protocol _ =>
    obeys_timed (obeys_sha256 _)) fun seed => ?_
  refine Routine.Obeys.andThen (obeys_timed ((obeys_made id).andThen fun keys =>
    obeys_changed _)) fun _ => ?_
  refine Routine.Obeys.andThen (Routine.Obeys.foldlM _ (fun ei i _ => Routine.Obeys.get
    fun protocol _ => obeys_timed ((obeys_made id).andThen fun message =>
      Routine.obeys_pure trivial)) trivial) fun ei => ?_
  refine (obeys_timedShaParts _).andThen fun expectedH1 => Routine.Obeys.get fun protocol _ => ?_
  exact (Routine.obeys_guard _).any.andThen fun _ => Routine.obeys_pure trivial

theorem obeys_sendM2 (source : Endpoint) (opened : Opened) :
    Routine.Obeys (oneSession session) (fun _ => True) (sendM2 session source opened) := by
  refine Routine.Obeys.andThen (Routine.Obeys.get fun protocol _ => ?_) fun peer => ?_
  · refine (obeys_made id).andThen fun answer => ?_
    obtain ⟨found, usage⟩ := answer
    refine Routine.Obeys.andThen (obeys_changed _) fun _ => ?_
    cases found with
    | none => exact Routine.obeys_failure
    | some credential => exact Routine.obeys_pure trivial
  refine Routine.Obeys.andThen (obeys_changed _) fun _ => Routine.Obeys.get fun protocol _ => ?_
  refine (Routine.obeys_guard _).any.andThen fun _ => ?_
  refine Routine.Obeys.andThen ((obeys_timedShaParts _).andThen fun _ =>
    (Routine.obeys_guard _).any) fun _ => ?_
  refine Routine.Obeys.andThen (Routine.Obeys.get fun protocol _ => obeys_timed ?_) fun cj => ?_
  · exact Routine.Obeys.andThen ((obeys_sha256 _).andThen fun skHash => obeys_sha256 _)
      fun mask => Routine.obeys_pure trivial
  refine (obeys_timedShaParts _).andThen fun ciHash => ?_
  refine (obeys_timedPufMap _).andThen fun tkJi => (obeys_timedPufMap _).andThen fun tkJ => ?_
  refine Routine.Obeys.andThen (obeys_changed _) fun _ => (obeys_made id).andThen fun nj => ?_
  refine Routine.Obeys.andThen (obeys_changed _) fun _ => ?_
  refine (obeys_timedShaParts _).andThen fun h2 => ?_
  refine Routine.Obeys.andThen (obeys_changed _) fun _ => Routine.Obeys.get fun protocol _ => ?_
  refine Routine.Obeys.andThen ?_ fun _ => Routine.obeys_pure trivial
  exact (obeys_sendMessage _ _ _).andThen fun framed => obeys_changed _

theorem obeys_receiveM3 (keys : ResponderKeys) :
    Routine.Obeys (oneSession session) (fun _ => True) (receiveM3 session keys) := by
  refine (Routine.obeys_perform rfl).any.andThen fun answer => ?_
  obtain ⟨received, bytes⟩ := answer
  refine Routine.Obeys.andThen (obeys_changed _) fun _ => ?_
  cases received with
  | none => exact Routine.obeys_failure
  | some received =>
      refine (Routine.obeys_guard _).any.andThen fun _ => ?_
      refine Routine.Obeys.andThen (obeys_changed _) fun _ => Routine.Obeys.get fun protocol _ => ?_
      refine (obeys_timedPufMap _).andThen fun tkIj => ?_
      refine (obeys_timedShaParts _).andThen fun sessionKey => ?_
      refine (obeys_timedShaParts _).andThen fun expectedH3 => ?_
      exact (Routine.obeys_guard _).any.andThen fun _ => Routine.obeys_pure trivial

theorem obeys_sendResult (source : Endpoint) (protocolStart : UInt32) (sessionKey : Block) :
    Routine.Obeys (oneSession session) (fun _ => True)
      (sendResult session source protocolStart sessionKey) := by
  refine (obeys_made id).andThen fun now => ?_
  refine Routine.Obeys.andThen (obeys_changed _) fun _ => (obeys_sha256 _).andThen fun keyHash => ?_
  refine Routine.Obeys.andThen (obeys_changed _) fun _ => Routine.Obeys.get fun protocol _ => ?_
  exact (obeys_sendMessage _ _ _).andThen fun _ => Routine.obeys_pure trivial

theorem obeys_runResponderSession (incoming : Received) :
    Routine.Obeys (oneSession session) (fun _ => True) (runResponderSession session incoming) := by
  refine Routine.Obeys.andThen (obeys_changed _) fun _ => ?_
  refine (obeys_made id).andThen fun protocolStart => obeys_openM1.andThen fun opened => ?_
  refine (obeys_sendM2 _ opened).andThen fun keys => (obeys_receiveM3 keys).andThen fun key => ?_
  exact (obeys_sendResult _ _ _).andThen fun _ => Routine.obeys_pure trivial

/-- At every point of a round of the responder's loop, the messages are isolated. -/
theorem ensures_responderLoop (object : ApqeProtocol) :
    Routine.Ensures Datagrams Isolated (fun _ _ => Isolated) responderLoop object [] := by
  refine Routine.Ensures.perform fun answer log step => ?_
  obtain ⟨received, bytes⟩ := answer
  obtain ⟨output, startMs, polls, ended⟩ := step
  rw [Routine.ensures_bind, Routine.ensures_modify]
  rcases (FragmentedUdp.receives msgM1 0 m1Bytes).carries ended with
    ⟨rfl, rfl⟩ | ⟨packet, message, rfl, rfl, carries, _⟩
  · exact ⟨isolated_nil, isolated_nil⟩
  · have opened : OpenedBy packet.session [message] := carries.1 ▸ opened_singleton message
    refine ⟨isolated_of_opened opened, ?_⟩
    refine Routine.ensures_bind.mpr (Routine.ensures_guard.mpr ⟨fun _ => ?_, fun _ => ?_⟩)
    · refine ((obeys_runResponderSession packet).ensures (oneSession_keeps packet.session)
        (fun _ => isolated_of_opened) trivial opened).mono ?_
      exact fun _ _ _ after => isolated_of_opened after.2.2
    · exact isolated_of_opened opened

end Responder

end ApqeProtocol

end Apqe

namespace Transport

open Interaction Puav Apqe

variable (κ : Type)

/-- At every point of a session that is opened with the number, the messages behind the opening one
carry it. -/
def RespondersIsolated (session : UInt32) : Prop :=
  (∀ (object : ProposedUavProtocol UInt8 κ) rest opening later,
    Program.Exec ProposedUavProtocol.Datagrams (ProposedUavProtocol.runResponderOnce.on object) []
      rest (opening :: later) → opening.session = session →
    ∀ message ∈ later, message.Carries session) ∧
  ∀ (object : ApqeProtocol) rest opening later,
    Program.Exec ApqeProtocol.Datagrams (ApqeProtocol.responderLoop.on object) [] rest
      (opening :: later) → opening.session = session →
    ∀ message ∈ later, message.Carries session

/-- Sessions are isolated unless they are opened with the number that a receiving call takes for
any number. -/
theorem respondersIsolated_iff (session : UInt32) :
    RespondersIsolated κ session ↔ session ≠ 0 := by
  constructor
  · rintro ⟨isolated, _⟩ rfl
    obtain ⟨rest, carried, carried', mixed⟩ := @ProposedUavProtocol.exec_zeroSession κ
    have carries := isolated _ rest _ _ mixed rfl _ (List.mem_singleton_self _)
    have other : (7 : UInt32) ≠ 0 := by decide
    exact other carries.1
  · intro nonzero
    constructor
    · rintro object rest opening later run rfl
      have isolated := ProposedUavProtocol.ensures_runResponderOnce object
      exact (run.ensures isolated isolated_nil).1 opening later rfl nonzero
    · rintro object rest opening later run rfl
      have isolated := ApqeProtocol.ensures_responderLoop object
      exact (run.ensures isolated isolated_nil).1 opening later rfl nonzero

/-- An M0 with the number zero, and an M2 with the number seven in the same session. -/
theorem zeroSession_mixes : ∃ (object : ProposedUavProtocol UInt8 Unit) (rest : Program _ _)
    (opening message : Delivered), Program.Exec ProposedUavProtocol.Datagrams
      (ProposedUavProtocol.runResponderOnce.on object) [] rest [opening, message] ∧
    opening.type = msgM0Req ∧ opening.session = 0 ∧ message.type = msgM2Init ∧
    message.session = 7 := by
  obtain ⟨rest, carried, carried', mixed⟩ := @ProposedUavProtocol.exec_zeroSession Unit
  exact ⟨_, rest, _, _, mixed, rfl, rfl, rfl, rfl⟩

end Transport
