import PostQuantumUav.Puav.Experiment
import PostQuantumUav.Puav.Honest.Devices
import PostQuantumUav.Puav.OneTimeIndices

/-!
# The sides of an experiment

One side of an experiment goes from session to session. What lasts is its object with the
configuration and the record of the peer, and the index that is stored in it: a session that
has signed has raised the index by one.

A run of a loop of sessions is a run of each session on its own, in a world that starts anew
with the index stored by then.
-/

namespace Puav.Experiment

open Interaction Cell Buffer ProposedUavProtocol Party

variable {α κ : Type}

/-- What a side did in the sessions that have ended, and in this one, with the index that was
stored when this one started, and is stored now. -/
structure Side (α : Type) where
  ended : List (Party α)
  party : Party α
  startQ : UInt32
  nextQ : UInt32

/-- A side before a session. -/
def Side.before (ended : List (Party α)) (nextQ : UInt32) : Side α := ⟨ended, [], nextQ, nextQ⟩

/-- The stored index after a call. -/
def storedAfter (nextQ : UInt32) : ProposedUavProtocol.Call α κ → UInt32
  | .putUInt value => value
  | _ => nextQ

/-- The world of each session by its number and the index that is stored when it starts. -/
abbrev Worlds (α κ : Type) := Nat → UInt32 → World (ProposedUavProtocol.calls α κ) (Party α)

/-- A session is answered by its world. The pause behind it starts the next one; the long pause is
before the first. -/
inductive Answered (worlds : Worlds α κ) (side : Side α) : Event (calls α κ) → Side α → Prop
  | method {c : ProposedUavProtocol.Call α κ} {a : (ProposedUavProtocol.calls α κ).Answer c}
      {party' : Party α}
      (step : worlds side.ended.length side.startQ side.party ⟨c, a⟩ party') :
      Answered worlds side ⟨.method c, a⟩
        { side with party := party', nextQ := storedAfter side.nextQ c }
  | settle : Answered worlds side ⟨.delay 5000, ()⟩ side
  | delay {ms : UInt32} (between : ms < 5000) : Answered worlds side ⟨.delay ms, ()⟩
      (.before (side.ended ++ [side.party]) side.nextQ)

variable {worlds : Worlds α κ}

/-- The sessions that have ended stay. -/
theorem ensures_ended {β : Type} (r : Method α κ β) (object : ProposedUavProtocol α κ)
    (side : Side α) : Routine.Ensures (Answered worlds) (fun _ => True)
      (fun _ _ side' => side.ended <+: side'.ended) r object side := by
  refine Program.Ensures.mono (Program.Ensures.of_step ?_ _ (List.prefix_refl _))
    (fun _ _ => trivial) fun _ _ kept => kept
  intro s event s' step kept
  cases step with
  | method step => exact kept
  | settle => exact kept
  | delay between => exact kept.trans (List.prefix_append _ _)

section Session

/-- The world of a side seen by a session. -/
abbrev sessionWorld (worlds : Worlds α κ) : World (ProposedUavProtocol.calls α κ) (Side α) :=
  World.pull methods (Answered worlds)

theorem sessionWorld_step {side side' : Side α} {c : ProposedUavProtocol.Call α κ}
    {a : (ProposedUavProtocol.calls α κ).Answer c}
    (step : sessionWorld worlds side ⟨c, a⟩ side') :
    worlds side.ended.length side.startQ side.party ⟨c, a⟩ side'.party ∧
      side' = ⟨side.ended, side'.party, side.startQ, storedAfter side.nextQ c⟩ := by
  obtain ⟨_, answered, rfl⟩ : ∃ answer : (ProposedUavProtocol.calls α κ).Answer c,
    Answered worlds side ⟨.method c, answer⟩ side' ∧ answer = a := step
  cases answered with
  | method step => exact ⟨step, rfl⟩

/-- A session on a side is a session in its own world. -/
theorem run_of_sessionWorld {β : Type} {r : ProposedUavProtocol.Method α κ β}
    {object object' : ProposedUavProtocol α κ} {result : Option β} {side side' : Side α}
    (run : Routine.Run (sessionWorld worlds) r object side result object' side') :
    Routine.Run (worlds side.ended.length side.startQ) r object side.party result object'
        side'.party ∧
      side'.ended = side.ended ∧ side'.startQ = side.startQ := by
  obtain ⟨party', run', rfl, ended, startQ⟩ := Program.Exec.follow
    (worlds side.ended.length side.startQ)
    (fun s party => s.party = party ∧ s.ended = side.ended ∧ s.startQ = side.startQ)
    (by
      rintro s ⟨c, a⟩ s' _ step ⟨rfl, ended, startQ⟩
      obtain ⟨stepped, is⟩ := sessionWorld_step step
      rw [ended, startQ] at stepped
      rw [is]
      exact ⟨_, stepped, rfl, ended, startQ⟩) run ⟨rfl, rfl, rfl⟩
  exact ⟨run', ended, startQ⟩

/-- And the other way round. -/
theorem run_sessionWorld {β : Type} {r : ProposedUavProtocol.Method α κ β}
    {object object' : ProposedUavProtocol α κ} {result : Option β} {side : Side α}
    {party' : Party α} (run : Routine.Run (worlds side.ended.length side.startQ) r object side.party
      result object' party') :
    ∃ nextQ, Routine.Run (sessionWorld worlds) r object side result object'
      ⟨side.ended, party', side.startQ, nextQ⟩ := by
  obtain ⟨⟨ended, party, startQ, nextQ⟩, run', rfl, rfl, rfl⟩ := Program.Exec.follow
    (sessionWorld worlds)
    (fun party (s : Side α) => s.ended = side.ended ∧ s.party = party ∧ s.startQ = side.startQ)
    (by
      rintro party ⟨c, a⟩ party' ⟨ended, current, startQ, nextQ⟩ step ⟨rfl, rfl, rfl⟩
      exact ⟨_, ⟨a, .method step, rfl⟩, rfl, rfl, rfl⟩) run ⟨rfl, rfl, rfl⟩
  exact ⟨nextQ, run'⟩

end Session

theorem getD_of_run {β : Type} {r : Method α κ β} {object last : ProposedUavProtocol α κ}
    {ended : List (Party α)} {party : Party α} {nextQ : UInt32} {result : Option β}
    {final : Side α} (run : Routine.Run (Answered worlds) r object
      (.before (ended ++ [party]) nextQ) result last final) :
    final.ended.getD ended.length [] = party := by
  obtain ⟨rest, kept⟩ := (ensures_ended r object _).post_of_run run trivial
  rw [← kept, List.getD_eq_getElem?_getD, Side.before]
  simp

/-- A short pause starts the next session. -/
theorem answered_delay {side side' : Side α} {ms : UInt32} {a : Unit} (short : ms < 5000)
    (step : Answered worlds side ⟨.delay ms, a⟩ side') :
    side' = .before (side.ended ++ [side.party]) side.nextQ := by
  cases step with
  | settle => exact absurd short (UInt32.lt_irrefl _)
  | delay between => rfl

section Rounds

variable [Cell α] [DecidableEq α] {object last : ProposedUavProtocol α κ} {side final : Side α}

/-- A round of the initiator is a session and the rest. -/
theorem of_experimentLoop {numberOfSessions successful number : UInt32} {rounds : Nat}
    {result : Option (Option UInt32)} (more : number ≤ numberOfSessions)
    (run : Routine.Run (Answered worlds)
      (experimentLoop numberOfSessions (rounds + 1) number successful) object side result last
      final) :
    ∃ outcome middle between,
      Routine.Run (sessionWorld worlds) runInitiatorSession object side outcome middle between ∧
      Routine.Run (Answered worlds) (experimentLoop numberOfSessions rounds (number + 1)
          (if outcome.isSome then successful + 1 else successful)) middle
        (.before (between.ended ++ [between.party]) between.nextQ) result last final := by
  rw [experimentLoop, if_pos more] at run
  obtain ⟨outcome, middle, between, session, rest⟩ := run.of_attempt_bind
  obtain ⟨pause, next, delayed, rest⟩ := rest.of_perform_bind
  rw [answered_delay (by decide) delayed] at rest
  exact ⟨outcome, middle, between, session.of_embed, rest⟩

theorem run_experimentLoop {numberOfSessions successful number : UInt32} {rounds : Nat}
    {result : Option (Option UInt32)} {outcome : Option (View α)}
    {middle : ProposedUavProtocol α κ} {between : Side α} (more : number ≤ numberOfSessions)
    (session : Routine.Run (sessionWorld worlds) runInitiatorSession object side outcome middle
      between)
    (rest : Routine.Run (Answered worlds) (experimentLoop numberOfSessions rounds (number + 1)
        (if outcome.isSome then successful + 1 else successful)) middle
      (.before (between.ended ++ [between.party]) between.nextQ) result last final) :
    Routine.Run (Answered worlds)
      (experimentLoop numberOfSessions (rounds + 1) number successful) object side result last
      final := by
  rw [experimentLoop, if_pos more]
  exact session.embed.attempt.bind ((Routine.run_perform (.delay (by decide))).bind rest)

/-- A round of the responder. -/
theorem of_responderLoop {times : Nat} {result : Option Unit}
    (run : Routine.Run (Answered worlds) (responderLoop (times + 1)) object side result last
      final) :
    ∃ outcome middle between,
      Routine.Run (sessionWorld worlds) runResponderOnce object side outcome middle between ∧
      Routine.Run (Answered worlds) (responderLoop times) middle
        (.before (between.ended ++ [between.party]) between.nextQ) result last final := by
  rw [responderLoop] at run
  obtain ⟨outcome, middle, between, session, rest⟩ := run.of_attempt_bind
  obtain ⟨pause, next, delayed, rest⟩ := rest.of_perform_bind
  rw [answered_delay (by decide) delayed] at rest
  exact ⟨outcome, middle, between, session.of_embed, rest⟩

theorem run_responderLoop {times : Nat} {result : Option Unit} {outcome : Option (View α)}
    {middle : ProposedUavProtocol α κ} {between : Side α}
    (session : Routine.Run (sessionWorld worlds) runResponderOnce object side outcome middle
      between)
    (rest : Routine.Run (Answered worlds) (responderLoop times) middle
      (.before (between.ended ++ [between.party]) between.nextQ) result last final) :
    Routine.Run (Answered worlds) (responderLoop (times + 1)) object side result last final := by
  rw [responderLoop]
  exact session.embed.attempt.bind ((Routine.run_perform (.delay (by decide))).bind rest)

end Rounds

/-- The worlds answer the calls of devices that start with the stored index. -/
structure Plays (primitives : Primitives α κ) (device : Nat → UInt32 → HonestDevice α κ)
    (deliveries : Nat → Delivery α) (worlds : Worlds α κ) : Prop where
  answered : ∀ {k q party e party'}, worlds k q party e party' →
    Party.Answered primitives (device k q) (deliveries k) party e party'
  stored : ∀ k q, (device k q).nextQ = q

section Stored

/-- The calls that are left when the index is reserved and the signature is made, under one
configuration and one record of the peer. -/
def settled (config : NodeConfig) (peerRecord : PeerPublicRecord) :
    Discipline (ProposedUavProtocol.calls α κ) (ProposedUavProtocol α κ) where
  allowed c := ¬c.Indexed
  answered _ _ := True
  kept object := object.config = config ∧ object.peerRecord = peerRecord

/-- The party has signed. -/
def HasSigned (party : Party α) : Prop := ∃ object, .signed object ∈ party

/-- A signature comes after the index was raised. -/
def Raised (side : Side α) : Prop := HasSigned side.party → side.nextQ = side.startQ + 1

/-- There is no signature, and the index is what it was when the session started, or was raised. -/
def Unsigned (raised : UInt32) (side : Side α) : Prop :=
  ¬ HasSigned side.party ∧ side.nextQ = side.startQ + raised

variable {config : NodeConfig} {peerRecord : PeerPublicRecord} {primitives : Primitives α κ}
  {device : Nat → UInt32 → HonestDevice α κ} {deliveries : Nat → Delivery α}

theorem settled_frame [Cell α] :
    Frame (settled config peerRecord : Discipline (ProposedUavProtocol.calls α κ) _)
      (fun _ => True) where
  bytes _ := trivial
  isLocal _ isLocal _ := not_indexed_of_local isLocal
  answers c a _ := answers_true c a
  buffers _ _ := within_true _
  same _ _ kept config peerRecord _ _ := ⟨config.trans kept.1, peerRecord.trans kept.2⟩

/-- Only a signature signs. -/
theorem hasSigned_step {delivery : Delivery α} {device : HonestDevice α κ} {party party' : Party α}
    {c : ProposedUavProtocol.Call α κ} {a : (ProposedUavProtocol.calls α κ).Answer c}
    (other : ∀ q message runtimeSeed, c ≠ .sign q message runtimeSeed)
    (step : Party.Answered primitives device delivery party ⟨c, a⟩ party') :
    HasSigned party' ↔ HasSigned party := by
  have added : ∀ deed : Deed α, (∀ object, deed ≠ .signed object) →
      (HasSigned (party.does deed) ↔ HasSigned party) := by
    intro deed unlike
    refine exists_congr fun object => ?_
    rw [Party.does, List.mem_append, List.mem_singleton, or_iff_left (unlike object).symm]
  cases step with
  | sendMessage => exact added _ (by rintro _ ⟨⟩)
  | receiveMessage => exact added _ (by rintro _ ⟨⟩)
  | verify => exact added _ (by rintro _ ⟨⟩)
  | note => exact added _ (by rintro _ ⟨⟩)
  | sign q message runtimeSeed => exact absurd rfl (other q message runtimeSeed)
  | _ => exact Iff.rfl

variable (plays : Plays primitives device deliveries worlds)

include plays

theorem unindexed_step {side side' : Side α} {c : ProposedUavProtocol.Call α κ}
    {a : (ProposedUavProtocol.calls α κ).Answer c} (other : ¬c.Indexed)
    (step : sessionWorld worlds side ⟨c, a⟩ side') :
    (HasSigned side'.party ↔ HasSigned side.party) ∧ side'.nextQ = side.nextQ ∧
      side'.startQ = side.startQ := by
  obtain ⟨stepped, is⟩ := sessionWorld_step step
  refine ⟨hasSigned_step ?_ (plays.answered stepped), ?_, by rw [is]⟩
  · rintro q message runtimeSeed rfl
    exact other trivial
  · rw [is]
    cases c with
    | putUInt value => exact absurd trivial other
    | _ => rfl

/-- A reservation raises the index by one. -/
theorem ensures_reserveQ {object : ProposedUavProtocol α κ} {side : Side α}
    (unsigned : Unsigned 0 side) :
    Routine.Ensures (sessionWorld worlds) (fun _ => True) (fun result object' side' =>
      object' = object ∧ (result = none → Raised side') ∧
        ∀ q, result = some q → Unsigned 1 side') reserveQ object side := by
  rw [reserveQ, Routine.ensures_bind, Routine.ensures_get]
  refine Routine.Ensures.perform fun nextQ first step => ⟨trivial, ?_⟩
  obtain ⟨stepped, is⟩ := sessionWorld_step step
  have answered := plays.answered stepped
  obtain ⟨rfl, party⟩ : nextQ = side.startQ ∧ first.party = side.party := by
    generalize first.party = party' at answered
    cases answered with
    | getUInt => exact ⟨plays.stored _ _, rfl⟩
    | starts other => cases other
  have same : first = side := by
    rw [is, party]
    rfl
  subst same
  refine Routine.ensures_bind.mpr (Routine.ensures_guard.mpr ⟨fun _ => ?_, fun _ => ?_⟩)
  · refine Routine.Ensures.perform fun (written : Nat) second step => ⟨trivial, ?_⟩
    obtain ⟨stepped, is⟩ := sessionWorld_step step
    have kept := hasSigned_step (by rintro _ _ _ ⟨⟩) (plays.answered stepped)
    have reserved : Unsigned 1 second := by
      refine ⟨kept.not.mpr unsigned.1, ?_⟩
      rw [is]
      rfl
    refine Routine.ensures_bind.mpr (Routine.ensures_guard.mpr ⟨fun _ => ?_, fun _ => ?_⟩)
    · exact ⟨rfl, by rintro ⟨⟩, fun _ _ => reserved⟩
    · exact ⟨rfl, fun _ signed => absurd signed reserved.1, by rintro _ ⟨⟩⟩
  · exact ⟨rfl, fun _ signed => absurd signed unsigned.1, by rintro _ ⟨⟩⟩

/-- The stages of a session on a side. -/
theorem stages [Cell α] : Stages (sessionWorld worlds)
    (settled config peerRecord : Discipline (ProposedUavProtocol.calls α κ) _) (fun _ => True)
    (fun _ => True) (fun _ => True) (Unsigned 0) (fun _ => Unsigned 1) Raised where
  frame := settled_frame
  seeds := obeys_timedRuntimeSeed settled_frame
  before_keeps := by
    rintro side c a side' other ⟨unsigned, stored⟩ step
    obtain ⟨signed, nextQ, startQ⟩ := unindexed_step plays other step
    exact ⟨trivial, signed.not.mpr unsigned, by rw [nextQ, startQ, stored]⟩
  reserved_keeps _ := by
    rintro side c a side' other ⟨unsigned, stored⟩ step
    obtain ⟨signed, nextQ, startQ⟩ := unindexed_step plays other step
    exact ⟨trivial, signed.not.mpr unsigned, by rw [nextQ, startQ, stored]⟩
  after_keeps := by
    rintro side c a side' other raised step
    obtain ⟨signed, nextQ, startQ⟩ := unindexed_step plays other step
    exact ⟨trivial, fun now => by rw [nextQ, startQ, raised (signed.mp now)]⟩
  after_of_before _ unsigned signed := absurd signed unsigned.1
  after_of_reserved _ _ unsigned signed := absurd signed unsigned.1
  always_of_after _ _ := trivial
  reserves object side kept unsigned := by
    refine (ensures_reserveQ plays unsigned).mono ?_
    rintro result _ side' ⟨rfl, rest⟩
    exact ⟨kept, rest⟩
  signs q message runtimeSeed side a side' _ _ unsigned step := by
    obtain ⟨-, is⟩ := sessionWorld_step step
    refine ⟨fun _ => ?_, answers_true _ a⟩
    rw [is]
    exact unsigned.2

variable [Cell α] [DecidableEq α]

/-- A session of either role. -/
inductive IsSession : ProposedUavProtocol.Method α κ (View α) → Prop where
  | initiator : IsSession runInitiatorSession
  | responder : IsSession runResponderOnce

/-- A session keeps the configuration and the record of the peer, and has raised the index when it
has signed. -/
theorem session_on_side {r : ProposedUavProtocol.Method α κ (View α)} (isSession : IsSession r)
    {object object' : ProposedUavProtocol α κ} {result : Option (View α)}
    {ended : List (Party α)} {nextQ : UInt32} {side : Side α}
    (run : Routine.Run (sessionWorld worlds) r object (.before ended nextQ) result object' side) :
    Routine.Run (worlds ended.length nextQ) r object [] result object' side.party ∧
      (object'.config = object.config ∧ object'.peerRecord = object.peerRecord) ∧
      side.ended = ended ∧ (HasSigned side.party → side.nextQ = nextQ + 1) := by
  have moves : Routine.Moves (settled object.config object.peerRecord) (sessionWorld worlds)
      (fun _ => True) Raised (Unsigned 0) Raised (fun _ => True) r := by
    cases isSession with
    | initiator => exact (stages plays).moves_runInitiatorSession fun _ _ _ => id
    | responder => exact (stages plays).moves_runResponderOnce fun _ _ _ => id
  have unsigned : Unsigned 0 (.before ended nextQ : Side α) := by
    refine ⟨?_, (UInt32.add_zero _).symm⟩
    rintro ⟨object, mem⟩
    exact List.not_mem_nil mem
  obtain ⟨kept, failed, finished⟩ := (moves object _ ⟨rfl, rfl⟩ unsigned).post_of_run run trivial
  obtain ⟨own, same, startQ⟩ := run_of_sessionWorld run
  refine ⟨own, kept, same, fun signed => ?_⟩
  have raised : Raised side := by
    cases result with
    | none => exact failed rfl
    | some view => exact (finished view rfl).2
  rw [raised signed, startQ]
  rfl

/-- A session that signs, as one on a side. -/
theorem run_on_side {r : ProposedUavProtocol.Method α κ (View α)} (isSession : IsSession r)
    {object object' : ProposedUavProtocol α κ} {result : Option (View α)} (ended : List (Party α))
    {nextQ : UInt32} {party : Party α}
    (own : Routine.Run (worlds ended.length nextQ) r object [] result object' party)
    (signed : HasSigned party) :
    Routine.Run (sessionWorld worlds) r object (.before ended nextQ) result object'
        ⟨ended, party, nextQ, nextQ + 1⟩ ∧
      object'.config = object.config ∧ object'.peerRecord = object.peerRecord := by
  obtain ⟨stored, run⟩ :=
    @run_sessionWorld α κ worlds _ r object object' result (.before ended nextQ) party own
  obtain ⟨-, same, -, raised⟩ := session_on_side plays isSession run
  obtain rfl : stored = nextQ + 1 := raised signed
  exact ⟨run, same⟩

end Stored

end Puav.Experiment
