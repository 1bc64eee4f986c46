import PostQuantumUav.Library.Interaction.Moves
import PostQuantumUav.Puav.ProtocolRoutines

/-!
# The stages of a session

A session of either role uses one-time indices at one place: it reserves an index and
signs under it, with the derivation of the seed in between. Before that place nothing is
reserved, and behind it nothing is any more.

A world may give each stage a property of its own. The calls of a stage keep its property,
the reservation and the signature lead from one stage to the next, and every failure ends
behind the last one. The rules below carry such properties through both roles' sessions.
-/

namespace Puav.ProposedUavProtocol

open Interaction Cell Buffer

variable {α κ σ : Type} [Cell α]

omit [Cell α] in
/-- A reservation reads the counter and writes it. -/
theorem obeys_reserveQ {d : Discipline (calls α κ) (ProposedUavProtocol α κ)}
    (reads : ∀ default, d.allowed (.getUInt default))
    (writes : ∀ value, d.allowed (.putUInt value)) :
    Routine.Obeys d (fun _ => True) (reserveQ : Method α κ UInt32) := by
  refine Routine.Obeys.get fun protocol _ => ?_
  refine Routine.Obeys.bind (Routine.obeys_perform (reads _)) fun nextQ _ => ?_
  refine (Routine.obeys_guard _).bind fun _ _ => ?_
  refine Routine.Obeys.bind (Routine.obeys_perform (writes _)) fun written _ => ?_
  exact (Routine.obeys_guard _).bind fun _ _ => Routine.obeys_pure trivial

/-- The properties of the three stages, and why every call stays within them. -/
structure Stages (world : World (calls α κ) σ)
    (d : Discipline (calls α κ) (ProposedUavProtocol α κ)) (kind : α → Prop)
    (isSeed : Hash α → Prop) (always before : σ → Prop)
    (reserved : UInt32 → σ → Prop) (after : σ → Prop) : Prop where
  frame : Frame d kind
  seeds : Routine.Obeys d isSeed (timedRuntimeSeed : Method α κ (Hash α))
  before_keeps : Routine.Keeps d world before
  reserved_keeps : ∀ q, Routine.Keeps d world (reserved q)
  after_keeps : Routine.Keeps d world after
  after_of_before : ∀ s, before s → after s
  after_of_reserved : ∀ q s, reserved q s → after s
  always_of_after : ∀ s, after s → always s
  reserves : ∀ object s, d.kept object → before s →
    Routine.Ensures world always (fun result object' t => d.kept object' ∧
      (result = none → after t) ∧ ∀ q, result = some q → reserved q t) reserveQ object s
  signs : ∀ q (message : List.Vector α lmotsSignedObjectBytes) runtimeSeed s
    (a : (calls α κ).Answer (.sign q message.toList runtimeSeed)) s', Within kind message.toList →
    isSeed runtimeSeed → reserved q s → world s ⟨.sign q message.toList runtimeSeed, a⟩ s' →
    after s' ∧ (Call.sign q message.toList runtimeSeed : Call α κ).Answers kind a

/-- One property for all stages, which every allowed call keeps. -/
theorem stages_of_keeps {world : World (calls α κ) σ}
    {d : Discipline (calls α κ) (ProposedUavProtocol α κ)} {kind : α → Prop} (frame : Frame d kind)
    (indexed : ∀ c : Call α κ, c.Indexed → d.allowed c) {during : σ → Prop}
    (keeps : Routine.Keeps d world during) :
    Stages world d kind (fun _ => True) during during (fun _ => during) during where
  frame := frame
  seeds := obeys_timedRuntimeSeed frame
  before_keeps := keeps
  reserved_keeps _ := keeps
  after_keeps := keeps
  after_of_before _ now := now
  after_of_reserved _ _ now := now
  always_of_after _ now := now
  reserves object s kept now := by
    refine ((obeys_reserveQ (fun _ => indexed _ trivial) fun _ => indexed _ trivial).ensures keeps
      (fun _ now => now) kept now).mono ?_
    exact fun _ _ _ after => ⟨after.1, fun _ => after.2.2, fun _ _ => after.2.2⟩
  signs q message runtimeSeed s a s' _ _ now step := by
    obtain ⟨answered, after⟩ := keeps s _ a s' (indexed _ trivial) now step
    exact ⟨after, frame.answers _ a answered⟩

namespace Stages

variable {world : World (calls α κ) σ} {d : Discipline (calls α κ) (ProposedUavProtocol α κ)}
  {kind : α → Prop} {isSeed : Hash α → Prop} {always before : σ → Prop}
  {reserved : UInt32 → σ → Prop} {after : σ → Prop}
  (stages : Stages world d kind isSeed always before reserved after)

include stages

section Rules

variable {β : Type} {good : β → Prop} {r : Method α κ β}

theorem before_moves (obeys : Routine.Obeys d good r) :
    Routine.Moves d world always after before before good r :=
  obeys.moves stages.before_keeps
    (fun s now => stages.always_of_after s (stages.after_of_before s now)) stages.after_of_before

theorem reserved_moves (q : UInt32) (obeys : Routine.Obeys d good r) :
    Routine.Moves d world always after (reserved q) (reserved q) good r :=
  obeys.moves (stages.reserved_keeps q)
    (fun s now => stages.always_of_after s (stages.after_of_reserved q s now))
    (stages.after_of_reserved q)

theorem after_moves (obeys : Routine.Obeys d good r) :
    Routine.Moves d world always after after after good r :=
  obeys.moves stages.after_keeps stages.always_of_after fun _ now => now

end Rules

section Signing

/-- The reservation decides for which index the second stage is. -/
theorem moves_reserveQ {β : Type} {good : β → Prop} {stop : σ → Prop}
    {f : UInt32 → Method α κ β}
    (next : ∀ q, Routine.Moves d world always after (reserved q) stop good (f q)) :
    Routine.Moves d world always after before stop good (reserveQ >>= f) := by
  intro object s kept now
  refine (stages.reserves object s kept now).bind ?_ ?_
  · exact fun object' t outcome => ⟨outcome.1, fun _ => outcome.2.1 rfl, nofun⟩
  · exact fun q object' t outcome => next q object' t outcome.1 (outcome.2.2 q rfl)

theorem moves_timedSign (q : UInt32) {runtimeSeed : Hash α} (seed : isSeed runtimeSeed) :
    Routine.Moves d world always after (reserved q) after
      (fun signature => Within kind signature.toList) (timedSign q runtimeSeed) := by
  refine Routine.Moves.get fun protocol kept => ?_
  obtain ⟨_, _, _, _, _, _, signInput, _⟩ := within_buffers.mp (stages.frame.buffers _ kept)
  refine (stages.reserved_moves q (obeys_timer stages.frame)).bind fun start _ => ?_
  have signed : Routine.Moves d world always after (reserved q) after
      (fun signature : SignatureCells α => Within kind signature.toList)
      (Routine.orFail (call (.sign q protocol.signInput.toList runtimeSeed))) := by
    intro object s kept now
    refine Routine.ensures_orFail.mpr fun a s' step => ?_
    obtain ⟨reached, answers⟩ := stages.signs q _ _ s a s' signInput seed now step
    exact ⟨stages.always_of_after s' reached, kept, fun _ => reached,
      fun signature returned => ⟨answers signature returned, reached⟩⟩
  refine (signed.attempt fun _ now => now).bind fun result is => ?_
  refine stages.after_moves ((obeys_timer stages.frame).bind fun now _ => ?_)
  exact Routine.Obeys.bind (obeys_update stages.frame (fun _ => ⟨rfl, rfl, rfl⟩)
    fun _ stored => stored) fun _ _ => (Routine.obeys_pure is).orFail

/-- From the reservation to M2. -/
theorem moves_sendM2 (session : UInt32) (destination : Transport.Endpoint) {sid : Hash α}
    {publicKey : KemPublicKey α} (hashed : Within kind sid.toList)
    (generated : Within kind publicKey.toList) :
    Routine.Moves d world always after before after (fun hashM2 => Within kind hashM2.toList)
      (sendM2 session destination sid publicKey) := by
  refine Routine.Moves.get fun protocol _ => stages.moves_reserveQ fun qA => ?_
  refine (stages.reserved_moves qA stages.seeds).bind fun runtimeSeed seed => ?_
  refine (stages.reserved_moves qA
    (obeys_buildM2SignedInput stages.frame _ _ hashed generated)).bind fun _ _ => ?_
  refine (stages.moves_timedSign qA seed).bind fun signature signed => ?_
  exact stages.after_moves
    (obeys_sendSignedM2 stages.frame session destination _ _ hashed generated signed)

/-- From the reservation to M3. -/
theorem moves_sendM3 (session : UInt32) (destination : Transport.Endpoint) {sid hashM2 : Hash α}
    {ciphertext : KemCiphertext α} (sharedSecret : Hash α) (hashed : Within kind sid.toList)
    (hashedM2 : Within kind hashM2.toList) (encapsulated : Within kind ciphertext.toList) :
    Routine.Moves d world always after before after (fun sent => sent.2.sid = sid)
      (sendM3 session destination sid hashM2 ciphertext sharedSecret) := by
  refine Routine.Moves.get fun protocol _ => stages.moves_reserveQ fun qB => ?_
  refine (stages.reserved_moves qB stages.seeds).bind fun runtimeSeed seed => ?_
  refine (stages.reserved_moves qB
    (obeys_buildM3SignedInput stages.frame _ _ hashed hashedM2 encapsulated)).bind fun _ _ => ?_
  refine (stages.moves_timedSign qB seed).bind fun signature signed => ?_
  exact stages.after_moves (obeys_sendSignedM3 stages.frame session destination _ _ sharedSecret
    hashed encapsulated signed)

end Signing

section Sessions

variable {β : Type} {start : σ → Prop} {good : β → Prop}

theorem moves_cleaned {body : Method α κ β}
    (moves : Routine.Moves d world always after start after good body) :
    Routine.Moves d world always after start after good (cleaned body) := by
  refine (moves.attempt fun _ now => now).bind fun outcome is => ?_
  exact stages.after_moves ((obeys_cleanup stages.frame).bind fun _ _ =>
    (Routine.obeys_pure is).orFail)

variable [DecidableEq α]

theorem moves_initiatorSession {session : UInt32} (receives : ∀ type capacity,
    d.allowed (.receiveMessage type session capacity receiveTimeoutMs)) :
    Routine.Moves d world always after before after (fun _ => True)
      (initiatorSession session : Method α κ (View α)) := by
  have frame := stages.frame
  refine (stages.before_moves (obeys_buildM0 frame)).bind fun nonceA _ => ?_
  refine (stages.before_moves (obeys_timer frame)).bind fun _ _ => ?_
  refine (stages.before_moves (obeys_sendM0 frame session)).bind fun _ _ => ?_
  refine (stages.before_moves (obeys_receiveM1 frame nonceA (receives _ _))).bind fun packet _ => ?_
  refine (stages.before_moves (obeys_computeSid0 frame)).bind fun sid hashed => ?_
  refine (stages.before_moves (obeys_initializeKem frame)).bind fun _ _ => ?_
  refine (stages.before_moves (obeys_timedMakeKey frame)).bind fun publicKey generated => ?_
  refine (stages.moves_sendM2 session packet.source hashed generated).bind
    fun hashM2 hashedM2 => stages.after_moves ?_
  refine (obeys_receiveM3 frame (receives _ _) hashed hashedM2).bind fun packet _ => ?_
  refine (obeys_confirmB frame sid).bind fun view derived => ?_
  refine (obeys_sendM4 frame session _ (derived ▸ hashed)).bind fun _ _ => ?_
  refine (obeys_timer frame).bind fun _ _ => Routine.Obeys.bind
    (obeys_update frame (fun _ => ⟨rfl, rfl, rfl⟩) fun _ stored => stored) fun _ _ => ?_
  exact (obeys_receiveResult frame (receives _ _)).bind fun _ _ => Routine.obeys_pure trivial

/-- A session of the initiator ends behind the last stage. -/
theorem moves_runInitiatorSession (receives : ∀ type session capacity,
    d.allowed (.receiveMessage type session capacity receiveTimeoutMs)) :
    Routine.Moves d world always after before after (fun _ => True)
      (runInitiatorSession : Method α κ (View α)) := by
  refine Routine.Moves.bind (stages.before_moves (obeys_call stages.frame trivial trivial))
    fun random _ => ?_
  refine Routine.Moves.bind (stages.before_moves (obeys_update stages.frame
    (fun _ => ⟨rfl, rfl, rfl⟩) fun _ stored => within_cleared stages.frame.bytes stored))
    fun _ _ => ?_
  exact stages.moves_cleaned (stages.moves_initiatorSession fun _ _ => receives _ _ _)

/-- The responder's session behind its checks on M2. -/
theorem moves_responderSession {packet : Transport.Received} (receives : ∀ type capacity,
    d.allowed (.receiveMessage type packet.session capacity receiveTimeoutMs)) :
    Routine.Moves d world always after before after (fun _ => True)
      (responderSession packet : Method α κ (View α)) := by
  have frame := stages.frame
  refine (stages.before_moves (obeys_timer frame)).bind fun _ _ => ?_
  refine (stages.before_moves (obeys_sendM1 frame packet.session packet.source)).bind
    fun sid hashed => ?_
  refine (stages.before_moves (obeys_receiveM2 frame (receives _ _) hashed)).bind
    fun opened hashedM2 => ?_
  obtain ⟨qA, hashM2⟩ := opened
  refine (stages.before_moves (obeys_initializeKem frame)).bind fun _ _ => ?_
  refine Routine.Moves.get fun protocol _ => ?_
  refine (stages.before_moves (obeys_timedEncapsulate frame _)).bind fun pair encapsulated => ?_
  obtain ⟨ciphertext, sharedSecret⟩ := pair
  refine (stages.moves_sendM3 packet.session packet.source sharedSecret hashed hashedM2
    encapsulated).bind fun sent derived => stages.after_moves ?_
  obtain ⟨qB, view⟩ := sent
  refine (obeys_receiveM4 frame view (receives _ _)).bind fun _ _ => ?_
  refine (obeys_timer frame).bind fun _ _ => Routine.Obeys.bind
    (obeys_update frame (fun _ => ⟨rfl, rfl, rfl⟩) fun _ stored => stored) fun _ _ => ?_
  refine Routine.Obeys.bind (obeys_call frame trivial trivial) fun _ _ => ?_
  exact (obeys_sendResult frame _ _ _ _).bind fun _ _ => Routine.obeys_pure trivial

/-- A session of the responder ends behind the last stage. -/
theorem moves_runResponderOnce (receives : ∀ type session capacity,
    d.allowed (.receiveMessage type session capacity receiveTimeoutMs)) :
    Routine.Moves d world always after before after (fun _ => True)
      (runResponderOnce : Method α κ (View α)) := by
  refine Routine.Moves.bind (stages.before_moves (obeys_update stages.frame
    (fun _ => ⟨rfl, rfl, rfl⟩) fun object stored => ?_)) fun _ _ => ?_
  · obtain ⟨m0, m1, m2, m3, m4, mu, signInput, _⟩ :=
      within_buffers.mp (within_cleared stages.frame.bytes stored)
    exact within_buffers.mpr ⟨m0, m1, m2, m3, m4, mu, signInput,
      within_replicate (stages.frame.bytes 0)⟩
  refine (stages.before_moves (obeys_receiveM0 stages.frame (receives _ _ _))).bind
    fun packet _ => ?_
  exact stages.moves_cleaned (stages.moves_responderSession fun _ _ => receives _ _ _)

end Sessions

end Stages

end Puav.ProposedUavProtocol
