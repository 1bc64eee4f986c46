import PostQuantumUav.Puav.Honest.Session
import PostQuantumUav.Puav.Trace.Symbolic

/-!
# The history of an honest session

Two devices that exchange their messages have a history in which every message is
received after it was sent, and every signature is accepted after it was produced. It is
made of the runs of both sides, which are cut where a side waits for the other one.

With symbolic values this is a history of the symbolic model, so that what is proved of
all such histories is proved of at least one in which both sides accept.
-/

namespace Puav

open Interaction Cell Buffer ProposedUavProtocol Party

variable {α κ : Type}

section Deeds

/-- The deed that a call of a session is. -/
def deedOf : Step α κ → Option (Deed α)
  | ⟨.sendMessage _ type session data, _⟩ => some (.sent ⟨type, session, data⟩)
  | ⟨.receiveMessage _ _ _ _, answer⟩ =>
      (answer : Option Transport.Received × List α).1.map fun packet =>
        .received ⟨packet.type, packet.session, (answer : Option Transport.Received × List α).2⟩
  | ⟨.sign _ message _, _⟩ => some (.signed message)
  | ⟨.verify _ message _ _ _ root, _⟩ => some (.verified message root)
  | ⟨.note milestone view, _⟩ => some (.noted milestone view)
  | _ => none

theorem deedOf_starts {c : Call α κ} (starts : Starts c) (a : (calls α κ).Answer c) :
    deedOf ⟨c, a⟩ = none := by
  cases c <;> first | rfl | cases starts

theorem deedOf_sent {e : Step α κ} {message : Message α} (is : deedOf e = some (.sent message)) :
    ∃ destination answer,
      e = ⟨.sendMessage destination message.type message.session message.data, answer⟩ := by
  obtain ⟨c, a⟩ := e
  cases c with
  | sendMessage destination type session data =>
      cases is
      exact ⟨destination, a, rfl⟩
  | receiveMessage type session capacity timeoutMs =>
      obtain ⟨packet, cells⟩ := a
      cases packet <;> cases is
  | _ => cases is

theorem deedOf_signed {e : Step α κ} {object : List α} (is : deedOf e = some (.signed object)) :
    ∃ q runtimeSeed signature, e = ⟨.sign q object runtimeSeed, signature⟩ := by
  obtain ⟨c, a⟩ := e
  cases c with
  | sign q message runtimeSeed =>
      cases is
      exact ⟨q, runtimeSeed, a, rfl⟩
  | receiveMessage type session capacity timeoutMs =>
      obtain ⟨packet, cells⟩ := a
      cases packet <;> cases is
  | _ => cases is

theorem deedOf_noted {e : Step α κ} {milestone : Milestone} {view : View α}
    (is : deedOf e = some (.noted milestone view)) : e = notes milestone view := by
  obtain ⟨c, a⟩ := e
  cases c with
  | note milestone view =>
      cases is
      rfl
  | receiveMessage type session capacity timeoutMs =>
      obtain ⟨packet, cells⟩ := a
      cases packet <;> cases is
  | _ => cases is

/-- A call of a device with a possible answer. -/
def Possible (primitives : Primitives α κ) (device : HonestDevice α κ) (e : Step α κ) : Prop :=
  ∃ delivery party party', Attended primitives device delivery party e party'

variable {primitives : Primitives α κ} {device : HonestDevice α κ} {delivery : Delivery α}

theorem attended_deed {party party' : Party α} {e : Step α κ}
    (step : Attended primitives device delivery party e party') :
    Possible primitives device e ∧ party' = party ++ (deedOf e).toList := by
  refine ⟨⟨delivery, party, party', step⟩, ?_⟩
  obtain ⟨answered, -⟩ := step
  cases answered with
  | starts other a =>
      rw [deedOf_starts other]
      exact (List.append_nil party).symm
  | sendMessage destination type session data framed taken => rfl
  | receiveMessage timeoutMs source framedBytes next awaited => rfl
  | sign q message runtimeSeed => rfl
  | verify q message signature identifier path root => rfl
  | note milestone view => rfl
  | _ => exact (List.append_nil party).symm

/-- A run of a side as a trace with its deeds. -/
theorem exists_trace {β : Type} {r : Method α κ β} {object object' : ProposedUavProtocol α κ}
    {result : Option β} {party : Party α}
    (run : Routine.Run (Attended primitives device delivery) r object [] result object' party) :
    ∃ t, (r.on object).Traces t ∧ (∀ e ∈ t, Possible primitives device e) ∧
      t.filterMap deedOf = party := by
  obtain ⟨t, records, possible, rfl⟩ := run.events fun _ _ _ step => attended_deed step
  exact ⟨t, ⟨_, records []⟩, possible, rfl⟩

end Deeds

section Answers

variable {primitives : Primitives α κ} {device : HonestDevice α κ}

theorem Possible.hashed {data : List α} {hash : Hash α}
    (possible : Possible primitives device (hashes data hash)) : hash = primitives.sha data := by
  obtain ⟨delivery, party, party', answered, -⟩ := possible
  cases answered with
  | sha256 data => rfl
  | starts other => cases other

theorem Possible.tagged {key data : List α} {tag : Hash α}
    (possible : Possible primitives device (tags key data tag)) :
    tag = primitives.hmac key data := by
  obtain ⟨delivery, party, party', answered, -⟩ := possible
  cases answered with
  | hmacSha256 key data => rfl
  | starts other => cases other

theorem Possible.derived {ikm salt info : List α} {length : Nat} {material : List.Vector α length}
    (possible : Possible primitives device (derives ikm salt info material)) :
    material = primitives.hkdf ikm salt info length := by
  obtain ⟨delivery, party, party', answered, -⟩ := possible
  cases answered with
  | hkdfSha256 ikm salt info length => rfl
  | starts other => cases other

theorem Possible.drawn {nonce : Nonce α} (possible : Possible primitives device (draws nonce)) :
    nonce = device.nonce := by
  obtain ⟨delivery, party, party', answered, -⟩ := possible
  cases answered with
  | fillNonce => rfl
  | starts other => cases other

theorem Possible.exported {key : κ} {publicKey : KemPublicKey α}
    (possible : Possible primitives device (exports key publicKey)) :
    publicKey = primitives.encode key := by
  obtain ⟨delivery, party, party', answered, -⟩ := possible
  cases answered with
  | kemEncodePublicKey key => rfl
  | starts other => cases other

theorem Possible.encapsulated {key : κ} {transported : Option (KemCiphertext α × Hash α)}
    (possible : Possible primitives device ⟨.kemEncapsulate key, transported⟩) :
    transported = some (primitives.encapsulate key) := by
  obtain ⟨delivery, party, party', answered, -⟩ := possible
  cases answered with
  | kemEncapsulate key => rfl
  | starts other => cases other

theorem Possible.decapsulated {key : κ} {ciphertext : KemCiphertext α} {sharedSecret : Hash α}
    (possible : Possible primitives device (decapsulates key ciphertext sharedSecret)) :
    sharedSecret = primitives.decapsulate key ciphertext := by
  obtain ⟨delivery, party, party', answered, -⟩ := possible
  cases answered with
  | kemDecapsulate key ciphertext => rfl
  | starts other => cases other

theorem Possible.signed {q : UInt32} {message : List α} {runtimeSeed : Hash α}
    {signature : Option (SignatureCells α)}
    (possible : Possible primitives device ⟨.sign q message runtimeSeed, signature⟩) :
    signature = device.sign q message runtimeSeed := by
  obtain ⟨delivery, party, party', answered, -⟩ := possible
  cases answered with
  | sign q message runtimeSeed => rfl
  | starts other => cases other

theorem Possible.attached {q : UInt32} {path : Option (PathCells α)}
    (possible : Possible primitives device ⟨.extractPath q, path⟩) : path = device.path q := by
  obtain ⟨delivery, party, party', answered, -⟩ := possible
  cases answered with
  | extractPath q => rfl
  | starts other => cases other

/-- A call that received cells received a message. -/
theorem Possible.received {type : UInt8} {session : UInt32} {capacity : Nat} {timeoutMs : UInt32}
    {packet : Option Transport.Received} {cells : List α} (possible : Possible primitives device
      ⟨.receiveMessage type session capacity timeoutMs, (packet, cells)⟩) :
    cells = [] ∨ ∃ message : Message α, message.data = cells ∧
      deedOf (⟨.receiveMessage type session capacity timeoutMs, (packet, cells)⟩ : Step α κ) =
        some (.received message) := by
  obtain ⟨delivery, party, party', answered, whole⟩ := possible
  cases answered with
  | @receiveMessage _ _ _ message _ source framedBytes next awaited =>
      exact .inr ⟨message, rfl, rfl⟩
  | timedOut timeoutMs absent cells => exact .inl (whole rfl)
  | starts other => cases other

end Answers

section Histories

/-- An object before its first session. -/
def HonestDevice.object [Cell α] (device : HonestDevice α κ) : ProposedUavProtocol α κ where
  config := device.config
  peerRecord := device.peerRecord
  ready := true
  bootSeed := .replicate _ (ofByte 0)
  kemInitialized := false
  kemKey := none
  m0 := .replicate _ (ofByte 0)
  m1 := .replicate _ (ofByte 0)
  m2 := .replicate _ (ofByte 0)
  m3 := .replicate _ (ofByte 0)
  m4 := .replicate _ (ofByte 0)
  mu := .replicate _ (ofByte 0)
  signInput := .replicate _ (ofByte 0)
  result := .replicate _ (ofByte 0)
  metrics := {}

namespace Handshake

variable (h : Handshake α κ)

def device : Role → HonestDevice α κ
  | .initiator => h.initiator
  | .responder => h.responder

/-- The root under which the other device checks a role's signatures. -/
def root : Role → Digest
  | .initiator => h.responder.peerRecord.root
  | .responder => h.initiator.peerRecord.root

def network [Cell α] : Network α κ where
  initiator := h.initiator.config
  responder := h.responder.config
  responderRecord := h.initiator.peerRecord
  initiatorRecord := h.responder.peerRecord
  start session := (h.device session.1).object
  initiates _ := ⟨rfl, rfl⟩
  responds _ := ⟨rfl, rfl⟩

/-- What a session has done in a history. -/
def deedsOf (session : Session) (history : History α κ) : List (Deed α) :=
  (own session history).filterMap deedOf

theorem deedsOf_append (session : Session) (front back : History α κ) :
    deedsOf session (front ++ back) = deedsOf session front ++ deedsOf session back := by
  rw [deedsOf, own_append, List.filterMap_append]
  rfl

/-- What a deed follows that depends on another one. -/
def Backed (history : History α κ) : Deed α → Prop
  | .received message => ∃ session, .sent message ∈ deedsOf session history
  | .verified object root => ∃ role, h.root role = root ∧ .signed object ∈ deedsOf (role, 0) history
  | _ => True

/-- One session of each device in which everything follows what it depends on. -/
structure Enacted [Cell α] [DecidableEq α] (record : List α) (history : History α κ) : Prop where
  happens : h.network.Happens history
  possible : ∀ role n e, ((role, n), e) ∈ history → n = 0 ∧ Possible h.primitives (h.device role) e
  backed : Reasoned (fun before e => ∀ deed, deedOf e.2 = some deed → h.Backed before deed) history
  initiated : deedsOf (.initiator, 0) history = h.finishes record
  responded : deedsOf (.responder, 0) history = h.accepts record

variable {h}

theorem Backed.mono {history history' : History α κ} {deed : Deed α} (more : history <+: history')
    (backed : h.Backed history deed) : h.Backed history' deed := by
  obtain ⟨rest, rfl⟩ := more
  cases deed with
  | received message =>
      obtain ⟨session, mem⟩ := backed
      exact ⟨session, deedsOf_append _ _ _ ▸ List.mem_append_left _ mem⟩
  | verified object root =>
      obtain ⟨role, same, mem⟩ := backed
      exact ⟨role, same, deedsOf_append _ _ _ ▸ List.mem_append_left _ mem⟩
  | _ => trivial

/-- A side's turn. -/
theorem backed_turn {history : History α κ} {t : List (Step α κ)}
    (before : Reasoned (fun before e => ∀ deed, deedOf e.2 = some deed → h.Backed before deed)
      history) (session : Session) (each : ∀ deed ∈ t.filterMap deedOf, h.Backed history deed) :
    Reasoned (fun before e => ∀ deed, deedOf e.2 = some deed → h.Backed before deed)
      (history ++ turn session t) := by
  refine before.append ?_ ?_
  · intro t t' e more backed deed is
    exact (backed deed is).mono more
  · rintro _ mem deed is
    obtain ⟨e, inside, rfl⟩ := List.mem_map.mp mem
    exact each deed (List.mem_filterMap.mpr ⟨e, inside, is⟩)

theorem deedsOf_turn_self (session : Session) (t : List (Step α κ)) :
    deedsOf session (turn session t) = t.filterMap deedOf := by
  rw [deedsOf, own_turn_self]

theorem mem_of_deedsOf {session : Session} {history : History α κ} {deed : Deed α}
    (mem : deed ∈ deedsOf session history) :
    ∃ e, (session, e) ∈ history ∧ deedOf e = some deed := by
  obtain ⟨e, inside, is⟩ := List.mem_filterMap.mp mem
  exact ⟨e, mem_own.mp inside, is⟩

theorem mem_deedsOf_turn {front : History α κ} {session : Session} {t : List (Step α κ)}
    {deeds : List (Deed α)} (is : t.filterMap deedOf = deeds) {deed : Deed α} (mem : deed ∈ deeds) :
    deed ∈ deedsOf session (front ++ turn session t) := by
  rw [deedsOf_append, deedsOf_turn_self, is]
  exact List.mem_append_right _ mem

variable [Cell α]

/-- The steps of a session on both devices, in turns in which each side goes on until it has to
wait. -/
structure Turns (h : Handshake α κ) (record : List α) where
  a0 : List (Step α κ)
  b0 : List (Step α κ)
  a1 : List (Step α κ)
  b1 : List (Step α κ)
  a2 : List (Step α κ)
  b2 : List (Step α κ)
  a3 : List (Step α κ)
  deeds_a0 : a0.filterMap deedOf = h.requests
  deeds_b0 : b0.filterMap deedOf = h.challenges
  deeds_a1 : a1.filterMap deedOf = [.received ⟨msgM1Chal, h.session, h.m1.toList⟩,
    .signed h.objectA.toList, .sent ⟨msgM2Init, h.session, h.m2⟩]
  deeds_b1 : b1.filterMap deedOf = [.received ⟨msgM2Init, h.session, h.m2⟩,
    .verified h.objectA.toList h.responder.peerRecord.root, .signed h.objectB.toList,
    .noted .keysDerived h.view, .sent ⟨msgM3RespFin, h.session, h.m3⟩]
  deeds_a2 : a2.filterMap deedOf = [.received ⟨msgM3RespFin, h.session, h.m3⟩,
    .verified h.objectB.toList h.initiator.peerRecord.root, .noted .tauBVerified h.view,
    .sent ⟨msgM4InitFin, h.session, h.m4.toList⟩]
  deeds_b2 : b2.filterMap deedOf = [.received ⟨msgM4InitFin, h.session, h.m4.toList⟩,
    .noted .accepted h.view, .sent ⟨msgResult, h.session, record⟩]
  deeds_a3 : a3.filterMap deedOf = [.received ⟨msgResult, h.session, record⟩]

namespace Turns

variable {record : List α} (t : Turns h record)

def stepsA : List (Step α κ) := t.a0 ++ t.a1 ++ t.a2 ++ t.a3

def stepsB : List (Step α κ) := t.b0 ++ t.b1 ++ t.b2

def history : History α κ :=
  turn (.initiator, 0) t.a0 ++ turn (.responder, 0) t.b0 ++ turn (.initiator, 0) t.a1 ++
    turn (.responder, 0) t.b1 ++ turn (.initiator, 0) t.a2 ++ turn (.responder, 0) t.b2 ++
    turn (.initiator, 0) t.a3

theorem own_initiator : own (.initiator, 0) t.history = t.stepsA := by
  have other : ((.responder, 0) : Session) ≠ (.initiator, 0) := by decide
  simp only [history, own_append, own_turn_self, own_turn_other other, List.append_nil]
  rfl

theorem own_responder : own (.responder, 0) t.history = t.stepsB := by
  have other : ((.initiator, 0) : Session) ≠ (.responder, 0) := by decide
  simp only [history, own_append, own_turn_self, own_turn_other other, List.append_nil,
    List.nil_append]
  rfl

theorem own_idle {session : Session} (otherA : (.initiator, 0) ≠ session)
    (otherB : (.responder, 0) ≠ session) : own session t.history = [] := by
  simp only [history, own_append, own_turn_other otherA, own_turn_other otherB, List.append_nil]

/-- A side receives and accepts what the other one sent and signed in the turn before. -/
theorem backed :
    Reasoned (fun before e => ∀ deed, deedOf e.2 = some deed → h.Backed before deed) t.history := by
  have turn_a0 := @backed_turn _ _ h [] t.a0 reasoned_nil (.initiator, 0) (by
    rw [t.deeds_a0]
    exact List.forall_mem_cons.mpr ⟨trivial, by rintro _ ⟨⟩⟩)
  have turn_b0 := backed_turn turn_a0 (.responder, 0) (by
    rw [t.deeds_b0]
    refine List.forall_mem_cons.mpr ⟨⟨_, mem_deedsOf_turn t.deeds_a0 List.mem_cons_self⟩, ?_⟩
    simp [Backed])
  have turn_a1 := backed_turn turn_b0 (.initiator, 0) (by
    rw [t.deeds_a1]
    refine List.forall_mem_cons.mpr ⟨⟨_, mem_deedsOf_turn t.deeds_b0 ?_⟩, ?_⟩
    · exact List.mem_cons_of_mem _ List.mem_cons_self
    · simp [Backed])
  have turn_b1 := backed_turn turn_a1 (.responder, 0) (by
    rw [t.deeds_b1]
    refine List.forall_mem_cons.mpr ⟨⟨_, mem_deedsOf_turn t.deeds_a1 ?_⟩, List.forall_mem_cons.mpr
      ⟨⟨.initiator, rfl, mem_deedsOf_turn t.deeds_a1 ?_⟩, ?_⟩⟩
    all_goals simp [Backed])
  have turn_a2 := backed_turn turn_b1 (.initiator, 0) (by
    rw [t.deeds_a2]
    refine List.forall_mem_cons.mpr ⟨⟨_, mem_deedsOf_turn t.deeds_b1 ?_⟩, List.forall_mem_cons.mpr
      ⟨⟨.responder, rfl, mem_deedsOf_turn t.deeds_b1 ?_⟩, ?_⟩⟩
    all_goals simp [Backed])
  have turn_b2 := backed_turn turn_a2 (.responder, 0) (by
    rw [t.deeds_b2]
    refine List.forall_mem_cons.mpr ⟨⟨_, mem_deedsOf_turn t.deeds_a2 ?_⟩, ?_⟩
    all_goals simp [Backed])
  exact backed_turn turn_b2 (.initiator, 0) (by
    rw [t.deeds_a3]
    refine List.forall_mem_cons.mpr ⟨⟨_, mem_deedsOf_turn t.deeds_b2 ?_⟩, ?_⟩
    all_goals simp [Backed])

theorem initiated : deedsOf (.initiator, 0) t.history = h.finishes record := by
  rw [deedsOf, own_initiator, stepsA]
  simp only [List.filterMap_append, t.deeds_a0, t.deeds_a1, t.deeds_a2, t.deeds_a3]
  rfl

theorem responded : deedsOf (.responder, 0) t.history = h.accepts record := by
  rw [deedsOf, own_responder, stepsB]
  simp only [List.filterMap_append, t.deeds_b0, t.deeds_b1, t.deeds_b2]
  rfl

end Turns

/-- The steps of two sessions that do what they should are cut into turns. -/
theorem exists_turns {record : List α} {stepsA stepsB : List (Step α κ)}
    (deedsA : stepsA.filterMap deedOf = h.finishes record)
    (deedsB : stepsB.filterMap deedOf = h.accepts record) :
    ∃ t : Turns h record, t.stepsA = stepsA ∧ t.stepsB = stepsB := by
  obtain ⟨_, a3, rfl, deedsA, deeds_a3⟩ := List.filterMap_eq_append_iff.mp deedsA
  obtain ⟨_, a2, rfl, deedsA, deeds_a2⟩ := List.filterMap_eq_append_iff.mp deedsA
  obtain ⟨a0, a1, rfl, deeds_a0, deeds_a1⟩ := List.filterMap_eq_append_iff.mp deedsA
  obtain ⟨_, b2, rfl, deedsB, deeds_b2⟩ := List.filterMap_eq_append_iff.mp deedsB
  obtain ⟨b0, b1, rfl, deeds_b0, deeds_b1⟩ := List.filterMap_eq_append_iff.mp deedsB
  exact ⟨⟨a0, b0, a1, b1, a2, b2, a3, deeds_a0, deeds_b0, deeds_a1, deeds_b1, deeds_a2, deeds_b2,
    deeds_a3⟩, rfl, rfl⟩

variable [DecidableEq α]

/-- Turns of runs of the two methods are a history of both devices. -/
theorem Turns.enacted {record : List α} (t : Turns h record)
    (tracesA : (h.network.program (.initiator, 0)).Traces t.stepsA)
    (possibleA : ∀ e ∈ t.stepsA, Possible h.primitives h.initiator e)
    (tracesB : (h.network.program (.responder, 0)).Traces t.stepsB)
    (possibleB : ∀ e ∈ t.stepsB, Possible h.primitives h.responder e) :
    h.Enacted record t.history := by
  refine ⟨fun session => ?_, fun role n e mem => ?_, t.backed, t.initiated, t.responded⟩
  · by_cases isA : (.initiator, 0) = session
    · rw [← isA, t.own_initiator]
      exact tracesA
    by_cases isB : (.responder, 0) = session
    · rw [← isB, t.own_responder]
      exact tracesB
    rw [t.own_idle isA isB]
    exact ⟨_, .stop _ _⟩
  · have inside := mem_own.mpr mem
    by_cases isA : (.initiator, 0) = (role, n)
    · obtain ⟨rfl, rfl⟩ := Prod.mk.inj isA
      exact ⟨rfl, possibleA e (t.own_initiator ▸ inside)⟩
    by_cases isB : (.responder, 0) = (role, n)
    · obtain ⟨rfl, rfl⟩ := Prod.mk.inj isB
      exact ⟨rfl, possibleB e (t.own_responder ▸ inside)⟩
    rw [t.own_idle isA isB] at inside
    cases inside

/-- Both devices complete a session with each other. -/
theorem Honest.exists_enacted (honest : h.Honest)
    (validA : h.initiator.peerRecord.expiryUnix ≠ 0 →
      1700000000 ≤ h.initiator.peerRecord.expiryUnix.toNat)
    (validB : h.responder.peerRecord.expiryUnix ≠ 0 →
      1700000000 ≤ h.responder.peerRecord.expiryUnix.toNat) :
    ∃ record history, h.Enacted record history := by
  obtain ⟨record, lastA, lastB, -, initiates, responds⟩ := @Honest.exists_runs _ _ _ h honest _
    _ _ h.initiator.object h.responder.object rfl rfl rfl rfl (attended_serves _ validA)
    (attended_serves _ validB)
  obtain ⟨_, tracesA, possibleA, deedsA⟩ := exists_trace initiates
  obtain ⟨_, tracesB, possibleB, deedsB⟩ := exists_trace responds
  obtain ⟨t, rfl, rfl⟩ := exists_turns deedsA deedsB
  exact ⟨record, t.history, t.enacted tracesA possibleA tracesB possibleB⟩

/-- The initiator has accepted tau_B. -/
theorem Enacted.tauBVerified {record : List α} {history : History α κ}
    (enacted : h.Enacted record history) :
    ((.initiator, 0), notes .tauBVerified h.view) ∈ history := by
  obtain ⟨e, inside, is⟩ := @mem_of_deedsOf _ _ (.initiator, 0) history
    (.noted .tauBVerified h.view) (by rw [enacted.initiated]; simp [finishes, confirms])
  exact deedOf_noted is ▸ inside

/-- The responder has accepted. -/
theorem Enacted.accepted {record : List α} {history : History α κ}
    (enacted : h.Enacted record history) : ((.responder, 0), notes .accepted h.view) ∈ history := by
  obtain ⟨e, inside, is⟩ := @mem_of_deedsOf _ _ (.responder, 0) history
    (.noted .accepted h.view) (by rw [enacted.responded]; simp [accepts])
  exact deedOf_noted is ▸ inside

/-- Signatures that are accepted under a role's root are of that role. -/
theorem Enacted.unforgeable {record : List α} {history : History α κ}
    (enacted : h.Enacted record history) {role : Role} {peerRecord : PeerPublicRecord}
    (of : peerRecord.root = h.root role)
    (apart : ∀ role', h.root role' = h.root role → role' = role)
    (signing : ∀ q object runtimeSeed, ((h.device role).sign q object runtimeSeed).isSome) :
    Unforgeable role peerRecord history := by
  intro front back session q object signature path split
  obtain ⟨role', same, mem⟩ := enacted.backed front _ back split _ rfl
  obtain rfl := apart role' (same.trans of)
  obtain ⟨e, inside, is⟩ := mem_of_deedsOf mem
  obtain ⟨q', runtimeSeed, answer, rfl⟩ := deedOf_signed is
  have possible := (enacted.possible _ _ _ (split ▸ List.mem_append_left _ inside)).2
  obtain ⟨signature', produced⟩ := Option.isSome_iff_exists.mp (signing q' object runtimeSeed)
  refine ⟨0, q', runtimeSeed, signature', ?_⟩
  rw [signs, ← produced, ← possible.signed]
  exact inside

/-- What a session received was sent before. -/
theorem Enacted.sent {record : List α} {front back : History α κ} {session : Session} {type : UInt8}
    {n : UInt32} {capacity : Nat} {timeoutMs : UInt32} {packet : Option Transport.Received}
    {cells : List α} (enacted : h.Enacted record (front ++ (session,
      (⟨.receiveMessage type n capacity timeoutMs, (packet, cells)⟩ : Step α κ)) :: back)) {x : α}
    (mem : x ∈ cells) : ∃ session' destination type n data answer, (session',
      (⟨.sendMessage destination type n data, answer⟩ : Step α κ)) ∈ front ∧ x ∈ data := by
  have possible := (enacted.possible _ _ _ (List.mem_append_right _ List.mem_cons_self)).2
  rcases possible.received with rfl | ⟨message, rfl, is⟩
  · cases mem
  · obtain ⟨session', sent⟩ := enacted.backed front _ back rfl _ is
    obtain ⟨e, inside, is⟩ := mem_of_deedsOf sent
    obtain ⟨destination, answer, rfl⟩ := deedOf_sent is
    exact ⟨session', destination, _, _, _, answer, inside, mem⟩

end Handshake

end Histories

section Symbolic

open Symbolic

/-- Random values, of which no two have a name in common. -/
@[irreducible] def fresh (name length : Nat) : List.Vector Symbol length :=
  cells length (.fresh name)

theorem fresh_atomic {name length : Nat} {x : Symbol} (mem : x ∈ (fresh name length).toList) :
    x.Atomic := by
  unfold fresh at mem
  obtain ⟨i, rfl⟩ := mem_cells mem
  trivial

theorem fresh_inj {name name' length : Nat}
    (same : fresh name (length + 1) = fresh name' (length + 1)) : name = name' := by
  unfold fresh at same
  injection cells_inj same

/-- The functions of the symbolic model, with one key pair and one ciphertext. -/
def symbolicPrimitives : Primitives Symbol Unit where
  sha := shaOf
  hmac := hmacOf
  hkdf := hkdfOf
  encode _ := fresh 2 _
  decode _ := ()
  encapsulate _ := (fresh 3 _, sharedOf (fresh 2 _) (fresh 3 _))
  decapsulate _ ciphertext := sharedOf (fresh 2 _) ciphertext
  verify _ _ _ _ _ _ := true

/-- What the devices of the example have in common. -/
def symbolicConfig (role : Role) (deviceId peerId : UInt8) : NodeConfig where
  role := role
  pathMode := .signerCarried
  responder := ⟨0, 0⟩
  deviceId := .replicate _ deviceId
  peerId := .replicate _ peerId
  hardcodedHelperData := .replicate _ 0
  lmsIdentifier := .replicate _ 0
  credentialVersion := 1
  peerCredentialVersion := 1
  credentialExpiryUnix := 0
  firstQ := 0
  numberOfSessions := 1
  resetQCounter := false

def symbolicRecord (root : UInt8) : PeerPublicRecord where
  ready := true
  version := 1
  identifier := .replicate _ 0
  root := .replicate _ root
  suiteId := suiteIdCarried
  status := credentialStatusActive
  expiryUnix := 0

def symbolicDevice (role : Role) (deviceId peerId : UInt8) (name : Nat) :
    HonestDevice Symbol Unit where
  config := symbolicConfig role deviceId peerId
  peerRecord := symbolicRecord peerId
  random := 0
  nonce := fresh name _
  pufRoot := fresh 4 _
  key := ()
  nextQ := 0
  sign _ _ _ := some (fresh 5 _)
  path _ := some (fresh 6 _)
  fetched _ _ := some (fresh 6 _)

/-- Two devices of the symbolic model. -/
def symbolicHandshake : Handshake Symbol Unit where
  primitives := symbolicPrimitives
  initiator := symbolicDevice .initiator 1 2 0
  responder := symbolicDevice .responder 2 1 1
  signatureA := fresh 5 _
  signatureB := fresh 5 _
  pathA := fresh 6 _
  pathB := fresh 6 _

theorem symbolic_trusted (role role' : Role) (name name' : Nat) (deviceId peerId : UInt8)
    (object : List Symbol) : Trusted symbolicPrimitives (symbolicDevice role deviceId peerId name)
      (symbolicDevice role' peerId deviceId name') object (fresh 5 _) (fresh 6 _) where
  ready := rfl
  version := rfl
  expected := rfl
  suite := rfl
  active := rfl
  unused := by
    change ¬ ((0 : UInt32) < 0 ∨ (0 : UInt32) ≥ 0 + 1 ∨ (0 : UInt32) ≥ .ofNat lmsLeaves)
    decide
  signed := rfl
  extracted := rfl
  fetched _ := rfl
  verified := rfl

theorem symbolicHandshake_honest : symbolicHandshake.Honest where
  initiates := rfl
  responds := rfl
  modes := rfl
  initiatorPeer := rfl
  responderPeer := rfl
  trustedA := symbolic_trusted _ _ _ _ _ _ _
  trustedB := symbolic_trusted _ _ _ _ _ _ _
  inverts := rfl

theorem symbolic_root {role role' : Role}
    (same : symbolicHandshake.root role' = symbolicHandshake.root role) : role' = role := by
  cases role <;> cases role' <;>
    first | rfl | exact absurd (congrArg List.Vector.head same) (by decide)

variable {record : List Symbol} {history : History Symbol Unit}
  (enacted : symbolicHandshake.Enacted record history)

include enacted

theorem symbolic_ideal : Ideal symbolicHandshake.network history where
  sha session data hash mem := (enacted.possible _ _ _ mem).2.hashed
  hmac session key data tag mem := (enacted.possible _ _ _ mem).2.tagged
  hkdf session ikm salt info length material mem := (enacted.possible _ _ _ mem).2.derived
  nonces := by
    rintro ⟨role, n⟩ nonce mem x inside
    rw [(enacted.possible _ _ _ mem).2.drawn] at inside
    cases role with
    | initiator => exact fresh_atomic inside
    | responder => exact fresh_atomic inside
  publicKeys := by
    intro session key publicKey mem x inside
    rw [(enacted.possible _ _ _ mem).2.exported] at inside
    exact fresh_atomic inside
  ciphertexts := by
    intro session key ciphertext sharedSecret mem x inside
    cases (enacted.possible _ _ _ mem).2.encapsulated
    exact fresh_atomic inside
  signatures := by
    rintro ⟨role, n⟩ q message runtimeSeed signature mem x inside
    have signed := (enacted.possible _ _ _ mem).2.signed
    cases role with
    | initiator =>
        cases signed
        exact fresh_atomic inside
    | responder =>
        cases signed
        exact fresh_atomic inside
  paths := by
    rintro ⟨role, n⟩ q path mem x inside
    have attached := (enacted.possible _ _ _ mem).2.attached
    cases role with
    | initiator =>
        cases attached
        exact fresh_atomic inside
    | responder =>
        cases attached
        exact fresh_atomic inside
  fresh := by
    rintro ⟨role, n⟩ ⟨role', n'⟩ nonce mem mem'
    obtain ⟨rfl, possible⟩ := enacted.possible _ _ _ mem
    obtain ⟨rfl, possible'⟩ := enacted.possible _ _ _ mem'
    have same := possible.drawn.symm.trans possible'.drawn
    cases role <;> cases role' <;> first | rfl | exact absurd (fresh_inj same) (by decide)
  encapsulated := by
    rintro session key publicKey ciphertext sharedSecret - mem ⟨n, key', exported⟩
    obtain rfl := (enacted.possible _ _ _ exported).2.exported
    cases (enacted.possible _ _ _ mem).2.encapsulated
    rfl
  decapsulated := by
    intro session key publicKey ciphertext sharedSecret exported mem
    obtain rfl := (enacted.possible _ _ _ exported).2.exported
    exact (enacted.possible _ _ _ mem).2.decapsulated
  initiatorSigned := enacted.unforgeable rfl (fun _ => symbolic_root) fun _ _ _ => rfl
  responderSigned := enacted.unforgeable rfl (fun _ => symbolic_root) fun _ _ _ => rfl
  observed := by
    rintro front back session type n capacity timeoutMs packet cells rfl x mem
    exact .told (enacted.sent mem)

omit enacted in
theorem exists_symbolic : ∃ record history, symbolicHandshake.Enacted record history :=
  symbolicHandshake_honest.exists_enacted (fun other => absurd rfl other)
    fun other => absurd rfl other

end Symbolic

end Puav
