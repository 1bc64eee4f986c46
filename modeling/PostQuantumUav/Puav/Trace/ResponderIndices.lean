import PostQuantumUav.Puav.CanonicalEncodings
import PostQuantumUav.Puav.Honest.History

/-!
# The responder's indices and the initiator's signatures

Before the responder reserves an index it has accepted a signature over the SID0 of this
very session. The SID0 is a hash of the session's own nonce, so no signature serves two
sessions: unauthenticated traffic cannot use up the indices.
-/

namespace Puav.ProposedUavProtocol

open Interaction Cell Buffer

variable {α κ : Type} [Cell α]

/-- What a reservation of the responder follows, in its own session. -/
structure Authorized (config : NodeConfig) (record : PeerPublicRecord) (t : List (Step α κ))
    (nonceB : Nonce α) (message : List α) : Prop where
  drawn : draws nonceB ∈ t
  hashed : ∃ m0 nonceA sid version q publicKey,
    hashes (sid0Input m0 (m1Message config nonceA nonceB)) sid ∈ t ∧
      message = (signedInput (muA sid config.idA config.idB version publicKey) q).toList
  verified : ∃ q signature path, verifies q message signature record path ∈ t

theorem Authorized.mono {config : NodeConfig} {record : PeerPublicRecord} {t t' : List (Step α κ)}
    {nonceB : Nonce α} {message : List α} (more : t <+: t')
    (h : Authorized config record t nonceB message) :
    Authorized config record t' nonceB message := by
  obtain ⟨m0, nonceA, sid, version, q, publicKey, hashed, object⟩ := h.hashed
  obtain ⟨q', signature, path, verified⟩ := h.verified
  exact ⟨more.subset h.drawn, ⟨m0, nonceA, sid, version, q, publicKey, more.subset hashed, object⟩,
    q', signature, path, more.subset verified⟩

/-- A signature that was produced. -/
def isSignature : Step α κ → Bool
  | ⟨.sign _ _ _, answer⟩ => Option.isSome (answer : Option (SignatureCells α))
  | _ => false

/-- The objects that the initiator's sessions signed. -/
def signedObjects (history : History α κ) : List (List α) :=
  (history.filter fun e => e.1.1 = .initiator && isSignature e.2).filterMap fun e =>
    match e.2.call with
    | .sign _ message _ => some message
    | _ => none

omit [Cell α] in
theorem length_signedObjects (history : History α κ) : (signedObjects history).length ≤
    history.countP fun e => e.1.1 = .initiator && isSignature e.2 := by
  rw [List.countP_eq_length_filter]
  exact List.length_filterMap_le _ _

omit [Cell α] in
theorem mem_signedObjects {history : History α κ} {n : Nat} {q : UInt32} {message : List α}
    {runtimeSeed : Hash α} {signature : SignatureCells α}
    (mem : ((.initiator, n), signs q message runtimeSeed signature) ∈ history) :
    message ∈ signedObjects history :=
  List.mem_filterMap.mpr ⟨_, List.mem_filter.mpr ⟨mem, rfl⟩, rfl⟩

omit [Cell α] in
theorem signedObjects_subset {front back : History α κ} :
    signedObjects front ⊆ signedObjects (front ++ back) := by
  rw [signedObjects, signedObjects, List.filter_append, List.filterMap_append]
  exact List.subset_append_left _ _

namespace Network

variable [DecidableEq α] {network : Network α κ} {history : History α κ}

/-- A reservation is authorized by a signature of the peer. -/
theorem Happens.authorized (happens : network.Happens history) {front back : History α κ} {n : Nat}
    {value : UInt32} {written : Nat}
    (split : history = front ++ ((.responder, n), ⟨.putUInt value, written⟩) :: back) :
    ∃ nonceB message, Authorized network.responder network.initiatorRecord
      (own (.responder, n) front) nonceB message := by
  obtain ⟨m0, m1, sid, m2, hashM2, challenged, checked⟩ := happens.responderReason split
  obtain ⟨nonceB, drawn, rfl⟩ := challenged.drawn
  obtain ⟨version, q, publicKey, signature, path, -, verified⟩ := checked.verified
  exact ⟨nonceB, _, drawn, ⟨m0, _, sid, version, q, publicKey, challenged.hashed, rfl⟩,
    q, signature, path, verified⟩

omit [DecidableEq α] in
/-- A signed object authorizes one session. -/
theorem session_unique {n n' : Nat} {nonceB nonceB' : Nonce α} {message : List α}
    (collisionFree : CollisionFree history) (fresh : FreshNonces .responder history)
    (h : Authorized network.responder network.initiatorRecord (own (.responder, n) history) nonceB
      message)
    (h' : Authorized network.responder network.initiatorRecord (own (.responder, n') history)
      nonceB' message) : n = n' := by
  obtain ⟨m0, nonceA, sid, version, q, publicKey, hashed, rfl⟩ := h.hashed
  obtain ⟨m0', nonceA', sid', version', q', publicKey', hashed', same⟩ := h'.hashed
  obtain ⟨rfl, -⟩ := Encoded.muA_inj (Encoded.signedInput_inj same).1
  have inputs := collisionFree _ _ _ _ _ (mem_own.mp hashed) (mem_own.mp hashed')
  obtain ⟨-, challenges⟩ := Encoded.sid0Input_inj inputs
  obtain ⟨-, rfl⟩ := m1Message_inj challenges
  exact fresh n n' nonceB (mem_own.mp h.drawn) (mem_own.mp h'.drawn)

/-- The signature that authorizes a reservation is one that the initiator made before. -/
theorem Happens.authorized_signed (happens : network.Happens history)
    (unforgeable : Unforgeable .initiator network.initiatorRecord history)
    {front back : History α κ} {n : Nat} {value : UInt32} {written : Nat}
    (split : history = front ++ ((.responder, n), ⟨.putUInt value, written⟩) :: back) :
    ∃ nonceB, ∃ message ∈ signedObjects front, Authorized network.responder network.initiatorRecord
      (own (.responder, n) front) nonceB message := by
  obtain ⟨nonceB, message, authorized⟩ := happens.authorized split
  obtain ⟨q, signature, path, verified⟩ := authorized.verified
  obtain ⟨before, after, rfl⟩ := List.append_of_mem (mem_own.mp verified)
  rw [List.append_assoc] at split
  obtain ⟨i, q', runtimeSeed, signature', signed⟩ := unforgeable before _ _ _ _ _ _ split
  exact ⟨nonceB, message, mem_signedObjects (List.mem_append_left _ signed), authorized⟩

/-- The responder never has more reservations than there are signatures of the initiator. -/
theorem Happens.reservations_le (happens : network.Happens history)
    (collisionFree : CollisionFree history) (fresh : FreshNonces .responder history)
    (unforgeable : Unforgeable .initiator network.initiatorRecord history) :
    (history.countP fun e => (e.1.1 = .responder) && e.2.call.reserves) ≤
      history.countP fun e => (e.1.1 = .initiator) && isSignature e.2 := by
  have once : ∀ session : Session, decide (session.1 = .responder) = true →
      (own session history).countP (fun e => e.call.reserves) ≤ 1 :=
    fun session _ => (happens.uses session).1
  have found : ∀ (session : Session) e, (session, e) ∈ history →
      decide (session.1 = .responder) = true → e.call.reserves = true →
      ∃ message ∈ signedObjects history, ∃ n nonceB, session = (.responder, n) ∧
        Authorized network.responder network.initiatorRecord (own (.responder, n) history) nonceB
          message := by
    rintro ⟨role, n⟩ ⟨c, a⟩ mem is reserves
    obtain rfl : role = .responder := of_decide_eq_true is
    cases c with
    | putUInt value =>
        obtain ⟨front, back, split⟩ := List.append_of_mem mem
        obtain ⟨nonceB, message, signed, authorized⟩ := happens.authorized_signed unforgeable split
        exact ⟨message, split ▸ signedObjects_subset signed, n, nonceB, rfl,
          authorized.mono (own_mono ⟨_, split.symm⟩)⟩
    | _ => cases reserves
  refine Nat.le_trans (countP_le_of_once once found ?_) (length_signedObjects history)
  rintro _ _ message ⟨n, nonceB, rfl, authorized⟩ ⟨n', nonceB', rfl, authorized'⟩
  rw [session_unique collisionFree fresh authorized authorized']

/-- At every point of a history the responder has reserved at most as many indices as the
initiator has produced signatures, and each reservation follows the acceptance, in the same
session, of a signature over a SID0 with the session's own nonce. -/
theorem reservations_le_signatures (network : Network α κ) (history : History α κ)
    (happens : network.Happens history) (collisionFree : CollisionFree history)
    (fresh : FreshNonces .responder history)
    (unforgeable : Unforgeable .initiator network.initiatorRecord history) :
    (∀ front back, history = front ++ back →
      (front.countP fun e => (e.1.1 = .responder) && e.2.call.reserves) ≤
        front.countP fun e => (e.1.1 = .initiator) && isSignature e.2) ∧
    ∀ front back n value (written : Nat),
      history = front ++ ((.responder, n), ⟨.putUInt value, written⟩) :: back →
        ∃ nonceB message, Authorized network.responder network.initiatorRecord
          (own (.responder, n) front) nonceB message := by
  refine ⟨?_, fun front back n value written split => happens.authorized split⟩
  rintro front back rfl
  exact happens.before.reservations_le collisionFree.before fresh.before unforgeable.before

/-- In an honest session the responder accepts. -/
theorem reservations_le_signatures_honest :
    ∃ (history : History Symbolic.Symbol Unit) (view : View _),
      symbolicHandshake.network.Happens history ∧
      ((.responder, 0), notes .accepted view) ∈ history ∧ ∀ front back, history = front ++ back →
      (front.countP fun e => (e.1.1 = .responder) && e.2.call.reserves) ≤
        front.countP fun e => (e.1.1 = .initiator) && isSignature e.2 := by
  obtain ⟨record, history, enacted⟩ := exists_symbolic
  have ideal := symbolic_ideal enacted
  exact ⟨history, _, enacted.happens, enacted.accepted, (reservations_le_signatures
    symbolicHandshake.network history enacted.happens ideal.collisionFree (ideal.freshNonces _)
    ideal.initiatorSigned).1⟩

/-- Unauthenticated traffic uses up no index of the responder. At every point of a history it has
reserved at most as many indices as the initiator has signed M2 objects. Before each reservation
the session has accepted a signature for a SID0 of its own nonce, and this object was signed by
the initiator; whatever the initiator signs is the object of an M2 in a session of its own. -/
theorem responder_indices_not_drained (network : Network α κ) (history : History α κ)
    (happens : network.Happens history) (collisionFree : CollisionFree history)
    (fresh : FreshNonces .responder history)
    (unforgeable : Unforgeable .initiator network.initiatorRecord history) :
    (∀ front back, history = front ++ back →
      (front.countP fun e => (e.1.1 = .responder) && e.2.call.reserves) ≤
        front.countP fun e => (e.1.1 = .initiator) && isSignature e.2) ∧
    (∀ front back n value (written : Nat),
      history = front ++ ((.responder, n), ⟨.putUInt value, written⟩) :: back →
        ∃ nonceB, ∃ message ∈ signedObjects front, Authorized network.responder
          network.initiatorRecord (own (.responder, n) front) nonceB message) ∧
    ∀ front back n q message runtimeSeed (answer : Option (SignatureCells α)),
      history = front ++ ((.initiator, n), ⟨.sign q message runtimeSeed, answer⟩) :: back →
        ∃ m0 m1 sid key publicKey version,
          message = (signedInput (muA sid network.initiator.idA network.initiator.idB version
            publicKey) q).toList ∧
          Offering network.initiator (own (.initiator, n) front) m0 m1 sid key publicKey := by
  refine ⟨?_, ?_, ?_⟩
  · rintro front back rfl
    exact happens.before.reservations_le collisionFree.before fresh.before unforgeable.before
  · intro front back n value written split
    exact happens.authorized_signed unforgeable split
  · intro front back n q message runtimeSeed answer split
    exact happens.initiatorReason split

/-- In an honest session the object that the responder accepts is one of the initiator. -/
theorem responder_indices_not_drained_honest :
    ∃ (history : History Symbolic.Symbol Unit) (view : View _),
      symbolicHandshake.network.Happens history ∧
      ((.responder, 0), notes .accepted view) ∈ history ∧
      (∀ front back, history = front ++ back →
        (front.countP fun e => (e.1.1 = .responder) && e.2.call.reserves) ≤
          front.countP fun e => (e.1.1 = .initiator) && isSignature e.2) ∧
      ∀ front back n value (written : Nat),
        history = front ++ ((.responder, n), ⟨.putUInt value, written⟩) :: back →
          ∃ nonceB, ∃ message ∈ signedObjects front,
            Authorized symbolicHandshake.network.responder symbolicHandshake.network.initiatorRecord
              (own (.responder, n) front) nonceB message := by
  obtain ⟨record, history, enacted⟩ := exists_symbolic
  have ideal := symbolic_ideal enacted
  obtain ⟨count, authorized, -⟩ := responder_indices_not_drained symbolicHandshake.network history
    enacted.happens ideal.collisionFree (ideal.freshNonces _) ideal.initiatorSigned
  exact ⟨history, _, enacted.happens, enacted.accepted, count, authorized⟩

end Network

end Puav.ProposedUavProtocol
