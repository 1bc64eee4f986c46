import Mathlib.Data.List.Induction
import PostQuantumUav.Library.Symbolic
import PostQuantumUav.Puav.ProtocolRoutines
import PostQuantumUav.Puav.Trace.History

/-!
# Sessions in the symbolic model

The cells of all messages are symbols: the hash, the tags and the derived keys are free
constructors, and what a session draws, generates, encapsulates or signs is atomic. The
network belongs to an observer, who may deliver whatever it can build from the messages
that were sent before.

A shared secret that the responder encapsulated for a key of the initiator stays secret,
and so does every tag under a key that is derived from it, as long as no session has sent
the tag itself.
-/

namespace Puav.ProposedUavProtocol

open Interaction Cell Buffer Symbolic

variable {κ : Type}

section Functions

def shaOf (data : List Symbol) : Hash Symbol := cells hashBytes (.sha data)

def hmacOf (key data : List Symbol) : Hash Symbol := cells hashBytes (.hmac key data)

def hkdfOf (ikm salt info : List Symbol) (length : Nat) : List.Vector Symbol length :=
  cells length (.hkdf ikm salt info)

/-- The secret that is encapsulated for a public key in a ciphertext. -/
def sharedOf (publicKey : KemPublicKey Symbol) (ciphertext : KemCiphertext Symbol) : Hash Symbol :=
  cells hashBytes (.shared publicKey.toList ciphertext.toList)

theorem shaOf_inj {data data' : List Symbol} (same : shaOf data = shaOf data') : data = data' := by
  injection cells_inj same

end Functions

variable {history front : History Symbol κ}

/-- The responder encapsulated this ciphertext for a key that the initiator generated. -/
def Transported (history : History Symbol κ) (publicKey ciphertext : List Symbol) : Prop :=
  ∃ (publicKey' : KemPublicKey Symbol) (ciphertext' : KemCiphertext Symbol),
    publicKey = publicKey'.toList ∧ ciphertext = ciphertext'.toList ∧
    (∃ n key, ((.initiator, n), exports key publicKey') ∈ history) ∧
    ∃ n key sharedSecret, ((.responder, n), imports publicKey' key) ∈ history ∧
      ((.responder, n), encapsulates key ciphertext' sharedSecret) ∈ history

/-- A cell of a message that a session sent. -/
def SentCell (history : History Symbol κ) (x : Symbol) : Prop :=
  ∃ session destination type n data answer,
    (session, (⟨.sendMessage destination type n data, answer⟩ : Step Symbol κ)) ∈ history ∧ x ∈ data

/-- A cell of a message that was delivered to a session. -/
def DeliveredCell (history : History Symbol κ) (x : Symbol) : Prop :=
  ∃ session type n capacity timeoutMs packet, ∃ cells : List Symbol,
    (session, (⟨.receiveMessage type n capacity timeoutMs, (packet, cells)⟩ : Step Symbol κ)) ∈
      history ∧ x ∈ cells

/-- How the calls of all sessions are answered in the symbolic model. -/
structure Ideal (network : Network Symbol κ) (history : History Symbol κ) : Prop where
  sha : ∀ session data hash, (session, hashes data hash) ∈ history → hash = shaOf data
  hmac : ∀ session key data tag, (session, tags key data tag) ∈ history → tag = hmacOf key data
  hkdf : ∀ session ikm salt info length, ∀ material : List.Vector Symbol length,
    (session, derives ikm salt info material) ∈ history → material = hkdfOf ikm salt info length
  nonces : ∀ session nonce, (session, draws nonce) ∈ history → ∀ x ∈ nonce.toList, x.Atomic
  publicKeys : ∀ session key publicKey, (session, exports key publicKey) ∈ history →
    ∀ x ∈ publicKey.toList, x.Atomic
  ciphertexts : ∀ session key ciphertext sharedSecret,
    (session, encapsulates key ciphertext sharedSecret) ∈ history →
      ∀ x ∈ ciphertext.toList, x.Atomic
  signatures : ∀ session q message runtimeSeed signature,
    (session, signs q message runtimeSeed signature) ∈ history → ∀ x ∈ signature.toList, x.Atomic
  paths : ∀ session q path, (session, attaches q path) ∈ history → ∀ x ∈ path.toList, x.Atomic
  /-- Nonces of different sessions differ. -/
  fresh : ∀ session session' nonce, (session, draws nonce) ∈ history →
    (session', draws nonce) ∈ history → session = session'
  encapsulated : ∀ session key publicKey ciphertext sharedSecret,
    (session, imports publicKey key) ∈ history →
    (session, encapsulates key ciphertext sharedSecret) ∈ history →
    (∃ n key', ((.initiator, n), exports key' publicKey) ∈ history) →
      sharedSecret = sharedOf publicKey ciphertext
  decapsulated : ∀ session key publicKey ciphertext sharedSecret,
    (session, exports key publicKey) ∈ history →
    (session, decapsulates key ciphertext sharedSecret) ∈ history →
      sharedSecret = sharedOf publicKey ciphertext
  initiatorSigned : Unforgeable .initiator network.initiatorRecord history
  responderSigned : Unforgeable .responder network.responderRecord history
  /-- What is delivered can be built from what was sent before; only the secrets that the
  responder encapsulated for the initiator are protected. -/
  observed : ∀ front back session type n capacity timeoutMs packet, ∀ cells : List Symbol,
    history = front ++ (session, (⟨.receiveMessage type n capacity timeoutMs, (packet, cells)⟩ :
      Step Symbol κ)) :: back → ∀ x ∈ cells, Derivable (Transported history) (SentCell front) x

theorem Ideal.collisionFree {network : Network Symbol κ} (ideal : Ideal network history) :
    CollisionFree history := by
  intro session session' data data' hash mem mem'
  exact shaOf_inj ((ideal.sha _ _ _ mem).symm.trans (ideal.sha _ _ _ mem'))

theorem Ideal.freshNonces {network : Network Symbol κ} (ideal : Ideal network history)
    (role : Role) : FreshNonces role history :=
  fun _ _ _ mem mem' => congrArg Prod.snd (ideal.fresh _ _ _ mem mem')

section Growth

variable {e : Session × Step Symbol κ} {x : Symbol}

theorem sent_snoc (h : SentCell (history ++ [e]) x) : SentCell history x ∨
    ∃ destination type n data answer, e.2 = ⟨.sendMessage destination type n data, answer⟩ ∧
      x ∈ data := by
  obtain ⟨session, destination, type, n, data, answer, mem, inside⟩ := h
  rcases List.mem_append.mp mem with old | new
  · exact .inl ⟨session, destination, type, n, data, answer, old, inside⟩
  · obtain rfl := List.mem_singleton.mp new
    exact .inr ⟨destination, type, n, data, answer, rfl, inside⟩

theorem delivered_snoc (h : DeliveredCell (history ++ [e]) x) : DeliveredCell history x ∨
    ∃ type n capacity timeoutMs packet, ∃ cells : List Symbol,
      e.2 = ⟨.receiveMessage type n capacity timeoutMs, (packet, cells)⟩ ∧ x ∈ cells := by
  obtain ⟨session, type, n, capacity, timeoutMs, packet, cells, mem, inside⟩ := h
  rcases List.mem_append.mp mem with old | new
  · exact .inl ⟨session, type, n, capacity, timeoutMs, packet, cells, old, inside⟩
  · obtain rfl := List.mem_singleton.mp new
    exact .inr ⟨type, n, capacity, timeoutMs, packet, cells, rfl, inside⟩

theorem TakenIn.delivered {session : Session} (h : TakenIn (own session history) x) :
    x = ofByte 0 ∨ DeliveredCell history x := by
  rcases h with zero | ⟨type, n, capacity, timeoutMs, packet, cells, mem, inside⟩
  · exact .inl zero
  · exact .inr ⟨session, type, n, capacity, timeoutMs, packet, cells, mem_own.mp mem, inside⟩

end Growth

section Secrecy

variable {network : Network Symbol κ} {publicKey : KemPublicKey Symbol}
  {ciphertext : KemCiphertext Symbol} {key data : List Symbol}

/-- A cell that is not of the secret, of a key derived from it or of the tag of `data`. -/
abbrev Open (publicKey : KemPublicKey Symbol) (ciphertext : KemCiphertext Symbol)
    (key data : List Symbol) (x : Symbol) : Prop :=
  ¬ Symbolic.Secret publicKey.toList ciphertext.toList (sharedOf publicKey ciphertext).toList key
    data x

theorem open_of_atomic {x : Symbol} (atomic : x.Atomic) : Open publicKey ciphertext key data x :=
  fun secret => secret.not_atomic atomic

theorem open_bytes (b : UInt8) : Open publicKey ciphertext key data (ofByte b) :=
  open_of_atomic trivial

theorem open_sha (input : List Symbol) :
    Within (Open publicKey ciphertext key data) (shaOf input).toList := by
  intro x mem secret
  obtain ⟨i, rfl⟩ := mem_cells mem
  cases secret

/-- A tag of another string or under another key. -/
theorem open_hmac {key' data' : List Symbol} (other : ¬ (key' = key ∧ data' = data)) :
    Within (Open publicKey ciphertext key data) (hmacOf key' data').toList := by
  intro x mem secret
  obtain ⟨i, rfl⟩ := mem_cells mem
  cases secret
  exact other ⟨rfl, rfl⟩

/-- The tag was computed neither for an M3 nor for an M4. -/
structure Untagged (history : History Symbol κ) (key data : List Symbol) : Prop where
  m3 : ∀ n view, ((.responder, n), notes .keysDerived view) ∈ history →
    ¬ (view.confirmB.toList = key ∧ hashInput domainBConfirm view.transcriptHash = data)
  m4 : ∀ n view, ((.initiator, n), notes .tauBVerified view) ∈ history →
    ¬ (view.confirmA.toList = key ∧ hashInput domainAConfirm view.transcriptHash = data)

theorem Untagged.before {back : History Symbol κ} (h : Untagged (front ++ back) key data) :
    Untagged front key data :=
  ⟨fun n view mem => h.m3 n view (List.mem_append_left _ mem),
    fun n view mem => h.m4 n view (List.mem_append_left _ mem)⟩

/-- What a session received is open, when all that was delivered is. -/
theorem open_received {session : Session} {x : Symbol}
    (delivered : ∀ x, DeliveredCell front x → Open publicKey ciphertext key data x)
    (received : TakenIn (own session front) x) : Open publicKey ciphertext key data x := by
  rcases received.delivered with rfl | inside
  · exact open_bytes 0
  · exact delivered x inside

variable (ideal : Ideal network history)

include ideal

/-- The path that a message carries. -/
theorem Ideal.open_path {session : Session} {q : UInt32} {path : Option (PathCells Symbol)}
    (attached : ∀ p, path = some p → attaches q p ∈ own session history) :
    Within (Open publicKey ciphertext key data) (carriedPath path) := by
  cases path with
  | none => exact within_nil
  | some p =>
      exact fun x mem => open_of_atomic (ideal.paths _ _ _ (mem_own.mp (attached p rfl)) x mem)

/-- The signed part of M3. -/
theorem Ideal.open_inner {session : Session} {config : NodeConfig} {sid hashM2 : Hash Symbol}
    {ciphertext' : KemCiphertext Symbol} {inner : List Symbol} {key' : κ}
    {sharedSecret : Hash Symbol}
    (hashed : Within (Open publicKey ciphertext key data) sid.toList)
    (encapsulated : encapsulates key' ciphertext' sharedSecret ∈ own session history)
    (composed : Composed config (own session history) sid hashM2 ciphertext' inner) :
    Within (Open publicKey ciphertext key data) inner := by
  obtain ⟨version, q, signature, path, runtimeSeed, rfl, signed, attached⟩ := composed.parts
  have header := within_signedHeader open_bytes msgM3Inner version q hashed
  refine within_append.mpr ⟨within_append.mpr ⟨within_append.mpr ⟨header, ?_⟩, ?_⟩, ?_⟩
  · exact fun x mem => open_of_atomic (ideal.ciphertexts _ _ _ _ (mem_own.mp encapsulated) x mem)
  · exact fun x mem => open_of_atomic (ideal.signatures _ _ _ _ _ (mem_own.mp signed) x mem)
  · exact ideal.open_path attached

/-- A message of the responder is open when all that was delivered before is, unless it carries
the tag. -/
theorem Ideal.open_responds (happens : network.Happens front) (more : front <+: history) {n : Nat}
    {message : List Symbol}
    (delivered : ∀ x, DeliveredCell front x → Open publicKey ciphertext key data x)
    (untagged : Untagged front key data)
    (responds : RespondsWith network.responder (own (.responder, n) front) message) :
    Within (Open publicKey ciphertext key data) message := by
  cases responds with
  | @m1 m0 m1 sid challenged =>
      obtain ⟨nonceB, drawn, rfl⟩ := challenged.drawn
      refine within_m1Message open_bytes _ (fun x mem => ?_) fun x mem => ?_
      · exact open_received delivered (challenged.received x (mem_of_mem_slice mem))
      · exact open_of_atomic (ideal.nonces _ _ (more.subset (mem_own.mp drawn)) x mem)
  | @m3 view tauB derived tagged =>
      have keyed := (happens.keyed (mem_own.mp derived)).mono (own_mono more)
      obtain ⟨hashM2, ciphertext', sharedSecret, answering, composed, -⟩ := keyed
      obtain ⟨_, key', -, -, encapsulated⟩ := answering.encapsulated.done
      have sid := ideal.sha _ _ _ (mem_own.mp answering.challenged.hashed)
      have hashed : Within (Open publicKey ciphertext key data) view.sid.toList :=
        sid ▸ open_sha _
      have tag := ideal.hmac _ _ _ _ (more.subset (mem_own.mp tagged))
      refine within_m3Message open_bytes hashed (ideal.open_inner hashed encapsulated composed) ?_
      rw [tag]
      exact open_hmac (untagged.m3 n view (mem_own.mp derived))
  | result bytes =>
      intro x mem
      obtain ⟨b, rfl⟩ := bytes x mem
      exact open_bytes b

/-- The same of a message of the initiator. -/
theorem Ideal.open_initiates (happens : network.Happens front) (more : front <+: history) {n : Nat}
    {message : List Symbol} (untagged : Untagged front key data)
    (initiates : InitiatesWith network.initiator (own (.initiator, n) front) message) :
    Within (Open publicKey ciphertext key data) message := by
  cases initiates with
  | @m0 nonceA drawn =>
      refine within_m0Message open_bytes _ fun x mem => ?_
      exact open_of_atomic (ideal.nonces _ _ (more.subset (mem_own.mp drawn)) x mem)
  | @m2 m0 m1 sid key' publicKey' m2 hashM2 offering requested =>
      have offering := offering.mono (own_mono more)
      obtain ⟨version, q, signature, path, runtimeSeed, rfl, signed, attached⟩ :=
        (requested.mono (own_mono more)).parts
      have hashed : Within (Open publicKey ciphertext key data) sid.toList :=
        ideal.sha _ _ _ (mem_own.mp offering.opened.hashed) ▸ open_sha _
      have header := within_signedHeader open_bytes msgM2Init version q hashed
      refine within_append.mpr ⟨within_append.mpr ⟨within_append.mpr ⟨header, ?_⟩, ?_⟩, ?_⟩
      · exact fun x mem => open_of_atomic
          (ideal.publicKeys _ _ _ (mem_own.mp offering.exported) x mem)
      · exact fun x mem => open_of_atomic (ideal.signatures _ _ _ _ _ (mem_own.mp signed) x mem)
      · exact ideal.open_path attached
  | @m4 view tauA verified tagged =>
      have confirmed := (happens.confirmed (mem_own.mp verified)).mono (own_mono more)
      obtain ⟨_, _, _, _, _, offering, -⟩ := confirmed
      have hashed : Within (Open publicKey ciphertext key data) view.sid.toList :=
        ideal.sha _ _ _ (mem_own.mp offering.opened.hashed) ▸ open_sha _
      refine within_m4Message open_bytes hashed ?_
      rw [ideal.hmac _ _ _ _ (more.subset (mem_own.mp tagged))]
      exact open_hmac (untagged.m4 n view (mem_own.mp verified))

/-- Nothing that is sent or delivered is of a protected secret while no session has sent the tag. -/
theorem Ideal.untold (happens : network.Happens history)
    (safe : Transported history publicKey.toList ciphertext.toList)
    (fromShared : ∃ salt info i,
      Symbol.hkdf (sharedOf publicKey ciphertext).toList salt info i ∈ key)
    {back : History Symbol κ} (split : history = front ++ back)
    (untagged : Untagged front key data) :
    (∀ x, SentCell front x → Open publicKey ciphertext key data x) ∧
      ∀ x, DeliveredCell front x → Open publicKey ciphertext key data x := by
  induction front using List.reverseRecOn generalizing back with
  | nil =>
      constructor
      · rintro x ⟨session, destination, type, n, cells, answer, mem, -⟩
        cases mem
      · rintro x ⟨session, type, n, capacity, timeoutMs, packet, cells, mem, -⟩
        cases mem
  | append_singleton front e ih =>
      obtain ⟨session, e⟩ := e
      have now : history = front ++ (session, e) :: back := by
        rw [split, List.append_assoc, List.singleton_append]
      have more : front <+: history := ⟨_, now.symm⟩
      have before : network.Happens front := Network.Happens.before (now ▸ happens)
      obtain ⟨sent, delivered⟩ := ih now untagged.before
      refine ⟨fun x inside => ?_, fun x inside => ?_⟩
      · rcases sent_snoc inside with old | ⟨destination, type, n, message, answer, rfl, mem⟩
        · exact sent x old
        obtain ⟨role, m⟩ := session
        cases role with
        | initiator =>
            exact ideal.open_initiates before more untagged.before
              (happens.initiatorReason now) x mem
        | responder =>
            exact ideal.open_responds before more delivered untagged.before
              (happens.responderReason now) x mem
      · rcases delivered_snoc inside with
          old | ⟨type, n, capacity, timeoutMs, packet, cells, rfl, mem⟩
        · exact delivered x old
        have derivable := ideal.observed _ _ _ _ _ _ _ _ _ now x mem
        exact derivable.not_secret safe ⟨_, cell_mem _ (0 : Fin hashBytes)⟩ fromShared sent

end Secrecy

end Puav.ProposedUavProtocol
