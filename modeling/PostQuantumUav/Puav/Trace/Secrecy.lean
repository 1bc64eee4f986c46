import PostQuantumUav.Puav.Trace.Agreement

/-!
# Session keys stay secret

The keys of a view are never sent, and nobody can derive them who was told all messages of
all sessions: neither the keys of an initiator that has accepted tau_B nor those of a
responder that has derived them, whoever it answers.

Their material names the transcript. So a key belongs to one view, and a view to one
session of either device.
-/

namespace Puav.ProposedUavProtocol

open Interaction Cell Buffer Symbolic

variable {κ : Type} {network : Network Symbol κ} {history : History Symbol κ}

/-- The session has the keys of a view: an initiator that has accepted tau_B, or a responder
that has derived them. -/
def HoldsKeys (history : History Symbol κ) (session : Session) (view : View Symbol) : Prop :=
  match session with
  | (.initiator, n) => ((.initiator, n), notes .tauBVerified view) ∈ history
  | (.responder, n) => ((.responder, n), notes .keysDerived view) ∈ history

/-- The cells of the three keys of a view. -/
def keyCells (view : View Symbol) : List Symbol :=
  view.sessionKey.toList ++ view.confirmA.toList ++ view.confirmB.toList

section Keys

variable (ideal : Ideal network history) (happens : network.Happens history)

include ideal happens

/-- The key exchange behind a view, on either side. -/
theorem Ideal.exchange {session : Session} {view : View Symbol}
    (holds : HoldsKeys history session view) :
    ∃ publicKey ciphertext, Transported history publicKey.toList ciphertext.toList ∧
      Symbolized (sharedOf publicKey ciphertext) view := by
  obtain ⟨role, n⟩ := session
  cases role with
  | initiator => exact ideal.initiator_exchange happens holds
  | responder => exact ideal.responder_exchange happens holds

/-- One view is held by at most one session of each device. -/
theorem Ideal.holder_unique {session session' : Session} {view : View Symbol}
    (holds : HoldsKeys history session view) (holds' : HoldsKeys history session' view)
    (same : session.1 = session'.1) : session = session' := by
  obtain ⟨role, n⟩ := session
  obtain ⟨role', n'⟩ := session'
  obtain rfl : role = role' := same
  cases role with
  | initiator => rw [ideal.initiator_unique happens holds holds' rfl]
  | responder => rw [ideal.responder_unique happens holds holds' rfl]

end Keys

/-- A cell of a key is one of the material that is derived from the secret. -/
theorem Symbolized.secret {publicKey : KemPublicKey Symbol} {ciphertext : KemCiphertext Symbol}
    {view : View Symbol} {key data : List Symbol} {x : Symbol}
    (is : Symbolized (sharedOf publicKey ciphertext) view) (mem : x ∈ keyCells view) :
    Symbolic.Secret publicKey.toList ciphertext.toList (sharedOf publicKey ciphertext).toList key
      data x := by
  have field : ∃ offset, x ∈ keyOf (sharedOf publicKey ciphertext) view.transcriptHash offset := by
    rcases List.mem_append.mp mem with mem | mem
    · rcases List.mem_append.mp mem with mem | mem
      · exact ⟨_, is.sessionKey ▸ mem⟩
      · exact ⟨_, is.confirmA ▸ mem⟩
    · exact ⟨_, is.confirmB ▸ mem⟩
  obtain ⟨offset, mem⟩ := field
  obtain ⟨i, rfl⟩ := mem_cells (mem_of_mem_slice mem)
  exact .hkdf _ _ i

/-- Nobody derives a cell of the keys that a session holds from all that was sent, and no other
session of the same device, and no other view, has its session key. -/
theorem session_keys_secret (network : Network Symbol κ) (history : History Symbol κ)
    (happens : network.Happens history) (ideal : Ideal network history) {session : Session}
    {view : View Symbol} (holds : HoldsKeys history session view) :
    (∀ x ∈ keyCells view, ¬ Derivable (Transported history) (SentCell history) x) ∧
      ∀ session' view', HoldsKeys history session' view' → view'.sessionKey = view.sessionKey →
        view' = view ∧ (session'.1 = session.1 → session' = session) := by
  obtain ⟨publicKey, ciphertext, safe, is⟩ := ideal.exchange happens holds
  refine ⟨fun x mem derivable => ?_, fun session' view' holds' same => ?_⟩
  · obtain ⟨i, inside⟩ := mem_keyOf is.confirmA
    -- No session tags this string under any key.
    have untagged : Untagged history view.confirmA.toList
        (hashInput domainUavAke view.transcriptHash) := by
      constructor
      all_goals
        rintro n view' - ⟨-, strings⟩
        exact absurd (hashInput_domain strings) (by decide)
    obtain ⟨sent, -⟩ :=
      ideal.untold happens safe ⟨_, _, i, inside⟩ (List.append_nil _).symm untagged
    exact derivable.not_secret safe ⟨_, cell_mem _ (0 : Fin hashBytes)⟩ ⟨_, _, i, inside⟩ sent
      (is.secret mem)
  · obtain ⟨publicKey', ciphertext', -, is'⟩ := ideal.exchange happens holds'
    obtain ⟨secrets, transcripts⟩ := keyOf_inj is'.sessionKey (same ▸ is.sessionKey)
    obtain rfl := is'.view_eq (secrets ▸ is) transcripts
    exact ⟨rfl, ideal.holder_unique happens holds' holds⟩

/-- The keys of an honest session. -/
theorem session_keys_secret_honest :
    ∃ (history : History Symbol Unit) (view : View Symbol),
      symbolicHandshake.network.Happens history ∧ Ideal symbolicHandshake.network history ∧
        HoldsKeys history (.initiator, 0) view ∧
        ∀ x ∈ keyCells view, ¬ Derivable (Transported history) (SentCell history) x := by
  obtain ⟨record, history, enacted⟩ := exists_symbolic
  have ideal := symbolic_ideal enacted
  have holds : HoldsKeys history (.initiator, 0) symbolicHandshake.view := enacted.tauBVerified
  exact ⟨history, _, enacted.happens, ideal, holds, (session_keys_secret symbolicHandshake.network
    history enacted.happens ideal holds).1⟩

end Puav.ProposedUavProtocol
