import PostQuantumUav.Library.HashChain
import PostQuantumUav.Puav.Lms.Binding
import PostQuantumUav.Puav.Lms.Checksum

/-!
# What a forged signature shows

A signature that `verify` accepts under the root of a built tree consists of chain values of
its index: for every chain the value as many steps from the secret start as its coefficient
says. Otherwise two different strings with one SHA-256 value are at hand.

The owner who signs one message with an index releases each chain from one step on. A
second message has a smaller coefficient somewhere, so whoever produces a signature for it
knows a chain value before the released one.
-/

namespace Puav

open Interaction Cell Hashing

variable {sha : Bytes → Digest}

namespace LmotsLms

variable {identifier : Identifier} {seed C : Digest} {q : Nat} {message : Bytes}

/-- The string whose hash is signed. -/
def messageInput (identifier : Identifier) (q : Nat) (C : Digest) (message : Bytes) : Bytes :=
  identifier.toList ++ putU32 (.ofNat q) ++ putU16 dMesg ++ C.toList ++ message

/-- How far each chain is released for a message. -/
def released (sha : Bytes → Digest) (identifier : Identifier) (q : Nat) (C : Digest)
    (message : Bytes) (i : Nat) : Nat :=
  coefficients (sha (messageInput identifier q C message)) i

/-- The value of chain `i` of index `q` at a step. -/
def chainValue (sha : Bytes → Digest) (identifier : Identifier) (seed : Digest) (q i step : Nat) :
    Digest :=
  chain sha identifier q i 0 step (privateElement sha identifier seed q i)

section Preimages

theorem messageInput_inj {C' : Digest} {message' : Bytes}
    (same : messageInput identifier q C message = messageInput identifier q C' message') :
    C = C' ∧ message = message' := by
  simp only [messageInput, List.append_assoc] at same
  obtain ⟨randomizers, messages⟩ := List.append_inj (List.append_cancel_left
    (List.append_cancel_left (List.append_cancel_left same)))
    (C.toList_length.trans C'.toList_length.symm)
  exact ⟨List.Vector.toList_injective randomizers, messages⟩

theorem chainInput_injective (i j : Nat) :
    Function.Injective (chainInput identifier q i j) := fun _ _ same =>
  List.Vector.toList_injective (List.append_cancel_left same)

theorem flatten_injective {digests digests' : List Digest}
    (length : digests.length = digests'.length)
    (same : (digests.map List.Vector.toList).flatten = (digests'.map List.Vector.toList).flatten) :
    digests = digests' := by
  induction digests generalizing digests' with
  | nil => exact (List.length_eq_zero_iff.mp length.symm).symm
  | cons d rest ih =>
      cases digests' with
      | nil => cases length
      | cons d' rest' =>
          simp only [List.map_cons, List.flatten_cons] at same
          obtain ⟨first, later⟩ :=
            List.append_inj same (d.toList_length.trans d'.toList_length.symm)
          rw [List.Vector.toList_injective first, ih (Nat.succ.inj length) later]

theorem publicInput_inj {ends ends' : List Digest} (length : ends.length = ends'.length)
    (same : publicInput identifier q ends = publicInput identifier q ends') : ends = ends' :=
  flatten_injective length (List.append_cancel_left same)

end Preimages

section Strings

theorem inputs_subset_hashed {i : Nat} (start count : Nat) (x : Digest) :
    HashChain.inputs sha (chainInput identifier q i) start count x ⊆
      hashed sha ((List.range' start count).foldlM (fun current j =>
        CryptoHelpers.sha256 (chainInput identifier q i j current)) x) := by
  induction count generalizing start x with
  | zero => exact List.nil_subset _
  | succ count ih =>
      have short : (chainInput identifier q i start x).length ≤ uint32Max := by
        rw [length_chainInput]
        decide
      have later := hashed_subset_bind_of_eval (@CryptoHelpers.eval_sha256 sha _ short)
        fun current => (List.range' (start + 1) count).foldlM (fun current j =>
          CryptoHelpers.sha256 (chainInput identifier q i j current)) current
      rw [HashChain.inputs, List.range'_succ, List.foldlM_cons]
      refine List.cons_subset.mpr ⟨hashed_subset_bind _ _ ?_, List.Subset.trans (ih _ _) later⟩
      rw [CryptoHelpers.hashed_sha256 short]
      exact List.mem_singleton_self _

/-- The signer's public hash walks every chain to its end. -/
theorem signer_strings :
    (∀ i < p, HashChain.inputs sha (chainInput identifier q i) 0 maxChain
      (privateElement sha identifier seed q i) ⊆ hashed sha (lmotsPublicHash identifier seed q)) ∧
    publicInput identifier q (chainEnds sha identifier seed q) ∈
      hashed sha (lmotsPublicHash identifier seed q) := by
  have step : ∀ i ∈ List.range p, eval sha (do
      let x ← derivePrivateElement identifier seed q i
      chainHash identifier q i 0 maxChain x) =
      some (chain sha identifier q i 0 maxChain (privateElement sha identifier seed q i)) := by
    intro i _
    rw [eval_bind, eval_derivePrivateElement, Option.bind_some, eval_chainHash, Nat.sub_zero]
  refine ⟨fun i bound => ?_, ?_⟩
  · apply List.Subset.trans ?_ (hashed_subset_bind _ _)
    refine List.Subset.trans ?_ (Fallible.calls_subset_mapM (List.mem_range.mpr bound) step)
    refine List.Subset.trans ?_ (hashed_subset_bind_of_eval eval_derivePrivateElement _)
    exact inputs_subset_hashed 0 maxChain _
  · apply hashed_subset_bind_of_eval (eval_mapM _ step)
    rw [CryptoHelpers.hashed_sha256]
    · exact List.mem_singleton_self _
    · rw [length_publicInput, List.length_map, List.length_range]
      decide

theorem messageInput_mem_hashed (fits : message.length ≤ 970) :
    messageInput identifier q C message ∈
      hashed sha (hashMessageWithChecksum identifier q C message smallHashInputBytes) := by
  have required : ¬ (16 + 4 + 2 + hashBytes + message.length > smallHashInputBytes) := by
    simp only [hashBytes, smallHashInputBytes]
    omega
  rw [hashMessageWithChecksum, if_neg required]
  apply hashed_subset_bind
  rw [CryptoHelpers.hashed_sha256]
  · exact List.mem_singleton_self _
  · simp only [List.length_append, identifier.toList_length, C.toList_length, length_putU32,
      length_putU16, hashBytes, uint32Max]
    omega

/-- The signer hashes its message. -/
theorem sign_string (lms : LmotsLms) (hq : q < lmsLeaves) (fits : message.length ≤ 970) :
    messageInput lms.identifier q C message ∈ hashed sha (lms.sign q message seed C) := by
  rw [sign, if_neg (Nat.not_le.mpr hq)]
  exact hashed_subset_bind _ _ (messageInput_mem_hashed fits)

variable {signature : LmotsSignature}

/-- The verifier hashes the message, walks every chain from the signed value on, and hashes the
ends. -/
theorem candidate_strings (typed : getU32 signature.toList = lmotsType)
    (fits : message.length ≤ 970) :
    messageInput identifier q (signatureC signature) message ∈
      hashed sha (lmotsCandidatePublicHash identifier q message signature) ∧
    (∀ i : Fin p, HashChain.inputs sha (chainInput identifier q i)
      (released sha identifier q (signatureC signature) message i)
      (maxChain - released sha identifier q (signatureC signature) message i)
      (signatureY signature i) ⊆
        hashed sha (lmotsCandidatePublicHash identifier q message signature)) ∧
    publicInput identifier q (candidateChainEnds sha identifier q message signature) ∈
      hashed sha (lmotsCandidatePublicHash identifier q message signature) := by
  have hashedMessage : eval sha (hashMessageWithChecksum identifier q (signatureC signature)
      message smallHashInputBytes) =
      some (digestAndChecksum sha identifier q (signatureC signature) message) :=
    eval_hashMessageWithChecksum _ (by simp only [smallHashInputBytes]; omega) (by decide)
  have step : ∀ i ∈ List.finRange p, eval sha (chainHash identifier q i (coefficientW4
      (digestAndChecksum sha identifier q (signatureC signature) message) i).toNat maxChain
      (signatureY signature i)) = some (chain sha identifier q i _ _ _) :=
    fun i _ => eval_chainHash _ _ _
  rw [lmotsCandidatePublicHash, if_neg (not_not.mpr typed)]
  refine ⟨hashed_subset_bind _ _ (messageInput_mem_hashed fits), fun i => ?_, ?_⟩
  · refine List.Subset.trans ?_ (hashed_subset_bind_of_eval hashedMessage _)
    refine List.Subset.trans ?_ (hashed_subset_bind _ _)
    refine List.Subset.trans ?_ (Fallible.calls_subset_mapM (List.mem_finRange i) step)
    exact inputs_subset_hashed _ _ _
  · apply hashed_subset_bind_of_eval hashedMessage
    apply hashed_subset_bind_of_eval (eval_mapM _ step)
    rw [CryptoHelpers.hashed_sha256]
    · exact List.mem_singleton_self _
    · rw [length_publicInput, List.length_map, List.length_finRange]
      decide

end Strings

section Accepted

variable {lms built : LmotsLms} {tree : Nat → Digest} {signature : LmotsSignature} {path : Path}

/-- The candidate public hash is computed by the verifier. -/
theorem candidate_subset_verifierStrings (root : Digest) (hq : q < lmsLeaves) :
    hashed sha (lmotsCandidatePublicHash identifier q message signature) ⊆
      verifierStrings sha q message signature identifier path root := by
  have inner := @hashed_candidateRoot_subset sha identifier q message signature path root
  rw [candidateRoot_of_lt signature path hq] at inner
  exact List.Subset.trans (hashed_subset_bind _ _) inner

/-- One chain of an accepted signature meets the signer's at its end. -/
theorem chain_binds (i : Fin p) (meet : chain sha identifier q i
      (released sha identifier q (signatureC signature) message i)
      (maxChain - released sha identifier q (signatureC signature) message i)
      (signatureY signature i) = chainValue sha identifier seed q i maxChain) :
    signatureY signature i = chainValue sha identifier seed q i
      (released sha identifier q (signatureC signature) message i) ∨
    HashTree.Collides sha (HashChain.inputs sha (chainInput identifier q i)
      (released sha identifier q (signatureC signature) message i)
      (maxChain - released sha identifier q (signatureC signature) message i)
      (signatureY signature i))
    (HashChain.inputs sha (chainInput identifier q i) 0 maxChain
      (privateElement sha identifier seed q i)) := by
  have bound : released sha identifier q (signatureC signature) message i ≤ maxChain :=
    coefficientW4_le _ i
  have complete :=
    @chain_complete sha identifier q i _ bound (privateElement sha identifier seed q i)
  rcases HashChain.walk_binds (chainInput_injective i) (meet.trans complete.symm) with
    same | collision
  · exact .inl same
  · refine .inr (collision.mono sha (List.Subset.refl _) ?_)
    have suffix := HashChain.inputs_suffix sha (chainInput identifier q i) 0
      (released sha identifier q (signatureC signature) message i)
      (maxChain - released sha identifier q (signatureC signature) message i)
      (privateElement sha identifier seed q i)
    rw [Nat.zero_add, Nat.add_sub_cancel' bound] at suffix
    exact suffix

/-- An accepted signature consists of chain values of its index. -/
theorem accepted_chains (done : eval sha lms.buildTree = some built)
    (stored : built.tree = some tree) (whole : Built sha lms.identifier lms.seed tree)
    (accepted : (verify q message signature lms.identifier path (tree 1)).eval (answered sha) =
      true) :
    (built.extractPath q = some path ∧ ∀ i : Fin p, signatureY signature i =
      chainValue sha lms.identifier lms.seed q i
        (released sha lms.identifier q (signatureC signature) message i)) ∨
    HashTree.Collides sha
      (verifierStrings sha q message signature lms.identifier path (tree 1))
      (hashed sha lms.buildTree) := by
  rcases accepted_path done stored whole accepted with ⟨own, hashes⟩ | collision
  · rw [eval_verify] at accepted
    obtain ⟨hq, typed, fits⟩ := checks_of_candidateRoot accepted
    have verifier := @candidate_subset_verifierStrings sha lms.identifier q message signature path
      (tree 1) hq
    have signer := lmotsPublicHash_hashed done hq
    obtain ⟨-, walked, covered⟩ := @candidate_strings sha lms.identifier q message signature typed
      fits
    obtain ⟨walks, ends⟩ := @signer_strings sha lms.identifier lms.seed q
    rw [eval_lmotsCandidatePublicHash signature typed fits, eval_lmotsPublicHash,
      Option.some.injEq] at hashes
    by_cases strings : publicInput lms.identifier q
        (candidateChainEnds sha lms.identifier q message signature) =
        publicInput lms.identifier q (chainEnds sha lms.identifier lms.seed q)
    · have met := publicInput_inj (by simp [candidateChainEnds, chainEnds]) strings
      rw [candidateChainEnds, chainEnds, ← List.map_coe_finRange_eq_range, List.map_map,
        List.map_inj_left] at met
      by_contra none
      obtain ⟨differs, free⟩ := not_or.mp none
      refine differs ⟨own, fun i => ?_⟩
      refine (chain_binds i (met i (List.mem_finRange i))).resolve_right fun collision => free ?_
      exact collision.mono sha (List.Subset.trans (walked i) verifier)
        (List.Subset.trans (walks i i.isLt) signer)
    · exact .inr ⟨_, verifier covered, _, signer ends, strings, hashes⟩
  · exact .inr collision

/-- A message that was signed fits, and its signature carries the released values. -/
theorem signed_chains {signature : LmotsSignature} (hq : q < lmsLeaves)
    (signed : eval sha (lms.sign q message seed C) = some signature) :
    message.length ≤ 970 ∧ ∀ i : Fin p, signatureY signature i =
      chainValue sha lms.identifier seed q i (released sha lms.identifier q C message i) := by
  by_cases fits : message.length ≤ 970
  · rw [eval_sign lms hq fits, Option.some.injEq] at signed
    subst signed
    refine ⟨fits, fun i => ?_⟩
    rw [signatureY_encodeSignature, get_signedChains]
    rfl
  · rw [sign, if_neg (Nat.not_le.mpr hq), hashMessageWithChecksum, if_pos (by
      simp only [hashBytes, smallHashInputBytes]
      omega)] at signed
    cases signed

/-- Whoever is accepted with an index that has signed one message repeats its signature, or
shows a chain value before the released one, or two different strings have one hash. -/
theorem forgery_shows_unreleased (sha : Bytes → Digest) (identifier : Identifier)
    (seed root : Digest) (allocated : Bool) (lms built : LmotsLms)
    (initialized : initializeWith identifier seed allocated = some lms)
    (done : eval sha lms.buildTree = some built) (published : built.root = some root)
    (q : Nat) (message : Bytes) (C : Digest) (signature : LmotsSignature)
    (signed : eval sha (built.sign q message seed C) = some signature)
    (message' : Bytes) (signature' : LmotsSignature) (path : Path)
    (accepted : (verify q message' signature' identifier path root).eval (answered sha) = true) :
    (message' = message ∧ signatureC signature' = C ∧
      (∀ i, signatureY signature' i = signatureY signature i) ∧ built.extractPath q = some path) ∨
    (∃ i : Fin p, released sha identifier q (signatureC signature') message' i <
        released sha identifier q C message i ∧
      signatureY signature' i = chainValue sha identifier seed q i
        (released sha identifier q (signatureC signature') message' i)) ∨
    HashTree.Collides sha (verifierStrings sha q message' signature' identifier path root)
      (hashed sha lms.buildTree ++ hashed sha (built.sign q message seed C)) := by
  obtain ⟨rfl, rfl⟩ := initializeWith_eq_some initialized
  obtain ⟨identifiers, tree, stored, whole⟩ := eval_buildTree done
  rw [LmotsLms.root, stored] at published
  obtain rfl := Option.some.inj published
  obtain ⟨hq, typed, fits'⟩ := checks_of_candidateRoot ((eval_verify _ _ _ _ _ _).mp accepted)
  obtain ⟨fits, values⟩ := signed_chains hq signed
  rw [identifiers] at values
  rcases accepted_chains done stored whole accepted with ⟨own, values'⟩ | collision
  · by_cases digests : sha (messageInput lms.identifier q (signatureC signature') message') =
        sha (messageInput lms.identifier q C message)
    · by_cases strings : messageInput lms.identifier q (signatureC signature') message' =
          messageInput lms.identifier q C message
      · obtain ⟨randomizers, messages⟩ := messageInput_inj strings
        refine .inl ⟨messages, randomizers, fun i => ?_, own⟩
        rw [values, values', randomizers, messages]
      · have hashes := (@candidate_strings sha lms.identifier q message' signature' typed fits').1
        have signs := @sign_string sha lms.seed C q message built hq fits
        rw [identifiers] at signs
        exact .inr (.inr ⟨_, candidate_subset_verifierStrings (tree 1) hq hashes, _,
          List.mem_append_right _ signs, strings, digests⟩)
    · obtain ⟨⟨i, bound, smaller⟩, -⟩ := coefficients_incomparable digests
      exact .inr (.inl ⟨⟨i, bound⟩, smaller, values' ⟨i, bound⟩⟩)
  · exact .inr (.inr (collision.mono sha (List.Subset.refl _) (List.subset_append_left _ _)))

/-- A second message under a used index shows an unreleased value, or the hash collides. -/
theorem forgery_shows_unreleased_second :
    let sha := digitHash hashBytes
    let lms : LmotsLms := ⟨.replicate 16 3, .replicate _ 7, some fun _ => zeroDigest⟩
    let C : Digest := .replicate _ 9
    ∃ built signature signature' path root, eval sha lms.buildTree = some built ∧
      eval sha (built.sign 5 [1, 2, 3] lms.seed C) = some signature ∧
      (verify 5 [4, 5] signature' lms.identifier path root).eval (answered sha) = true ∧
      ((∃ i : Fin p, released sha lms.identifier 5 (signatureC signature') [4, 5] i <
            released sha lms.identifier 5 C [1, 2, 3] i ∧
          signatureY signature' i = chainValue sha lms.identifier lms.seed 5 i
            (released sha lms.identifier 5 (signatureC signature') [4, 5] i)) ∨
        HashTree.Collides sha (verifierStrings sha 5 [4, 5] signature' lms.identifier path root)
          (hashed sha lms.buildTree ++ hashed sha (built.sign 5 [1, 2, 3] lms.seed C))) := by
  intro sha lms C
  obtain ⟨built, done⟩ := @exists_eval_buildTree sha lms _ rfl
  obtain ⟨identifiers, tree, stored, whole⟩ := eval_buildTree done
  obtain ⟨path, extracted⟩ := @exists_extractPath built tree 5 stored (by decide)
  have accepted := @verify_signed sha _ _ (.replicate _ 8) 5 [4, 5] built tree path stored whole
    extracted (by decide)
  have signed := @eval_sign sha lms.seed C 5 [1, 2, 3] built (by decide) (by decide)
  rw [identifiers] at signed
  have published : built.root = some (tree 1) := by
    rw [LmotsLms.root, stored]
    rfl
  refine ⟨built, _, _, path, tree 1, done, signed, accepted, ?_⟩
  rcases forgery_shows_unreleased sha (.replicate 16 3) (.replicate _ 7) (tree 1) true lms built rfl
    done published 5 [1, 2, 3] C _ signed [4, 5] _ path accepted with ⟨same, -⟩ | other
  · exact absurd same (by decide)
  · exact other

end Accepted

end LmotsLms

end Puav
