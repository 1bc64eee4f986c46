import PostQuantumUav.Library.Rfc8554
import PostQuantumUav.Puav.Lms.Checksum
import PostQuantumUav.Puav.Lms.Completeness

/-!
# The library against RFC 8554

What the library computes for the parameter sets LMOTS_SHA256_N32_W4 and
LMS_SHA256_M32_H10 is what the standard defines, for every hash function: the array
filled from the leaves down holds the recursive nodes, a signature consists of the
standard's octets, and the verifier accepts exactly the standard's candidate root.
-/

namespace Puav.LmotsLms

open Interaction Cell Hashing

/-- LMOTS_SHA256_N32_W4 with LMS_SHA256_M32_H10. -/
def standard : Rfc8554.Parameters where
  n := 32
  w := 4
  p := 67
  ls := 4
  h := 10
  otsType := 3

section Strings

/-- Bytes are equal when they are the same number. -/
theorem u32str_eq (i : Nat) : Rfc8554.u32str i = putU32 (.ofNat i) := by
  have byte : ∀ shift : UInt32, shift.toNat < 32 →
      (((UInt32.ofNat i) >>> shift).toUInt8).toNat = i % 2 ^ 32 / 2 ^ shift.toNat % 2 ^ 8 := by
    intro shift small
    rw [UInt32.toNat_toUInt8, UInt32.toNat_shiftRight, Nat.mod_eq_of_lt small,
      Nat.shiftRight_eq_div_pow, UInt32.toNat_ofNat']
  have first := byte 24 (by decide)
  have second := byte 16 (by decide)
  have third := byte 8 (by decide)
  have last : ((UInt32.ofNat i).toUInt8).toNat = i % 2 ^ 32 % 2 ^ 8 := by
    rw [UInt32.toNat_toUInt8, UInt32.toNat_ofNat']
  change [UInt8.ofNat (i / 2 ^ 24), UInt8.ofNat (i / 2 ^ 16), UInt8.ofNat (i / 2 ^ 8),
    UInt8.ofNat i] = [((UInt32.ofNat i) >>> 24).toUInt8, ((UInt32.ofNat i) >>> 16).toUInt8,
      ((UInt32.ofNat i) >>> 8).toUInt8, (UInt32.ofNat i).toUInt8]
  change _ = _ / 2 ^ 24 % 2 ^ 8 at first
  change _ = _ / 2 ^ 16 % 2 ^ 8 at second
  change _ = _ / 2 ^ 8 % 2 ^ 8 at third
  simp only [List.cons.injEq, and_true, ← UInt8.toNat_inj, UInt8.toNat_ofNat', first, second,
    third, last]
  omega

theorem u16str_eq (i : Nat) : Rfc8554.u16str i = putU16 (.ofNat i) := by
  have first : (((UInt16.ofNat i) >>> 8).toUInt8).toNat = i % 2 ^ 16 / 2 ^ 8 % 2 ^ 8 := by
    rw [UInt16.toNat_toUInt8, UInt16.toNat_shiftRight, Nat.shiftRight_eq_div_pow,
      UInt16.toNat_ofNat']
    rfl
  have last : ((UInt16.ofNat i).toUInt8).toNat = i % 2 ^ 16 % 2 ^ 8 := by
    rw [UInt16.toNat_toUInt8, UInt16.toNat_ofNat']
  change [UInt8.ofNat (i / 2 ^ 8), UInt8.ofNat i] =
    [((UInt16.ofNat i) >>> 8).toUInt8, (UInt16.ofNat i).toUInt8]
  simp only [List.cons.injEq, and_true, ← UInt8.toNat_inj, UInt8.toNat_ofNat', first, last]
  omega

/-- The standard reads coefficients of half bytes as the library does. -/
theorem coef_eq (s : Bytes) (i : Nat) : Rfc8554.coef s i 4 = (coefficientW4 s i).toNat := by
  have place : i * 4 / 8 = i / 2 := by omega
  have bound : (s.getD (i / 2) 0).toNat < 256 := UInt8.toNat_lt _
  have mask : ∀ v : Nat, 15 &&& v = v % 16 := fun v => by
    rw [Nat.and_comm]
    exact Nat.and_two_pow_sub_one_eq_mod v 4
  rw [coefficientW4_eq, Rfc8554.coef, place]
  change 15 &&& _ = _
  rw [mask, Nat.shiftRight_eq_div_pow]
  split
  · rename_i even
    rw [show 8 - (4 * (i % (8 / 4)) + 4) = 4 by omega]
    omega
  · rename_i odd
    rw [show 8 - (4 * (i % (8 / 4)) + 4) = 0 by omega, Nat.pow_zero, Nat.div_one]

theorem cksm_eq (digest : Bytes) :
    Rfc8554.u16str (Rfc8554.cksm standard digest) = putU16 (checksum digest) := by
  have sum : Rfc8554.cksm standard digest = (checksum digest).toNat := by
    rw [toNat_checksum, toNat_checksumAfter digest (Nat.le_refl 64), Rfc8554.cksm,
      Nat.shiftLeft_eq, Nat.mul_comm]
    change 2 ^ 4 * (∑ i ∈ Finset.range 64, (16 - 1 - Rfc8554.coef digest i 4)) = _
    simp only [coef_eq]
    rfl
  rw [u16str_eq, sum, UInt16.ofNat_toNat]

end Strings

section Chains

variable (sha : Bytes → Digest) (identifier : Identifier) (seed C : Digest) (q i : Nat)
  (message : Bytes)

/-- The hash function as the standard sees it. -/
abbrev octets (sha : Bytes → Digest) (s : Bytes) : Bytes := (sha s).toList

theorem chain_eq_standard (start count : Nat) (input : Digest) :
    (chain sha identifier q i start count input).toList =
      Rfc8554.chain (octets sha) identifier.toList q i start count input.toList := by
  induction count generalizing start input with
  | zero => rfl
  | succ count ih =>
      have step : (sha (chainInput identifier q i start input)).toList =
          octets sha (identifier.toList ++ Rfc8554.u32str q ++ Rfc8554.u16str i ++
            Rfc8554.u8str start ++ input.toList) := by
        rw [u32str_eq, u16str_eq]
        rfl
      rw [Rfc8554.chain, ← step, ← ih]
      rfl

theorem privateElement_eq_standard : (privateElement sha identifier seed q i).toList =
    Rfc8554.privateValue (octets sha) identifier.toList seed.toList q i := by
  rw [Rfc8554.privateValue, u32str_eq, u16str_eq]
  rfl

/-- The strings of all chains, one after the other. -/
theorem flatten_map_congr {ι : Type} {items : List ι} {f : ι → Digest} {g : ι → Bytes}
    (same : ∀ k ∈ items, (f k).toList = g k) :
    ((items.map f).map List.Vector.toList).flatten = (items.map g).flatten := by
  rw [List.map_map]
  exact congrArg List.flatten (List.map_congr_left same)

theorem publicInput_eq_standard {ι : Type} {items : List ι} {f : ι → Digest} {g : ι → Bytes}
    (same : ∀ k ∈ items, (f k).toList = g k) : publicInput identifier q (items.map f) =
      identifier.toList ++ Rfc8554.u32str q ++ Rfc8554.u16str Rfc8554.D_PBLC ++
        (items.map g).flatten := by
  rw [publicInput, flatten_map_congr same, u32str_eq, u16str_eq]
  rfl

theorem publicHash_eq_standard : (publicHash sha identifier seed q).toList =
    Rfc8554.publicKey standard (octets sha) identifier.toList seed.toList q := by
  have ends : ∀ k ∈ List.range p,
      (chain sha identifier q k 0 maxChain (privateElement sha identifier seed q k)).toList =
      Rfc8554.chain (octets sha) identifier.toList q k 0 15
        (Rfc8554.privateValue (octets sha) identifier.toList seed.toList q k) := by
    intro k _
    rw [chain_eq_standard, privateElement_eq_standard]
  rw [publicHash, chainEnds, publicInput_eq_standard identifier q ends]
  rfl

theorem digestAndChecksum_eq_standard : digestAndChecksum sha identifier q C message =
    Rfc8554.digestWithChecksum standard (octets sha) identifier.toList q C.toList message := by
  rw [Rfc8554.digestWithChecksum, cksm_eq, u32str_eq, u16str_eq]
  rfl

/-- The octets of a signature are the standard's. -/
theorem signature_eq_standard :
    (encodeSignature C (signedChains sha identifier seed q C message) length_signedChains).toList =
      Rfc8554.sign standard (octets sha) identifier.toList seed.toList q C.toList message := by
  have chains : ∀ k ∈ List.range p, (chain sha identifier q k 0
      (coefficientW4 (digestAndChecksum sha identifier q C message) k).toNat
      (privateElement sha identifier seed q k)).toList =
      Rfc8554.chain (octets sha) identifier.toList q k 0
        (Rfc8554.coef (Rfc8554.digestWithChecksum standard (octets sha) identifier.toList q
          C.toList message) k 4)
        (Rfc8554.privateValue (octets sha) identifier.toList seed.toList q k) := by
    intro k _
    rw [chain_eq_standard, privateElement_eq_standard, coef_eq, digestAndChecksum_eq_standard]
  rw [encodeSignature, List.Vector.toList_mk, signedChains, flatten_map_congr chains,
    Rfc8554.sign, u32str_eq]
  rfl

end Chains

section Trees

variable {sha : Bytes → Digest} {identifier : Identifier} {seed : Digest} {tree : Nat → Digest}

theorem leafInput_eq_standard (sha : Bytes → Digest) (r : Nat) (key : Digest) :
    (sha (leafInput identifier r key)).toList =
      Rfc8554.leafHash (octets sha) identifier.toList r key.toList := by
  rw [Rfc8554.leafHash, u32str_eq, u16str_eq]
  rfl

theorem internalInput_eq_standard (sha : Bytes → Digest) (r : Nat) (left right : Digest) :
    (sha (internalInput identifier r left right)).toList =
      Rfc8554.internalHash (octets sha) identifier.toList r left.toList right.toList := by
  rw [Rfc8554.internalHash, u32str_eq, u16str_eq]
  rfl

/-- A built tree holds the nodes of the recursive definition. -/
theorem Built.eq_standard (built : Built sha identifier seed tree) {r : Nat} (low : 1 ≤ r)
    (high : r < lmsTreeNodes) : (tree r).toList =
      Rfc8554.node standard (octets sha) identifier.toList seed.toList r := by
  refine @Rfc8554.eq_node standard _ _ _ (fun r => (tree r).toList) ?_ ?_ r low high
  · intro r last inside
    have leaves : 2 ^ standard.h = lmsLeaves := rfl
    rw [leaves] at last inside ⊢
    have leaf := built.leaf (r - lmsLeaves) (by omega)
    rw [Nat.add_sub_cancel' last] at leaf
    rw [leaf, leafDigest, Nat.add_sub_cancel' last, leafInput_eq_standard, publicHash_eq_standard]
  · intro r first inner
    rw [built.internal r first inner, internalInput_eq_standard]

/-- The climb along the blocks of a path is the standard's loop over the node number. -/
theorem climb_eq_standard (path : Nat → Bytes) (others : List Digest) {r i : Nat}
    {current : Digest} (low : 2 ^ others.length ≤ r) (high : r < 2 ^ (others.length + 1))
    (blocks : ∀ k (inside : k < others.length), path (i + k) = (others.get ⟨k, inside⟩).toList) :
    (HashTree.climb sha (internalInput identifier) r current others).toList =
      Rfc8554.climb (octets sha) identifier.toList path r i current.toList := by
  induction others generalizing r i current with
  | nil =>
      rw [List.length_nil] at high
      rw [Rfc8554.climb_root path (by omega)]
      rfl
  | cons other rest ih =>
      rw [List.length_cons, Nat.pow_succ] at low high
      rw [Nat.pow_succ] at high
      have pos : 0 < 2 ^ rest.length := Nat.two_pow_pos _
      have first := blocks 0 (Nat.zero_lt_succ _)
      have later : ∀ k (inside : k < rest.length),
          path (i + 1 + k) = (rest.get ⟨k, inside⟩).toList := by
        intro k inside
        have here := blocks (k + 1) (Nat.succ_lt_succ inside)
        rw [show i + (k + 1) = i + 1 + k by omega] at here
        exact here
      have parent : (sha (HashTree.parentInput (internalInput identifier) r current other)).toList =
          if r % 2 = 1 then
            Rfc8554.internalHash (octets sha) identifier.toList (r / 2) (path i) current.toList
          else Rfc8554.internalHash (octets sha) identifier.toList (r / 2) current.toList
            (path i) := by
        rw [Nat.add_zero] at first
        rw [first, HashTree.parentInput]
        rcases Nat.mod_two_eq_zero_or_one r with even | odd
        · rw [if_pos even, if_neg (by omega), internalInput_eq_standard]
          rfl
        · rw [if_neg (by omega), if_pos odd, internalInput_eq_standard]
          rfl
      rw [Rfc8554.climb_succ path (by omega), ← parent]
      exact ih (by omega) (by rw [Nat.pow_succ]; omega) later

end Trees

section Verifier

variable {sha : Bytes → Digest} {identifier : Identifier} {q : Nat} {message : Bytes}

theorem four_bytes (s : Bytes) (long : 4 ≤ s.length) :
    ∃ a b c d rest, s = a :: b :: c :: d :: rest := by
  match s, long with
  | a :: b :: c :: d :: rest, _ => exact ⟨a, b, c, d, rest, rfl⟩

/-- The standard and the library read the same type code. -/
theorem typecode_eq {s : Bytes} (long : 4 ≤ s.length) :
    Rfc8554.strTou32 (s.take 4) = 3 ↔ getU32 s = lmotsType := by
  obtain ⟨a, b, c, d, rest, rfl⟩ := four_bytes s long
  have value : Rfc8554.strTou32 [a, b, c, d] =
      ((a.toNat * 256 + b.toNat) * 256 + c.toNat) * 256 + d.toNat := by
    change (((0 * 256 + _) * 256 + _) * 256 + _) * 256 + _ = _
    rw [Nat.zero_mul, Nat.zero_add]
  have ha := a.toNat_lt
  have hb := b.toNat_lt
  have hc := c.toNat_lt
  have hd := d.toNat_lt
  have octets : Rfc8554.u32str (Rfc8554.strTou32 [a, b, c, d]) = [a, b, c, d] := by
    rw [value]
    simp only [Rfc8554.u32str, List.cons.injEq, and_true, ← UInt8.toNat_inj, UInt8.toNat_ofNat']
    omega
  have read : ∀ n, Rfc8554.u32str n = [a, b, c, d] →
      getU32 (a :: b :: c :: d :: rest) = UInt32.ofNat n := by
    intro n same
    rw [u32str_eq] at same
    have front : a :: b :: c :: d :: rest = putU32 (.ofNat n) ++ rest := by
      rw [same]
      rfl
    rw [front]
    exact getU32_putU32 _ rest
  rw [read _ octets]
  change Rfc8554.strTou32 [a, b, c, d] = 3 ↔ UInt32.ofNat _ = 3
  rw [← UInt32.toNat_inj, UInt32.toNat_ofNat', value]
  change _ ↔ _ = 3
  omega

theorem four_le_signature (signature : LmotsSignature) : 4 ≤ signature.toList.length := by
  rw [signature.toList_length]
  decide

/-- The end of chain `i` as the standard's verifier completes it. -/
def standardEnd (sha : Bytes → Digest) (identifier : Identifier) (q : Nat) (message : Bytes)
    (signature : LmotsSignature) (i : Nat) : Bytes :=
  let digits := Rfc8554.digestWithChecksum standard (octets sha) identifier.toList q
    ((signature.toList.drop 4).take standard.n) message
  Rfc8554.chain (octets sha) identifier.toList q i (Rfc8554.coef digits i standard.w)
    (2 ^ standard.w - 1 - Rfc8554.coef digits i standard.w)
    ((signature.toList.drop (4 + standard.n + i * standard.n)).take standard.n)

/-- Both verifiers complete the same chains. -/
theorem candidateKey_eq_standard (signature : LmotsSignature)
    (typed : getU32 signature.toList = lmotsType) :
    Rfc8554.candidateKey standard (octets sha) identifier.toList q message signature.toList =
      some (candidatePublicHash sha identifier q message signature).toList := by
  have code : Rfc8554.strTou32 (signature.toList.take 4) = standard.otsType :=
    (typecode_eq (four_le_signature signature)).mpr typed
  have sized : signature.toList.length = 4 + standard.n * (standard.p + 1) :=
    signature.toList_length
  have ends : ∀ k ∈ List.finRange p,
      (chain sha identifier q k (coefficientW4 (digestAndChecksum sha identifier q
          (signatureC signature) message) k).toNat
        (maxChain - (coefficientW4 (digestAndChecksum sha identifier q (signatureC signature)
          message) k).toNat) (signatureY signature k)).toList =
      standardEnd sha identifier q message signature k := by
    intro k _
    rw [chain_eq_standard, digestAndChecksum_eq_standard, ← coef_eq]
    rfl
  have spread : (List.finRange p).map (fun k : Fin p =>
      standardEnd sha identifier q message signature k) =
      (List.range p).map (standardEnd sha identifier q message signature) := by
    rw [← List.map_coe_finRange_eq_range, List.map_map]
    rfl
  rw [candidatePublicHash, candidateChainEnds, publicInput_eq_standard identifier q ends, spread,
    Rfc8554.candidateKey, if_neg (not_not_intro code), if_neg (not_not_intro sized)]
  rfl

/-- A signature of another type has no candidate. -/
theorem candidateKey_of_type (signature : LmotsSignature)
    (other : getU32 signature.toList ≠ lmotsType) :
    Rfc8554.candidateKey standard (octets sha) identifier.toList q message signature.toList =
      none :=
  if_pos fun code => other ((typecode_eq (four_le_signature signature)).mp code)

/-- The root that the library recomputes is the standard's candidate. -/
theorem candidateRoot_eq_standard (signature : LmotsSignature) (path : Path) (hq : q < lmsLeaves)
    (fits : message.length ≤ 970) :
    (eval sha (candidateRoot q message signature identifier path)).map List.Vector.toList =
      Rfc8554.candidateRoot standard (octets sha) identifier.toList q message signature.toList
        path.toList := by
  have inside : ¬ q ≥ 2 ^ standard.h := Nat.not_le.mpr hq
  rw [Rfc8554.candidateRoot, if_neg inside]
  by_cases typed : getU32 signature.toList = lmotsType
  · rw [eval_candidateRoot signature path hq typed fits, candidateKey_eq_standard signature typed,
      Option.map_some]
    have blocks : ∀ k (below : k < (pathBlocks path).length),
        (path.toList.drop ((0 + k) * 32)).take 32 = ((pathBlocks path).get ⟨k, below⟩).toList := by
      intro k below
      rw [Nat.zero_add]
      simp only [pathBlocks, List.get_eq_getElem, List.getElem_map, List.getElem_finRange]
      rfl
    obtain ⟨low, high, -⟩ := leaf_position hq
    rw [← length_pathBlocks path] at low
    rw [climb_eq_standard (fun i => (path.toList.drop (i * 32)).take 32) (pathBlocks path) low
      (by rw [length_pathBlocks]; exact high) blocks, leafInput_eq_standard]
    rfl
  · rw [candidateRoot_of_lt signature path hq, eval_bind, lmotsCandidatePublicHash,
      if_pos typed, candidateKey_of_type signature typed]
    rfl

end Verifier

/-- The library is an implementation of the standard over the hash function `sha`. -/
structure MatchesStandard (sha : Bytes → Digest) : Prop where
  /-- Building an allocated tree succeeds and leaves the standard's nodes. -/
  tree : ∀ (identifier : Identifier) (seed : Digest) (allocated : Nat → Digest),
    ∃ built tree, eval sha (buildTree ⟨identifier, seed, some allocated⟩) = some built ∧
      built.tree = some tree ∧ ∀ r, 1 ≤ r → r < lmsTreeNodes → (tree r).toList =
        Rfc8554.node standard (octets sha) identifier.toList seed.toList r
  /-- Signing writes the standard's octets. -/
  sign : ∀ (lms : LmotsLms) (seed C : Digest) (q : Nat) (message : Bytes), q < lmsLeaves →
    message.length ≤ 970 → ∃ signature, eval sha (lms.sign q message seed C) = some signature ∧
      signature.toList = Rfc8554.sign standard (octets sha) lms.identifier.toList seed.toList q
        C.toList message
  /-- Verification accepts exactly the standard's candidate root. -/
  verify : ∀ (q : Nat) (message : Bytes) (signature : LmotsSignature) (identifier : Identifier)
    (path : Path) (root : Digest), q < lmsLeaves → message.length ≤ 970 →
    ((LmotsLms.verify q message signature identifier path root).eval (answered sha) = true ↔
      getU32 signature.toList = 3 ∧ Rfc8554.candidateRoot standard (octets sha) identifier.toList q
        message signature.toList path.toList = some root.toList)

/-- The library computes what the standard defines, for every hash function. -/
theorem matchesStandard (sha : Bytes → Digest) : MatchesStandard sha where
  tree identifier seed allocated := by
    obtain ⟨built, done⟩ :=
      @exists_eval_buildTree sha ⟨identifier, seed, some allocated⟩ allocated rfl
    obtain ⟨-, tree, stored, whole⟩ := eval_buildTree done
    exact ⟨built, tree, done, stored, fun r low high => whole.eq_standard low high⟩
  sign lms seed C q message hq fits :=
    ⟨_, eval_sign lms hq fits, signature_eq_standard sha lms.identifier seed C q message⟩
  verify q message signature identifier path root hq fits := by
    have same := @candidateRoot_eq_standard sha identifier q message signature path hq fits
    rw [eval_verify, ← same, Option.map_eq_some_iff]
    constructor
    · intro accepted
      refine ⟨?_, root, accepted, rfl⟩
      by_contra different
      have other : getU32 signature.toList ≠ lmotsType := different
      rw [candidateRoot_of_lt signature path hq, eval_bind, lmotsCandidatePublicHash,
        if_pos other] at accepted
      cases accepted
    · rintro ⟨-, current, accepted, equal⟩
      rw [accepted, List.Vector.toList_injective equal]

end Puav.LmotsLms
