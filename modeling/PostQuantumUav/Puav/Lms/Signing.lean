import PostQuantumUav.Puav.Lms.Building

/-!
# What a signature leaves in the buffer

`sign` puts the inputs of all its hashes together in `m_smallHashInput`: first the message,
and then, for every chain, the seed and the values of the chain before the one that it
releases. Nothing erases the buffer, so from the first derived element on it holds the seed
or such a value, also where a later hash fails.

A value of the chain below its coefficient is `Below` the signature, and so is the seed.
-/

namespace Puav.LmsMember

open Interaction Cell Buffer

variable {α : Type} [Cell α]

/-- The answers to the hashes of a signature in their order. What is drawn is of the kind. -/
def Hashes (hash : List α → Hash α) (kind : α → Prop) : World (calls α) (List (Option (Hash α))) :=
  fun digests event digests' =>
    match event with
    | ⟨.malloc, _⟩ => digests' = digests
    | ⟨.sha256 data, (digest : Option (Hash α))⟩ =>
        (digest = none ∨ digest = some (hash data)) ∧ digests' = digests ++ [digest]
    | ⟨.fillRandom, C⟩ => Within kind (List.Vector.toList C) ∧ digests' = digests

section Values

variable (hash : List α → Hash α) (identifier : Identifier) (seed : Hash α) (q i : Nat)

/-- The value at each step of a chain. -/
def chainValue : Nat → Hash α
  | 0 => hash (privateInput identifier seed q i)
  | j + 1 => hash (chainInput identifier q i j (chainValue j))

end Values

/-- The seed, or a value of a chain below the one that the signature of the digest releases. -/
def Below (hash : List α → Hash α) (identifier : Identifier) (seed : Hash α) (q : Nat)
    (digest : Hash α) (secret : List α) : Prop :=
  secret = seed.toList ∨ ∃ i < LmotsLms.p, ∃ j < coefficientW4 (withChecksum digest) i,
    secret = (chainValue hash identifier seed q i j).toList

/-- Something below the signature is in the buffer. -/
def Exposed (hash : List α → Hash α) (seed : Hash α) (q : Nat) (digest : Hash α)
    (lms : LmsMember α) : Prop :=
  ∃ secret, Below hash lms.identifier seed q digest secret ∧
    secret <:+: lms.smallHashInput.toList

/-- Only the first cells of the buffer have changed. -/
structure Overwritten (lms lms' : LmsMember α) : Prop where
  same : lms' = { lms with smallHashInput := lms'.smallHashInput }
  behind : lms'.smallHashInput.toList.drop 55 = lms.smallHashInput.toList.drop 55

namespace Overwritten

omit [Cell α] in
theorem refl (lms : LmsMember α) : Overwritten lms lms := ⟨rfl, rfl⟩

omit [Cell α] in
theorem trans {lms lms' lms'' : LmsMember α} (first : Overwritten lms lms')
    (second : Overwritten lms' lms'') : Overwritten lms lms'' :=
  ⟨by rw [second.same, first.same], second.behind.trans first.behind⟩

omit [Cell α] in
theorem identifier {lms lms' : LmsMember α} (h : Overwritten lms lms') :
    lms'.identifier = lms.identifier := by
  rw [h.same]

omit [Cell α] in
theorem of_write (lms : LmsMember α) {data : List α} (length : data.length = 55) :
    Overwritten lms { lms with smallHashInput := overwrite lms.smallHashInput data } :=
  ⟨rfl, drop_overwrite (by decide) (Nat.le_of_eq length)⟩

end Overwritten

section Chains

variable {hash : List α → Hash α} {kind : α → Prop} {lms : LmsMember α}
  {digests : List (Option (Hash α))}

omit [Cell α] in
/-- The string stays in the buffer whether or not its hash fails. -/
theorem ensures_sha256 {data : List α} :
    Routine.Ensures (Hashes hash kind) (fun _ => True) (fun result lms' digests' =>
      lms' = { lms with smallHashInput := overwrite lms.smallHashInput data } ∧
        (result = none ∨ result = some (hash data)) ∧ digests' = digests ++ [result])
      (sha256 data) lms digests := by
  rw [sha256, Routine.ensures_bind, Routine.ensures_modify]
  refine Routine.ensures_orFail.mpr fun digest digests' step => ⟨trivial, rfl, ?_⟩
  cases digest with
  | none => exact step
  | some value => exact step

omit [Cell α] in
/-- The front of the buffer contains what was written last. -/
theorem infix_overwrite {buffer : List.Vector α LmotsLms.smallHashInputBytes} {data part : List α}
    (fits : data.length ≤ LmotsLms.smallHashInputBytes) (inside : part <:+: data) :
    part <:+: (overwrite buffer data).toList := by
  rw [toList_overwrite_front fits]
  exact inside.trans (List.prefix_append _ _).isInfix

variable {seed digest : Hash α} {q : Nat}

theorem infix_privateInput (identifier : Identifier) (seed : Hash α) (q i : Nat) :
    seed.toList <:+: privateInput identifier seed q i := (List.suffix_append _ _).isInfix

theorem infix_chainInput (identifier : Identifier) (q i j : Nat) (current : Hash α) :
    current.toList <:+: chainInput identifier q i j current := (List.suffix_append _ _).isInfix

/-- The first string of a chain has the seed in it. -/
theorem ensures_derivePrivateElement (digest : Hash α) (i : Nat) :
    Routine.Ensures (Hashes hash kind) (fun _ => True) (fun result lms' digests' =>
      (Overwritten lms lms' ∧ digests <+: digests' ∧ Exposed hash seed q digest lms') ∧
        ∀ value, result = some value → value = chainValue hash lms.identifier seed q i 0)
      (derivePrivateElement lms.identifier seed q i) lms digests := by
  have length := length_privateInput lms.identifier q seed i
  apply ensures_sha256.mono
  rintro result _ _ ⟨rfl, outcome, rfl⟩
  refine ⟨⟨.of_write lms length, List.prefix_append _ _, _, .inl rfl, infix_overwrite
    (by rw [length]; decide) (infix_privateInput lms.identifier seed q i)⟩, ?_⟩
  rintro value rfl
  cases outcome with
  | inl none => nomatch none
  | inr returned => exact Option.some.inj returned

/-- The strings of a chain's steps have its values in them, up to the last but one. -/
theorem ensures_chainSteps {i a : Nat} (chain : i < LmotsLms.p)
    (coefficient : a ≤ coefficientW4 (withChecksum digest) i) (identifier : Identifier)
    (count : Nat) {s : Nat} (ends : s + count = a) {lms : LmsMember α}
    {digests : List (Option (Hash α))} (same : lms.identifier = identifier)
    (exposed : Exposed hash seed q digest lms) :
    Routine.Ensures (Hashes hash kind) (fun _ => True) (fun result lms' digests' =>
      (Overwritten lms lms' ∧ digests <+: digests' ∧ Exposed hash seed q digest lms') ∧
        ∀ value, result = some value → value = chainValue hash identifier seed q i a)
      ((List.range' s count).foldlM
        (fun current j => sha256 (chainInput identifier q i j current))
        (chainValue hash identifier seed q i s)) lms digests := by
  subst same
  induction count generalizing s lms digests with
  | zero =>
      refine ⟨⟨.refl lms, List.prefix_rfl, exposed⟩, fun value returned => ?_⟩
      cases Option.some.inj returned
      rw [← ends, Nat.add_zero]
  | succ count ih =>
      let current := chainValue hash lms.identifier seed q i s
      have length := length_chainInput lms.identifier q i s current
      have written : Exposed hash seed q digest { lms with
          smallHashInput := overwrite lms.smallHashInput
            (chainInput lms.identifier q i s current) } :=
        ⟨_, .inr ⟨i, chain, s, by omega, rfl⟩, infix_overwrite (by rw [length]; decide)
          (infix_chainInput lms.identifier q i s current)⟩
      rw [List.range'_succ, List.foldlM_cons]
      refine Routine.Ensures.bind ensures_sha256 ?_ ?_
      · rintro _ _ ⟨rfl, _, rfl⟩
        exact ⟨⟨.of_write lms length, List.prefix_append _ _, written⟩, nofun⟩
      · rintro value _ _ ⟨rfl, outcome, rfl⟩
        have next : value = chainValue hash lms.identifier seed q i (s + 1) := by
          cases outcome with
          | inl none => nomatch none
          | inr returned => exact Option.some.inj returned
        rw [next]
        refine (ih (by omega) written).mono ?_
        rintro result lms' digests' ⟨⟨overwritten, grown, exposed⟩, last⟩
        exact ⟨⟨(Overwritten.of_write lms length).trans overwritten,
          (List.prefix_append _ _).trans grown, exposed⟩, last⟩

omit [Cell α] in
theorem within_chainValue [Cell α] (hashed : ∀ data, Within kind (hash data).toList)
    (identifier : Identifier) (i j : Nat) :
    Within kind (chainValue hash identifier seed q i j).toList := by
  cases j with
  | zero => exact hashed _
  | succ j => exact hashed _

/-- One chain of a signature. -/
theorem ensures_signChain (hashed : ∀ data, Within kind (hash data).toList) {i : Nat}
    (chain : i < LmotsLms.p) (identifier : Identifier) (signature : SignatureCells α)
    {lms : LmsMember α} {digests : List (Option (Hash α))} (same : lms.identifier = identifier) :
    Routine.Ensures (Hashes hash kind) (fun _ => True) (fun result lms' digests' =>
      (Overwritten lms lms' ∧ digests <+: digests' ∧ Exposed hash seed q digest lms') ∧
        ∀ signature', result = some signature' → Within kind signature.toList →
          Within kind signature'.toList) (do
        let x ← derivePrivateElement identifier seed q i
        let y ← chainHash identifier q i 0 (coefficientW4 (withChecksum digest) i) x
        pure (writeAt signature (4 + hashBytes + i * hashBytes) y.toList)) lms digests := by
  subst same
  refine (ensures_derivePrivateElement digest i).bind ?_ ?_
  · exact fun _ _ outcome => ⟨outcome.1, nofun⟩
  rintro x lms' digests' ⟨⟨overwritten, grown, exposed⟩, first⟩
  obtain rfl := first x rfl
  have steps := @ensures_chainSteps α _ hash kind seed digest q i _ chain (Nat.le_refl _)
    lms.identifier _ 0 (Nat.zero_add _) lms' digests' overwritten.identifier exposed
  refine Routine.Ensures.bind steps ?_ ?_
  · rintro lms'' digests'' ⟨⟨overwritten', grown', exposed⟩, _⟩
    exact ⟨⟨overwritten.trans overwritten', grown.trans grown', exposed⟩, nofun⟩
  rintro y lms'' digests'' ⟨⟨overwritten', grown', exposed⟩, last⟩
  refine ⟨⟨overwritten.trans overwritten', grown.trans grown', exposed⟩, ?_⟩
  intro signature' returned old
  cases Option.some.inj returned
  obtain rfl := last y rfl
  exact old.writeAt _ (within_chainValue hashed _ _ _)

/-- All chains: the first one already writes the seed. -/
theorem ensures_signChains (hashed : ∀ data, Within kind (hash data).toList)
    (identifier : Identifier) (items : List Nat) (chains : ∀ i ∈ items, i < LmotsLms.p)
    (signature : SignatureCells α) {lms : LmsMember α} {digests : List (Option (Hash α))}
    (same : lms.identifier = identifier)
    (start : items ≠ [] ∨ Exposed hash seed q digest lms) :
    Routine.Ensures (Hashes hash kind) (fun _ => True) (fun result lms' digests' =>
      (Overwritten lms lms' ∧ digests <+: digests' ∧ Exposed hash seed q digest lms') ∧
        ∀ signature', result = some signature' → Within kind signature.toList →
          Within kind signature'.toList) (items.foldlM (fun signature i => do
        let x ← derivePrivateElement identifier seed q i
        let y ← chainHash identifier q i 0 (coefficientW4 (withChecksum digest) i) x
        pure (writeAt signature (4 + hashBytes + i * hashBytes) y.toList)) signature) lms
      digests := by
  induction items generalizing signature lms digests with
  | nil =>
      have exposed := start.resolve_left (absurd rfl)
      refine ⟨⟨.refl lms, List.prefix_rfl, exposed⟩, fun signature' returned old => ?_⟩
      cases Option.some.inj returned
      exact old
  | cons i rest ih =>
      rw [List.foldlM_cons]
      refine (ensures_signChain hashed (chains i List.mem_cons_self) identifier signature same).bind
        ?_ ?_
      · exact fun _ _ outcome => ⟨outcome.1, nofun⟩
      rintro signature' lms' digests' ⟨⟨overwritten, grown, exposed⟩, kept⟩
      have identifier' : lms'.identifier = identifier := overwritten.identifier.trans same
      refine (ih (fun j mem => chains j (List.mem_cons_of_mem _ mem)) signature' identifier'
        (.inr exposed)).mono ?_
      rintro result lms'' digests'' ⟨⟨overwritten', grown', exposed⟩, kept'⟩
      exact ⟨⟨overwritten.trans overwritten', grown.trans grown', exposed⟩,
        fun signature'' returned old => kept' signature'' returned (kept signature' rfl old)⟩

end Chains

/-- The object with the message in its buffer. -/
def withMessage (lms : LmsMember α) (q : Nat) (C : Hash α) (message : List α) : LmsMember α :=
  { lms with
    smallHashInput := overwrite lms.smallHashInput (messageInput lms.identifier q C message) }

/-- What a signature leaves: without the digest of its message nothing but the message, and with
it a value below the signature. -/
structure Signs (hash : List α → Hash α) (kind : α → Prop) (q : UInt32) (message : List α)
    (seed : Hash α) (lms : LmsMember α) (result : Option (SignatureCells α)) (lms' : LmsMember α)
    (digests : List (Option (Hash α))) : Prop where
  uncalled : digests = [] → result = none ∧ lms' = lms
  undigested : digests.head? = some none → result = none ∧ ∃ C : Hash α, Within kind C.toList ∧
    lms' = lms.withMessage q.toNat C message
  digested : ∀ digest, digests.head? = some (some digest) →
    Exposed hash seed q.toNat digest lms' ∧ ∃ C : Hash α, Within kind C.toList ∧
      Overwritten (lms.withMessage q.toNat C message) lms'
  signature : ∀ signature, result = some signature → Within kind signature.toList

theorem ensures_hashMessageWithChecksum {hash : List α → Hash α} {kind : α → Prop}
    (lms : LmsMember α) (q : Nat) (C : Hash α) (message : List α) (scratchLength : Nat) :
    Routine.Ensures (Hashes hash kind) (fun _ => True) (fun result lms' digests =>
      (result = none → (digests = [] ∧ lms' = lms) ∨
        (digests = [none] ∧ lms' = lms.withMessage q C message)) ∧
      ∀ data, result = some data → ∃ digest, data = withChecksum digest ∧
        digests = [some digest] ∧ lms' = lms.withMessage q C message)
      (hashMessageWithChecksum lms.identifier q C message scratchLength) lms [] := by
  refine Routine.ensures_bind.mpr (Routine.ensures_guard.mpr ⟨fun _ => ?_, fun _ => ?_⟩)
  · refine Routine.Ensures.bind ensures_sha256 ?_ ?_
    · rintro _ _ ⟨rfl, _, rfl⟩
      exact ⟨fun _ => .inr ⟨rfl, rfl⟩, nofun⟩
    · rintro digest _ _ ⟨rfl, _, rfl⟩
      refine ⟨nofun, fun data returned => ⟨digest, ?_, rfl, rfl⟩⟩
      exact (Option.some.inj returned).symm
  · exact ⟨fun _ => .inl ⟨rfl, rfl⟩, nofun⟩

section Sign

variable {hash : List α → Hash α} {kind : α → Prop} (bytes : ∀ b : UInt8, kind (ofByte b))
  (hashed : ∀ data, Within kind (hash data).toList)

include bytes hashed

theorem ensures_sign (q : UInt32) (message : List α) (seed : Hash α) (lms : LmsMember α) :
    Routine.Ensures (Hashes hash kind) (fun _ => True) (Signs hash kind q message seed lms)
      (sign q message seed) lms [] := by
  have unused : Signs hash kind q message seed lms none lms [] :=
    ⟨fun _ => ⟨rfl, rfl⟩, nofun, nofun, nofun⟩
  refine Routine.ensures_bind.mpr (Routine.ensures_guard.mpr ⟨fun _ => ?_, fun _ => unused⟩)
  rw [Routine.ensures_bind, Routine.ensures_get]
  refine Routine.Ensures.perform fun C _ step => ?_
  obtain ⟨drawn, rfl⟩ := step
  refine ⟨trivial, (ensures_hashMessageWithChecksum lms q.toNat C message _).bind ?_ ?_⟩
  · rintro lms' digests ⟨outcome, _⟩
    obtain ⟨rfl, rfl⟩ | ⟨rfl, rfl⟩ := outcome rfl
    · exact unused
    · exact ⟨nofun, fun _ => ⟨rfl, C, drawn, rfl⟩, nofun, nofun⟩
  rintro data _ _ ⟨_, outcome⟩
  obtain ⟨digest, rfl, rfl, rfl⟩ := outcome data rfl
  have chains := @ensures_signChains α _ hash kind seed digest q.toNat hashed lms.identifier
    (List.range LmotsLms.p) (fun i mem => List.mem_range.mp mem)
    (overwrite (.replicate _ (ofByte 0)) (putU32 LmotsLms.lmotsType ++ C.toList))
    (lms.withMessage q.toNat C message) [some digest] rfl
    (.inl (List.ne_nil_of_length_pos (by rw [List.length_range]; decide)))
  apply chains.mono
  rintro result lms' digests ⟨⟨overwritten, ⟨later, rfl⟩, exposed⟩, kept⟩
  refine ⟨nofun, nofun, ?_, ?_⟩
  · intro digest' first
    cases Option.some.inj (Option.some.inj first)
    obtain ⟨secret, below, inside⟩ := exposed
    exact ⟨⟨secret, overwritten.identifier ▸ below, inside⟩, C, drawn, overwritten⟩
  · intro signature returned
    have front : Within kind (putU32 LmotsLms.lmotsType ++ C.toList) :=
      within_append.mpr ⟨within_putU32 bytes _, drawn⟩
    exact kept signature returned ((within_replicate (bytes 0)).overwrite front)

omit hashed in
theorem within_messageInput (identifier : Identifier) (q : Nat) {C : Hash α} {message : List α}
    (drawn : Within kind C.toList) (clean : Within kind message) :
    Within kind (messageInput identifier q C message) := by
  simp only [messageInput, within_append, within_ofBytes bytes, within_putU32 bytes,
    within_putU16 bytes, drawn, clean, and_self]

end Sign

section Covered

variable {hash : List α → Hash α} {kind : α → Prop} (bytes : ∀ b : UInt8, kind (ofByte b))

include bytes

/-- A message covers the front of the buffer. -/
theorem Covered.withMessage {lms : LmsMember α} (covered : Covered kind 55 lms) (q : Nat)
    {C : Hash α} {message : List α} (drawn : Within kind C.toList)
    (clean : Within kind message) (length : message.length = lmotsSignedObjectBytes) :
    Covered kind 0 (lms.withMessage q C message) := by
  refine ⟨covered.seed, covered.nodes, covered.publicInput, ?_⟩
  have input := within_messageInput bytes lms.identifier q drawn clean
  have inputLength : (messageInput lms.identifier q C message).length = 964 := by
    simp only [messageInput, List.length_append, length_ofBytes, length_putU32, length_putU16,
      List.Vector.toList_length, length]
    rfl
  have parts : (lms.withMessage q C message).smallHashInput.toList =
      messageInput lms.identifier q C message ++ lms.smallHashInput.toList.drop 964 := by
    rw [← inputLength]
    exact toList_overwrite_front (by rw [inputLength]; decide)
  rw [List.drop_zero, parts]
  refine within_append.mpr ⟨input, fun y mem => covered.behind y ?_⟩
  rw [show (964 : Nat) = 55 + 909 from rfl, ← List.drop_drop] at mem
  exact List.mem_of_mem_drop mem

omit bytes [Cell α] in
theorem Covered.mono [Cell α] {lms : LmsMember α} (covered : Covered kind 0 lms) :
    Covered kind 55 lms :=
  ⟨covered.seed, covered.nodes, covered.publicInput, fun y mem =>
    covered.behind y (List.mem_of_mem_drop mem)⟩

omit bytes [Cell α] in
theorem Covered.overwritten [Cell α] {lms lms' : LmsMember α} (covered : Covered kind 55 lms)
    (overwritten : Overwritten lms lms') : Covered kind 55 lms' := by
  refine ⟨?_, ?_, ?_, overwritten.behind.symm ▸ covered.behind⟩
  · rw [overwritten.same]
    exact covered.seed
  · rw [overwritten.same]
    exact covered.nodes
  · rw [overwritten.same]
    exact covered.publicInput

/-- A signature keeps the seed out of everything but the front of the buffer. -/
theorem Signs.covered {q : UInt32} {message : List α} {seed : Hash α} {lms lms' : LmsMember α}
    {result : Option (SignatureCells α)} {digests : List (Option (Hash α))}
    (signs : Signs hash kind q message seed lms result lms' digests)
    (covered : Covered kind 55 lms) (clean : Within kind message)
    (length : message.length = lmotsSignedObjectBytes) : Covered kind 55 lms' := by
  rcases digests with _ | ⟨_ | digest, later⟩
  · exact (signs.uncalled rfl).2 ▸ covered
  · obtain ⟨_, C, drawn, rfl⟩ := signs.undigested rfl
    exact (covered.withMessage bytes q.toNat drawn clean length).mono
  · obtain ⟨_, C, drawn, overwritten⟩ := signs.digested digest rfl
    exact (covered.withMessage bytes q.toNat drawn clean length).mono.overwritten overwritten

end Covered

end Puav.LmsMember
