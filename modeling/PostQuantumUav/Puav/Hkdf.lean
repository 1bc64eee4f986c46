import PostQuantumUav.Library.Bytes.Buffer
import PostQuantumUav.Library.Rfc5869
import PostQuantumUav.Puav.CanonicalEncodings
import PostQuantumUav.Puav.Lms.Basic

/-!
# Key derivation as the library computes it

`CryptoHelpers::hkdfSha256` over any HMAC function of 32 bytes. The arrays on the stack
start with arbitrary contents, and the loop runs on a state of its own: what one
iteration writes into `expandInput` is a list of writes, so that their bounds can be
stated.

After `n` iterations the loop has written the first `n` blocks of RFC 5869, the last one
cut to what is still missing.
-/

namespace Puav.CryptoHelpers

open Buffer Cell

/-- The state of the loop of `hkdfSha256`. -/
structure Expansion (size : Nat) where
  previous : Digest
  previousLength : Nat
  output : List.Vector UInt8 size
  outputOffset : Nat
  counter : UInt8
  expandInput : List.Vector UInt8 (hashBytes + 128 + 1)

section Source

variable (hmac : Bytes → Bytes → Digest)

/-- `CryptoHelpers::hmacSha256`, refused for strings past 32 bits. -/
def hmacSha256 (key data : Bytes) : Option Digest :=
  if key.length > uint32Max ∨ data.length > uint32Max then none else some (hmac key data)

/-- What an iteration writes into `expandInput`: offsets and cells in order. -/
def expandWrites {size : Nat} (info : Bytes) (s : Expansion size) : List (Nat × Bytes) :=
  [(0, s.previous.toList.take s.previousLength), (s.previousLength, info),
    (s.previousLength + info.length, [s.counter])]

/-- The state after an iteration that has computed `block`. -/
def Expansion.append {size : Nat} (info : Bytes) (s : Expansion size) (block : Digest) :
    Expansion size :=
  let remaining := size - s.outputOffset
  let copyLength := if remaining < hashBytes then remaining else hashBytes
  { previous := block
    previousLength := hashBytes
    output := writeAt s.output s.outputOffset (block.toList.take copyLength)
    outputOffset := s.outputOffset + copyLength
    counter := s.counter + 1
    expandInput := writes s.expandInput (expandWrites info s) }

/-- One iteration; the HMAC may report an error. -/
def expandStep {size : Nat} (prk : Digest) (info : Bytes) (s : Expansion size) :
    Option (Expansion size) :=
  let offset := s.previousLength + info.length + 1
  (hmacSha256 hmac prk.toList
    ((writes s.expandInput (expandWrites info s)).toList.take offset)).map (s.append info)

theorem outputOffset_append {size : Nat} (info : Bytes) (s : Expansion size) (block : Digest) :
    (s.append info block).outputOffset =
      s.outputOffset + min (size - s.outputOffset) hashBytes := by
  simp only [Expansion.append, Nat.min_def]
  split <;> split <;> omega

def expandLoop {size : Nat} (prk : Digest) (info : Bytes) (s : Expansion size) :
    Option (List.Vector UInt8 size) :=
  if s.outputOffset < size then
    match _stepped : expandStep hmac prk info s with
    | none => none
    | some s' => expandLoop prk info s'
  else some s.output
termination_by size - s.outputOffset
decreasing_by
  obtain ⟨block, _, rfl⟩ := Option.map_eq_some_iff.mp _stepped
  have progress := outputOffset_append info s block
  have positive : 0 < hashBytes := by decide
  omega

/-- The loop's first state, on arrays as they are. -/
def expandStart {size : Nat} (previous : Digest)
    (expandInput : List.Vector UInt8 (hashBytes + 128 + 1)) (output : List.Vector UInt8 size) :
    Expansion size where
  previous := previous
  previousLength := 0
  output := output
  outputOffset := 0
  counter := 1
  expandInput := expandInput

/-- The key of the expansion, under the salt or its replacement. -/
def extractPrk (ikm salt : Bytes) : Option Digest :=
  let effectiveSalt := if salt.length = 0 then List.replicate hashBytes 0 else salt
  hmacSha256 hmac effectiveSalt ikm

/-- `hkdfSha256` into an output of `size` bytes; `previous` and `expandInput` are what the
arrays hold at first. -/
def hkdfSha256 {size : Nat} (previous : Digest)
    (expandInput : List.Vector UInt8 (hashBytes + 128 + 1)) (ikm salt info : Bytes)
    (output : List.Vector UInt8 size) : Option (List.Vector UInt8 size) :=
  if ikm.length > uint32Max ∨ salt.length > uint32Max ∨ info.length > uint32Max ∨ size = 0 ∨
      size > 255 * hashBytes then none
  else
    match extractPrk hmac ikm salt with
    | none => none
    | some prk =>
        if info.length > 128 then none
        else expandLoop hmac prk info (expandStart previous expandInput output)

end Source

section Iterations

variable (hmac : Bytes → Bytes → Digest) {size : Nat} (prk : Digest) (info : Bytes)

/-- The state of the loop after so many iterations, when it runs that long. -/
def expandAfter (start : Expansion size) : Nat → Option (Expansion size)
  | 0 => some start
  | n + 1 => (expandAfter start n).bind fun s =>
      if s.outputOffset < size then expandStep hmac prk info s else none

/-- What is left of the loop after its first iterations has its result. -/
theorem expandLoop_of_after {start s : Expansion size} {n : Nat}
    (after : expandAfter hmac prk info start n = some s) :
    expandLoop hmac prk info start = expandLoop hmac prk info s := by
  induction n generalizing s with
  | zero => rw [Option.some.inj after]
  | succ n ih =>
      obtain ⟨last, before, stepped⟩ := Option.bind_eq_some_iff.mp after
      rw [ih before, expandLoop]
      split at stepped
      · rename_i continues
        rw [if_pos continues]
        split
        · rename_i failed
          rw [failed] at stepped
          cases stepped
        · rename_i s' found
          rw [found] at stepped
          rw [Option.some.inj stepped]
      · cases stepped

/-- The hash as the standard takes it. -/
def octets (key data : Bytes) : Bytes := (hmac key data).toList

/-- What holds after `n` iterations, the last of which may have written less than a block. -/
structure Expanded (n : Nat) (s : Expansion size) : Prop where
  previous : s.previous.toList.take s.previousLength = Rfc5869.T (octets hmac) prk.toList info n
  previousLength : s.previousLength = if n = 0 then 0 else hashBytes
  counter : s.counter = .ofNat (n + 1)
  outputOffset : s.outputOffset = min (hashBytes * n) size
  output : s.output.toList.take s.outputOffset =
    (Rfc5869.stream (octets hmac) prk.toList info n).take size

theorem expanded_start (previous : Digest) (expandInput : List.Vector UInt8 (hashBytes + 128 + 1))
    (output : List.Vector UInt8 size) :
    Expanded hmac prk info 0 (expandStart previous expandInput output) where
  previous := rfl
  previousLength := rfl
  counter := rfl
  outputOffset := (Nat.zero_min size).symm
  output := List.take_nil.symm

variable {hmac prk info} {n : Nat} {s : Expansion size}

/-- The writes of an iteration end inside the array. -/
theorem Expanded.offset_le (h : Expanded hmac prk info n s) (short : info.length ≤ 128) :
    s.previousLength + info.length + 1 ≤ hashBytes + 128 + 1 := by
  rw [h.previousLength]
  split <;> omega

/-- What an iteration hashes is what the standard hashes for the next block. -/
theorem Expanded.input (h : Expanded hmac prk info n s) (short : info.length ≤ 128) :
    (writes s.expandInput (expandWrites info s)).toList.take (s.previousLength + info.length + 1) =
      Rfc5869.T (octets hmac) prk.toList info n ++ info ++ [.ofNat (n + 1)] := by
  have held : (s.previous.toList.take s.previousLength).length = s.previousLength := by
    rw [List.length_take, s.previous.toList_length, h.previousLength]
    split <;> rfl
  have contiguous : Contiguous 0 (expandWrites info s) (s.previousLength + info.length + 1) := by
    refine ⟨rfl, ?_, ?_, ?_⟩
    · rw [held, Nat.zero_add]
    · rw [held, Nat.zero_add]
    · change 0 + _ + info.length + 1 = _
      rw [held, Nat.zero_add]
  rw [take_writes contiguous (h.offset_le short), List.take_zero, List.nil_append, ← h.previous,
    ← h.counter]
  simp only [expandWrites, List.map_cons, List.map_nil, List.flatten_cons, List.flatten_nil,
    List.append_nil, List.append_assoc]

/-- An iteration computes the next block. -/
theorem Expanded.step (h : Expanded hmac prk info n s) (short : info.length ≤ 128) :
    expandStep hmac prk info s = some (s.append info (hmac prk.toList
      (Rfc5869.T (octets hmac) prk.toList info n ++ info ++ [.ofNat (n + 1)]))) := by
  have keyed : ¬ (prk.toList.length > uint32Max) := by
    rw [prk.toList_length]
    decide
  have previous : (Rfc5869.T (octets hmac) prk.toList info n).length ≤ hashBytes := by
    rw [← h.previous, List.length_take, s.previous.toList_length]
    exact Nat.min_le_right _ _
  have small : hashBytes + 128 + 1 ≤ uint32Max := by decide
  rw [expandStep, h.input short, hmacSha256, if_neg]
  · rfl
  · rintro (long | long)
    · exact keyed long
    · simp only [List.length_append, List.length_cons, List.length_nil] at long
      omega

/-- Before its test fails the loop has written whole blocks. -/
theorem Expanded.outputOffset_eq (h : Expanded hmac prk info n s)
    (continues : s.outputOffset < size) : s.outputOffset = hashBytes * n := by
  have offset := h.outputOffset
  omega

/-- Then the state is the one after `n + 1` iterations. -/
theorem Expanded.append (h : Expanded hmac prk info n s) (continues : s.outputOffset < size) :
    Expanded hmac prk info (n + 1) (s.append info (hmac prk.toList
      (Rfc5869.T (octets hmac) prk.toList info n ++ info ++ [.ofNat (n + 1)]))) := by
  have offset := h.outputOffset_eq continues
  generalize block : hmac prk.toList _ = next
  have added : next.toList = Rfc5869.T (octets hmac) prk.toList info (n + 1) :=
    congrArg List.Vector.toList block.symm
  have advanced := outputOffset_append info s next
  refine ⟨?_, rfl, ?_, ?_, ?_⟩
  · rw [← added]
    exact List.take_of_length_le (Nat.le_of_eq next.toList_length)
  · change s.counter + 1 = _
    rw [h.counter]
    exact (UInt8.ofNat_add (n + 1) 1).symm
  · rw [advanced, offset, Nat.mul_succ]
    omega
  · obtain ⟨copyLength, cut⟩ : ∃ c, c = min (size - s.outputOffset) hashBytes := ⟨_, rfl⟩
    have whole : (Rfc5869.stream (octets hmac) prk.toList info n).length = hashBytes * n :=
      Rfc5869.length_stream (fun key data => (hmac key data).toList_length) n
    have copied : (next.toList.take copyLength).length = copyLength := by
      rw [List.length_take, next.toList_length]
      omega
    have written : (s.append info next).output =
        writeAt s.output s.outputOffset (next.toList.take copyLength) := by
      change writeAt _ _ (List.take (if _ then _ else _) _) = _
      congr 2
      split <;> omega
    rw [written, advanced, ← cut, take_writeAt (by omega) (by rw [copied]), h.output,
      Rfc5869.stream_succ, List.take_append, whole, ← added, ← offset]
    congr 1
    rw [List.take_eq_take_iff, next.toList_length]
    omega

/-- Every state of the loop is as far as its iterations. -/
theorem expanded_after (short : info.length ≤ 128) {start : Expansion size}
    (started : Expanded hmac prk info 0 start)
    (after : expandAfter hmac prk info start n = some s) : Expanded hmac prk info n s := by
  induction n generalizing s with
  | zero => exact Option.some.inj after ▸ started
  | succ n ih =>
      obtain ⟨last, before, stepped⟩ := Option.bind_eq_some_iff.mp after
      split at stepped
      · rename_i continues
        have expanded := ih before
        rw [expanded.step short] at stepped
        exact Option.some.inj stepped ▸ expanded.append continues
      · cases stepped

/-- The loop does not stop before the output is full. -/
theorem exists_expandAfter (short : info.length ≤ 128) {start : Expansion size}
    (started : Expanded hmac prk info 0 start) (n : Nat)
    (missing : hashBytes * n < size + hashBytes) :
    ∃ s, expandAfter hmac prk info start n = some s := by
  induction n with
  | zero => exact ⟨start, rfl⟩
  | succ n ih =>
      rw [Nat.mul_succ] at missing
      obtain ⟨s, after⟩ := ih (by omega)
      have expanded := expanded_after short started after
      have offset := expanded.outputOffset
      have continues : s.outputOffset < size := by omega
      exact ⟨_, Option.bind_eq_some_iff.mpr
        ⟨s, after, (if_pos continues).trans (expanded.step short)⟩⟩

/-- The whole loop fills the output with the standard's octets. -/
theorem expandLoop_eq (short : info.length ≤ 128) {start : Expansion size}
    (started : Expanded hmac prk info 0 start) :
    (expandLoop hmac prk info start).map (·.toList) =
      some (Rfc5869.expand (octets hmac) hashBytes prk.toList info size) := by
  have division := Nat.div_add_mod (size + hashBytes - 1) hashBytes
  have rest := Nat.mod_lt (size + hashBytes - 1) (by decide : 0 < hashBytes)
  obtain ⟨s, after⟩ :=
    exists_expandAfter short started ((size + hashBytes - 1) / hashBytes) (by omega)
  have expanded := expanded_after short started after
  have offset := expanded.outputOffset
  have full : s.outputOffset = size := by omega
  have output := expanded.output
  rw [full, List.take_of_length_le (Nat.le_of_eq s.output.toList_length)] at output
  rw [expandLoop_of_after hmac prk info after, expandLoop, if_neg (by omega), Rfc5869.expand,
    ← output]
  rfl

end Iterations

section Results

variable (hmac : Bytes → Bytes → Digest) (ikm salt info : Bytes)

/-- The lengths that `hkdfSha256` accepts. -/
structure AcceptedLengths (outputLength : Nat) : Prop where
  ikm : ikm.length < 2 ^ 32
  salt : salt.length < 2 ^ 32
  info : info.length ≤ 128
  positive : 1 ≤ outputLength
  blocks : outputLength ≤ 8160

/-- A salt that is not given is replaced as the standard says. -/
theorem extractPrk_eq (keyed : ikm.length < 2 ^ 32) (salted : salt.length < 2 ^ 32) :
    ∃ prk, extractPrk hmac ikm salt = some prk ∧
      prk.toList = Rfc5869.extract (octets hmac) hashBytes salt ikm := by
  refine ⟨hmac (if salt.length = 0 then List.replicate hashBytes 0 else salt) ikm, ?_, ?_⟩
  · have bound : uint32Max = 2 ^ 32 - 1 := rfl
    have zeros : hashBytes ≤ uint32Max := by decide
    rw [extractPrk, hmacSha256, if_neg]
    rintro (long | long)
    · split at long
      · rw [List.length_replicate] at long
        omega
      · omega
    · omega
  · simp only [Rfc5869.extract, octets, List.length_eq_zero_iff]

variable {size : Nat} (previous : Digest)
  (expandInput : List.Vector UInt8 (hashBytes + 128 + 1)) (output : List.Vector UInt8 size)

/-- The body of the loop runs on the state, after so many earlier iterations. -/
def Iterates (n : Nat) (s : Expansion size) : Prop :=
  ∃ prk, extractPrk hmac ikm salt = some prk ∧
    expandAfter hmac prk info (expandStart previous expandInput output) n = some s ∧
    s.outputOffset < size

variable {ikm salt info}

theorem hkdfSha256_accepted (accepted : AcceptedLengths ikm salt info size) :
    (hkdfSha256 hmac previous expandInput ikm salt info output).map (·.toList) =
      some (Rfc5869.hkdf (octets hmac) hashBytes salt ikm info size) := by
  obtain ⟨keyed, salted, short, positive, blocks⟩ := accepted
  obtain ⟨prk, extracted, standard⟩ := extractPrk_eq hmac ikm salt keyed salted
  have guarded : ¬ (ikm.length > uint32Max ∨ salt.length > uint32Max ∨ info.length > uint32Max ∨
      size = 0 ∨ size > 255 * hashBytes) := by
    simp only [uint32Max, hashBytes]
    omega
  rw [hkdfSha256, if_neg guarded, extracted]
  change (if _ then _ else _ : Option _).map _ = _
  rw [if_neg (Nat.not_lt.mpr short), expandLoop_eq short (expanded_start hmac prk info _ _ _),
    Rfc5869.hkdf, ← standard]

variable {hmac previous expandInput output}

/-- What an iteration is like, and how many there have been. -/
theorem Iterates.expanded (accepted : AcceptedLengths ikm salt info size) {n : Nat}
    {s : Expansion size} (runs : Iterates hmac ikm salt info previous expandInput output n s) :
    (∃ prk, Expanded hmac prk info n s) ∧ n < 255 := by
  obtain ⟨prk, _, after, continues⟩ := runs
  have expanded := expanded_after accepted.info (expanded_start hmac prk info _ _ _) after
  have offset := expanded.outputOffset_eq continues
  have blocks := accepted.blocks
  simp only [hashBytes] at offset
  exact ⟨⟨prk, expanded⟩, by omega⟩

end Results

section Uses

open ProposedUavProtocol

variable {κ : Type} {object : ProposedUavProtocol UInt8 κ} {ikm salt info : Bytes} {length : Nat}

theorem acceptedLengths_sessionKeys {sharedSecret transcriptHash : Digest}
    (asked : Asks (deriveSessionKeys sharedSecret transcriptHash) object
      (.hkdfSha256 ikm salt info length)) : AcceptedLengths ikm salt info length := by
  obtain ⟨rfl, rfl, rfl, rfl⟩ := asks_deriveSessionKeys asked
  refine ⟨?_, ?_, ?_, by decide, by decide⟩
  · rw [sharedSecret.toList_length]
    decide
  · rw [transcriptHash.toList_length]
    decide
  · simp only [hashInput, List.length_append, length_putU16, List.Vector.toList_length,
      List.length_cons, List.length_nil]
    decide

theorem acceptedLengths_runtimeSeed
    (asked : Asks timedRuntimeSeed object (.hkdfSha256 ikm salt info length)) :
    AcceptedLengths ikm salt info length := by
  obtain ⟨⟨pufRoot, rfl⟩, rfl, rfl, rfl⟩ := asks_timedRuntimeSeed asked
  refine ⟨?_, by decide, ?_, by decide, by decide⟩
  · rw [pufRoot.toList_length]
    decide
  · simp only [lmsSeedInfo, List.length_append, length_ofBytes, length_putU32,
      List.Vector.toList_length, List.length_cons, List.length_nil]
    decide

/-- What the device derives, the session keys and the seed of its signatures, is what the standard
derives from the same strings: no call of these methods is refused. -/
theorem derivations_rfc5869 (hmac : Bytes → Bytes → Digest) (previous : Digest)
    (expandInput : List.Vector UInt8 (hashBytes + 128 + 1)) (output : List.Vector UInt8 length)
    (asked : Asks timedRuntimeSeed object (.hkdfSha256 ikm salt info length) ∨
      ∃ sharedSecret transcriptHash, Asks (deriveSessionKeys sharedSecret transcriptHash) object
        (.hkdfSha256 ikm salt info length)) :
    (hkdfSha256 hmac previous expandInput ikm salt info output).map (·.toList) =
      some (Rfc5869.hkdf (octets hmac) hashBytes salt ikm info length) := by
  refine hkdfSha256_accepted hmac previous expandInput output ?_
  obtain seed | ⟨sharedSecret, transcriptHash, keys⟩ := asked
  · exact acceptedLengths_runtimeSeed seed
  · exact acceptedLengths_sessionKeys keys

end Uses

end Puav.CryptoHelpers
