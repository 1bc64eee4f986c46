import Mathlib.Tactic.Common

/-!
# HKDF as RFC 5869 defines it

Extraction and expansion over any HMAC function. The blocks `T(1)`, `T(2)`, … form a
stream that depends on the key and the context only; an output is as many octets of the
stream as are asked for, so that outputs of different lengths extend each other.
-/

namespace Rfc5869

abbrev Octets := List UInt8

variable (hmac : Octets → Octets → Octets)

/-- The pseudorandom key; a salt that is not given stands for `hashLen` zeros. -/
def extract (hashLen : Nat) (salt ikm : Octets) : Octets :=
  hmac (if salt = [] then List.replicate hashLen 0 else salt) ikm

/-- The block `T(n)`; `T(0)` is empty. -/
def T (prk info : Octets) : Nat → Octets
  | 0 => []
  | n + 1 => hmac prk (T prk info n ++ info ++ [.ofNat (n + 1)])

/-- `T(1) | T(2) | … | T(n)`. -/
def stream (prk info : Octets) (n : Nat) : Octets :=
  (List.range n).flatMap fun i => T hmac prk info (i + 1)

/-- The first `l` octets of as many blocks as they need. -/
def expand (hashLen : Nat) (prk info : Octets) (l : Nat) : Octets :=
  (stream hmac prk info ((l + hashLen - 1) / hashLen)).take l

def hkdf (hashLen : Nat) (salt ikm info : Octets) (l : Nat) : Octets :=
  expand hmac hashLen (extract hmac hashLen salt ikm) info l

theorem stream_succ (prk info : Octets) (n : Nat) :
    stream hmac prk info (n + 1) = stream hmac prk info n ++ T hmac prk info (n + 1) := by
  rw [stream, List.range_succ, List.flatMap_append, List.flatMap_singleton]
  rfl

section Sized

variable {hmac} {hashLen : Nat} (sized : ∀ key data, (hmac key data).length = hashLen)
  {prk info : Octets}

include sized

theorem length_stream (n : Nat) : (stream hmac prk info n).length = hashLen * n := by
  induction n with
  | zero => rfl
  | succ n ih =>
      have block : (T hmac prk info (n + 1)).length = hashLen := sized _ _
      rw [stream_succ, List.length_append, ih, block, Nat.mul_succ]

end Sized

end Rfc5869
