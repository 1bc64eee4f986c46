import Mathlib.Algebra.BigOperators.Group.Finset.Basic
import Mathlib.Tactic.Common

/-!
# LM-OTS and LMS as RFC 8554 defines them

One-time signatures from hash chains and the tree that certifies their public keys,
over any hash function and any parameters. Private values come from the pseudorandom
key generation of the standard's appendix.

Every string is a list of octets. The node `T[r]` is the recursive definition; the
candidate root of a signature is computed by the standard's loop over the node number.
-/

namespace Rfc8554

abbrev Octets := List UInt8

/-- The parameters of a pair of LM-OTS and LMS parameter sets. -/
structure Parameters where
  /-- The bytes of a digest. -/
  n : Nat
  /-- The bits of a Winternitz coefficient. -/
  w : Nat
  /-- The number of chains. -/
  p : Nat
  /-- The shift of the checksum. -/
  ls : Nat
  /-- The height of the tree. -/
  h : Nat
  /-- The type code of the one-time signature. -/
  otsType : Nat

def u8str (i : Nat) : Octets := [.ofNat i]

def u16str (i : Nat) : Octets := [.ofNat (i / 2 ^ 8), .ofNat i]

def u32str (i : Nat) : Octets :=
  [.ofNat (i / 2 ^ 24), .ofNat (i / 2 ^ 16), .ofNat (i / 2 ^ 8), .ofNat i]

/-- The number that four octets stand for. -/
def strTou32 (s : Octets) : Nat := s.foldl (fun value octet => value * 2 ^ 8 + octet.toNat) 0

def D_PBLC : Nat := 0x8080
def D_MESG : Nat := 0x8181
def D_LEAF : Nat := 0x8282
def D_INTR : Nat := 0x8383

/-- The `i`-th `w`-bit coefficient of a string. -/
def coef (s : Octets) (i w : Nat) : Nat :=
  (2 ^ w - 1) &&& ((s.getD (i * w / 8) 0).toNat >>> (8 - (w * (i % (8 / w)) + w)))

section OneTime

variable (params : Parameters) (hash : Octets → Octets)

/-- The checksum of a message digest. -/
def cksm (s : Octets) : Nat :=
  (∑ i ∈ Finset.range (params.n * 8 / params.w), (2 ^ params.w - 1 - coef s i params.w)) <<<
    params.ls

/-- `count` steps of chain `i` from step `j` on. -/
def chain (identifier : Octets) (q i : Nat) : Nat → Nat → Octets → Octets
  | _, 0, tmp => tmp
  | j, count + 1, tmp =>
      chain identifier q i (j + 1) count
        (hash (identifier ++ u32str q ++ u16str i ++ u8str j ++ tmp))

/-- The private value of chain `i`. -/
def privateValue (identifier seed : Octets) (q i : Nat) : Octets :=
  hash (identifier ++ u32str q ++ u16str i ++ u8str 0xff ++ seed)

/-- The hash of all chain ends. -/
def publicKey (identifier seed : Octets) (q : Nat) : Octets :=
  hash (identifier ++ u32str q ++ u16str D_PBLC ++ ((List.range params.p).map fun i =>
    chain hash identifier q i 0 (2 ^ params.w - 1) (privateValue hash identifier seed q i)).flatten)

/-- The message digest and its checksum. -/
def digestWithChecksum (identifier : Octets) (q : Nat) (randomizer message : Octets) : Octets :=
  let digest := hash (identifier ++ u32str q ++ u16str D_MESG ++ randomizer ++ message)
  digest ++ u16str (cksm params digest)

/-- The LM-OTS signature of a message. -/
def sign (identifier seed : Octets) (q : Nat) (randomizer message : Octets) : Octets :=
  let digits := digestWithChecksum params hash identifier q randomizer message
  u32str params.otsType ++ randomizer ++ ((List.range params.p).map fun i =>
    chain hash identifier q i 0 (coef digits i params.w)
      (privateValue hash identifier seed q i)).flatten

/-- The public key candidate of a signature; none where the standard answers INVALID. -/
def candidateKey (identifier : Octets) (q : Nat) (message signature : Octets) : Option Octets :=
  if strTou32 (signature.take 4) ≠ params.otsType then none
  else if signature.length ≠ 4 + params.n * (params.p + 1) then none
  else
    let randomizer := (signature.drop 4).take params.n
    let digits := digestWithChecksum params hash identifier q randomizer message
    let ends := (List.range params.p).map fun i =>
      chain hash identifier q i (coef digits i params.w)
        (2 ^ params.w - 1 - coef digits i params.w)
        ((signature.drop (4 + params.n + i * params.n)).take params.n)
    some (hash (identifier ++ u32str q ++ u16str D_PBLC ++ ends.flatten))

end OneTime

section Tree

variable (params : Parameters) (hash : Octets → Octets)

def leafHash (identifier : Octets) (r : Nat) (key : Octets) : Octets :=
  hash (identifier ++ u32str r ++ u16str D_LEAF ++ key)

def internalHash (identifier : Octets) (r : Nat) (left right : Octets) : Octets :=
  hash (identifier ++ u32str r ++ u16str D_INTR ++ left ++ right)

/-- The node `T[r]`, for `r` from one on. -/
def node (identifier seed : Octets) (r : Nat) : Octets :=
  if r = 0 ∨ 2 ^ params.h ≤ r then
    leafHash hash identifier r (publicKey params hash identifier seed (r - 2 ^ params.h))
  else
    internalHash hash identifier r (node identifier seed (2 * r)) (node identifier seed (2 * r + 1))
termination_by 2 ^ params.h - r
decreasing_by
  · omega
  · omega

/-- The loop over the node number: one path element for each level below the root. -/
def climb (identifier : Octets) (path : Nat → Octets) (r i : Nat) (tmp : Octets) : Octets :=
  if 1 < r then
    climb identifier path (r / 2) (i + 1)
      (if r % 2 = 1 then internalHash hash identifier (r / 2) (path i) tmp
        else internalHash hash identifier (r / 2) tmp (path i))
  else tmp
termination_by r

/-- The root candidate of a signature; none where the standard answers INVALID. -/
def candidateRoot (identifier : Octets) (q : Nat) (message signature path : Octets) :
    Option Octets := do
  if q ≥ 2 ^ params.h then none
  let key ← candidateKey params hash identifier q message signature
  let r := 2 ^ params.h + q
  return climb hash identifier (fun i => (path.drop (i * params.n)).take params.n) r 0
    (leafHash hash identifier r key)

variable {params : Parameters} {hash : Octets → Octets} {identifier seed : Octets} {r : Nat}

theorem node_leaf (low : 2 ^ params.h ≤ r) : node params hash identifier seed r =
    leafHash hash identifier r (publicKey params hash identifier seed (r - 2 ^ params.h)) := by
  rw [node, if_pos (.inr low)]

theorem node_internal (low : 1 ≤ r) (high : r < 2 ^ params.h) :
    node params hash identifier seed r =
      internalHash hash identifier r (node params hash identifier seed (2 * r))
        (node params hash identifier seed (2 * r + 1)) := by
  rw [node, if_neg (by omega)]

/-- An array that holds the leaves and whose inner entries hash their children is the tree. -/
theorem eq_node {tree : Nat → Octets}
    (leaf : ∀ r, 2 ^ params.h ≤ r → r < 2 * 2 ^ params.h →
      tree r =
        leafHash hash identifier r (publicKey params hash identifier seed (r - 2 ^ params.h)))
    (internal : ∀ r, 1 ≤ r → r < 2 ^ params.h →
      tree r = internalHash hash identifier r (tree (2 * r)) (tree (2 * r + 1))) :
    ∀ r, 1 ≤ r → r < 2 * 2 ^ params.h → tree r = node params hash identifier seed r := by
  intro r
  induction r using node.induct params with
  | case1 r outer =>
      intro low high
      have last : 2 ^ params.h ≤ r := by omega
      rw [leaf r last high, node_leaf last]
  | case2 r inner left right =>
      intro low high
      have below : r < 2 ^ params.h := by omega
      rw [internal r low below, node_internal low below, left (by omega) (by omega),
        right (by omega) (by omega)]

/-- The loop stops after as many elements as there are levels. -/
theorem climb_succ (path : Nat → Octets) {i : Nat} {tmp : Octets} (inner : 1 < r) :
    climb hash identifier path r i tmp = climb hash identifier path (r / 2) (i + 1)
      (if r % 2 = 1 then internalHash hash identifier (r / 2) (path i) tmp
        else internalHash hash identifier (r / 2) tmp (path i)) := by
  rw [climb, if_pos inner]

theorem climb_root (path : Nat → Octets) {i : Nat} {tmp : Octets} (root : r ≤ 1) :
    climb hash identifier path r i tmp = tmp := by
  rw [climb, if_neg (by omega)]

end Tree

end Rfc8554
