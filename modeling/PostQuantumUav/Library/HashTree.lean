import Mathlib.Algebra.Group.Nat.Even
import Mathlib.Data.Nat.Bitwise
import Mathlib.Logic.Function.Basic
import Mathlib.Tactic.Common

/-!
# Binary hash trees stored in an array

Node `r` has the children `2 * r` and `2 * r + 1`, and the root is node one. An
internal node is the hash of an encoding of its number and its two children, so
the tree is determined by its last layer.

`climb` recomputes an ancestor from one node and the siblings met on the way up.
It is complete: the siblings taken from the tree lead to the tree's own ancestor.
It is binding: any node and siblings that lead to the tree's ancestor are the
tree's own, unless two different encodings met on the way hash to the same value.
Hash, digests and encodings are arbitrary.
-/

namespace HashTree

variable {Digest Preimage : Type} (hash : Preimage → Digest)
  (encode : Nat → Digest → Digest → Preimage)

/-- Every node from one below `leaves` is the hash of its two children. -/
def Internal (tree : Nat → Digest) (leaves : Nat) : Prop :=
  ∀ node, 1 ≤ node → node < leaves →
    tree node = hash (encode node (tree (2 * node)) (tree (2 * node + 1)))

/-- The other child of the same parent. -/
def sibling (node : Nat) : Nat := if node % 2 = 0 then node + 1 else node - 1

/-- The siblings met when climbing `height` levels from `node`, lowest first. -/
def siblings (tree : Nat → Digest) : Nat → Nat → List Digest
  | _, 0 => []
  | node, height + 1 => tree (sibling node) :: siblings tree (node / 2) height

/-- What is hashed one level up: left and right are chosen by the node's parity. -/
def parentInput (node : Nat) (current other : Digest) : Preimage :=
  if node % 2 = 0 then encode (node / 2) current other else encode (node / 2) other current

/-- Recompute the ancestor reached from `node` with the given siblings. -/
def climb : Nat → Digest → List Digest → Digest
  | _, current, [] => current
  | node, current, other :: rest =>
      climb (node / 2) (hash (parentInput encode node current other)) rest

/-- The strings hashed by the same climb, lowest level first. -/
def climbInputs : Nat → Digest → List Digest → List Preimage
  | _, _, [] => []
  | node, current, other :: rest =>
      parentInput encode node current other ::
        climbInputs (node / 2) (hash (parentInput encode node current other)) rest

/-- Two different strings with the same hash, the first from `left` and the second
from `right`. -/
def Collides (left right : List Preimage) : Prop :=
  ∃ x ∈ left, ∃ y ∈ right, x ≠ y ∧ hash x = hash y

@[simp] theorem length_siblings (tree : Nat → Digest) (node height : Nat) :
    (siblings tree node height).length = height := by
  induction height generalizing node with
  | zero => rfl
  | succ height ih => rw [siblings, List.length_cons, ih]

theorem Collides.mono {left left' right right' : List Preimage}
    (h : Collides hash left right) (hl : left ⊆ left') (hr : right ⊆ right') :
    Collides hash left' right' := by
  obtain ⟨x, hx, y, hy, ne, same⟩ := h
  exact ⟨x, hl hx, y, hr hy, ne, same⟩

/-- Which child of its parent a node is, as its parity tells. -/
theorem node_cases (node : Nat) :
    (node % 2 = 0 ∧ 2 * (node / 2) = node ∧ 2 * (node / 2) + 1 = sibling node) ∨
      (node % 2 = 1 ∧ 2 * (node / 2) = sibling node ∧ 2 * (node / 2) + 1 = node) := by
  unfold sibling
  rcases Nat.mod_two_eq_zero_or_one node with even | odd
  · exact .inl ⟨even, by omega, by rw [if_pos even]; omega⟩
  · exact .inr ⟨odd, by rw [if_neg (by omega)]; omega, by omega⟩

variable {hash encode} {tree : Nat → Digest} {leaves : Nat}

/-- The tree's node and its sibling are the two children its parent hashes. -/
theorem Internal.parent (internal : Internal hash encode tree leaves) {node : Nat}
    (low : 2 ≤ node) (high : node < 2 * leaves) :
    tree (node / 2) =
      hash (parentInput encode node (tree node) (tree (sibling node))) := by
  rw [internal (node / 2) (by omega) (by omega), parentInput]
  rcases node_cases node with ⟨even, left, right⟩ | ⟨odd, left, right⟩
  · rw [if_pos even, right, left]
  · rw [if_neg (by omega), right, left]

private theorem two_le_of_pow_le {node height : Nat} (h : 2 ^ (height + 1) ≤ node) :
    2 ≤ node ∧ 2 ^ height ≤ node / 2 := by
  have pos : 0 < 2 ^ height := Nat.two_pow_pos height
  rw [Nat.pow_succ] at h
  omega

/-- Completeness: the tree's own siblings lead to the tree's own ancestor. -/
theorem climb_siblings (internal : Internal hash encode tree leaves) (height : Nat)
    {node : Nat} (low : 2 ^ height ≤ node) (high : node < 2 * leaves) :
    climb hash encode node (tree node) (siblings tree node height) =
      tree (node / 2 ^ height) := by
  induction height generalizing node with
  | zero => rw [siblings, climb, Nat.pow_zero, Nat.div_one]
  | succ height ih =>
      obtain ⟨two, half⟩ := two_le_of_pow_le low
      rw [siblings, climb, ← internal.parent two high, ih half (by omega),
        Nat.div_div_eq_div_mul, Nat.pow_succ']

/-- Binding: a climb that ends in the tree's ancestor started at the tree's node and
used the tree's siblings, or one of its inputs collides with a node of the tree. -/
theorem climb_binds (internal : Internal hash encode tree leaves)
    (inj : ∀ {node l r l' r'}, encode node l r = encode node l' r' → l = l' ∧ r = r')
    (others : List Digest) {node : Nat} {current : Digest}
    (low : 2 ^ others.length ≤ node) (high : node < 2 * leaves)
    (reached : climb hash encode node current others = tree (node / 2 ^ others.length)) :
    (current = tree node ∧ others = siblings tree node others.length) ∨
      ∃ x ∈ climbInputs hash encode node current others, ∃ r, 1 ≤ r ∧ r < leaves ∧
        x ≠ encode r (tree (2 * r)) (tree (2 * r + 1)) ∧
        hash x = hash (encode r (tree (2 * r)) (tree (2 * r + 1))) := by
  induction others generalizing node current with
  | nil =>
      rw [climb, List.length_nil, Nat.pow_zero, Nat.div_one] at reached
      exact .inl ⟨reached, rfl⟩
  | cons other rest ih =>
      obtain ⟨two, half⟩ := two_le_of_pow_le low
      rw [climb, List.length_cons, Nat.pow_succ', ← Nat.div_div_eq_div_mul] at reached
      rcases ih half (by omega) reached with ⟨above, same⟩ | ⟨x, hx, r, bounds⟩
      · by_cases input : parentInput encode node current other =
            encode (node / 2) (tree (2 * (node / 2))) (tree (2 * (node / 2) + 1))
        · -- The parent's preimage fixes both children, so the node and its sibling.
          left
          rw [parentInput] at input
          rcases node_cases node with ⟨even, left, right⟩ | ⟨odd, left, right⟩
          · rw [if_pos even] at input
            obtain ⟨hl, hr⟩ := inj input
            rw [left] at hl
            rw [right] at hr
            exact ⟨hl, by rw [List.length_cons, siblings, ← hr, ← same]⟩
          · rw [if_neg (by omega)] at input
            obtain ⟨hl, hr⟩ := inj input
            rw [left] at hl
            rw [right] at hr
            exact ⟨hr, by rw [List.length_cons, siblings, ← hl, ← same]⟩
        · exact .inr ⟨_, List.mem_cons_self, node / 2, by omega, by omega, input,
            above.trans (internal _ (by omega) (by omega))⟩
      · exact .inr ⟨x, List.mem_cons_of_mem _ hx, r, bounds⟩

/-- Two nodes of one layer with the same siblings up to a common ancestor give two
different nodes of one layer with the same digest. -/
theorem exists_equal_of_siblings_eq (height : Nat) {a b : Nat} (ne : a ≠ b)
    (low : 2 ^ height ≤ a) (low' : 2 ^ height ≤ b) (common : a / 2 ^ height = b / 2 ^ height)
    (same : siblings tree a height = siblings tree b height) :
    ∃ level < height, a / 2 ^ level ≠ b / 2 ^ level ∧
      tree (a / 2 ^ level) = tree (b / 2 ^ level) := by
  induction height generalizing a b with
  | zero =>
      rw [Nat.pow_zero, Nat.div_one, Nat.div_one] at common
      exact absurd common ne
  | succ height ih =>
      rw [siblings, siblings, List.cons.injEq] at same
      by_cases half : a / 2 = b / 2
      · refine ⟨0, Nat.succ_pos height, by simpa only [Nat.pow_zero, Nat.div_one] using ne, ?_⟩
        rw [Nat.pow_zero, Nat.div_one, Nat.div_one]
        -- Different nodes with one parent are each other's sibling.
        have swap : sibling a = b ∧ sibling b = a := by
          rcases node_cases a with ⟨ea, la, ra⟩ | ⟨ea, la, ra⟩ <;>
            rcases node_cases b with ⟨eb, lb, rb⟩ | ⟨eb, lb, rb⟩ <;> omega
        rw [swap.1, swap.2] at same
        exact same.1.symm
      · rw [Nat.pow_succ', ← Nat.div_div_eq_div_mul, ← Nat.div_div_eq_div_mul] at common
        obtain ⟨level, lt, differ, equal⟩ := ih half (two_le_of_pow_le low).2
          (two_le_of_pow_le low').2 common same.2
        refine ⟨level + 1, Nat.succ_lt_succ lt, ?_, ?_⟩
        · rwa [Nat.pow_succ', ← Nat.div_div_eq_div_mul, ← Nat.div_div_eq_div_mul]
        · rwa [Nat.pow_succ', ← Nat.div_div_eq_div_mul, ← Nat.div_div_eq_div_mul]

section Fill

variable (hash encode)

/-- Compute nodes `count`, `count - 1`, ..., `1` in this order from the layers below. -/
def fill : Nat → (Nat → Digest) → Nat → Digest
  | 0, tree => tree
  | count + 1, tree =>
      fill count (Function.update tree (count + 1)
        (hash (encode (count + 1) (tree (2 * (count + 1))) (tree (2 * (count + 1) + 1)))))

/-- Filling writes no node above `count`. -/
theorem fill_above (count : Nat) (tree : Nat → Digest) {node : Nat} (above : count < node) :
    fill hash encode count tree node = tree node := by
  induction count generalizing tree with
  | zero => rfl
  | succ count ih => rw [fill, ih _ (by omega), Function.update_of_ne (by omega)]

/-- After filling, every filled node is the hash of its two children. -/
theorem fill_internal (count : Nat) (tree : Nat → Digest) :
    Internal hash encode (fill hash encode count tree) (count + 1) := by
  induction count generalizing tree with
  | zero =>
      intro node low high
      omega
  | succ count ih =>
      intro node low high
      rw [fill]
      by_cases last : node = count + 1
      · subst last
        rw [fill_above _ _ _ _ (by omega), fill_above _ _ _ _ (by omega),
          fill_above _ _ _ _ (by omega), Function.update_self,
          Function.update_of_ne (by omega), Function.update_of_ne (by omega)]
      · exact ih _ node low (by omega)

/-- The descending loop over the internal nodes computes `fill`. -/
theorem foldl_reverse_range'_eq_fill (count : Nat) (tree : Nat → Digest) :
    (List.range' 1 count).reverse.foldl (fun tree node =>
      Function.update tree node (hash (encode node (tree (2 * node)) (tree (2 * node + 1))))) tree =
      fill hash encode count tree := by
  induction count generalizing tree with
  | zero => rfl
  | succ count ih =>
      rw [List.range'_1_concat, List.reverse_append, List.reverse_singleton,
        List.singleton_append, List.foldl_cons, ih, fill, Nat.add_comm 1 count]

end Fill

/-- Flipping the last bit of a node's number gives its sibling's number. -/
theorem xor_one_eq_sibling (node : Nat) : node ^^^ 1 = sibling node := by
  unfold sibling
  split
  · rename_i even
    exact Nat.xor_one_of_even (Nat.even_iff.mpr even)
  · rename_i odd
    exact Nat.xor_one_of_odd (Nat.odd_iff.mpr (by omega))

end HashTree
