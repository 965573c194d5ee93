/-
# Merkle branches over an arbitrary two-to-one hash

A branch is the list of siblings met on the way from a leaf to the root, leaf end first.
`climb` folds a branch back to a root, reading the side of each step off the bits of an index;
`subtree` is the root of the perfect tree over a supply of leaves, and `branch` is the branch
that tree honestly has at an index.

Two facts carry every use of a branch:

* **completeness** (`climb_branch`): the honest branch climbs to the root of its tree;
* **binding** (`climb_binding`): two climbs of one index and one length that meet at the top
  started from the same leaf and used the same siblings, or they hashed two different pairs
  to the same value on the way.

The same tree can be hashed layer by layer: a full layer ends in the root (`iterate_nextLayer`),
and the siblings met on the way up are the branch (`layerBranch_eq`).

Nothing is assumed of the hash.  A two-to-one function on a finite type is never injective, so
"the hash is injective" would make every theorem vacuous; the second alternative of `binding`
is instead an explicit `Collision` BETWEEN THE PAIRS THE TWO CLIMBS HASHED (`climbInputs`).
That alternative is not available for free: the pairs are determined by the two branches.
-/
import Mathlib.Tactic

namespace Merkle

variable {α : Type*} (H : α → α → α)

/-! ## 1. Climbing a branch -/

/-- The pair hashed at one step: an odd index is a right child, an even one a left child. -/
def pair (i : ℕ) (x s : α) : α × α := if i % 2 = 1 then (s, x) else (x, s)

/-- Fold a branch over a leaf, from the leaf up.  Bit `k` of the index says on which side the
value computed so far stands at level `k`. -/
def climb : ℕ → α → List α → α
  | _, x, [] => x
  | i, x, s :: ss => climb (i / 2) (H (pair i x s).1 (pair i x s).2) ss

/-- The pairs a climb hashes, leaf end first. -/
def climbInputs : ℕ → α → List α → List (α × α)
  | _, _, [] => []
  | i, x, s :: ss => pair i x s :: climbInputs (i / 2) (H (pair i x s).1 (pair i x s).2) ss

/-- Two different pairs, one of each list, with one hash. -/
def Collision (S T : List (α × α)) : Prop :=
  ∃ p ∈ S, ∃ q ∈ T, p ≠ q ∧ H p.1 p.2 = H q.1 q.2

variable {H}

/-- The pair at a step determines the value and the sibling. -/
theorem pair_inj {i : ℕ} {x y s t : α} (h : pair i x s = pair i y t) : x = y ∧ s = t := by
  unfold pair at h
  split at h
  · exact ⟨congrArg Prod.snd h, congrArg Prod.fst h⟩
  · exact ⟨congrArg Prod.fst h, congrArg Prod.snd h⟩

/-- Larger lists of pairs, more collisions. -/
theorem Collision.mono {S S' T T' : List (α × α)} (h : Collision H S T) (hS : S ⊆ S')
    (hT : T ⊆ T') : Collision H S' T' := by
  obtain ⟨p, hp, q, hq, hne, heq⟩ := h
  exact ⟨p, hS hp, q, hT hq, hne, heq⟩

/-- **Binding.**  Two climbs of one index and one length that reach the same value agree in
their leaf and in every sibling, or hashed two different pairs to one value. -/
theorem climb_binding (ss ts : List α) (i : ℕ) (x y : α) (hlen : ss.length = ts.length)
    (h : climb H i x ss = climb H i y ts) :
    (x = y ∧ ss = ts) ∨ Collision H (climbInputs H i x ss) (climbInputs H i y ts) := by
  -- from the root down: above a level the climbs agree, or they have already collided
  induction ss generalizing ts i x y with
  | nil =>
    obtain rfl := List.length_eq_zero_iff.mp hlen.symm
    exact Or.inl ⟨h, rfl⟩
  | cons s ss ih =>
    cases ts with
    | nil => simp at hlen
    | cons t ts =>
      have hlen' : ss.length = ts.length := Nat.succ.inj hlen
      rcases ih ts (i / 2) _ _ hlen' h with ⟨hup, hrest⟩ | hcol
      · by_cases hp : pair i x s = pair i y t
        · obtain ⟨hxy, hst⟩ := pair_inj hp
          exact Or.inl ⟨hxy, by rw [hst, hrest]⟩
        · exact Or.inr ⟨_, List.mem_cons_self, _, List.mem_cons_self, hp, hup⟩
      · exact Or.inr (hcol.mono (List.subset_cons_self _ _) (List.subset_cons_self _ _))

/-- A climb reads as many bits of the index as the branch has siblings. -/
theorem climb_mod (ss : List α) (i : ℕ) (x : α) :
    climb H (i % 2 ^ ss.length) x ss = climb H i x ss := by
  induction ss generalizing i x with
  | nil => rfl
  | cons s ss ih =>
    have hbit : i % 2 ^ (ss.length + 1) % 2 = i % 2 := by
      rw [pow_succ']
      exact Nat.mod_mod_of_dvd i (Nat.dvd_mul_right 2 _)
    have hrest : i % 2 ^ (ss.length + 1) / 2 = i / 2 % 2 ^ ss.length := by
      rw [pow_succ', Nat.mod_mul_right_div_self]
    simp only [climb, List.length_cons, pair, hbit, hrest]
    exact ih (i / 2) _

/-- Indices that agree modulo the width climb alike. -/
theorem climb_congr {ss : List α} {i j : ℕ} (x : α) (h : i % 2 ^ ss.length = j % 2 ^ ss.length) :
    climb H i x ss = climb H j x ss := by
  rw [← climb_mod ss i x, ← climb_mod ss j x, h]

/-- The generalized index of position `i` in a tree of depth `d` is `i` under a leading bit,
which no climb reads. -/
theorem climb_gindex {ss : List α} {d : ℕ} (hlen : ss.length = d) (i : ℕ) (x : α) :
    climb H (2 ^ d + i) x ss = climb H i x ss := by
  refine climb_congr x ?_
  rw [hlen, Nat.add_mod_left]

/-- Two branches laid end to end: the upper one climbs the remaining bits of the index. -/
theorem climb_append (ss ts : List α) (i : ℕ) (x : α) :
    climb H i x (ss ++ ts) = climb H (i / 2 ^ ss.length) (climb H i x ss) ts := by
  induction ss generalizing i x with
  | nil => simp [climb]
  | cons s ss ih =>
    have hdiv : i / 2 / 2 ^ ss.length = i / 2 ^ (ss.length + 1) := by
      rw [Nat.div_div_eq_div_mul, ← pow_succ']
    simp only [List.cons_append, climb, List.length_cons]
    rw [ih, hdiv]

/-- A climb through two trees, one standing on a leaf of the other: the low bits of the index
address the lower tree, the high bits the upper one. -/
theorem climb_append_index {ss : List α} {d i : ℕ} (hlen : ss.length = d) (hi : i < 2 ^ d)
    (j : ℕ) (ts : List α) (x : α) :
    climb H (2 ^ d * j + i) x (ss ++ ts) = climb H j (climb H i x ss) ts := by
  subst hlen
  have hdiv : (2 ^ ss.length * j + i) / 2 ^ ss.length = j := by
    rw [Nat.mul_add_div (Nat.two_pow_pos _), Nat.div_eq_of_lt hi, Nat.add_zero]
  have hmod : (2 ^ ss.length * j + i) % 2 ^ ss.length = i % 2 ^ ss.length :=
    Nat.mul_add_mod _ _ _
  rw [climb_append, hdiv, climb_congr x hmod]

/-- What is hashed on the way through both. -/
theorem climbInputs_append (ss ts : List α) (i : ℕ) (x : α) :
    climbInputs H i x (ss ++ ts)
      = climbInputs H i x ss ++ climbInputs H (i / 2 ^ ss.length) (climb H i x ss) ts := by
  induction ss generalizing i x with
  | nil => simp [climb, climbInputs]
  | cons s ss ih =>
    have hdiv : i / 2 / 2 ^ ss.length = i / 2 ^ (ss.length + 1) := by
      rw [Nat.div_div_eq_div_mul, ← pow_succ']
    simp only [List.cons_append, climb, climbInputs, List.length_cons]
    rw [ih, hdiv]

/-- A climb that takes a step ends with a hash. -/
theorem climb_mem_inputs {ss : List α} (hne : ss ≠ []) (i : ℕ) (x : α) :
    ∃ p ∈ climbInputs H i x ss, climb H i x ss = H p.1 p.2 := by
  induction ss generalizing i x with
  | nil => exact absurd rfl hne
  | cons s ss ih =>
    cases ss with
    | nil => exact ⟨_, List.mem_cons_self, rfl⟩
    | cons t ss =>
      obtain ⟨p, hp, heq⟩ := ih (List.cons_ne_nil t ss) (i / 2) _
      exact ⟨p, List.mem_cons_of_mem _ hp, heq⟩

/-- **Binding, from above a node.**  A climb that begins `k` steps below a node of the tree is at
that node after `k` steps, and goes on along its path. -/
theorem climb_binding_above {k : ℕ} {ss ts : List α} (i : ℕ) (x y : α)
    (hlen : ss.length = k + ts.length) (h : climb H i x ss = climb H (i / 2 ^ k) y ts) :
    (climb H i x (ss.take k) = y ∧ ss.drop k = ts) ∨
      Collision H (climbInputs H i x ss) (climbInputs H (i / 2 ^ k) y ts) := by
  have htake : (ss.take k).length = k := by
    rw [List.length_take]
    omega
  have hdrop : (ss.drop k).length = ts.length := by
    rw [List.length_drop]
    omega
  have hclimb := climb_append (H := H) (ss.take k) (ss.drop k) i x
  have hinputs := climbInputs_append (H := H) (ss.take k) (ss.drop k) i x
  rw [List.take_append_drop, htake] at hclimb hinputs
  rcases climb_binding _ _ _ _ _ hdrop (hclimb.symm.trans h) with hend | hcol
  · exact Or.inl hend
  · refine Or.inr (hcol.mono ?_ (List.Subset.refl _))
    rw [hinputs]
    exact List.subset_append_right _ _

/-- A node above which a climb passes is the hash of a pair that it hashed. -/
theorem climb_take_mem_inputs {k : ℕ} (hk : 0 < k) {ss : List α} (hne : ss ≠ []) (i : ℕ) (x : α) :
    ∃ p ∈ climbInputs H i x ss, climb H i x (ss.take k) = H p.1 p.2 := by
  have htake : ss.take k ≠ [] := by
    intro hnil
    rcases List.take_eq_nil_iff.mp hnil with rfl | hnil
    · exact lt_irrefl 0 hk
    · exact hne hnil
  obtain ⟨p, hp, heq⟩ := climb_mem_inputs (H := H) htake i x
  have hinputs := climbInputs_append (H := H) (ss.take k) (ss.drop k) i x
  rw [List.take_append_drop] at hinputs
  refine ⟨p, ?_, heq⟩
  rw [hinputs]
  exact List.mem_append_left _ hp

/-! ## 2. The perfect tree over a supply of leaves -/

variable (H)

/-- The root of the perfect tree of depth `d` over the leaves `f 0, .., f (2 ^ d - 1)`. -/
def subtree : ℕ → (ℕ → α) → α
  | 0, f => f 0
  | d + 1, f => H (subtree d f) (subtree d (fun j => f (2 ^ d + j)))

/-- The branch of leaf `i` in that tree: at each level, the root of the half `i` is not in. -/
def branch : ℕ → (ℕ → α) → ℕ → List α
  | 0, _, _ => []
  | d + 1, f, i =>
    if i < 2 ^ d then branch d f i ++ [subtree H d (fun j => f (2 ^ d + j))]
    else branch d (fun j => f (2 ^ d + j)) (i - 2 ^ d) ++ [subtree H d f]

/-- The leaf supply of a list, padded with `z`. -/
def leafAt (z : α) (leaves : List α) (i : ℕ) : α := leaves.getD i z

variable {H}

/-- A branch has one sibling for each level. -/
@[simp] theorem branch_length (d : ℕ) (f : ℕ → α) (i : ℕ) : (branch H d f i).length = d := by
  induction d generalizing f i with
  | zero => rfl
  | succ d ih =>
    unfold branch
    split
    · rw [List.length_append, ih, List.length_singleton]
    · rw [List.length_append, ih, List.length_singleton]

/-- A tree reads its leaf supply on its own width only. -/
theorem subtree_congr (d : ℕ) {f g : ℕ → α} (h : ∀ j < 2 ^ d, f j = g j) :
    subtree H d f = subtree H d g := by
  induction d generalizing f g with
  | zero => exact h 0 (by simp)
  | succ d ih =>
    have hw : 2 ^ (d + 1) = 2 ^ d + 2 ^ d := by rw [pow_succ, Nat.mul_two]
    have hl : subtree H d f = subtree H d g := ih fun j hj => h j (by omega)
    have hr : subtree H d (fun j => f (2 ^ d + j)) = subtree H d (fun j => g (2 ^ d + j)) :=
      ih fun j hj => h (2 ^ d + j) (by omega)
    simp only [subtree, hl, hr]

/-- A branch reads the leaf supply on the tree's width only. -/
theorem branch_congr (d : ℕ) {f g : ℕ → α} (i : ℕ) (hi : i < 2 ^ d)
    (h : ∀ j < 2 ^ d, f j = g j) : branch H d f i = branch H d g i := by
  induction d generalizing f g i with
  | zero => rfl
  | succ d ih =>
    have hw : 2 ^ (d + 1) = 2 ^ d + 2 ^ d := by rw [pow_succ, Nat.mul_two]
    have hl : ∀ j < 2 ^ d, f j = g j := fun j hj => h j (by omega)
    have hr : ∀ j < 2 ^ d, f (2 ^ d + j) = g (2 ^ d + j) := fun j hj => h (2 ^ d + j) (by omega)
    unfold branch
    split
    · rename_i hlt
      rw [ih i hlt hl, subtree_congr d hr]
    · rename_i hge
      rw [ih (i - 2 ^ d) (by omega) hr, subtree_congr d hl]

/-- **Completeness.**  The branch of a leaf climbs to the root. -/
theorem climb_branch (d : ℕ) (f : ℕ → α) (i : ℕ) (hi : i < 2 ^ d) :
    climb H i (f i) (branch H d f i) = subtree H d f := by
  induction d generalizing f i with
  | zero =>
    obtain rfl : i = 0 := by simpa using hi
    rfl
  | succ d ih =>
    have hw : 2 ^ (d + 1) = 2 ^ d + 2 ^ d := by rw [pow_succ, Nat.mul_two]
    unfold branch
    split
    · rename_i hlt
      -- the leaf is in the left half: the last step hashes the halves in order
      have hdiv : i / 2 ^ d = 0 := Nat.div_eq_of_lt hlt
      rw [climb_append, branch_length, ih f i hlt, hdiv]
      rfl
    · rename_i hge
      have hlt : i - 2 ^ d < 2 ^ d := by omega
      have hdiv : i / 2 ^ d = 1 :=
        Nat.div_eq_of_lt_le (by omega) (by rw [← Nat.two_mul] at hw; omega)
      have hmod : i % 2 ^ d = (i - 2 ^ d) % 2 ^ d := Nat.mod_eq_sub_mod (by omega)
      have hsub : f i = f (2 ^ d + (i - 2 ^ d)) := by rw [Nat.add_sub_cancel' (by omega)]
      have hclimb : climb H i (f i) (branch H d (fun j => f (2 ^ d + j)) (i - 2 ^ d))
          = subtree H d (fun j => f (2 ^ d + j)) := by
        rw [climb_congr (j := i - 2 ^ d) _ (by rw [branch_length]; exact hmod), hsub]
        exact ih (fun j => f (2 ^ d + j)) (i - 2 ^ d) hlt
      rw [climb_append, branch_length, hclimb, hdiv]
      rfl

/-! ## 3. Leaf lists -/

/-- A leaf supply inside the list is the list. -/
theorem leafAt_of_lt {z : α} {leaves : List α} {i : ℕ} (h : i < leaves.length) :
    leafAt z leaves i = leaves[i] := by
  simp [leafAt, h]

/-- A leaf supply past the list is padding. -/
theorem leafAt_of_ge {z : α} {leaves : List α} {i : ℕ} (h : leaves.length ≤ i) :
    leafAt z leaves i = z := by
  simp [leafAt, List.getD, List.getElem?_eq_none h]

/-- Padding a list with the padding leaf does not change its supply. -/
theorem leafAt_append_replicate (z : α) (leaves : List α) (n i : ℕ) :
    leafAt z (leaves ++ List.replicate n z) i = leafAt z leaves i := by
  rcases Nat.lt_or_ge i leaves.length with h | h
  · simp [leafAt, List.getD, List.getElem?_append_left h]
  · rw [leafAt_of_ge h]
    simp only [leafAt, List.getD, List.getElem?_append_right h, List.getElem?_replicate]
    split <;> rfl

/-! ## 4. The same tree, layer by layer -/

variable (H)

/-- One level up: adjacent nodes, hashed.  A layer of odd length loses its last node. -/
def nextLayer : List α → List α
  | [] => []
  | [_] => []
  | a :: b :: rest => H a b :: nextLayer rest

/-- The other node of a pair. -/
def sibling (i : ℕ) : ℕ := if i % 2 = 1 then i - 1 else i + 1

/-- The siblings met from a place in a layer, `d` levels up. -/
def layerBranch : ℕ → List α → ℕ → List α
  | 0, _, _ => []
  | d + 1, layer, i => layer[sibling i]?.toList ++ layerBranch d (nextLayer H layer) (i / 2)

/-- The supply of the next layer. -/
def pairSupply (f : ℕ → α) (j : ℕ) : α := H (f (2 * j)) (f (2 * j + 1))

variable {H}

@[simp] theorem length_nextLayer (l : List α) : (nextLayer H l).length = l.length / 2 := by
  fun_induction nextLayer H l with
  | case1 => simp
  | case2 a => simp
  | case3 a b rest ih =>
    simp only [List.length_cons, ih]
    omega

theorem leafAt_nextLayer (z : α) {l : List α} {j : ℕ} (hj : 2 * j + 1 < l.length) :
    leafAt z (nextLayer H l) j = pairSupply H (leafAt z l) j := by
  fun_induction nextLayer H l generalizing j with
  | case1 => cases hj
  | case2 a => simp at hj
  | case3 a b rest ih =>
    cases j with
    | zero => rfl
    | succ j =>
      have hrest : 2 * j + 1 < rest.length := by
        simp only [List.length_cons] at hj
        omega
      exact ih hrest

theorem pairSupply_add (f : ℕ → α) (d : ℕ) :
    pairSupply H (fun j => f (2 ^ (d + 1) + j)) = fun j => pairSupply H f (2 ^ d + j) := by
  funext j
  have hl : 2 ^ (d + 1) + 2 * j = 2 * (2 ^ d + j) := by ring
  have hr : 2 ^ (d + 1) + (2 * j + 1) = 2 * (2 ^ d + j) + 1 := by ring
  simp only [pairSupply, hl, hr]

/-- Taking off the leaves instead of the root. -/
theorem subtree_succ (d : ℕ) (f : ℕ → α) :
    subtree H (d + 1) f = subtree H d (pairSupply H f) := by
  induction d generalizing f with
  | zero => rfl
  | succ d ih => rw [subtree, ih, ih, pairSupply_add, subtree]

theorem sibling_lt {d i : ℕ} (hi : i < 2 ^ (d + 1)) : sibling i < 2 ^ (d + 1) := by
  have heven : 2 ^ (d + 1) % 2 = 0 := by rw [pow_succ, Nat.mul_mod_left]
  unfold sibling
  split <;> omega

/-- The sibling of a leaf, and the branch of its parent. -/
theorem branch_succ (d : ℕ) (f : ℕ → α) {i : ℕ} (hi : i < 2 ^ (d + 1)) :
    branch H (d + 1) f i = f (sibling i) :: branch H d (pairSupply H f) (i / 2) := by
  induction d generalizing f i with
  | zero =>
    have h01 : i = 0 ∨ i = 1 := by omega
    rcases h01 with rfl | rfl <;> rfl
  | succ d ih =>
    have hw : 2 ^ (d + 1 + 1) = 2 ^ (d + 1) + 2 ^ (d + 1) := by rw [pow_succ, Nat.mul_two]
    have hw' : 2 ^ (d + 1) = 2 ^ d + 2 ^ d := by rw [pow_succ, Nat.mul_two]
    by_cases hlt : i < 2 ^ (d + 1)
    · have hhalf : i / 2 < 2 ^ d := by omega
      rw [branch, if_pos hlt, ih f hlt, subtree_succ, pairSupply_add, branch, if_pos hhalf,
        List.cons_append]
    · -- the right half: its width is even, so pairs do not cross into it
      have hhalf : ¬ i / 2 < 2 ^ d := by omega
      have hsib : 2 ^ (d + 1) + sibling (i - 2 ^ (d + 1)) = sibling i := by
        unfold sibling
        split <;> split <;> omega
      have hdiv : (i - 2 ^ (d + 1)) / 2 = i / 2 - 2 ^ d := by omega
      have hbr : branch H (d + 1) (pairSupply H f) (i / 2)
          = branch H d (fun j => pairSupply H f (2 ^ d + j)) (i / 2 - 2 ^ d)
            ++ [subtree H d (pairSupply H f)] := by rw [branch, if_neg hhalf]
      rw [hbr, branch, if_neg hlt, ih _ (by omega), subtree_succ, pairSupply_add, hsib, hdiv,
        List.cons_append]

/-- **Hashed layer by layer, a full layer ends in the root.** -/
theorem iterate_nextLayer (z : α) {d : ℕ} {leaves : List α} (hlen : leaves.length = 2 ^ d) :
    (nextLayer H)^[d] leaves = [subtree H d (leafAt z leaves)] := by
  induction d generalizing leaves with
  | zero =>
    obtain ⟨x, rfl⟩ := List.length_eq_one_iff.mp hlen
    rfl
  | succ d ih =>
    have hhalf : (nextLayer H leaves).length = 2 ^ d := by
      rw [length_nextLayer, hlen, pow_succ, Nat.mul_div_cancel _ (by norm_num)]
    have hsupply : ∀ j < 2 ^ d, leafAt z (nextLayer H leaves) j
        = pairSupply H (leafAt z leaves) j := fun j hj =>
      leafAt_nextLayer z (by rw [hlen, pow_succ]; omega)
    rw [Function.iterate_succ_apply, ih hhalf, subtree_congr d hsupply, ← subtree_succ]

/-- **And the siblings met on the way are the branch.** -/
theorem layerBranch_eq (z : α) {d i : ℕ} {leaves : List α} (hlen : leaves.length = 2 ^ d)
    (hi : i < 2 ^ d) : layerBranch H d leaves i = branch H d (leafAt z leaves) i := by
  induction d generalizing leaves i with
  | zero => rfl
  | succ d ih =>
    have hw : 2 ^ (d + 1) = 2 ^ d * 2 := pow_succ 2 d
    have hhalf : (nextLayer H leaves).length = 2 ^ d := by
      rw [length_nextLayer, hlen, hw, Nat.mul_div_cancel _ (by norm_num)]
    have hsupply : ∀ j < 2 ^ d, leafAt z (nextLayer H leaves) j
        = pairSupply H (leafAt z leaves) j := fun j hj =>
      leafAt_nextLayer z (by omega)
    have hsib : sibling i < leaves.length := hlen ▸ sibling_lt hi
    rw [layerBranch, ih hhalf (by omega), branch_congr d _ (by omega) hsupply,
      branch_succ d _ hi, List.getElem?_eq_getElem hsib, leafAt_of_lt hsib]
    rfl

end Merkle
