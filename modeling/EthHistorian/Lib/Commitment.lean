/-
# Roots that commit

`Merkle.lean` binds a leaf to a root along one branch.  Here the whole tree is bound: two perfect
trees of one depth with one root have the same leaves, or the two computations hashed two different
pairs to one value (`subtree_binding`).  Padded lists of one length follow (`leaves_binding`), and
lists of values that have roots of their own (`items_binding`).

As with branches nothing is assumed of the hash, and a collision is always one between the pairs
that the two computations hashed (`subtreeInputs`).
-/
import EthHistorian.Lib.Merkle

namespace Merkle

variable {α : Type*}

/-! ## 1. The pairs of a tree -/

/-- The pairs hashed in a perfect tree, the topmost first. -/
def subtreeInputs (H : α → α → α) : ℕ → (ℕ → α) → List (α × α)
  | 0, _ => []
  | d + 1, f =>
    (subtree H d f, subtree H d fun j => f (2 ^ d + j)) ::
      (subtreeInputs H d f ++ subtreeInputs H d fun j => f (2 ^ d + j))

variable {H : α → α → α}

/-- Two agreements side by side, each up to a collision. -/
theorem and_or_collision {P Q : Prop} {S S' T T' : List (α × α)} (hp : P ∨ Collision H S T)
    (hq : Q ∨ Collision H S' T') : (P ∧ Q) ∨ Collision H (S ++ S') (T ++ T') := by
  rcases hp with hp | hcol
  · rcases hq with hq | hcol
    · exact Or.inl ⟨hp, hq⟩
    · exact Or.inr (hcol.mono (List.subset_append_right _ _) (List.subset_append_right _ _))
  · exact Or.inr (hcol.mono (List.subset_append_left _ _) (List.subset_append_left _ _))

/-- **A root binds the leaves** of a tree of known depth. -/
theorem subtree_binding (d : ℕ) (f g : ℕ → α) (h : subtree H d f = subtree H d g) :
    (∀ i < 2 ^ d, f i = g i) ∨ Collision H (subtreeInputs H d f) (subtreeInputs H d g) := by
  induction d generalizing f g with
  | zero =>
    refine Or.inl fun i hi => ?_
    obtain rfl : i = 0 := by simpa using hi
    exact h
  | succ d ih =>
    by_cases hp : (subtree H d f, subtree H d fun j => f (2 ^ d + j))
        = (subtree H d g, subtree H d fun j => g (2 ^ d + j))
    · obtain ⟨hleft, hright⟩ := Prod.mk.inj hp
      rcases and_or_collision (ih _ _ hleft) (ih _ _ hright) with ⟨hl, hr⟩ | hcol
      · refine Or.inl fun i hi => ?_
        by_cases hlt : i < 2 ^ d
        · exact hl i hlt
        · have hsplit : 2 ^ d + (i - 2 ^ d) = i := by omega
          have hlt' := hr (i - 2 ^ d) (by rw [pow_succ] at hi; omega)
          rwa [hsplit] at hlt'
      · exact Or.inr (hcol.mono (List.subset_cons_self _ _) (List.subset_cons_self _ _))
    · exact Or.inr ⟨_, List.mem_cons_self, _, List.mem_cons_self, hp, h⟩

/-! ## 2. Lists -/

/-- Padding is told from the list by its length. -/
theorem eq_of_leafAt_eq {z : α} {l l' : List α} (hlen : l.length = l'.length) {n : ℕ}
    (hle : l.length ≤ n) (h : ∀ i < n, leafAt z l i = leafAt z l' i) : l = l' := by
  refine List.ext_getElem hlen fun i hi hi' => ?_
  have heq := h i (by omega)
  rwa [leafAt_of_lt hi, leafAt_of_lt hi'] at heq

/-- **A root binds a list of known length**, padded to the tree's width. -/
theorem leaves_binding {z : α} {d : ℕ} {l l' : List α} (hlen : l.length = l'.length)
    (hle : l.length ≤ 2 ^ d) (h : subtree H d (leafAt z l) = subtree H d (leafAt z l')) :
    l = l' ∨ Collision H (subtreeInputs H d (leafAt z l)) (subtreeInputs H d (leafAt z l')) := by
  rcases subtree_binding d _ _ h with heq | hcol
  · exact Or.inl (eq_of_leafAt_eq hlen hle heq)
  · exact Or.inr hcol

/-- Values with roots that bind them, one by one. -/
theorem map_binding {β : Type*} {root : β → α} {inputs : β → List (α × α)}
    (hbind : ∀ x y, root x = root y → x = y ∨ Collision H (inputs x) (inputs y)) {l l' : List β}
    (h : l.map root = l'.map root) :
    l = l' ∨ Collision H (l.flatMap inputs) (l'.flatMap inputs) := by
  induction l generalizing l' with
  | nil => exact Or.inl (List.map_eq_nil_iff.mp h.symm).symm
  | cons x l ih =>
    cases l' with
    | nil => cases h
    | cons y l' =>
      obtain ⟨hx, hl⟩ := List.cons.inj h
      rcases and_or_collision (hbind x y hx) (ih hl) with ⟨rfl, rfl⟩ | hcol
      · exact Or.inl rfl
      · exact Or.inr hcol

/-- **A root binds a list of values**, when each value's root binds it. -/
theorem items_binding {β : Type*} {root : β → α} {inputs : β → List (α × α)}
    (hbind : ∀ x y, root x = root y → x = y ∨ Collision H (inputs x) (inputs y)) {z : α} {d : ℕ}
    {l l' : List β} (hlen : l.length = l'.length) (hle : l.length ≤ 2 ^ d)
    (h : subtree H d (leafAt z (l.map root)) = subtree H d (leafAt z (l'.map root))) :
    l = l' ∨ Collision H (subtreeInputs H d (leafAt z (l.map root)) ++ l.flatMap inputs)
      (subtreeInputs H d (leafAt z (l'.map root)) ++ l'.flatMap inputs) := by
  rcases leaves_binding (by simpa using hlen) (by simpa using hle) h with hmap | hcol
  · rcases map_binding hbind hmap with heq | hcol
    · exact Or.inl heq
    · exact Or.inr (hcol.mono (List.subset_append_right _ _) (List.subset_append_right _ _))
  · exact Or.inr (hcol.mono (List.subset_append_left _ _) (List.subset_append_left _ _))

/-! ## 3. Branches

A branch says nothing about its own leaf, and everything about the others. -/

/-- Supplies that differ at one leaf give it one branch. -/
theorem branch_congr_of_ne {d : ℕ} {f g : ℕ → α} {i : ℕ} (hi : i < 2 ^ d)
    (h : ∀ j < 2 ^ d, j ≠ i → f j = g j) : branch H d f i = branch H d g i := by
  induction d generalizing f g i with
  | zero => rfl
  | succ d ih =>
    have hw : 2 ^ (d + 1) = 2 ^ d + 2 ^ d := by rw [pow_succ, Nat.mul_two]
    unfold branch
    split
    · rename_i hlt
      rw [ih hlt fun j hj hne => h j (by omega) hne,
        subtree_congr d fun j hj => h (2 ^ d + j) (by omega) (by omega)]
    · rename_i hge
      rw [ih (by omega) fun j hj hne => h (2 ^ d + j) (by omega) (by omega),
        subtree_congr d fun j hj => h j (by omega) (by omega)]

/-- **A branch binds the other leaves.** -/
theorem branch_binding {d : ℕ} {f g : ℕ → α} {i : ℕ} (hi : i < 2 ^ d)
    (h : branch H d f i = branch H d g i) :
    (∀ j < 2 ^ d, j ≠ i → f j = g j) ∨
      Collision H (subtreeInputs H d f) (subtreeInputs H d g) := by
  induction d generalizing f g i with
  | zero =>
    refine Or.inl fun j hj hne => absurd ?_ hne
    rw [pow_zero, Nat.lt_one_iff] at hi hj
    rw [hi, hj]
  | succ d ih =>
    have hw : 2 ^ (d + 1) = 2 ^ d + 2 ^ d := by rw [pow_succ, Nat.mul_two]
    by_cases hlt : i < 2 ^ d
    · rw [branch, if_pos hlt, branch, if_pos hlt] at h
      obtain ⟨hown, hother⟩ := List.append_inj h (by rw [branch_length, branch_length])
      rcases and_or_collision (ih hlt hown)
        (subtree_binding d _ _ (List.singleton_inj.mp hother)) with ⟨hl, hr⟩ | hcol
      · refine Or.inl fun j hj hne => ?_
        by_cases hj' : j < 2 ^ d
        · exact hl j hj' hne
        · have hsplit : 2 ^ d + (j - 2 ^ d) = j := by omega
          have hright := hr (j - 2 ^ d) (by omega)
          rwa [hsplit] at hright
      · exact Or.inr (hcol.mono (List.subset_cons_self _ _) (List.subset_cons_self _ _))
    · rw [branch, if_neg hlt, branch, if_neg hlt] at h
      obtain ⟨hown, hother⟩ := List.append_inj h (by rw [branch_length, branch_length])
      rcases and_or_collision (subtree_binding d _ _ (List.singleton_inj.mp hother))
        (ih (by omega) hown) with ⟨hl, hr⟩ | hcol
      · refine Or.inl fun j hj hne => ?_
        by_cases hj' : j < 2 ^ d
        · exact hl j hj'
        · have hsplit : 2 ^ d + (j - 2 ^ d) = j := by omega
          have hright := hr (j - 2 ^ d) (by omega) (by omega)
          rwa [hsplit] at hright
      · exact Or.inr (hcol.mono (List.subset_cons_self _ _) (List.subset_cons_self _ _))

end Merkle
