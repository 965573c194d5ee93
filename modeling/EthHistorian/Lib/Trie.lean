/-
# Tries

A trie over an alphabet holds values at words: a node stands at each prefix of a word that is
held, and a word is looked up by walking down one letter at a time.

Nothing keeps a word from ending on the way to another one, so in general a value can sit at an
inner node.  Over a prefix-free set of words it cannot: each word ends at a node of its own, with
nothing below (`descend_ofEntries`), and what is held is what was put in (`lookup_ofEntries`).
-/
import Mathlib.Tactic

/-- A node with its subtries; `empty` is the absence of one. -/
inductive Trie (κ α : Type*) where
  | empty
  | node (value : Option α) (child : κ → Trie κ α)

namespace Trie

variable {κ α : Type*}

/-! ## 1. Walking -/

/-- What is held at the node itself. -/
def value : Trie κ α → Option α
  | empty => none
  | node v _ => v

def child : Trie κ α → κ → Trie κ α
  | empty => fun _ => empty
  | node _ child => child

/-- The subtrie at a word. -/
def descend : Trie κ α → List κ → Trie κ α
  | t, [] => t
  | t, k :: ks => descend (t.child k) ks

def lookup (t : Trie κ α) (w : List κ) : Option α := (t.descend w).value

/-- A node with nothing below it. -/
def leaf (v : α) : Trie κ α := node (some v) fun _ => empty

@[simp] theorem descend_cons (t : Trie κ α) (k : κ) (ks : List κ) :
    t.descend (k :: ks) = (t.child k).descend ks := rfl
@[simp] theorem value_node (v : Option α) (c : κ → Trie κ α) : (node v c).value = v := rfl
@[simp] theorem child_node (v : Option α) (c : κ → Trie κ α) : (node v c).child = c := rfl
@[simp] theorem value_empty : (empty : Trie κ α).value = none := rfl

@[simp] theorem descend_empty (w : List κ) : (empty : Trie κ α).descend w = empty := by
  induction w with
  | nil => rfl
  | cons k ks ih => exact ih

/-! ## 2. Putting a value in -/

variable [DecidableEq κ]

def insert : List κ → α → Trie κ α → Trie κ α
  | [], v, t => node (some v) t.child
  | k :: ks, v, t => node t.value (Function.update t.child k (insert ks v (t.child k)))

/-- At the word itself, the value is new and the rest is as before. -/
theorem descend_insert_self (w : List κ) (v : α) (t : Trie κ α) :
    (t.insert w v).descend w = node (some v) (t.descend w).child := by
  induction w generalizing t with
  | nil => rfl
  | cons k ks ih =>
    rw [insert, descend_cons, child_node, Function.update_self, ih, descend_cons]

/-- Off the way to the word, everything is as before. -/
theorem descend_insert_of_not_isPrefixOf {p w : List κ} (v : α) (t : Trie κ α) (h : ¬ p <+: w) :
    (t.insert w v).descend p = t.descend p := by
  induction p generalizing w t with
  | nil => exact absurd List.nil_prefix h
  | cons k ks ih =>
    cases w with
    | nil => rfl
    | cons k' ks' =>
      rw [insert, descend_cons, child_node, descend_cons]
      by_cases hk : k = k'
      · subst hk
        have hks : ¬ ks <+: ks' := fun hpre => h (List.cons_prefix_cons.mpr ⟨rfl, hpre⟩)
        rw [Function.update_self, ih _ hks]
      · rw [Function.update_of_ne hk]

/-- On the way to the word, the values are as before. -/
theorem lookup_insert_of_ne {p w : List κ} (v : α) (t : Trie κ α) (h : p ≠ w) :
    (t.insert w v).lookup p = t.lookup p := by
  induction p generalizing w t with
  | nil =>
    cases w with
    | nil => exact absurd rfl h
    | cons k ks => rfl
  | cons k ks ih =>
    cases w with
    | nil => rfl
    | cons k' ks' =>
      rw [lookup, insert, descend_cons, child_node, lookup, descend_cons]
      by_cases hk : k = k'
      · subst hk
        have hks : ks ≠ ks' := fun heq => h (congrArg (k :: ·) heq)
        rw [Function.update_self]
        exact ih _ hks
      · rw [Function.update_of_ne hk]

/-! ## 3. A list of entries -/

/-- The first entry of a word counts. -/
def ofEntries : List (List κ × α) → Trie κ α
  | [] => empty
  | (w, v) :: es => (ofEntries es).insert w v

/-- Words none of which begins another. -/
def PrefixFree (ws : List (List κ)) : Prop := ws.Pairwise fun u w => ¬ u <+: w ∧ ¬ w <+: u

/-- A trie holds no word that was not put in. -/
theorem lookup_ofEntries_of_not_mem {es : List (List κ × α)} {w : List κ}
    (h : w ∉ es.map Prod.fst) : (ofEntries es).lookup w = none := by
  induction es with
  | nil => simp [ofEntries, lookup]
  | cons e es ih =>
    rw [List.map_cons, List.mem_cons, not_or] at h
    rw [ofEntries, lookup_insert_of_ne e.2 _ h.1, ih h.2]

/-- Nothing is below a word that begins no other. -/
theorem child_ofEntries {es : List (List κ × α)} {w : List κ}
    (h : ∀ u ∈ es.map Prod.fst, u = w ∨ ¬ w <+: u) :
    ((ofEntries es).descend w).child = fun _ => empty := by
  induction es with
  | nil =>
    rw [ofEntries, descend_empty]
    rfl
  | cons e es ih =>
    rw [List.map_cons, List.forall_mem_cons] at h
    rcases h.1 with rfl | hfree
    · rw [ofEntries, descend_insert_self, child_node, ih h.2]
    · rw [ofEntries, descend_insert_of_not_isPrefixOf _ _ hfree, ih h.2]

/-- **Each word of a prefix-free list ends at a leaf**, which holds its value. -/
theorem descend_ofEntries {es : List (List κ × α)} {w : List κ} {v : α}
    (hfree : PrefixFree (es.map Prod.fst)) (hmem : (w, v) ∈ es) :
    (ofEntries es).descend w = leaf v := by
  induction es with
  | nil => cases hmem
  | cons e es ih =>
    rw [List.map_cons, PrefixFree, List.pairwise_cons] at hfree
    obtain ⟨hhead, htail⟩ := hfree
    rcases List.mem_cons.mp hmem with rfl | hmem'
    · have hbelow : ((ofEntries es).descend w).child = fun _ => empty :=
        child_ofEntries fun u hu => Or.inr (hhead u hu).1
      rw [ofEntries, descend_insert_self, hbelow, leaf]
    · -- the entry in front is on no common way with the word
      have hword : w ∈ es.map Prod.fst := List.mem_map_of_mem hmem'
      rw [ofEntries, descend_insert_of_not_isPrefixOf _ _ (hhead w hword).2, ih htail hmem']

/-- **What is held is what was put in.** -/
theorem lookup_ofEntries {es : List (List κ × α)} {w : List κ} {v : α}
    (hfree : PrefixFree (es.map Prod.fst)) :
    (ofEntries es).lookup w = some v ↔ (w, v) ∈ es := by
  constructor
  · intro hlookup
    by_cases hword : w ∈ es.map Prod.fst
    · obtain ⟨⟨w', v'⟩, hmem, rfl⟩ := List.mem_map.mp hword
      rw [lookup, descend_ofEntries hfree hmem, leaf, value_node, Option.some.injEq] at hlookup
      subst hlookup
      exact hmem
    · rw [lookup_ofEntries_of_not_mem hword] at hlookup
      cases hlookup
  · intro hmem
    rw [lookup, descend_ofEntries hfree hmem, leaf, value_node]

end Trie
