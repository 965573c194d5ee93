/-
# The sparse Merkle tree, with the checks of a build

`MerkleProof.lean` translates `src/merkle/proof.rs` over numbers and tables without end.  Here
are the same functions as a build runs them: capacities and shifts are `usize` operations that
overflow, `ZERO_HASHES` and `ZERO_NODES` are tables that end, and the debug assertions of the
source are made where the build has them.

Up to `MAX_TREE_DEPTH` no check fires, and the two agree:

* `create_eq`: the tree is built;
* `generateProof_eq`: the walk to a leaf of the tree returns;
* `verifyMerkleProof_eq`: the branch verifier returns.
-/
import EthHistorian.Model.MerkleProof

namespace EthHistorian

open Merkle

/-! ## 1. Builds -/

/-- What differs between two builds of the crate. -/
structure Build where
  width : PointerWidth
  overflowChecks : Bool
  debugAssertions : Bool

namespace Build

variable {ε : Type} (b : Build)

/-- `base.pow(exp)` on `usize`. -/
def pow (base exp : ℕ) : Outcome ε ℕ :=
  if base ^ exp < 2 ^ b.width.bits then .ok (base ^ exp)
  else if b.overflowChecks then .panic "attempt to multiply with overflow"
  else .ok (base ^ exp % 2 ^ b.width.bits)

/-- `x >> n` on `usize`.  Without the check, the shift is taken modulo the width. -/
def shr (x n : ℕ) : Outcome ε ℕ :=
  if n < b.width.bits then .ok (x >>> n)
  else if b.overflowChecks then .panic "attempt to shift right with overflow"
  else .ok (x >>> (n % b.width.bits))

/-- `n as u32 - 1`. -/
def predU32 (n : ℕ) : Outcome ε ℕ :=
  if n % 2 ^ 32 ≠ 0 then .ok (n % 2 ^ 32 - 1)
  else if b.overflowChecks then .panic "attempt to subtract with overflow"
  else .ok (2 ^ 32 - 1)

/-- `debug_assert!(condition)`. -/
def debugAssert (condition : Prop) [Decidable condition] (msg : String) : Outcome ε Unit :=
  if b.debugAssertions ∧ ¬ condition then .panic msg else .ok ()

theorem width_bits_ge : 32 ≤ b.width.bits := by
  cases b.width <;> norm_num [PointerWidth.bits]

/-- Powers of two below `2 ^ 32` are on every target. -/
theorem pow_two_eq {exp : ℕ} (h : exp < 32) : (b.pow 2 exp : Outcome ε ℕ) = .ok (2 ^ exp) :=
  if_pos (Nat.pow_lt_pow_right (by norm_num) (h.trans_le b.width_bits_ge))

theorem shr_eq {n : ℕ} (x : ℕ) (h : n < 32) : (b.shr x n : Outcome ε ℕ) = .ok (x >>> n) :=
  if_pos (h.trans_le b.width_bits_ge)

theorem predU32_eq {n : ℕ} (h : n + 1 < 2 ^ 32) : (b.predU32 (n + 1) : Outcome ε ℕ) = .ok n := by
  have hmod : (n + 1) % 2 ^ 32 = n + 1 := Nat.mod_eq_of_lt h
  rw [predU32, hmod]
  rfl

theorem debugAssert_eq {condition : Prop} [Decidable condition] (msg : String)
    (h : condition) : (b.debugAssert condition msg : Outcome ε Unit) = .ok () :=
  if_neg fun hfails => hfails.2 h

end Build

/-! ## 2. Tables -/

/-- `ethereum_hashing::ZERO_HASHES`: the roots of trees of zero chunks, at least as many as
`ZERO_NODES` has nodes. -/
structure ZeroHashes (c : Crypto) where
  table : List B256
  zero : table[0]? = some (FixedBytes.zero 32)
  succ : ∀ {k : ℕ} {h h' : B256}, table[k]? = some h → table[k + 1]? = some h' →
    h' = c.hash32Concat h h
  length_gt : 32 < table.length

/-- Each entry is the root of its depth. -/
theorem ZeroHashes.get {c : Crypto} (Z : ZeroHashes c) {k : ℕ} (hk : k < Z.table.length) :
    Z.table[k]? = some (c.zeroHashes k) := by
  induction k with
  | zero => exact Z.zero
  | succ k ih =>
    have hbelow := ih (Nat.lt_of_succ_lt hk)
    have hentry := List.getElem?_eq_getElem hk
    rw [hentry, Z.succ hbelow hentry, Crypto.zeroHashes]

/-- The entries of the table that the crate has. -/
def zeroHashTable (c : Crypto) : List B256 := (List.range 49).map c.zeroHashes

theorem zeroHashTable_eq_some {c : Crypto} {k : ℕ} {h : B256}
    (hk : (zeroHashTable c)[k]? = some h) : h = c.zeroHashes k := by
  rw [zeroHashTable, List.getElem?_map, Option.map_eq_some_iff] at hk
  obtain ⟨i, hi, rfl⟩ := hk
  obtain ⟨-, rfl⟩ := List.getElem?_eq_some_iff.mp hi
  rw [List.getElem_range]

theorem zeroHashTable_succ {c : Crypto} {k : ℕ} {h h' : B256}
    (hk : (zeroHashTable c)[k]? = some h) (hk' : (zeroHashTable c)[k + 1]? = some h') :
    h' = c.hash32Concat h h := by
  rw [zeroHashTable_eq_some hk, zeroHashTable_eq_some hk', Crypto.zeroHashes]

theorem length_zeroHashTable (c : Crypto) : 32 < (zeroHashTable c).length := by
  rw [zeroHashTable, List.length_map, List.length_range]
  norm_num

def zeroHashes (c : Crypto) : ZeroHashes c where
  table := zeroHashTable c
  zero := rfl
  succ := zeroHashTable_succ
  length_gt := length_zeroHashTable c

def maxTreeDepth : ℕ := 32

/-- Zero nodes to act as subtrees of other zero nodes. -/
def zeroNodes : List MerkleTree := (List.range (maxTreeDepth + 1)).map .zero

/-! ## 3. The source -/

def MerkleTree.isLeaf : MerkleTree → Bool
  | leaf _ => true
  | _ => false

namespace Checked

variable {c : Crypto} (Z : ZeroHashes c) (b : Build) {ε : Type}

def hash : MerkleTree → Outcome ε B256
  | .finalized h => .ok h
  | .leaf h => .ok h
  | .node h _ _ => .ok h
  | .zero depth => .expect Z.table[depth]? "index out of bounds"

def create : List B256 → ℕ → Outcome ε MerkleTree
  | [], depth => .ok (.zero depth)
  | l :: ls, 0 => do
    b.debugAssert ((l :: ls).length = 1) "assertion `left == right` failed"
    return .leaf l
  | l :: ls, d + 1 => do
    let leaves := l :: ls
    let exponent ← b.predU32 (d + 1)
    let subtreeCapacity ← b.pow 2 exponent
    let (leftLeaves, rightLeaves) :=
      if leaves.length ≤ subtreeCapacity then (leaves, [])
      else leaves.splitAt subtreeCapacity
    let leftSubtree ← create leftLeaves d
    let rightSubtree ← create rightLeaves d
    let leftHash ← hash Z leftSubtree
    let rightHash ← hash Z rightSubtree
    return .node (c.hash32Concat leftHash rightHash) leftSubtree rightSubtree

def leftAndRightBranches : MerkleTree → Outcome ε (Option (MerkleTree × MerkleTree))
  | .finalized _ | .leaf _ | .zero 0 => .ok none
  | .node _ l r => .ok (some (l, r))
  | .zero (depth + 1) => do
    let l ← .expect zeroNodes[depth]? "index out of bounds"
    let r ← .expect zeroNodes[depth]? "index out of bounds"
    return some (l, r)

/-- The loop of `generate_proof`: the node it ends at, and the siblings, root end first. -/
def generateProofLoop (index : ℕ) :
    ℕ → MerkleTree → List B256 → Outcome MerkleTreeError (MerkleTree × List B256)
  | 0, currentNode, proof => .ok (currentNode, proof)
  | currentDepth + 1, currentNode, proof => do
    let shifted ← b.shr index currentDepth
    match currentNode with
    | .finalized _ => .err .proofEncounteredFinalizedNode
    | _ =>
      let (left, right) ← .expect (← leftAndRightBranches currentNode)
        "called `Option::unwrap()` on a `None` value"
      if shifted &&& 0x01 = 1 then
        let sibling ← hash Z left
        generateProofLoop index currentDepth right (proof ++ [sibling])
      else
        let sibling ← hash Z right
        generateProofLoop index currentDepth left (proof ++ [sibling])

def generateProof (tree : MerkleTree) (index depth : ℕ) :
    Outcome MerkleTreeError (B256 × List B256) := do
  let (currentNode, proof) ← generateProofLoop Z b index depth tree []
  b.debugAssert (proof.length = depth) "assertion `left == right` failed"
  b.debugAssert (currentNode.isLeaf = true) "assertion failed: current_node.is_leaf()"
  let leaf ← hash Z currentNode
  return (leaf, proof.reverse)

/-- The loop of `merkle_root_from_branch`, from level `i` on. -/
def merkleRootFromBranchLoop (c : Crypto) (index : ℕ) :
    ℕ → B256 → List B256 → Outcome ε B256
  | _, merkleRoot, [] => .ok merkleRoot
  | i, merkleRoot, leaf :: rest => do
    let shifted ← b.shr index i
    if shifted &&& 0x01 = 1 then
      merkleRootFromBranchLoop c index (i + 1) (c.hash32Concat leaf merkleRoot) rest
    else
      merkleRootFromBranchLoop c index (i + 1) (c.hash (merkleRoot.bytes ++ leaf.bytes)) rest

def merkleRootFromBranch (c : Crypto) (leaf : B256) (branch : List B256) (depth index : ℕ) :
    Outcome ε B256 :=
  if branch.length = depth then
    merkleRootFromBranchLoop b c index 0 leaf (branch.take depth)
  else .panic "proof length should equal depth"

def verifyMerkleProof (c : Crypto) (leaf : B256) (branch : List B256) (depth index : ℕ)
    (root : B256) : Outcome ε Bool :=
  if branch.length = depth then do
    let r ← merkleRootFromBranch b c leaf branch depth index
    return decide (r = root)
  else .ok false

/-! ## 4. No check fires -/

variable {Z b}

/-- The table has every zero node of a tree that is not too deep. -/
theorem hash_create {leaves : List B256} {d : ℕ} (hd : d ≤ 32) :
    (hash Z (MerkleTree.create c leaves d) : Outcome ε B256)
      = .ok ((MerkleTree.create c leaves d).hash c) := by
  cases leaves with
  | nil =>
    have hz : MerkleTree.create c [] d = .zero d := by cases d <;> rfl
    rw [hz, hash, Z.get (hd.trans_lt Z.length_gt), Outcome.expect_some, MerkleTree.hash]
  | cons l ls =>
    cases d with
    | zero => rfl
    | succ d => rfl

/-- **The tree is built**, and is the one over unbounded numbers. -/
theorem create_eq {leaves : List B256} {d : ℕ} (hd : d ≤ 32) (hlen : leaves.length ≤ 2 ^ d) :
    (create Z b leaves d : Outcome ε MerkleTree) = .ok (MerkleTree.create c leaves d) := by
  induction d generalizing leaves with
  | zero =>
    cases leaves with
    | nil => rfl
    | cons l ls =>
      have hone : (l :: ls).length = 1 := by
        rw [List.length_cons] at hlen ⊢
        omega
      rw [create, b.debugAssert_eq _ hone]
      rfl
  | succ d ih =>
    cases leaves with
    | nil => rfl
    | cons l ls =>
      obtain ⟨left, right, hsplit, hl, hr, -, -⟩ := create_split (l :: ls) d hlen
      have hd' : d ≤ 32 := Nat.le_of_succ_le hd
      rw [create, b.predU32_eq (by omega), Outcome.ok_bind, b.pow_two_eq (by omega),
        Outcome.ok_bind]
      simp only [hsplit, ih hd' hl, ih hd' hr, Outcome.ok_bind, hash_create hd']
      rw [create_succ c (l :: ls) d (List.cons_ne_nil l ls) hsplit]
      rfl

/-- How many leaves go to each half. -/
theorem length_split {leaves left right : List B256} {d : ℕ}
    (hsplit : (if leaves.length ≤ 2 ^ d then (leaves, []) else leaves.splitAt (2 ^ d))
      = (left, right)) :
    left.length = min leaves.length (2 ^ d) ∧ right.length = leaves.length - 2 ^ d := by
  split at hsplit
  · rename_i hle
    obtain ⟨rfl, rfl⟩ := Prod.mk.inj hsplit
    rw [List.length_nil]
    omega
  · rename_i hgt
    rw [List.splitAt_eq] at hsplit
    obtain ⟨rfl, rfl⟩ := Prod.mk.inj hsplit
    rw [List.length_take, List.length_drop]
    omega

/-- A step of the walk over a nonempty tree: the node is there, and so are its halves. -/
theorem generateProofLoop_succ {index d : ℕ} {leaves left right acc : List B256} (hd : d < 32)
    (hne : leaves ≠ [])
    (hsplit : (if leaves.length ≤ 2 ^ d then (leaves, []) else leaves.splitAt (2 ^ d))
      = (left, right)) :
    generateProofLoop Z b index (d + 1) (MerkleTree.create c leaves (d + 1)) acc
      = if index / 2 ^ d % 2 = 1 then
          generateProofLoop Z b index d (MerkleTree.create c right d)
            (acc ++ [(MerkleTree.create c left d).hash c])
        else generateProofLoop Z b index d (MerkleTree.create c left d)
            (acc ++ [(MerkleTree.create c right d).hash c]) := by
  rw [create_succ c leaves d hne hsplit, generateProofLoop, b.shr_eq _ hd, Outcome.ok_bind,
    shiftRight_and_one]
  simp only [leftAndRightBranches, Outcome.ok_bind, Outcome.expect_some, hash_create hd.le]

/-- **The loop's invariant**, on the way to a leaf: it goes where the loop over unbounded numbers
goes, ends at a leaf, and has collected a sibling for each level. -/
theorem generateProofLoop_create {index d : ℕ} {leaves : List B256} (acc : List B256)
    (hd : d ≤ 32) (hlen : leaves.length ≤ 2 ^ d) (hi : index % 2 ^ d < leaves.length) :
    ∃ x proof, generateProofLoop Z b index d (MerkleTree.create c leaves d) acc
        = .ok (.leaf x, proof) ∧ proof.length = acc.length + d ∧
      MerkleTree.generateProofLoop c index d (MerkleTree.create c leaves d) acc
        = .ok (x, proof.reverse) := by
  induction d generalizing leaves acc with
  | zero =>
    cases leaves with
    | nil => cases hi
    | cons l ls => exact ⟨l, acc, rfl, rfl, rfl⟩
  | succ d ih =>
    obtain ⟨left, right, hsplit, hl, hr, -, -⟩ := create_split leaves d hlen
    obtain ⟨hlenl, hlenr⟩ := length_split hsplit
    have hne : leaves ≠ [] := by
      rintro rfl
      cases hi
    have hd' : d ≤ 32 := Nat.le_of_succ_le hd
    have hlt : index % 2 ^ d < 2 ^ d := Nat.mod_lt _ (Nat.two_pow_pos d)
    have hmod : index % 2 ^ (d + 1) = index % 2 ^ d + 2 ^ d * (index / 2 ^ d % 2) :=
      Nat.mod_pow_succ
    have hacc : ∀ s : B256, (acc ++ [s]).length = acc.length + 1 := fun s =>
      List.length_append
    rw [generateProofLoop_succ hd hne hsplit, generateProofLoop_step c hsplit]
    by_cases hbit : index / 2 ^ d % 2 = 1
    · rw [hbit, Nat.mul_one] at hmod
      have hright : index % 2 ^ d < right.length := by omega
      obtain ⟨x, proof, hloop, hproof, hunbounded⟩ :=
        ih (acc ++ [(MerkleTree.create c left d).hash c]) hd' hr hright
      rw [hacc] at hproof
      rw [if_pos hbit, if_pos hbit]
      exact ⟨x, proof, hloop, by omega, hunbounded⟩
    · have hbit0 : index / 2 ^ d % 2 = 0 := by omega
      rw [hbit0, Nat.mul_zero, Nat.add_zero] at hmod
      have hleft : index % 2 ^ d < left.length := by omega
      obtain ⟨x, proof, hloop, hproof, hunbounded⟩ :=
        ih (acc ++ [(MerkleTree.create c right d).hash c]) hd' hl hleft
      rw [hacc] at hproof
      rw [if_neg hbit, if_neg hbit]
      exact ⟨x, proof, hloop, by omega, hunbounded⟩

/-- **The walk to a leaf returns** what the walk over unbounded numbers returns. -/
theorem generateProof_eq {index d : ℕ} {leaves : List B256} (hd : d ≤ 32)
    (hlen : leaves.length ≤ 2 ^ d) (hi : index < leaves.length) :
    generateProof Z b (MerkleTree.create c leaves d) index d
      = MerkleTree.generateProof c (MerkleTree.create c leaves d) index d := by
  have hmod : index % 2 ^ d < leaves.length := by
    rw [Nat.mod_eq_of_lt (hi.trans_le hlen)]
    exact hi
  obtain ⟨x, proof, hloop, hproof, hunbounded⟩ :=
    @generateProofLoop_create c Z b index d leaves [] hd hlen hmod
  have hlength : proof.length = d := by simpa using hproof
  have hleaf : (MerkleTree.leaf x).isLeaf = true := rfl
  rw [MerkleTree.generateProof, hunbounded, generateProof, hloop, Outcome.ok_bind]
  dsimp only
  rw [b.debugAssert_eq _ hlength, Outcome.ok_bind, b.debugAssert_eq _ hleaf]
  rfl

theorem merkleRootFromBranchLoop_eq {index i : ℕ} {x : B256} {branch : List B256}
    (hi : i + branch.length ≤ 32) :
    (merkleRootFromBranchLoop b c index i x branch : Outcome ε B256)
      = .ok (EthHistorian.merkleRootFromBranchLoop c index i x branch) := by
  induction branch generalizing i x with
  | nil => rfl
  | cons s ss ih =>
    rw [List.length_cons] at hi
    rw [merkleRootFromBranchLoop, b.shr_eq _ (by omega), Outcome.ok_bind,
      EthHistorian.merkleRootFromBranchLoop]
    split
    · exact ih (by omega)
    · exact ih (by omega)

/-- **The branch verifier returns** what it returns over unbounded numbers. -/
theorem verifyMerkleProof_eq {leaf root : B256} {branch : List B256} {depth index : ℕ}
    (hd : depth ≤ 32) :
    (verifyMerkleProof b c leaf branch depth index root : Outcome ε Bool)
      = EthHistorian.verifyMerkleProof c leaf branch depth index root := by
  unfold verifyMerkleProof EthHistorian.verifyMerkleProof merkleRootFromBranch
    EthHistorian.merkleRootFromBranch
  by_cases h : branch.length = depth
  · have htake : branch.take depth = branch := List.take_of_length_le h.le
    rw [if_pos h, if_pos h, if_pos h, if_pos h, htake, merkleRootFromBranchLoop_eq (by omega)]
  · rw [if_neg h, if_neg h]

end Checked

end EthHistorian
