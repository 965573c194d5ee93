/-
# The sparse Merkle tree and the branch verifier

`src/merkle/proof.rs`: a right-sparse tree whose missing halves are `Zero` nodes, the top-down
walk that collects a branch (`generateProof`), and the bottom-up fold that checks one
(`verifyMerkleProof`).  The definitions follow the source branch by branch, aborts included.
Numbers and the table of zero hashes have no end here; `CheckedMerkle.lean` has what a build checks.

Each is then identified with the library's perfect tree over the zero-padded leaf supply:

* `create_hash`: a built tree has the root of the dense tree;
* `generateProof_create`: the walk returns the leaf and the dense tree's branch, and never
  meets a missing child;
* `verifyMerkleProof_eq`: the check is a length test and a climb, and never aborts.

Callers below use these three facts and never unfold the source's loops.
-/
import EthHistorian.Model.Primitives

namespace EthHistorian

open Merkle

/-! ## 1. The source -/

/-- Right-sparse Merkle tree. -/
inductive MerkleTree where
  | finalized (h : B256)
  | leaf (h : B256)
  | node (h : B256) (left right : MerkleTree)
  | zero (depth : ℕ)
  deriving DecidableEq

inductive InvalidSnapshot where
  | emptyBranchWithNonZeroDeposits (n : ℕ)
  | endOfTree
  deriving DecidableEq, Repr

inductive MerkleTreeError where
  | leafReached
  | merkleTreeFull
  | invalid
  | depthTooSmall
  | arithError
  | zeroNodeFinalized
  | finalizedNodePushed
  | invalidSnapshot (e : InvalidSnapshot)
  | proofEncounteredFinalizedNode
  | pleaseNotifyTheDevs
  deriving DecidableEq, Repr

namespace MerkleTree

def hash (c : Crypto) : MerkleTree → B256
  | finalized h => h
  | leaf h => h
  | node h _ _ => h
  | zero depth => c.zeroHashes depth

/-- Build the tree over the leaves.  At depth 0 the source keeps the first leaf and has a debug
assertion that there is no other. -/
def create (c : Crypto) : List B256 → ℕ → MerkleTree
  | [], depth => zero depth
  | l :: _, 0 => leaf l
  | l :: ls, d + 1 =>
    let leaves := l :: ls
    let subtreeCapacity := 2 ^ d
    let (leftLeaves, rightLeaves) :=
      if leaves.length ≤ subtreeCapacity then (leaves, [])
      else leaves.splitAt subtreeCapacity
    let leftSubtree := create c leftLeaves d
    let rightSubtree := create c rightLeaves d
    node (c.hash32Concat (leftSubtree.hash c) (rightSubtree.hash c)) leftSubtree rightSubtree

def leftAndRightBranches : MerkleTree → Option (MerkleTree × MerkleTree)
  | node _ l r => some (l, r)
  | zero (depth + 1) => some (zero depth, zero depth)
  | finalized _ | leaf _ | zero 0 => none

/-- The loop of `generate_proof`: the node reached, the depth left, and the siblings so far. -/
def generateProofLoop (c : Crypto) (index : ℕ) :
    ℕ → MerkleTree → List B256 → Outcome MerkleTreeError (B256 × List B256)
  | 0, currentNode, proof => .ok (currentNode.hash c, proof.reverse)
  | currentDepth + 1, currentNode, proof =>
    match currentNode with
    | finalized _ => .err .proofEncounteredFinalizedNode
    | _ =>
      match currentNode.leftAndRightBranches with
      | none => .panic "called `Option::unwrap()` on a `None` value"
      | some (left, right) =>
        if (index >>> currentDepth) &&& 0x01 = 1 then
          generateProofLoop c index currentDepth right (proof ++ [left.hash c])
        else generateProofLoop c index currentDepth left (proof ++ [right.hash c])

def generateProof (c : Crypto) (tree : MerkleTree) (index depth : ℕ) :
    Outcome MerkleTreeError (B256 × List B256) := generateProofLoop c index depth tree []

end MerkleTree

/-- The loop of `merkle_root_from_branch`, from level `i` on.  The odd case hashes two chunks,
the even one the concatenated buffer: both are SHA-256 of the same 64 bytes. -/
def merkleRootFromBranchLoop (c : Crypto) (index : ℕ) : ℕ → B256 → List B256 → B256
  | _, merkleRoot, [] => merkleRoot
  | i, merkleRoot, leaf :: rest =>
    if (index >>> i) &&& 0x01 = 1 then
      merkleRootFromBranchLoop c index (i + 1) (c.hash32Concat leaf merkleRoot) rest
    else merkleRootFromBranchLoop c index (i + 1) (c.hash (merkleRoot.bytes ++ leaf.bytes)) rest

def merkleRootFromBranch {ε : Type} (c : Crypto) (leaf : B256) (branch : List B256)
    (depth index : ℕ) : Outcome ε B256 :=
  if branch.length = depth then
    .ok (merkleRootFromBranchLoop c index 0 leaf (branch.take depth))
  else .panic "proof length should equal depth"

/-- Verify a proof that `leaf` exists at `index` in a Merkle tree rooted at `root`. -/
def verifyMerkleProof {ε : Type} (c : Crypto) (leaf : B256) (branch : List B256)
    (depth index : ℕ) (root : B256) : Outcome ε Bool :=
  if branch.length = depth then do
    let r ← merkleRootFromBranch c leaf branch depth index
    return decide (r = root)
  else .ok false

/-! ## 2. The verifier is a climb -/

/-- The low bit of a shifted index, as a remainder. -/
theorem shiftRight_and_one (index i : ℕ) : (index >>> i) &&& 0x01 = index / 2 ^ i % 2 := by
  rw [Nat.and_one_is_mod, Nat.shiftRight_eq_div_pow]

theorem merkleRootFromBranchLoop_eq (c : Crypto) (index : ℕ) (branch : List B256) (i : ℕ)
    (x : B256) :
    merkleRootFromBranchLoop c index i x branch
      = climb c.hash32Concat (index / 2 ^ i) x branch := by
  induction branch generalizing i x with
  | nil => rfl
  | cons s ss ih =>
    have hdiv : index / 2 ^ (i + 1) = index / 2 ^ i / 2 := by
      rw [pow_succ, Nat.div_div_eq_div_mul]
    rw [merkleRootFromBranchLoop, climb, shiftRight_and_one, pair]
    split
    · rw [ih (i + 1), hdiv]
    · rw [ih (i + 1), hdiv]
      rfl

/-- **The check never aborts**, and says whether a branch of the right length climbs to the
root. -/
theorem verifyMerkleProof_eq {ε : Type} (c : Crypto) (leaf : B256) (branch : List B256)
    (depth index : ℕ) (root : B256) :
    (verifyMerkleProof c leaf branch depth index root : Outcome ε Bool)
      = .ok (decide (branch.length = depth ∧ climb c.hash32Concat index leaf branch = root)) := by
  unfold verifyMerkleProof merkleRootFromBranch
  by_cases h : branch.length = depth
  · have htake : branch.take depth = branch := List.take_of_length_le h.le
    simp [h, htake, merkleRootFromBranchLoop_eq]
  · simp [h]

/-! ## 3. The sparse tree is the dense tree -/

/-- The leaf supply of a list, padded with zero chunks. -/
abbrev chunkAt (chunks : List B256) : ℕ → B256 := leafAt (FixedBytes.zero 32) chunks

theorem chunkAt_nil (i : ℕ) : chunkAt [] i = FixedBytes.zero 32 := leafAt_of_ge (Nat.zero_le i)

/-- A zero subtree is the dense tree over zero chunks. -/
theorem zeroHashes_eq (c : Crypto) (d : ℕ) :
    c.zeroHashes d = subtree c.hash32Concat d (fun _ => FixedBytes.zero 32) := by
  induction d with
  | zero => rfl
  | succ d ih => rw [Crypto.zeroHashes, ih, subtree]

/-- How the source splits a nonempty leaf list: both halves again supply the dense halves. -/
theorem create_split (leaves : List B256) (d : ℕ) (hlen : leaves.length ≤ 2 ^ (d + 1)) :
    ∃ l r : List B256,
      (if leaves.length ≤ 2 ^ d then (leaves, []) else leaves.splitAt (2 ^ d)) = (l, r) ∧
        l.length ≤ 2 ^ d ∧ r.length ≤ 2 ^ d ∧ (∀ j < 2 ^ d, chunkAt l j = chunkAt leaves j) ∧
        ∀ j, chunkAt r j = chunkAt leaves (2 ^ d + j) := by
  have hw : 2 ^ (d + 1) = 2 ^ d + 2 ^ d := by rw [pow_succ, Nat.mul_two]
  by_cases h : leaves.length ≤ 2 ^ d
  · refine ⟨leaves, [], by rw [if_pos h], h, by simp, fun _ _ => rfl, fun j => ?_⟩
    rw [chunkAt_nil, chunkAt, leafAt_of_ge (by omega)]
  · refine ⟨leaves.take (2 ^ d), leaves.drop (2 ^ d), by rw [if_neg h, List.splitAt_eq], by simp,
      by rw [List.length_drop]; omega, fun j hj => ?_, fun j => ?_⟩
    · simp [leafAt, List.getD, hj]
    · simp [leafAt, List.getD, List.getElem?_drop]

/-- **A built tree has the dense tree's root**, and unfolds into built halves. -/
theorem create_succ (c : Crypto) (leaves : List B256) (d : ℕ) (hne : leaves ≠ []) :
    ∀ {l r : List B256},
      (if leaves.length ≤ 2 ^ d then (leaves, []) else leaves.splitAt (2 ^ d)) = (l, r) →
      MerkleTree.create c leaves (d + 1)
        = .node (c.hash32Concat ((MerkleTree.create c l d).hash c)
            ((MerkleTree.create c r d).hash c)) (MerkleTree.create c l d)
            (MerkleTree.create c r d) := by
  intro l r h
  obtain ⟨x, xs, rfl⟩ := List.exists_cons_of_ne_nil hne
  rw [MerkleTree.create]
  simp only [h]

theorem create_nil_hash (c : Crypto) (d : ℕ) :
    (MerkleTree.create c [] d).hash c = subtree c.hash32Concat d (chunkAt []) := by
  have hz : chunkAt [] = fun _ => FixedBytes.zero 32 := funext chunkAt_nil
  rw [hz, ← zeroHashes_eq]
  cases d <;> rfl

theorem create_hash (c : Crypto) (d : ℕ) (leaves : List B256) (hlen : leaves.length ≤ 2 ^ d) :
    (MerkleTree.create c leaves d).hash c = subtree c.hash32Concat d (chunkAt leaves) := by
  induction d generalizing leaves with
  | zero =>
    cases leaves with
    | nil => exact create_nil_hash c 0
    | cons l ls => rfl
  | succ d ih =>
    cases leaves with
    | nil => exact create_nil_hash c (d + 1)
    | cons l ls =>
      obtain ⟨left, right, hsplit, hl, hr, hcl, hcr⟩ := create_split (l :: ls) d hlen
      rw [create_succ c (l :: ls) d (List.cons_ne_nil l ls) hsplit, MerkleTree.hash, ih left hl,
        ih right hr, subtree]
      rw [subtree_congr d hcl, subtree_congr d fun j _ => hcr j]

/-- Whether a built tree is a node or a zero node, its halves are the built halves. -/
theorem create_halves (c : Crypto) {leaves left right : List B256} {d : ℕ}
    (hsplit : (if leaves.length ≤ 2 ^ d then (leaves, []) else leaves.splitAt (2 ^ d))
      = (left, right)) :
    (MerkleTree.create c leaves (d + 1)).leftAndRightBranches
        = some (MerkleTree.create c left d, MerkleTree.create c right d) ∧
      ∀ h, MerkleTree.create c leaves (d + 1) ≠ .finalized h := by
  cases leaves with
  | nil =>
    simp only [List.length_nil, Nat.zero_le, if_true, Prod.mk.injEq] at hsplit
    obtain ⟨rfl, rfl⟩ := hsplit
    have hz : ∀ k, MerkleTree.create c [] k = .zero k := fun k => by cases k <;> rfl
    rw [hz, hz]
    exact ⟨rfl, fun _ => nofun⟩
  | cons l ls =>
    rw [create_succ c _ d (List.cons_ne_nil l ls) hsplit]
    exact ⟨rfl, fun _ => nofun⟩

/-- A step of the walk goes into the half that the index's bit says, and keeps the root of the
other one. -/
theorem generateProofLoop_step (c : Crypto) {leaves left right acc : List B256} {index d : ℕ}
    (hsplit : (if leaves.length ≤ 2 ^ d then (leaves, []) else leaves.splitAt (2 ^ d))
      = (left, right)) :
    MerkleTree.generateProofLoop c index (d + 1) (MerkleTree.create c leaves (d + 1)) acc
      = if index / 2 ^ d % 2 = 1 then
          MerkleTree.generateProofLoop c index d (MerkleTree.create c right d)
            (acc ++ [(MerkleTree.create c left d).hash c])
        else MerkleTree.generateProofLoop c index d (MerkleTree.create c left d)
            (acc ++ [(MerkleTree.create c right d).hash c]) := by
  obtain ⟨hbranches, hnf⟩ := create_halves c hsplit
  rw [MerkleTree.generateProofLoop]
  · rw [hbranches]
    dsimp only
    rw [shiftRight_and_one]
  · exact hnf

/-- The loop's invariant: from a built tree with `acc` collected, it ends at the leaf the low
bits of the index address, with that leaf's branch in front of what was collected before. -/
theorem generateProofLoop_create (c : Crypto) (index d : ℕ) (leaves acc : List B256)
    (hlen : leaves.length ≤ 2 ^ d) :
    MerkleTree.generateProofLoop c index d (MerkleTree.create c leaves d) acc
      = .ok (chunkAt leaves (index % 2 ^ d),
          branch c.hash32Concat d (chunkAt leaves) (index % 2 ^ d) ++ acc.reverse) := by
  induction d generalizing leaves acc with
  | zero =>
    have hh := create_hash c 0 leaves hlen
    rw [MerkleTree.generateProofLoop, hh, pow_zero, Nat.mod_one]
    rfl
  | succ d ih =>
    have hw : 2 ^ (d + 1) = 2 ^ d + 2 ^ d := by rw [pow_succ, Nat.mul_two]
    obtain ⟨left, right, hsplit, hl, hr, hcl, hcr⟩ := create_split leaves d hlen
    have hdm : index % 2 ^ (d + 1) = index % 2 ^ d + 2 ^ d * (index / 2 ^ d % 2) :=
      Nat.mod_pow_succ
    have hlt : index % 2 ^ d < 2 ^ d := Nat.mod_lt _ (Nat.two_pow_pos d)
    rw [generateProofLoop_step c hsplit]
    by_cases hbit : index / 2 ^ d % 2 = 1
    · rw [if_pos hbit, ih right _ hr, create_hash c d left hl]
      rw [hbit, Nat.mul_one] at hdm
      have hge : ¬ index % 2 ^ (d + 1) < 2 ^ d := by omega
      have hsub : index % 2 ^ (d + 1) - 2 ^ d = index % 2 ^ d := by omega
      have hfun : chunkAt right = fun j => chunkAt leaves (2 ^ d + j) := funext hcr
      rw [branch, if_neg hge, hsub, hfun, subtree_congr d hcl, hdm, Nat.add_comm (index % 2 ^ d)]
      simp
    · have hbit0 : index / 2 ^ d % 2 = 0 := by omega
      rw [if_neg hbit, ih left _ hl, create_hash c d right hr]
      have hmod : index % 2 ^ (d + 1) = index % 2 ^ d := by
        rw [hdm, hbit0, Nat.mul_zero, Nat.add_zero]
      rw [hmod, branch, if_pos hlt, subtree_congr d fun j _ => hcr j, hcl _ hlt,
        branch_congr d _ hlt hcl]
      simp

/-- **The walk over a built tree**: for an index of the tree's width it returns the leaf and
the dense tree's branch, without meeting a missing child or a finalized node. -/
theorem generateProof_create (c : Crypto) {d index : ℕ} {leaves : List B256}
    (hlen : leaves.length ≤ 2 ^ d) (hi : index < 2 ^ d) :
    MerkleTree.generateProof c (MerkleTree.create c leaves d) index d
      = .ok (chunkAt leaves index, branch c.hash32Concat d (chunkAt leaves) index) := by
  have h := generateProofLoop_create c index d leaves [] hlen
  rw [Nat.mod_eq_of_lt hi, List.reverse_nil, List.append_nil] at h
  exact h

end EthHistorian
