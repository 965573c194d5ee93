/-
# The sparse tree is the dense tree

`src/merkle/proof.rs` builds a tree that leaves out what is zero and walks it from the root down,
`rs_merkle` builds all of it and reads its layers from the leaves up.  Both are measured here
against one tree, the full binary tree over the leaves and as many zero chunks as are missing,
hashed layer by layer (`nextLayer`).

* `sparseTree_dense`: in every build, the sparse tree has the full tree's root, its walk to a
  leaf returns, and the branch verifier accepts what it returned;
* `merkleProofBuilders_agree`: the two builders of the crate return the same branches, for any
  number of leaves; up to `2 ^ 32` of them, in every build (`checked_generateProof_eq_build`).
-/
import EthHistorian.Model.BlockProofs
import EthHistorian.Model.CheckedMerkle

namespace EthHistorian

open Merkle

/-! ## 1. The root and the branches -/

/-- The leaves of the full tree. -/
def zeroPadded (d : ℕ) (leaves : List B256) : List B256 :=
  leaves ++ List.replicate (2 ^ d - leaves.length) (FixedBytes.zero 32)

theorem length_zeroPadded {d : ℕ} {leaves : List B256} (hlen : leaves.length ≤ 2 ^ d) :
    (zeroPadded d leaves).length = 2 ^ d := by
  rw [zeroPadded, List.length_append, List.length_replicate, Nat.add_sub_cancel' hlen]

/-- **The root of the sparse tree** is what the layers of the full one end in. -/
theorem iterate_nextLayer_zeroPadded (c : Crypto) {d : ℕ} {leaves : List B256}
    (hlen : leaves.length ≤ 2 ^ d) :
    (nextLayer c.hash32Concat)^[d] (zeroPadded d leaves)
      = [(MerkleTree.create c leaves d).hash c] := by
  have hsupply : leafAt (FixedBytes.zero 32) (zeroPadded d leaves) = chunkAt leaves :=
    funext fun j => leafAt_append_replicate _ _ _ j
  rw [iterate_nextLayer (FixedBytes.zero 32) (length_zeroPadded hlen), hsupply,
    create_hash c d leaves hlen]

/-- The walk returns the leaf and its branch. -/
theorem generateProof_leaf (c : Crypto) {d i : ℕ} {leaves : List B256}
    (hlen : leaves.length ≤ 2 ^ d) (hi : i < leaves.length) :
    MerkleTree.generateProof c (MerkleTree.create c leaves d) i d
      = .ok (leaves[i], branch c.hash32Concat d (chunkAt leaves) i) := by
  rw [generateProof_create c hlen (hi.trans_le hlen), chunkAt, leafAt_of_lt hi]

/-- A leaf's branch is accepted at every index that is its position modulo the width. -/
theorem verifyMerkleProof_branch {ε : Type} (c : Crypto) {d i j : ℕ} {leaves : List B256}
    (hlen : leaves.length ≤ 2 ^ d) (hi : i < leaves.length) (hj : j % 2 ^ d = i % 2 ^ d) :
    (verifyMerkleProof c leaves[i] (branch c.hash32Concat d (chunkAt leaves) i) d j
      ((MerkleTree.create c leaves d).hash c) : Outcome ε Bool) = .ok true := by
  have hbranch : (branch c.hash32Concat d (chunkAt leaves) i).length = d := branch_length d _ i
  have hclimb : climb c.hash32Concat j leaves[i] (branch c.hash32Concat d (chunkAt leaves) i)
      = (MerkleTree.create c leaves d).hash c := by
    rw [climb_congr _ (hbranch.symm ▸ hj), create_hash c d leaves hlen,
      ← climb_branch d (chunkAt leaves) i (hi.trans_le hlen), chunkAt, leafAt_of_lt hi]
  rw [verifyMerkleProof_eq, hclimb]
  simp [hbranch]

/-- **The sparse tree is the dense tree**, in every build, up to the depth the tables reach: the
roots agree, no walk to a leaf fails, and what it returns is accepted at every index that is the
leaf's modulo the width. -/
theorem sparseTree_dense (c : Crypto) (Z : ZeroHashes c) (b : Build) (ε : Type) (d : ℕ)
    (leaves : List B256) (hd : d ≤ 32) (hlen : leaves.length ≤ 2 ^ d) :
    ∃ tree root, (Checked.create Z b leaves d : Outcome ε MerkleTree) = .ok tree ∧
      (Checked.hash Z tree : Outcome ε B256) = .ok root ∧
      (nextLayer c.hash32Concat)^[d] (zeroPadded d leaves) = [root] ∧
      ∀ (i : ℕ) (hi : i < leaves.length), ∃ path : List B256,
        Checked.generateProof Z b tree i d = .ok (leaves[i], path) ∧ path.length = d ∧
        ∀ j, j % 2 ^ d = i % 2 ^ d →
          (Checked.verifyMerkleProof b c leaves[i] path d j root : Outcome ε Bool)
            = .ok true := by
  refine ⟨_, _, Checked.create_eq hd hlen, Checked.hash_create hd,
    iterate_nextLayer_zeroPadded c hlen, ?_⟩
  intro i hi
  refine ⟨_, (Checked.generateProof_eq hd hlen hi).trans (generateProof_leaf c hlen hi),
    branch_length d _ i, ?_⟩
  intro j hj
  rw [Checked.verifyMerkleProof_eq hd]
  exact verifyMerkleProof_branch c hlen hi hj

def threeLeaves : List B256 := [U256.toLeBytes 1, U256.toLeBytes 2, U256.toLeBytes 3]

/-- Three leaves under two levels, on a 32-bit target with every check: the last two are accepted
at their generalized indices. -/
theorem sparseTree_dense_three :
    ∃ tree root path path',
      (Checked.create (zeroHashes prefixCrypto) ⟨.w32, true, true⟩ threeLeaves 2
        : Outcome String MerkleTree) = .ok tree ∧
      (nextLayer prefixCrypto.hash32Concat)^[2] (zeroPadded 2 threeLeaves) = [root] ∧
      Checked.generateProof (zeroHashes prefixCrypto) ⟨.w32, true, true⟩ tree 1 2
        = .ok (U256.toLeBytes 2, path) ∧
      (Checked.verifyMerkleProof ⟨.w32, true, true⟩ prefixCrypto (U256.toLeBytes 2) path 2 5 root
        : Outcome String Bool) = .ok true ∧
      Checked.generateProof (zeroHashes prefixCrypto) ⟨.w32, true, true⟩ tree 2 2
        = .ok (U256.toLeBytes 3, path') ∧
      (Checked.verifyMerkleProof ⟨.w32, true, true⟩ prefixCrypto (U256.toLeBytes 3) path' 2 6 root
        : Outcome String Bool) = .ok true := by
  obtain ⟨tree, root, htree, -, hlayers, hwalk⟩ := sparseTree_dense prefixCrypto
    (zeroHashes prefixCrypto) ⟨.w32, true, true⟩ String 2 threeLeaves (by decide) (by decide)
  obtain ⟨path, hpath, -, haccepted⟩ := hwalk 1 (by decide)
  obtain ⟨path', hpath', -, haccepted'⟩ := hwalk 2 (by decide)
  exact ⟨tree, root, path, path', htree, hlayers, hpath, haccepted 5 (by decide), hpath',
    haccepted' 6 (by decide)⟩

/-! ## 2. The two builders -/

section

variable {c : Crypto} {proofHashes : List B256 → ℕ → List B256}
  (hlayers : ListsSiblings c proofHashes) {leaves : List B256} {i : ℕ}

/-- What the one reads off the layers is what the other collects on the way down. -/
theorem generateProof_eq_build (hi : i < leaves.length) :
    MerkleTree.generateProof c (MerkleTree.create c leaves (treeDepth leaves.length)) i
        (treeDepth leaves.length)
      = .ok (leaves[i], buildMerkleProofForIndex (RsMerkle.ofLayers hlayers) leaves i) := by
  have hlen : leaves.length ≤ 2 ^ treeDepth leaves.length := length_le_two_pow_treeDepth _
  rw [generateProof_leaf c hlen hi,
    buildMerkleProofForIndex_eq (RsMerkle.ofLayers hlayers) (hi.trans_le hlen)]

/-- As far as the tables reach, in every build. -/
theorem checked_generateProof_eq_build (Z : ZeroHashes c) (b : Build)
    (hmax : leaves.length ≤ 2 ^ 32) (hi : i < leaves.length) :
    (Checked.create Z b leaves (treeDepth leaves.length) >>= fun tree =>
        Checked.generateProof Z b tree i (treeDepth leaves.length))
      = .ok (leaves[i], buildMerkleProofForIndex (RsMerkle.ofLayers hlayers) leaves i) := by
  have hd : treeDepth leaves.length ≤ 32 := Nat.clog_le_of_le_pow hmax
  have hlen : leaves.length ≤ 2 ^ treeDepth leaves.length := length_le_two_pow_treeDepth _
  rw [Checked.create_eq hd hlen, Outcome.ok_bind, Checked.generateProof_eq hd hlen hi,
    generateProof_eq_build hlayers hi]

end

/-- **The two builders agree**, for any number of leaves, on every sibling, leaf end first. -/
theorem merkleProofBuilders_agree (c : Crypto) (proofHashes : List B256 → ℕ → List B256)
    (hlayers : ListsSiblings c proofHashes) (leaves : List B256) (i : ℕ)
    (hi : i < leaves.length) :
    MerkleTree.generateProof c
        (MerkleTree.create c leaves (Nat.log 2 (nextPowerOfTwo leaves.length))) i
        (Nat.log 2 (nextPowerOfTwo leaves.length))
      = .ok (leaves[i], buildMerkleProofForIndex (RsMerkle.ofLayers hlayers) leaves i) := by
  have hdepth : Nat.log 2 (nextPowerOfTwo leaves.length) = treeDepth leaves.length :=
    Nat.log_pow (by norm_num) _
  rw [hdepth, generateProof_eq_build hlayers hi]

/-- The function that is defined by what is assumed. -/
theorem listsSiblings_layerBranch (c : Crypto) : ListsSiblings c fun leaves i =>
    layerBranch c.hash32Concat (treeDepth leaves.length) leaves i := by
  intro d leaves i hlen _
  dsimp only
  rw [hlen, treeDepth_pow]

/-- The last of three leaves, whose sibling is padding, and the first, whose sibling is a leaf. -/
theorem merkleProofBuilders_agree_three :
    MerkleTree.generateProof prefixCrypto (MerkleTree.create prefixCrypto threeLeaves 2) 2 2
        = .ok (U256.toLeBytes 3, buildMerkleProofForIndex
            (RsMerkle.ofLayers (listsSiblings_layerBranch prefixCrypto)) threeLeaves 2) ∧
      MerkleTree.generateProof prefixCrypto (MerkleTree.create prefixCrypto threeLeaves 2) 0 2
        = .ok (U256.toLeBytes 1, buildMerkleProofForIndex
            (RsMerkle.ofLayers (listsSiblings_layerBranch prefixCrypto)) threeLeaves 0) :=
  ⟨merkleProofBuilders_agree prefixCrypto _ (listsSiblings_layerBranch prefixCrypto) threeLeaves 2
      (by decide),
    merkleProofBuilders_agree prefixCrypto _ (listsSiblings_layerBranch prefixCrypto) threeLeaves 0
      (by decide)⟩

end EthHistorian
