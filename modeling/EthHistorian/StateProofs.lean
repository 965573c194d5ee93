/-
# Proofs of the historical summaries

Deneb's and Electra's states prove their own `historical_summaries` field with a branch over a
list of field roots that is written by hand, 28 entries in one fork and 37 in the other, and
tied to the struct by position only.

* `verifyMerkleProof_field`: a container opens at each of its fields, at the generalized index
  that a reader computes from the number of fields and the field's place;
* `buildHistoricalSummariesProof_verifies`: both hand-written lists are the derived ones, so both
  states prove the field at the index they are asked for, 59 and 91, and Electra's `expect` never
  fails;
* `verifyMerkleProof_historicalSummaries`: conversely, what is accepted there is the state's own
  summaries along the branch the state builds, unless SHA-256 collides.
-/
import EthHistorian.Paths
import EthHistorian.Model.BeaconState

namespace EthHistorian

open Merkle

variable {c : Crypto} (rs : RsMerkle c) (ε : Type)

/-! ## 1. A container opens at its fields -/

/-- **A field's branch is accepted** at the field's generalized index. -/
theorem verifyMerkleProof_field {roots : List B256} {i d : ℕ} {x : B256}
    (hx : roots[i]? = some x) (hd : treeDepth roots.length = d) :
    (buildMerkleProofForIndex rs roots i).length = d ∧
      (verifyMerkleProof c x (buildMerkleProofForIndex rs roots i) d (2 ^ d + i)
        (containerRoot c roots) : Outcome ε Bool) = .ok true := by
  obtain ⟨hclimb, hlt⟩ := ExecutionPath.climb_container c hx
  rw [buildMerkleProofForIndex_eq rs hlt]
  rw [hd] at hclimb ⊢
  have hlen : (branch c.hash32Concat d (chunkAt roots) i).length = d := branch_length _ _ _
  refine ⟨hlen, ?_⟩
  rw [verifyMerkleProof_eq, climb_gindex hlen, hclimb]
  simp [hlen]

/-- **What is accepted at a field's generalized index is the field**, along its own branch, or
the two climbs hashed two pairs to one value. -/
theorem verifyMerkleProof_field_binds {roots : List B256} {i d : ℕ} {x y : B256}
    {path : List B256} (hx : roots[i]? = some x) (hd : treeDepth roots.length = d)
    (h : (verifyMerkleProof c y path d (2 ^ d + i) (containerRoot c roots) : Outcome ε Bool)
      = .ok true) :
    (y = x ∧ path = buildMerkleProofForIndex rs roots i) ∨
      Collision c.hash32Concat (climbInputs c.hash32Concat (2 ^ d + i) y path)
        (climbInputs c.hash32Concat (2 ^ d + i) x (buildMerkleProofForIndex rs roots i)) := by
  obtain ⟨hlen, hhonest⟩ := verifyMerkleProof_field rs ε hx hd
  rw [verifyMerkleProof_eq, Outcome.ok.injEq, decide_eq_true_iff] at h hhonest
  exact climb_binding _ _ _ _ _ (h.1.trans hlen.symm) (h.2.trans hhonest.2.symm)

/-! ## 2. The hand-written lists -/

/-- Deneb's 28 leaves are the roots of the struct's fields, in order. -/
theorem BeaconStateDeneb.leaves_eq (s : BeaconStateDeneb) :
    BeaconStateDeneb.buildHistoricalSummariesProof rs s
      = buildMerkleProofForIndex rs (s.fieldRoots c) 27 := rfl

/-- Electra's 37 leaves are the roots of the struct's fields, in order. -/
theorem BeaconStateElectra.leaves_eq (s : BeaconStateElectra) :
    (BeaconStateElectra.buildHistoricalSummariesProof rs s : Outcome ε HistoricalSummariesProof)
      = .expect (FixedVector.new 6 (buildMerkleProofForIndex rs (s.fieldRoots c) 27))
        "Created historical summaries proof for Electra should have correct length" := rfl

/-- The summaries are the last of Deneb's 28 fields. -/
theorem BeaconStateDeneb.summaries_at (c : Crypto) (s : BeaconStateDeneb) :
    (s.fieldRoots c)[27]? = some (treeHashRoot c s.historicalSummaries) ∧
      treeDepth (s.fieldRoots c).length = 5 :=
  ⟨rfl, treeDepth_of_length (n := 28) rfl (by decide)⟩

/-- Electra's nine fields come after them, and the tree is one level deeper. -/
theorem BeaconStateElectra.summaries_at (c : Crypto) (s : BeaconStateElectra) :
    (s.fieldRoots c)[27]? = some (treeHashRoot c s.historicalSummaries) ∧
      treeDepth (s.fieldRoots c).length = 6 :=
  ⟨rfl, treeDepth_of_length (n := 37) rfl (by decide)⟩

/-! ## 3. The proofs -/

/-- Electra's builder returns: the branch has the length its type asks for. -/
theorem BeaconStateElectra.buildHistoricalSummariesProof_ok (s : BeaconStateElectra) :
    ∃ proof : HistoricalSummariesProof,
      (BeaconStateElectra.buildHistoricalSummariesProof rs s : Outcome ε _) = .ok proof ∧
        proof.toList = buildMerkleProofForIndex rs (s.fieldRoots c) 27 := by
  obtain ⟨hx, hd⟩ := BeaconStateElectra.summaries_at c s
  obtain ⟨hlen, -⟩ := verifyMerkleProof_field rs ε hx hd
  refine ⟨⟨_, hlen⟩, ?_, rfl⟩
  rw [BeaconStateElectra.leaves_eq, FixedVector.new_eq_some hlen, Outcome.expect_some]

/-- **Both states prove their historical summaries.**  Deneb's branch of five hashes is accepted
at generalized index 59 of the state's root, Electra's of six at 91, whatever the state. -/
theorem buildHistoricalSummariesProof_verifies (c : Crypto) (rs : RsMerkle c) (ε : Type) :
    (∀ s : BeaconStateDeneb,
      (BeaconStateDeneb.buildHistoricalSummariesProof rs s).length = 5 ∧
        (verifyMerkleProof c (treeHashRoot c s.historicalSummaries)
          (BeaconStateDeneb.buildHistoricalSummariesProof rs s)
          (BeaconStateDeneb.buildHistoricalSummariesProof rs s).length 59 (treeHashRoot c s)
          : Outcome ε Bool) = .ok true) ∧
    ∀ s : BeaconStateElectra, ∃ proof : HistoricalSummariesProof,
      (BeaconStateElectra.buildHistoricalSummariesProof rs s : Outcome ε _) = .ok proof ∧
        proof.toList.length = 6 ∧
        (verifyMerkleProof c (treeHashRoot c s.historicalSummaries) proof.toList
          proof.toList.length historicalSummariesGindex (treeHashRoot c s)
          : Outcome ε Bool) = .ok true := by
  constructor
  · intro s
    obtain ⟨hx, hd⟩ := BeaconStateDeneb.summaries_at c s
    obtain ⟨hlen, hverify⟩ := verifyMerkleProof_field rs ε hx hd
    rw [BeaconStateDeneb.leaves_eq, hlen]
    exact ⟨rfl, hverify⟩
  · intro s
    obtain ⟨hx, hd⟩ := BeaconStateElectra.summaries_at c s
    obtain ⟨-, hverify⟩ := verifyMerkleProof_field rs ε hx hd
    obtain ⟨proof, hproof, hlist⟩ :=
      BeaconStateElectra.buildHistoricalSummariesProof_ok rs ε s
    refine ⟨proof, hproof, proof.length_eq, ?_⟩
    rw [proof.length_eq, hlist]
    exact hverify

/-! States of two summaries, with a builder that returns full trees' branches. -/

def twoSummaries : HistoricalSummaries :=
  ⟨[⟨chunkOfBytes [1], chunkOfBytes [2]⟩, ⟨chunkOfBytes [3], chunkOfBytes [4]⟩], by norm_num⟩

def denebState : BeaconStateDeneb :=
  { (default : BeaconStateDeneb) with
    genesisTime := 1606824023, slot := 8626176, historicalSummaries := twoSummaries }

def electraState : BeaconStateElectra :=
  { (default : BeaconStateElectra) with
    genesisTime := 1606824023, slot := 11649024, historicalSummaries := twoSummaries,
    exitBalanceToConsume := 256000000000 }

theorem buildHistoricalSummariesProof_verifies_two :
    (verifyMerkleProof prefixCrypto (treeHashRoot prefixCrypto twoSummaries)
        (BeaconStateDeneb.buildHistoricalSummariesProof (rsMerkle prefixCrypto) denebState)
        (BeaconStateDeneb.buildHistoricalSummariesProof (rsMerkle prefixCrypto) denebState).length
        59 (treeHashRoot prefixCrypto denebState) : Outcome String Bool) = .ok true ∧
      ∃ proof : HistoricalSummariesProof,
        (BeaconStateElectra.buildHistoricalSummariesProof (rsMerkle prefixCrypto) electraState
          : Outcome String _) = .ok proof ∧
        (verifyMerkleProof prefixCrypto (treeHashRoot prefixCrypto twoSummaries) proof.toList
          proof.toList.length historicalSummariesGindex (treeHashRoot prefixCrypto electraState)
          : Outcome String Bool) = .ok true := by
  obtain ⟨hdeneb, helectra⟩ :=
    buildHistoricalSummariesProof_verifies prefixCrypto (rsMerkle prefixCrypto) String
  obtain ⟨proof, hproof, -, hverify⟩ := helectra electraState
  exact ⟨(hdeneb denebState).2, proof, hproof, hverify⟩

/-- **Only the state's own summaries are accepted** against an Electra state root: the branch is
the one the state builds, for the summaries it holds, or the two climbs hashed two pairs to one
value. -/
theorem verifyMerkleProof_historicalSummaries (s : BeaconStateElectra) {y : B256}
    {proof : HistoricalSummariesProof}
    (h : (verifyMerkleProof c y proof.toList proof.toList.length historicalSummariesGindex
      (treeHashRoot c s) : Outcome ε Bool) = .ok true) :
    ∃ own : HistoricalSummariesProof,
      (BeaconStateElectra.buildHistoricalSummariesProof rs s : Outcome ε _) = .ok own ∧
        ((y = treeHashRoot c s.historicalSummaries ∧ proof = own) ∨
          Collision c.hash32Concat
            (climbInputs c.hash32Concat historicalSummariesGindex y proof.toList)
            (climbInputs c.hash32Concat historicalSummariesGindex
              (treeHashRoot c s.historicalSummaries) own.toList)) := by
  obtain ⟨hx, hd⟩ := BeaconStateElectra.summaries_at c s
  obtain ⟨own, hown, hlist⟩ := BeaconStateElectra.buildHistoricalSummariesProof_ok rs ε s
  refine ⟨own, hown, ?_⟩
  rw [proof.length_eq] at h
  rcases verifyMerkleProof_field_binds rs ε hx hd h with ⟨hy, hpath⟩ | hcol
  · exact Or.inl ⟨hy, FixedVector.ext (hpath.trans hlist.symm)⟩
  · rw [hlist]
    exact Or.inr hcol

end EthHistorian
