/-
# When the verifier aborts

`Verifier::verify` takes proofs from strangers, so it has to return on all of them.  With the
embedded accumulators (1,897 epochs, 758 historical roots) every index but one is in bounds on
every input that reaches it: the pre-merge path is guarded by the block number, and the paths of
the summaries ask the list instead of indexing it.

The one left is the index into the historical roots, which comes from the proof's slot alone.
No guard bounds it: the check in front of it compares with a beacon block root that is part of
the proof, so a stranger makes it pass by computing that root from the branch.
`verify_returns_iff` says exactly which inputs abort, and `verify_forged` gives one for every
hash function and every snapshot of at most 758 roots.
-/
import EthHistorian.Model.Api
import EthHistorian.PostMerge

namespace EthHistorian

open Merkle

namespace Verifier

/-! ## 1. The inputs that abort -/

/-- A proof of the Merge-to-Capella path whose guards and first check pass, and whose slot is of
an era past the 758 embedded ones. -/
def SlotPastRoots (c : Crypto) (w : PointerWidth) (hwp : HeaderWithProof) : Prop :=
  ∃ proof, hwp.proof = .historicalRoots proof ∧
    15537394 ≤ hwp.header.number.toNat ∧ hwp.header.timestamp.toNat < 1681338455 ∧
    climb c.hash32Concat 3228 (hwp.header.hashSlow c) proof.executionBlockProof.toList
      = proof.beaconBlockRoot ∧
    758 ≤ asUsize w (proof.slot / slotsPerHistoricalRoot)

/-- **The verifier returns on everything else, and only on that.** -/
theorem verify_returns_iff (c : Crypto) (w : PointerWidth) (v : Verifier)
    (hepochs : v.validator.preMergeAcc.historicalEpochs.toList.length = 1897)
    (hroots : v.validator.historicalRootsAcc.historicalRoots.toList.length = 758)
    (hwp : HeaderWithProof) :
    (v.verify c w hwp).Returns ↔ ¬ SlotPastRoots c w hwp := by
  obtain ⟨header, proof⟩ := hwp
  rw [verify_returns, SlotPastRoots]
  cases proof with
  | historicalHashes proof =>
    have hreturns : (v.validator.verifyPreMergeHeader c w header proof).Returns := by
      rw [Outcome.returns_iff_not_panic, HeaderValidator.verifyPreMergeHeader_panic, hepochs]
      omega
    exact iff_of_true hreturns (by rintro ⟨_, h, -⟩; cases h)
  | historicalRoots proof =>
    change (v.validator.verifyMergeToCapellaHeader c w _ _ _ proof).Returns ↔ _
    rw [Outcome.returns_iff_not_panic, HeaderValidator.verifyMergeToCapellaHeader_panic, hroots,
      not_iff_not]
    constructor
    · rintro ⟨hn, ht, he, hs⟩
      exact ⟨proof, rfl, hn, ht, he, hs⟩
    · rintro ⟨_, h, hn, ht, he, hs⟩
      cases h
      exact ⟨hn, ht, he, hs⟩
  | historicalSummariesCapella proof =>
    exact iff_of_true (v.validator.verifyCapellaToDenebHeader_returns c w _ _ proof)
      (by rintro ⟨_, h, -⟩; cases h)
  | historicalSummariesDeneb proof =>
    exact iff_of_true (v.validator.verifyPostDenebHeader_returns c w _ _ proof)
      (by rintro ⟨_, h, -⟩; cases h)

/-! ## 2. Forging one -/

/-- A proof for the first slot without a root.  Its beacon block root is computed from the
header it comes with, and its branches are zeros. -/
def forgedProof (c : Crypto) (header : Header) : BlockProofHistoricalRoots where
  beaconBlockProof := default
  beaconBlockRoot := climb c.hash32Concat 3228 (header.hashSlow c)
    (default : FixedVector B256 11).toList
  executionBlockProof := default
  slot := 6209536

def forged (c : Crypto) : HeaderWithProof :=
  ⟨mergeHeader, .historicalRoots (forgedProof c mergeHeader)⟩

/-- The first slot without a root. -/
theorem asUsize_firstSlotPastRoots (w : PointerWidth) :
    asUsize w ((6209536 : UInt64) / slotsPerHistoricalRoot) = 758 := by
  cases w <;> rfl

theorem mergeHeader_era :
    15537394 ≤ mergeHeader.number.toNat ∧ mergeHeader.timestamp.toNat < 1681338455 := by decide

theorem slotPastRoots_forged (c : Crypto) (w : PointerWidth) : SlotPastRoots c w (forged c) :=
  ⟨forgedProof c mergeHeader, rfl, mergeHeader_era.1, mergeHeader_era.2, rfl,
    (asUsize_firstSlotPastRoots w).ge⟩

/-- **It aborts every verifier** with the embedded accumulators, whatever the hash functions. -/
theorem verify_forged (c : Crypto) (w : PointerWidth) (v : Verifier)
    (hroots : v.validator.historicalRootsAcc.historicalRoots.toList.length = 758) :
    ∃ msg, v.verify c w (forged c) = .panic msg := by
  have hslot : v.validator.historicalRootsAcc.historicalRoots.toList.length
      ≤ asUsize w ((forgedProof c mergeHeader).slot / slotsPerHistoricalRoot) := by
    rw [hroots]
    exact (asUsize_firstSlotPastRoots w).ge
  obtain ⟨msg, hmsg⟩ := (v.validator.verifyMergeToCapellaHeader_panic c w).mpr
    ⟨mergeHeader_era.1, mergeHeader_era.2, rfl, hslot⟩
  refine ⟨msg, ?_⟩
  change (v.validator.verifyMergeToCapellaHeader c w mergeHeader.number mergeHeader.timestamp
    (mergeHeader.hashSlow c) (forgedProof c mergeHeader)).mapErr _ >>= _ = _
  rw [hmsg]
  rfl

/-- Accumulators of the embedded lengths, of zeros, and no summaries. -/
def zeroVerifier : Verifier where
  validator :=
    { preMergeAcc := ⟨⟨List.replicate 1897 default, by rw [List.length_replicate]; norm_num⟩⟩
      historicalRootsAcc := ⟨⟨List.replicate 758 default, by
        rw [List.length_replicate]
        norm_num⟩⟩
      historicalSummariesProvider := ⟨default⟩ }
  dataSources := []

theorem verify_returns_iff_forged :
    ¬ (zeroVerifier.verify prefixCrypto .w64 (forged prefixCrypto)).Returns := fun h =>
  (verify_returns_iff prefixCrypto .w64 zeroVerifier List.length_replicate List.length_replicate
    (forged prefixCrypto)).mp h (slotPastRoots_forged _ _)

theorem verify_not_returns :
    ¬ ∀ (c : Crypto) (w : PointerWidth) (v : Verifier) (hwp : HeaderWithProof),
      v.validator.preMergeAcc.historicalEpochs.toList.length = 1897 →
      v.validator.historicalRootsAcc.historicalRoots.toList.length = 758 →
      (v.verify c w hwp).Returns := by
  intro hall
  obtain ⟨msg, hmsg⟩ := verify_forged prefixCrypto .w64 zeroVerifier List.length_replicate
  exact hall prefixCrypto .w64 zeroVerifier (forged prefixCrypto) List.length_replicate
    List.length_replicate msg hmsg

end Verifier

end EthHistorian
