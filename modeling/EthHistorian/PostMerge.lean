/-
# Post-merge proofs: complete and sound

The builders and the validator are written apart: four hand-copied lists of fields on one side,
hard-coded generalized indices on the other.  For all four forks, and every slot:

* `buildPostMergeProof_accepted`: what a builder returns is accepted, whenever the era's
  commitment is the one the chain makes, and no builder aborts;
* `validateHeaderWithProof_binds`: what is accepted is what a builder would have returned.  The
  beacon block root an attacker puts between the two climbs is the chain's root of the slot, the
  header's hash is the execution block hash of that beacon block, and both branches are the
  honest ones -- or the two climbs exhibit a collision of SHA-256 with the honest ones.
-/
import EthHistorian.Paths

namespace EthHistorian

open Merkle

/-! ## 1. The commitment for a slot -/

/-- The chain's commitment to the era of a slot is where the validator's lists say it is. -/
def BeaconBlock.Committed (c : Crypto) (v : HeaderValidator) (slot : UInt64)
    (batch : HistoricalBatch) : BeaconBlock → Prop
  | bellatrix _ =>
    v.historicalRootsAcc.historicalRoots.toList[slot.toNat / 8192]?
      = some (treeHashRoot c batch)
  | _ => 6209536 ≤ slot.toNat ∧ ∃ historicalSummary,
    v.historicalSummariesProvider.summaries.toList[(slot.toNat - 6209536) / 8192]?
      = some historicalSummary ∧
    historicalSummary.blockSummaryRoot = treeHashRoot c batch.blockRoots

theorem historicalSummaryIndex_eq (w : PointerWidth) {slot : UInt64}
    (hs : 6209536 ≤ slot.toNat) (hi : (slot.toNat - 6209536) / 8192 < 2 ^ 32) :
    historicalSummaryIndex w slot = some ((slot.toNat - 6209536) / 8192) := by
  have hcapella : (capellaForkEpoch * slotsPerEpoch).toNat = 6209536 := rfl
  have hle : capellaForkEpoch * slotsPerEpoch ≤ slot := by
    rw [UInt64.le_iff_toNat_le, hcapella]
    exact hs
  have hdiv : ((slot - capellaForkEpoch * slotsPerEpoch) / slotsPerHistoricalRoot).toNat
      = (slot.toNat - 6209536) / 8192 := by
    rw [HeaderValidator.toNat_div_slotsPerHistoricalRoot, UInt64.toNat_sub_of_le _ _ hle, hcapella]
  simp only [historicalSummaryIndex]
  rw [if_neg (UInt64.not_lt.mpr hle), asUsize_of_lt (by rw [hdiv]; exact hi), hdiv]

/-- The list is short enough for every pointer width, so the validator finds a summary there. -/
theorem getHistoricalSummary_of_getElem? (w : PointerWidth) {p : HistoricalSummariesProvider}
    {slot : UInt64} {historicalSummary : HistoricalSummary} (hs : 6209536 ≤ slot.toNat)
    (hget : p.summaries.toList[(slot.toNat - 6209536) / 8192]? = some historicalSummary) :
    p.getHistoricalSummary w slot = .ok historicalSummary := by
  have hlt := (List.getElem?_eq_some_iff.mp hget).1
  have hle := p.summaries.length_le
  rw [HistoricalSummariesProvider.getHistoricalSummary,
    historicalSummaryIndex_eq w hs (by omega)]
  dsimp only [VariableList.get?]
  rw [hget]

/-- So it finds the commitment of an era. -/
theorem commitment_of_committed {c : Crypto} (w : PointerWidth) {v : HeaderValidator}
    {slot : UInt64} {batch : HistoricalBatch} {b : BeaconBlock}
    (h : b.Committed c v slot batch) :
    v.commitment w slot b.era = some (b.era.root c batch) := by
  cases b with
  | bellatrix b =>
    have hlt := (List.getElem?_eq_some_iff.mp h).1
    have hle := v.historicalRootsAcc.historicalRoots.length_le
    have hdiv := HeaderValidator.toNat_div_slotsPerHistoricalRoot slot
    have hcast : asUsize w (slot / slotsPerHistoricalRoot) = slot.toNat / 8192 := by
      rw [asUsize_of_lt (by omega), hdiv]
    change v.historicalRootsAcc.historicalRoots.toList[
      asUsize w (slot / slotsPerHistoricalRoot)]? = some (treeHashRoot c batch)
    rw [hcast]
    exact h
  | capella b =>
    obtain ⟨hs, historicalSummary, hget, hroot⟩ := h
    have hfound := getHistoricalSummary_of_getElem? w hs hget
    simp only [BeaconBlock.era, HeaderValidator.commitment, hfound, Era.root, hroot]
  | deneb b =>
    obtain ⟨hs, historicalSummary, hget, hroot⟩ := h
    have hfound := getHistoricalSummary_of_getElem? w hs hget
    simp only [BeaconBlock.era, HeaderValidator.commitment, hfound, Era.root, hroot]
  | electra b =>
    obtain ⟨hs, historicalSummary, hget, hroot⟩ := h
    have hfound := getHistoricalSummary_of_getElem? w hs hget
    simp only [BeaconBlock.era, HeaderValidator.commitment, hfound, Era.root, hroot]

/-! ## 2. Completeness -/

/-- An honest proof in the validator's terms. -/
theorem validateHeaderWithProof_honest {c : Crypto} (w : PointerWidth) (v : HeaderValidator)
    {slot : UInt64} {batch : HistoricalBatch} {b : BeaconBlock} {h : Header}
    {proof : BlockHeaderProof}
    (hroot : batch.blockRoots.toList[slot.toNat % 8192]? = some (treeHashRoot c b))
    (hhash : h.hashSlow c = b.blockHash) (hera : h.era = b.era) (hpera : proof.era = b.era)
    (hpost : proof.postMerge? = some ⟨(b.path c).branch, treeHashRoot c b,
      b.era.branch c batch (slot.toNat % 8192), slot⟩) (hcommit : b.Committed c v slot batch) :
    v.validateHeaderWithProof c w ⟨h, proof⟩ = .ok () := by
  have hslot : slot.toNat % 8192 < 8192 := Nat.mod_lt _ (by norm_num)
  refine (validateHeaderWithProof_postMerge c w v ⟨h, proof⟩ hpost).mpr ⟨?_, ?_, ?_⟩
  · rw [hera, hpera]
  · rw [hpera, hhash]
    exact b.climb_path c
  · rw [hpera]
    exact ⟨_, commitment_of_committed w hcommit, Era.climb_branch_eq c batch hslot hroot b.era⟩

/-- **Builders and validator agree**, for the four forks. -/
theorem buildPostMergeProof_accepted {c : Crypto} (rs : RsMerkle c) (w : PointerWidth)
    (v : HeaderValidator) (slot : UInt64) (batch : HistoricalBatch) (b : BeaconBlock) (h : Header)
    (hroot : batch.blockRoots.toList[slot.toNat % 8192]? = some (treeHashRoot c b))
    (hhash : h.hashSlow c = b.blockHash) (hera : h.era = b.era) :
    ∃ proof, (buildPostMergeProof rs w slot batch b : Outcome String _) = .ok proof ∧
      (b.Committed c v slot batch → v.validateHeaderWithProof c w ⟨h, proof⟩ = .ok ()) := by
  obtain ⟨proof, hproof, hpera, hpost⟩ := buildPostMergeProof_eq rs (ε := String) w slot batch b
  exact ⟨proof, hproof, validateHeaderWithProof_honest w v hroot hhash hera hpera hpost⟩

/-! A chain of one block: the first one after the merge, in every slot of its era. -/

def mergeHeader : Header :=
  { (default : Header) with number := 15537394, timestamp := 1663224179 }

def mergeBlock : BeaconBlockBellatrix :=
  { (default : BeaconBlockBellatrix) with
    slot := 4700013
    body :=
      { (default : BeaconBlockBodyBellatrix) with
        executionPayload :=
          { (default : ExecutionPayloadBellatrix) with
            blockHash := mergeHeader.hashSlow prefixCrypto } } }

def mergeBatch : HistoricalBatch where
  blockRoots := ⟨List.replicate 8192 (treeHashRoot prefixCrypto mergeBlock), List.length_replicate⟩
  stateRoots := default

def mergeValidator : HeaderValidator where
  preMergeAcc := ⟨default⟩
  historicalRootsAcc := ⟨⟨List.replicate 758 (treeHashRoot prefixCrypto mergeBatch), by
    rw [List.length_replicate]
    norm_num⟩⟩
  historicalSummariesProvider := ⟨default⟩

theorem mergeBatch_root (slot : UInt64) :
    mergeBatch.blockRoots.toList[slot.toNat % 8192]?
      = some (treeHashRoot prefixCrypto (BeaconBlock.bellatrix mergeBlock)) := by
  have hslot : slot.toNat % 8192 < 8192 := Nat.mod_lt _ (by norm_num)
  rw [mergeBatch, List.getElem?_replicate, if_pos hslot]
  rfl

theorem mergeBlock_committed :
    (BeaconBlock.bellatrix mergeBlock).Committed prefixCrypto mergeValidator 4700013
      mergeBatch := by
  rw [BeaconBlock.Committed, mergeValidator, List.getElem?_replicate]
  exact if_pos (by decide)

theorem buildPostMergeProof_accepted_merge :
    ∃ proof, (buildPostMergeProof (rsMerkle prefixCrypto) .w64 4700013 mergeBatch
        (.bellatrix mergeBlock) : Outcome String _) = .ok proof ∧
      mergeValidator.validateHeaderWithProof prefixCrypto .w64 ⟨mergeHeader, proof⟩
        = .ok () := by
  obtain ⟨proof, hproof, haccepted⟩ := buildPostMergeProof_accepted (rsMerkle prefixCrypto) .w64
    mergeValidator 4700013 mergeBatch (.bellatrix mergeBlock) mergeHeader (mergeBatch_root _) rfl
    (by decide)
  exact ⟨proof, hproof, haccepted mergeBlock_committed⟩

/-! ## 3. Soundness -/

/-- A climb to an era's commitment starts at the batch's root of the slot, along its branch. -/
theorem beaconProof_binds {c : Crypto} {era : Era} {batch : HistoricalBatch} {i : ℕ}
    (hi : i < 8192) {root : B256} {path : List B256}
    (hlen : path.length = (era.branch c batch i).length)
    (h : climb c.hash32Concat (era.beaconIndex i) root path = era.root c batch) :
    (batch.blockRoots.toList[i]? = some root ∧ path = era.branch c batch i) ∨
      Collision c.hash32Concat (climbInputs c.hash32Concat (era.beaconIndex i) root path)
        (climbInputs c.hash32Concat (era.beaconIndex i) (chunkAt batch.blockRoots.toList i)
          (era.branch c batch i)) := by
  have hlt : i < batch.blockRoots.toList.length := by
    rw [batch.blockRoots.length_eq]
    exact hi
  have hleaf : batch.blockRoots.toList[i]? = some (chunkAt batch.blockRoots.toList i) := by
    rw [chunkAt, leafAt_of_lt hlt]
    exact List.getElem?_eq_getElem hlt
  have hhonest := Era.climb_branch_eq c batch hi hleaf era
  rcases climb_binding _ _ _ _ _ hlen (h.trans hhonest.symm) with ⟨hx, hss⟩ | hcol
  · exact Or.inl ⟨by rw [hleaf, hx], hss⟩
  · exact Or.inr hcol

/-- A climb to a beacon block's root starts at the block's execution hash, along its path. -/
theorem executionProof_binds {c : Crypto} {era : Era} {b : BeaconBlock} (hera : b.era = era)
    {hash : B256} {path : List B256} (hlen : path.length = era.executionDepth)
    (h : climb c.hash32Concat era.executionIndex hash path = treeHashRoot c b) :
    (hash = b.blockHash ∧ path = (b.path c).branch) ∨
      Collision c.hash32Concat (climbInputs c.hash32Concat era.executionIndex hash path)
        (climbInputs c.hash32Concat era.executionIndex b.blockHash (b.path c).branch) := by
  have hhonest := b.climb_path c
  rw [hera] at hhonest
  have hlen' : path.length = (b.path c).branch.length := by
    rw [b.length_path c, hera, hlen]
  exact climb_binding _ _ _ _ _ hlen' (h.trans hhonest.symm)

/-- **Acceptance binds the header to the slot.**  The commitment is the one the validator looks
up for the proof's slot.  Each half either says so, or exhibits two different pairs with one
hash: one pair that the validator hashed, and one on the honest path. -/
theorem validateHeaderWithProof_binds (c : Crypto) (w : PointerWidth) (v : HeaderValidator)
    (hwp : HeaderWithProof) (p : PostMergeProof) (hp : hwp.proof.postMerge? = some p)
    (hok : v.validateHeaderWithProof c w hwp = .ok ()) :
    (∀ batch : HistoricalBatch,
      v.commitment w p.slot hwp.proof.era = some (hwp.proof.era.root c batch) →
        (batch.blockRoots.toList[p.slot.toNat % 8192]? = some p.beaconBlockRoot ∧
          p.beaconBlockProof = hwp.proof.era.branch c batch (p.slot.toNat % 8192)) ∨
        Collision c.hash32Concat
          (climbInputs c.hash32Concat (hwp.proof.era.beaconIndex (p.slot.toNat % 8192))
            p.beaconBlockRoot p.beaconBlockProof)
          (climbInputs c.hash32Concat (hwp.proof.era.beaconIndex (p.slot.toNat % 8192))
            (chunkAt batch.blockRoots.toList (p.slot.toNat % 8192))
            (hwp.proof.era.branch c batch (p.slot.toNat % 8192)))) ∧
    ∀ b : BeaconBlock, b.era = hwp.proof.era → treeHashRoot c b = p.beaconBlockRoot →
      (hwp.header.hashSlow c = b.blockHash ∧ p.executionBlockProof = (b.path c).branch) ∨
      Collision c.hash32Concat
        (climbInputs c.hash32Concat hwp.proof.era.executionIndex (hwp.header.hashSlow c)
          p.executionBlockProof)
        (climbInputs c.hash32Concat hwp.proof.era.executionIndex b.blockHash
          (b.path c).branch) := by
  obtain ⟨-, hexec, root, hroot, hbeacon⟩ :=
    (validateHeaderWithProof_postMerge c w v hwp hp).mp hok
  refine ⟨fun batch hcommit => ?_, fun b hera hb => ?_⟩
  · have hslot : p.slot.toNat % 8192 < 8192 := Nat.mod_lt _ (by norm_num)
    obtain ⟨-, hlen⟩ := BlockHeaderProof.length_postMerge hp c batch (p.slot.toNat % 8192)
    obtain rfl := Option.some.inj (hroot.symm.trans hcommit)
    exact beaconProof_binds hslot hlen hbeacon
  · obtain ⟨hlen, -⟩ := BlockHeaderProof.length_postMerge hp c default 0
    exact executionProof_binds hera hlen (hexec.trans hb.symm)

/-- The proof the builder returns for the block of the merge. -/
def mergeProof : BlockProofHistoricalRoots where
  beaconBlockProof := ⟨Era.historicalRoots.branch prefixCrypto mergeBatch (4700013 % 8192),
    (Era.length_branch prefixCrypto mergeBatch _).1⟩
  beaconBlockRoot := treeHashRoot prefixCrypto mergeBlock
  executionBlockProof := ⟨(BeaconBlockBellatrix.path prefixCrypto mergeBlock).branch,
    ExecutionPath.length_branch _⟩
  slot := 4700013

theorem mergeProof_accepted :
    mergeValidator.validateHeaderWithProof prefixCrypto .w64
      ⟨mergeHeader, .historicalRoots mergeProof⟩ = .ok () :=
  validateHeaderWithProof_honest .w64 mergeValidator (b := .bellatrix mergeBlock)
    (mergeBatch_root 4700013) rfl (by decide) rfl rfl mergeBlock_committed

theorem validateHeaderWithProof_binds_merge :
    ((mergeBatch.blockRoots.toList[5997]? = some mergeProof.beaconBlockRoot ∧
        mergeProof.toPostMerge.beaconBlockProof
          = Era.historicalRoots.branch prefixCrypto mergeBatch 5997) ∨
      Collision prefixCrypto.hash32Concat
        (climbInputs prefixCrypto.hash32Concat (Era.historicalRoots.beaconIndex 5997)
          mergeProof.beaconBlockRoot mergeProof.toPostMerge.beaconBlockProof)
        (climbInputs prefixCrypto.hash32Concat (Era.historicalRoots.beaconIndex 5997)
          (chunkAt mergeBatch.blockRoots.toList 5997)
          (Era.historicalRoots.branch prefixCrypto mergeBatch 5997))) ∧
    ((mergeHeader.hashSlow prefixCrypto = (BeaconBlock.bellatrix mergeBlock).blockHash ∧
        mergeProof.toPostMerge.executionBlockProof
          = ((BeaconBlock.bellatrix mergeBlock).path prefixCrypto).branch) ∨
      Collision prefixCrypto.hash32Concat
        (climbInputs prefixCrypto.hash32Concat 3228 (mergeHeader.hashSlow prefixCrypto)
          mergeProof.toPostMerge.executionBlockProof)
        (climbInputs prefixCrypto.hash32Concat 3228 (BeaconBlock.bellatrix mergeBlock).blockHash
          ((BeaconBlock.bellatrix mergeBlock).path prefixCrypto).branch)) := by
  have hslot : mergeProof.toPostMerge.slot.toNat % 8192 = 5997 := by decide
  obtain ⟨hbeacon, hexec⟩ := validateHeaderWithProof_binds prefixCrypto .w64 mergeValidator
    ⟨mergeHeader, .historicalRoots mergeProof⟩ mergeProof.toPostMerge rfl mergeProof_accepted
  have hcommit := commitment_of_committed .w64 mergeBlock_committed
  have hat := hbeacon mergeBatch hcommit
  rw [hslot] at hat
  exact ⟨hat, hexec (.bellatrix mergeBlock) rfl rfl⟩

end EthHistorian
