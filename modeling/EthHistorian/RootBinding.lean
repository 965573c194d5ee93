/-
# What a root says about a whole value

A proof shows one field of a value with hundreds of them, and the caller holds the root of all.
What the root is worth is stated here for every kind of value that the crate hashes.

* `treeHashRoot_binds`: blocks and states of one fork, batches of roots, and the accumulators have
  one root only if they are equal, or the two computations hashed two pairs to one value;
* `validateHeaderWithProof_binds_block`: so an accepted proof is about one beacon block, in every
  field, once the chain's commitment is known;
* `verifyMerkleProof_binds_summaries`: and the summaries that are proved to an Electra state root
  are the state's, entry by entry.
-/
import EthHistorian.Encodings
import EthHistorian.Model.Accumulators
import EthHistorian.PostMerge
import EthHistorian.StateProofs

namespace EthHistorian

open Merkle

/-! ## 1. Variants -/

/-- The pairs hashed for a block's root. -/
def BeaconBlock.inputs (c : Crypto) : BeaconBlock → List (B256 × B256)
  | bellatrix b => Commits.inputs c b
  | capella b => Commits.inputs c b
  | deneb b => Commits.inputs c b
  | electra b => Commits.inputs c b

/-- The pairs hashed for a state's root. -/
def BeaconState.inputs (c : Crypto) : BeaconState → List (B256 × B256)
  | bellatrix s => Commits.inputs c s
  | capella s => Commits.inputs c s
  | deneb s => Commits.inputs c s
  | electra s => Commits.inputs c s

/-- The law of a type, for one variant of a larger one. -/
theorem Commits.binds_variant {α β : Type} [TreeHash α] [Commits α] (f : α → β) (c : Crypto)
    {x y : α} (h : treeHashRoot c x = treeHashRoot c y) :
    f x = f y ∨ Collision c.hash32Concat (Commits.inputs c x) (Commits.inputs c y) :=
  (Commits.binds c x y h).imp (congrArg f) id

theorem BeaconBlock.binds (c : Crypto) {b b' : BeaconBlock} (hfork : b.forkName = b'.forkName)
    (h : treeHashRoot c b = treeHashRoot c b') :
    b = b' ∨ Collision c.hash32Concat (b.inputs c) (b'.inputs c) := by
  cases b with
  | bellatrix b =>
    cases b' with
    | bellatrix b' => exact Commits.binds_variant bellatrix c h
    | _ => cases hfork
  | capella b =>
    cases b' with
    | capella b' => exact Commits.binds_variant capella c h
    | _ => cases hfork
  | deneb b =>
    cases b' with
    | deneb b' => exact Commits.binds_variant deneb c h
    | _ => cases hfork
  | electra b =>
    cases b' with
    | electra b' => exact Commits.binds_variant electra c h
    | _ => cases hfork

theorem BeaconState.binds (c : Crypto) {s s' : BeaconState} (hfork : s.forkName = s'.forkName)
    (h : treeHashRoot c s = treeHashRoot c s') :
    s = s' ∨ Collision c.hash32Concat (s.inputs c) (s'.inputs c) := by
  cases s with
  | bellatrix s =>
    cases s' with
    | bellatrix s' => exact Commits.binds_variant bellatrix c h
    | _ => cases hfork
  | capella s =>
    cases s' with
    | capella s' => exact Commits.binds_variant capella c h
    | _ => cases hfork
  | deneb s =>
    cases s' with
    | deneb s' => exact Commits.binds_variant deneb c h
    | _ => cases hfork
  | electra s =>
    cases s' with
    | electra s' => exact Commits.binds_variant electra c h
    | _ => cases hfork

/-- **A root binds the whole value.** -/
theorem treeHashRoot_binds (c : Crypto) :
    (∀ b b' : BeaconBlock, b.forkName = b'.forkName → treeHashRoot c b = treeHashRoot c b' →
      b = b' ∨ Collision c.hash32Concat (b.inputs c) (b'.inputs c)) ∧
    (∀ s s' : BeaconState, s.forkName = s'.forkName → treeHashRoot c s = treeHashRoot c s' →
      s = s' ∨ Collision c.hash32Concat (s.inputs c) (s'.inputs c)) ∧
    (∀ x y : HistoricalBatch, treeHashRoot c x = treeHashRoot c y →
      x = y ∨ Collision c.hash32Concat (Commits.inputs c x) (Commits.inputs c y)) ∧
    (∀ E E' : EpochAccumulator, treeHashRoot c E = treeHashRoot c E' →
      E = E' ∨ Collision c.hash32Concat (Commits.inputs c E) (Commits.inputs c E')) ∧
    ∀ A A' : PreMergeAccumulator, treeHashRoot c A = treeHashRoot c A' →
      A = A' ∨ Collision c.hash32Concat (Commits.inputs c A) (Commits.inputs c A') :=
  ⟨fun _ _ => BeaconBlock.binds c, fun _ _ => BeaconState.binds c, Commits.binds c,
    Commits.binds c, Commits.binds c⟩

/-! ## 2. The beacon block of a proof -/

/-- **An accepted proof is about one beacon block.**  Where the chain's batch is committed to and
has a block's root at the slot, the proof is the honest one for that block, the header's hash is
the block's execution hash, and every block with the root that the proof names is that block. -/
theorem validateHeaderWithProof_binds_block (c : Crypto) (w : PointerWidth) (v : HeaderValidator)
    (hwp : HeaderWithProof) (p : PostMergeProof) (batch : HistoricalBatch) (b : BeaconBlock)
    (hp : hwp.proof.postMerge? = some p) (hok : v.validateHeaderWithProof c w hwp = .ok ())
    (hcommit : v.commitment w p.slot hwp.proof.era = some (hwp.proof.era.root c batch))
    (hroot : batch.blockRoots.toList[p.slot.toNat % 8192]? = some (treeHashRoot c b))
    (hera : b.era = hwp.proof.era) :
    ((hwp.header.hashSlow c = b.blockHash ∧ p = ⟨(b.path c).branch, treeHashRoot c b,
        hwp.proof.era.branch c batch (p.slot.toNat % 8192), p.slot⟩) ∧
      ∀ b' : BeaconBlock, b'.forkName = b.forkName → treeHashRoot c b' = p.beaconBlockRoot →
        b' = b ∨ Collision c.hash32Concat (b'.inputs c) (b.inputs c)) ∨
    Collision c.hash32Concat
      (climbInputs c.hash32Concat hwp.proof.era.executionIndex (hwp.header.hashSlow c)
          p.executionBlockProof ++
        climbInputs c.hash32Concat (hwp.proof.era.beaconIndex (p.slot.toNat % 8192))
          p.beaconBlockRoot p.beaconBlockProof)
      (climbInputs c.hash32Concat hwp.proof.era.executionIndex b.blockHash (b.path c).branch ++
        climbInputs c.hash32Concat (hwp.proof.era.beaconIndex (p.slot.toNat % 8192))
          (chunkAt batch.blockRoots.toList (p.slot.toNat % 8192))
          (hwp.proof.era.branch c batch (p.slot.toNat % 8192))) := by
  obtain ⟨-, hexec, root, hlookup, hbeacon⟩ :=
    (validateHeaderWithProof_postMerge c w v hwp hp).mp hok
  have hslot : p.slot.toNat % 8192 < 8192 := Nat.mod_lt _ (by norm_num)
  obtain ⟨hlenE, hlenB⟩ := BlockHeaderProof.length_postMerge hp c batch (p.slot.toNat % 8192)
  obtain rfl := Option.some.inj (hlookup.symm.trans hcommit)
  rcases beaconProof_binds hslot hlenB hbeacon with ⟨hblock, hbranch⟩ | hcol
  · -- the root that the proof names is the chain's
    have hnamed : p.beaconBlockRoot = treeHashRoot c b := Option.some.inj (hblock.symm.trans hroot)
    rw [hnamed] at hexec
    rcases executionProof_binds hera hlenE hexec with ⟨hhash, hpath⟩ | hcol
    · refine Or.inl ⟨⟨hhash, PostMergeProof.ext hpath hnamed hbranch rfl⟩, fun b' hfork hb' => ?_⟩
      exact BeaconBlock.binds c hfork (hb'.trans hnamed)
    · exact Or.inr (hcol.mono (List.subset_append_left _ _) (List.subset_append_left _ _))
  · exact Or.inr (hcol.mono (List.subset_append_right _ _) (List.subset_append_right _ _))

/-- The block of the merge. -/
theorem validateHeaderWithProof_binds_block_merge :
    mergeHeader.hashSlow prefixCrypto = (BeaconBlock.bellatrix mergeBlock).blockHash ∨
      ∃ S T, Collision prefixCrypto.hash32Concat S T := by
  have hcommit := commitment_of_committed .w64 mergeBlock_committed
  rcases validateHeaderWithProof_binds_block prefixCrypto .w64 mergeValidator
    ⟨mergeHeader, .historicalRoots mergeProof⟩ mergeProof.toPostMerge mergeBatch
    (.bellatrix mergeBlock) rfl mergeProof_accepted hcommit (mergeBatch_root _) rfl with
    ⟨⟨hhash, -⟩, -⟩ | hcol
  · exact Or.inl hhash
  · exact Or.inr ⟨_, _, hcol⟩

/-! ## 3. The summaries of a state -/

/-- **The summaries that are accepted are the state's**, entry by entry, along the branch that the
state builds. -/
theorem verifyMerkleProof_binds_summaries (c : Crypto) (rs : RsMerkle c) (ε : Type)
    (s : BeaconStateElectra) (x : HistoricalSummariesWithProof)
    (h : (verifyMerkleProof c (treeHashRoot c x.historicalSummaries) x.proof.toList
      x.proof.toList.length historicalSummariesGindex (treeHashRoot c s) : Outcome ε Bool)
        = .ok true) :
    ∃ own : HistoricalSummariesProof,
      (BeaconStateElectra.buildHistoricalSummariesProof rs s : Outcome ε _) = .ok own ∧
      ((x.historicalSummaries = s.historicalSummaries ∧ x.proof = own) ∨
        Collision c.hash32Concat
          (Commits.inputs c x.historicalSummaries ++ climbInputs c.hash32Concat
            historicalSummariesGindex (treeHashRoot c x.historicalSummaries) x.proof.toList)
          (Commits.inputs c s.historicalSummaries ++ climbInputs c.hash32Concat
            historicalSummariesGindex (treeHashRoot c s.historicalSummaries) own.toList)) := by
  obtain ⟨own, hown, hbinds⟩ := verifyMerkleProof_historicalSummaries rs ε s h
  refine ⟨own, hown, ?_⟩
  rcases hbinds with ⟨hroot, hproof⟩ | hcol
  · rcases Commits.binds c _ _ hroot with heq | hcol
    · exact Or.inl ⟨heq, hproof⟩
    · exact Or.inr (hcol.mono (List.subset_append_left _ _) (List.subset_append_left _ _))
  · exact Or.inr (hcol.mono (List.subset_append_right _ _) (List.subset_append_right _ _))

/-! The two summaries of a state, sent with the field's branch. -/

theorem length_electraBranch :
    (buildMerkleProofForIndex (rsMerkle prefixCrypto) (electraState.fieldRoots prefixCrypto)
      27).length = 6 := by
  obtain ⟨hx, hd⟩ := BeaconStateElectra.summaries_at prefixCrypto electraState
  exact (verifyMerkleProof_field (rsMerkle prefixCrypto) String hx hd).1

def electraSidecar : HistoricalSummariesWithProof where
  epoch := 364032
  historicalSummaries := twoSummaries
  proof := ⟨_, length_electraBranch⟩

theorem verifyMerkleProof_binds_summaries_two :
    ∃ own : HistoricalSummariesProof,
      (BeaconStateElectra.buildHistoricalSummariesProof (rsMerkle prefixCrypto) electraState
        : Outcome String _) = .ok own ∧
      ((twoSummaries = electraState.historicalSummaries ∧ electraSidecar.proof = own) ∨
        Collision prefixCrypto.hash32Concat
          (Commits.inputs prefixCrypto twoSummaries ++ climbInputs prefixCrypto.hash32Concat
            historicalSummariesGindex (treeHashRoot prefixCrypto twoSummaries)
            electraSidecar.proof.toList)
          (Commits.inputs prefixCrypto electraState.historicalSummaries ++
            climbInputs prefixCrypto.hash32Concat historicalSummariesGindex
              (treeHashRoot prefixCrypto electraState.historicalSummaries) own.toList)) := by
  obtain ⟨hx, hd⟩ := BeaconStateElectra.summaries_at prefixCrypto electraState
  have hverify := (verifyMerkleProof_field (rsMerkle prefixCrypto) String hx hd).2
  exact verifyMerkleProof_binds_summaries prefixCrypto (rsMerkle prefixCrypto) String
    electraState electraSidecar (by rw [electraSidecar.proof.length_eq]; exact hverify)

end EthHistorian
