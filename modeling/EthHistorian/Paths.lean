/-
# The paths of a post-merge proof

A post-merge proof climbs twice: from the execution block hash to the beacon block root, through
payload, body and block (`ExecutionPath`), and from there to an era commitment, through the
vector of an era's block roots (`eraBranch`).  This module says what those paths are for an
honest chain, in terms of trees only, and connects the code to them from both sides:

* `buildExecutionBlockHashProof_eq`, `buildPostMergeProof_eq`: each fork's builder, with its
  hand-written leaf lists, returns exactly the honest paths, and hits none of its length checks;
* `validateHeaderWithProof_postMerge`: the validator accepts exactly when the header is of the
  proof's era, both climbs arrive, and the second arrives at the commitment for the slot.

Completeness and soundness are then statements about climbs and branches (`PostMerge.lean`).
-/
import EthHistorian.Model.BlockProofs
import EthHistorian.Model.HeaderValidator

namespace EthHistorian

open Merkle

/-! ## 1. From the execution block hash to the beacon block root -/

/-- Three trees, each root a leaf of the next: the field roots of an execution payload, of a
block body that holds it, and of a block that holds the body. -/
structure ExecutionPath (c : Crypto) where
  payload : List B256
  body : List B256
  block : List B256
  blockHash : B256
  payloadDepth : ℕ
  blockHash_at : payload[12]? = some blockHash
  payload_at : body[9]? = some (containerRoot c payload)
  body_at : block[4]? = some (containerRoot c body)
  payload_depth : treeDepth payload.length = payloadDepth
  body_depth : treeDepth body.length = 4
  block_depth : treeDepth block.length = 3

namespace ExecutionPath

variable {c : Crypto} (p : ExecutionPath c)

def root : B256 := containerRoot c p.block

def branch : List B256 :=
  Merkle.branch c.hash32Concat p.payloadDepth (chunkAt p.payload) 12 ++
    (Merkle.branch c.hash32Concat 4 (chunkAt p.body) 9 ++
      Merkle.branch c.hash32Concat 3 (chunkAt p.block) 4)

/-- The position of the block hash among the leaves of the three trees, one above the other. -/
def index : ℕ := 2 ^ p.payloadDepth * (2 ^ 4 * 4 + 9) + 12

theorem length_branch : p.branch.length = p.payloadDepth + 7 := by
  simp [branch]

/-- A field and its branch climb to the container's root. -/
theorem climb_container (c : Crypto) {roots : List B256} {i : ℕ} {x : B256}
    (hx : roots[i]? = some x) :
    climb c.hash32Concat i x
        (Merkle.branch c.hash32Concat (treeDepth roots.length) (chunkAt roots) i)
      = containerRoot c roots ∧ i < 2 ^ treeDepth roots.length := by
  obtain ⟨hi, rfl⟩ := List.getElem?_eq_some_iff.mp hx
  have hlt : i < 2 ^ treeDepth roots.length := hi.trans_le (length_le_two_pow_treeDepth _)
  refine ⟨?_, hlt⟩
  rw [containerRoot, merkleize, ← climb_branch _ _ i hlt, chunkAt, leafAt_of_lt hi]

/-- **The honest path arrives.** -/
theorem climb_branch_eq : climb c.hash32Concat p.index p.blockHash p.branch = p.root := by
  obtain ⟨hpayload, hlt⟩ := climb_container c p.blockHash_at
  obtain ⟨hbody, -⟩ := climb_container c p.payload_at
  obtain ⟨hblock, -⟩ := climb_container c p.body_at
  rw [p.payload_depth] at hpayload hlt
  rw [p.body_depth] at hbody
  rw [p.block_depth] at hblock
  rw [branch, index, climb_append_index (branch_length _ _ _) hlt, hpayload,
    climb_append_index (branch_length _ _ _) (by norm_num), hbody, hblock, root]

/-- The three calls of a fork's builder return the honest path. -/
theorem buildMerkleProofs_eq (rs : RsMerkle c) :
    buildMerkleProofForIndex rs p.payload 12 ++ buildMerkleProofForIndex rs p.body 9 ++
      buildMerkleProofForIndex rs p.block 4 = p.branch := by
  obtain ⟨-, hpayload⟩ := climb_container c p.blockHash_at
  obtain ⟨-, hbody⟩ := climb_container c p.payload_at
  obtain ⟨-, hblock⟩ := climb_container c p.body_at
  rw [buildMerkleProofForIndex_eq rs hpayload, buildMerkleProofForIndex_eq rs hbody,
    buildMerkleProofForIndex_eq rs hblock, p.payload_depth, p.body_depth, p.block_depth,
    List.append_assoc, branch]

end ExecutionPath

/-! The path of each fork's block.  The field roots are the derived ones. -/

theorem treeDepth_of_length {roots : List B256} {n d : ℕ} (hlen : roots.length = n)
    (hd : treeDepth n = d) : treeDepth roots.length = d := by
  rw [hlen, hd]

def BeaconBlockBellatrix.path (c : Crypto) (b : BeaconBlockBellatrix) : ExecutionPath c where
  payload := b.body.executionPayload.fieldRoots c
  body := b.body.fieldRoots c
  block := b.fieldRoots c
  blockHash := b.body.executionPayload.blockHash
  payloadDepth := 4
  blockHash_at := rfl
  payload_at := rfl
  body_at := rfl
  payload_depth := treeDepth_of_length (n := 14) rfl (by decide)
  body_depth := treeDepth_of_length (n := 10) rfl (by decide)
  block_depth := treeDepth_of_length (n := 5) rfl (by decide)

def BeaconBlockCapella.path (c : Crypto) (b : BeaconBlockCapella) : ExecutionPath c where
  payload := b.body.executionPayload.fieldRoots c
  body := b.body.fieldRoots c
  block := b.fieldRoots c
  blockHash := b.body.executionPayload.blockHash
  payloadDepth := 4
  blockHash_at := rfl
  payload_at := rfl
  body_at := rfl
  payload_depth := treeDepth_of_length (n := 15) rfl (by decide)
  body_depth := treeDepth_of_length (n := 11) rfl (by decide)
  block_depth := treeDepth_of_length (n := 5) rfl (by decide)

def BeaconBlockDeneb.path (c : Crypto) (b : BeaconBlockDeneb) : ExecutionPath c where
  payload := b.body.executionPayload.fieldRoots c
  body := b.body.fieldRoots c
  block := b.fieldRoots c
  blockHash := b.body.executionPayload.blockHash
  payloadDepth := 5
  blockHash_at := rfl
  payload_at := rfl
  body_at := rfl
  payload_depth := treeDepth_of_length (n := 17) rfl (by decide)
  body_depth := treeDepth_of_length (n := 12) rfl (by decide)
  block_depth := treeDepth_of_length (n := 5) rfl (by decide)

def BeaconBlockElectra.path (c : Crypto) (b : BeaconBlockElectra) : ExecutionPath c where
  payload := b.body.executionPayload.fieldRoots c
  body := b.body.fieldRoots c
  block := b.fieldRoots c
  blockHash := b.body.executionPayload.blockHash
  payloadDepth := 5
  blockHash_at := rfl
  payload_at := rfl
  body_at := rfl
  payload_depth := treeDepth_of_length (n := 17) rfl (by decide)
  body_depth := treeDepth_of_length (n := 13) rfl (by decide)
  block_depth := treeDepth_of_length (n := 5) rfl (by decide)

def BeaconBlock.path (c : Crypto) : BeaconBlock → ExecutionPath c
  | bellatrix b => BeaconBlockBellatrix.path c b
  | capella b => BeaconBlockCapella.path c b
  | deneb b => BeaconBlockDeneb.path c b
  | electra b => BeaconBlockElectra.path c b

/-- The hash of the execution block a beacon block carries. -/
def BeaconBlock.blockHash : BeaconBlock → B256
  | bellatrix b => b.body.executionPayload.blockHash
  | capella b => b.body.executionPayload.blockHash
  | deneb b => b.body.executionPayload.blockHash
  | electra b => b.body.executionPayload.blockHash

theorem BeaconBlock.path_blockHash (c : Crypto) (b : BeaconBlock) :
    (b.path c).blockHash = b.blockHash := by
  cases b <;> rfl

theorem BeaconBlock.path_root (c : Crypto) (b : BeaconBlock) :
    (b.path c).root = treeHashRoot c b := by
  cases b <;> rfl

/-- The era of a block's fork. -/
def BeaconBlock.era : BeaconBlock → Era
  | bellatrix _ => .historicalRoots
  | capella _ => .historicalSummariesCapella
  | deneb _ => .historicalSummariesDeneb
  | electra _ => .historicalSummariesDeneb

/-- The generalized index of the block hash, in the validator's constants. -/
def Era.executionIndex : Era → ℕ
  | .historicalSummariesDeneb => 6444
  | _ => 3228

/-- The length of the path of an era's blocks. -/
def Era.executionDepth : Era → ℕ
  | .historicalSummariesDeneb => 12
  | _ => 11

theorem BeaconBlock.length_path (c : Crypto) (b : BeaconBlock) :
    (b.path c).branch.length = b.era.executionDepth := by
  rw [ExecutionPath.length_branch]
  cases b <;> rfl

/-- The constants are the positions in the forks' trees, with a leading bit that no climb
reads. -/
theorem BeaconBlock.executionIndex_mod (c : Crypto) (b : BeaconBlock) :
    b.era.executionIndex % 2 ^ (b.path c).branch.length = (b.path c).index := by
  have hshallow : 3228 % 2 ^ (4 + 7) = 2 ^ 4 * (2 ^ 4 * 4 + 9) + 12 := by norm_num
  have hdeep : 6444 % 2 ^ (5 + 7) = 2 ^ 5 * (2 ^ 4 * 4 + 9) + 12 := by norm_num
  rw [ExecutionPath.length_branch]
  cases b with
  | bellatrix b => exact hshallow
  | capella b => exact hshallow
  | deneb b => exact hdeep
  | electra b => exact hdeep

/-- **The block hash climbs to the block's root** along the block's own path. -/
theorem BeaconBlock.climb_path (c : Crypto) (b : BeaconBlock) :
    climb c.hash32Concat b.era.executionIndex b.blockHash (b.path c).branch
      = treeHashRoot c b := by
  rw [← climb_mod, b.executionIndex_mod c, ← b.path_blockHash c, ExecutionPath.climb_branch_eq,
    b.path_root c]

/-! ## 2. From the beacon block root to the era's commitment -/

/-- The commitment to an era: to both vectors before Capella, to the block roots after. -/
def Era.root (c : Crypto) (batch : HistoricalBatch) : Era → B256
  | .historicalRoots => treeHashRoot c batch
  | _ => treeHashRoot c batch.blockRoots

/-- The generalized index of the era's `i`-th block root. -/
def Era.beaconIndex (i : ℕ) : Era → ℕ
  | .historicalRoots => 16384 + i
  | _ => 8192 + i

/-- The siblings between the `i`-th block root and the commitment. -/
def Era.branch (c : Crypto) (batch : HistoricalBatch) (i : ℕ) : Era → List B256
  | .historicalRoots =>
    Merkle.branch c.hash32Concat 13 (chunkAt batch.blockRoots.toList) i ++
      [treeHashRoot c batch.stateRoots]
  | _ => Merkle.branch c.hash32Concat 13 (chunkAt batch.blockRoots.toList) i

theorem Era.length_branch (c : Crypto) (batch : HistoricalBatch) (i : ℕ) :
    (Era.historicalRoots.branch c batch i).length = 14 ∧
      (Era.historicalSummariesCapella.branch c batch i).length = 13 ∧
      (Era.historicalSummariesDeneb.branch c batch i).length = 13 := by
  simp [Era.branch]

theorem treeHashRoot_blockRoots (c : Crypto) (v : RootsPerHistoricalRoot) :
    treeHashRoot c v = subtree c.hash32Concat 13 (chunkAt v.toList) := by
  rw [treeHashRoot_fixedVector_b256]
  rfl

theorem chunkAt_of_getElem? {l : List B256} {i : ℕ} {x : B256} (h : l[i]? = some x) :
    chunkAt l i = x := by
  obtain ⟨hi, rfl⟩ := List.getElem?_eq_some_iff.mp h
  exact leafAt_of_lt hi

/-- The honest path of a block root in its era's vector. -/
theorem climb_blockRoots (c : Crypto) (v : RootsPerHistoricalRoot) {i : ℕ} {x : B256}
    (hi : i < 8192) (hx : v.toList[i]? = some x) :
    climb c.hash32Concat i x (Merkle.branch c.hash32Concat 13 (chunkAt v.toList) i)
      = treeHashRoot c v := by
  rw [treeHashRoot_blockRoots, ← climb_branch 13 _ i hi, chunkAt_of_getElem? hx]

/-- **A block root climbs to the commitment of its era.** -/
theorem Era.climb_branch_eq (c : Crypto) (batch : HistoricalBatch) {i : ℕ} {x : B256}
    (hi : i < 8192) (hx : batch.blockRoots.toList[i]? = some x) (era : Era) :
    climb c.hash32Concat (era.beaconIndex i) x (era.branch c batch i) = era.root c batch := by
  have hblock := climb_blockRoots c batch.blockRoots hi hx
  have hsummaries : climb c.hash32Concat (8192 + i) x
      (Merkle.branch c.hash32Concat 13 (chunkAt batch.blockRoots.toList) i)
        = treeHashRoot c batch.blockRoots := by
    rw [← hblock]
    exact @climb_gindex _ c.hash32Concat _ 13 (Merkle.branch_length _ _ _) i x
  cases era with
  | historicalRoots =>
    -- one level above the vector of block roots, whose tree is the left half of the batch's
    have hindex : 16384 + i = 2 ^ 13 * 2 + i := by norm_num
    change climb c.hash32Concat (16384 + i) x _ = treeHashRoot c batch
    rw [hindex, Era.branch, climb_append_index (Merkle.branch_length _ _ _) hi, hblock]
    rfl
  | historicalHashes => exact hsummaries
  | historicalSummariesCapella => exact hsummaries
  | historicalSummariesDeneb => exact hsummaries

/-! ## 3. The proof as two climbs -/

/-- A post-merge proof, without the lengths. -/
@[ext] structure PostMergeProof where
  executionBlockProof : List B256
  beaconBlockRoot : B256
  beaconBlockProof : List B256
  slot : UInt64

def BlockProof.toPostMerge {m n : ℕ} (p : BlockProof m n) : PostMergeProof :=
  ⟨p.executionBlockProof.toList, p.beaconBlockRoot, p.beaconBlockProof.toList, p.slot⟩

def BlockHeaderProof.postMerge? : BlockHeaderProof → Option PostMergeProof
  | historicalHashes _ => none
  | historicalRoots p => some p.toPostMerge
  | historicalSummariesCapella p => some p.toPostMerge
  | historicalSummariesDeneb p => some p.toPostMerge

/-- The types fix the lengths of the two branches, and they are those of the honest paths. -/
theorem BlockHeaderProof.length_postMerge {proof : BlockHeaderProof} {p : PostMergeProof}
    (hp : proof.postMerge? = some p) (c : Crypto) (batch : HistoricalBatch) (i : ℕ) :
    p.executionBlockProof.length = proof.era.executionDepth ∧
      p.beaconBlockProof.length = (proof.era.branch c batch i).length := by
  obtain ⟨h1, h2, h3⟩ := Era.length_branch c batch i
  cases proof with
  | historicalHashes p' => cases hp
  | historicalRoots p' =>
    obtain rfl := Option.some.inj hp
    exact ⟨p'.executionBlockProof.length_eq, p'.beaconBlockProof.length_eq.trans h1.symm⟩
  | historicalSummariesCapella p' =>
    obtain rfl := Option.some.inj hp
    exact ⟨p'.executionBlockProof.length_eq, p'.beaconBlockProof.length_eq.trans h2.symm⟩
  | historicalSummariesDeneb p' =>
    obtain rfl := Option.some.inj hp
    exact ⟨p'.executionBlockProof.length_eq, p'.beaconBlockProof.length_eq.trans h3.symm⟩

/-- The commitment the validator looks up for a slot. -/
def HeaderValidator.commitment (w : PointerWidth) (v : HeaderValidator) (slot : UInt64) :
    Era → Option B256
  | .historicalHashes => none
  | .historicalRoots =>
    v.historicalRootsAcc.historicalRoots.get? (asUsize w (slot / slotsPerHistoricalRoot))
  | _ =>
    match v.historicalSummariesProvider.getHistoricalSummary w slot with
    | .ok historicalSummary => some historicalSummary.blockSummaryRoot
    | .error _ => none

/-- From Capella on it is the root of the summary the provider returns. -/
theorem HeaderValidator.commitment_eq_some {w : PointerWidth} {v : HeaderValidator}
    {slot : UInt64} {era : Era} {root : B256} (hhashes : era ≠ .historicalHashes)
    (hroots : era ≠ .historicalRoots) :
    v.commitment w slot era = some root ↔ ∃ historicalSummary,
      v.historicalSummariesProvider.getHistoricalSummary w slot = .ok historicalSummary ∧
        root = historicalSummary.blockSummaryRoot := by
  have hlookup : v.commitment w slot era
      = match v.historicalSummariesProvider.getHistoricalSummary w slot with
        | .ok historicalSummary => some historicalSummary.blockSummaryRoot
        | .error _ => none := by
    cases era with
    | historicalHashes => exact absurd rfl hhashes
    | historicalRoots => exact absurd rfl hroots
    | historicalSummariesCapella => rfl
    | historicalSummariesDeneb => rfl
  rw [hlookup]
  cases v.historicalSummariesProvider.getHistoricalSummary w slot with
  | error e => simp
  | ok historicalSummary => simp [eq_comm]

theorem Header.number_lt_of_era {h : Header} (hera : h.era = .historicalHashes) :
    h.number.toNat < 15537394 := by
  unfold Header.era at hera
  split at hera
  · cases hera
  split at hera
  · cases hera
  split at hera
  · cases hera
  · omega

theorem Header.era_eq_historicalRoots {h : Header} :
    h.era = .historicalRoots ↔ 15537394 ≤ h.number.toNat ∧ h.timestamp.toNat < 1681338455 := by
  unfold Header.era
  split
  · simp
    omega
  split
  · simp
    omega
  split
  · simp
    omega
  · simp
    omega

theorem Header.era_eq_historicalSummariesCapella {h : Header} :
    h.era = .historicalSummariesCapella ↔
      1681338455 ≤ h.timestamp.toNat ∧ h.timestamp.toNat < 1710338135 := by
  unfold Header.era
  split
  · simp
    omega
  split
  · simp
    omega
  split <;> simp <;> omega

theorem Header.era_eq_historicalSummariesDeneb {h : Header} :
    h.era = .historicalSummariesDeneb ↔ 1710338135 ≤ h.timestamp.toNat := by
  unfold Header.era
  split
  · simp
    omega
  split
  · simp
    omega
  split <;> simp <;> omega

/-- **What the validator accepts, after the merge**: a header of the proof's era, and two climbs
that arrive, the second one at the commitment for the slot. -/
theorem validateHeaderWithProof_postMerge (c : Crypto) (w : PointerWidth) (v : HeaderValidator)
    (hwp : HeaderWithProof) {p : PostMergeProof} (hp : hwp.proof.postMerge? = some p) :
    v.validateHeaderWithProof c w hwp = .ok () ↔
      hwp.header.era = hwp.proof.era ∧
        climb c.hash32Concat hwp.proof.era.executionIndex (hwp.header.hashSlow c)
          p.executionBlockProof = p.beaconBlockRoot ∧
        ∃ root, v.commitment w p.slot hwp.proof.era = some root ∧
          climb c.hash32Concat (hwp.proof.era.beaconIndex (p.slot.toNat % 8192))
            p.beaconBlockRoot p.beaconBlockProof = root := by
  obtain ⟨h, proof⟩ := hwp
  cases proof with
  | historicalHashes p' => cases hp
  | historicalRoots p' =>
    obtain rfl := Option.some.inj hp
    dsimp only [HeaderValidator.validateHeaderWithProof]
    rw [HeaderValidator.verifyMergeToCapellaHeader_eq_ok]
    dsimp only [BlockHeaderProof.era]
    rw [Header.era_eq_historicalRoots, and_assoc]
    rfl
  | historicalSummariesCapella p' =>
    obtain rfl := Option.some.inj hp
    dsimp only [HeaderValidator.validateHeaderWithProof]
    rw [HeaderValidator.verifyCapellaToDenebHeader_eq_ok]
    dsimp only [BlockHeaderProof.era]
    rw [Header.era_eq_historicalSummariesCapella, and_assoc]
    simp [HeaderValidator.commitment_eq_some, Era.executionIndex, Era.beaconIndex,
      BlockProof.toPostMerge]
  | historicalSummariesDeneb p' =>
    obtain rfl := Option.some.inj hp
    dsimp only [HeaderValidator.validateHeaderWithProof]
    rw [HeaderValidator.verifyPostDenebHeader_eq_ok]
    dsimp only [BlockHeaderProof.era]
    rw [Header.era_eq_historicalSummariesDeneb]
    simp [HeaderValidator.commitment_eq_some, Era.executionIndex, Era.beaconIndex,
      BlockProof.toPostMerge]

/-! The same, by the place of the commitment in its list. -/

/-- Which entry of its era's list a slot is in; none for a slot before the list begins. -/
def Era.quotient (slot : UInt64) : Era → Option ℕ
  | .historicalHashes => none
  | .historicalRoots => some (slot.toNat / 8192)
  | _ => if slot.toNat < 6209536 then none else some ((slot.toNat - 6209536) / 8192)

/-- The eras that are checked against the snapshot. -/
def Era.isHistoricalSummaries : Era → Bool
  | historicalHashes => false
  | historicalRoots => false
  | historicalSummariesCapella => true
  | historicalSummariesDeneb => true

/-- The commitments of an era, in order. -/
def HeaderValidator.entries (v : HeaderValidator) : Era → List B256
  | .historicalHashes => v.preMergeAcc.historicalEpochs.toList
  | .historicalRoots => v.historicalRootsAcc.historicalRoots.toList
  | _ => v.historicalSummariesProvider.summaries.toList.map HistoricalSummary.blockSummaryRoot

theorem HeaderValidator.length_entries_le (v : HeaderValidator) (era : Era) :
    (v.entries era).length ≤ 16777216 := by
  have hepochs := v.preMergeAcc.historicalEpochs.length_le
  have hroots := v.historicalRootsAcc.historicalRoots.length_le
  have hsummaries := v.historicalSummariesProvider.summaries.length_le
  cases era <;> simp only [HeaderValidator.entries, List.length_map] <;> omega

theorem asUsize_eq (w : PointerWidth) (x : UInt64) : asUsize w x = x.toNat % 2 ^ w.bits := rfl

/-- The index of a slot's summary, as a number. -/
theorem historicalSummaryIndex_eq_quotient (w : PointerWidth) (slot : UInt64) :
    historicalSummaryIndex w slot
      = (Era.historicalSummariesCapella.quotient slot).map (· % 2 ^ w.bits) := by
  have hcapella : (capellaForkEpoch * slotsPerEpoch).toNat = 6209536 := rfl
  simp only [historicalSummaryIndex, Era.quotient, UInt64.lt_iff_toNat_lt, hcapella]
  split
  · rfl
  · rename_i hge
    have hle : capellaForkEpoch * slotsPerEpoch ≤ slot := by
      rw [UInt64.le_iff_toNat_le, hcapella]
      omega
    rw [Option.map_some, asUsize_eq, HeaderValidator.toNat_div_slotsPerHistoricalRoot,
      UInt64.toNat_sub_of_le _ _ hle, hcapella]

/-- **The commitment of a slot is an entry of its era's list**: the quotient's, cast. -/
theorem HeaderValidator.commitment_eq (w : PointerWidth) (v : HeaderValidator) (slot : UInt64)
    (era : Era) :
    v.commitment w slot era
      = (era.quotient slot).bind fun q => (v.entries era)[q % 2 ^ w.bits]? := by
  have hsummaries : (match v.historicalSummariesProvider.getHistoricalSummary w slot with
        | .ok historicalSummary => some historicalSummary.blockSummaryRoot
        | .error _ => none)
      = (Era.historicalSummariesCapella.quotient slot).bind fun q =>
          (v.entries .historicalSummariesCapella)[q % 2 ^ w.bits]? := by
    rw [HistoricalSummariesProvider.getHistoricalSummary, historicalSummaryIndex_eq_quotient]
    cases Era.historicalSummariesCapella.quotient slot with
    | none => rfl
    | some q =>
      simp only [Option.map_some, Option.bind_some, HeaderValidator.entries,
        List.getElem?_map, VariableList.get?]
      cases v.historicalSummariesProvider.summaries.toList[q % 2 ^ w.bits]? <;> rfl
  cases era with
  | historicalHashes => rfl
  | historicalRoots =>
    simp only [HeaderValidator.commitment, Era.quotient, Option.bind_some, HeaderValidator.entries,
      VariableList.get?, asUsize_eq, HeaderValidator.toNat_div_slotsPerHistoricalRoot]
  | historicalSummariesCapella => exact hsummaries
  | historicalSummariesDeneb => exact hsummaries

/-- The header is of the proof's era, and the first climb arrives. -/
def HeaderWithProof.Arrives (c : Crypto) (hwp : HeaderWithProof) (p : PostMergeProof) : Prop :=
  hwp.header.era = hwp.proof.era ∧
    climb c.hash32Concat hwp.proof.era.executionIndex (hwp.header.hashSlow c)
      p.executionBlockProof = p.beaconBlockRoot

/-- The root the second climb ends at. -/
def HeaderWithProof.eraRoot (c : Crypto) (hwp : HeaderWithProof) (p : PostMergeProof) : B256 :=
  climb c.hash32Concat (hwp.proof.era.beaconIndex (p.slot.toNat % 8192)) p.beaconBlockRoot
    p.beaconBlockProof

theorem validateHeaderWithProof_entry (c : Crypto) (w : PointerWidth) (v : HeaderValidator)
    (hwp : HeaderWithProof) {p : PostMergeProof} (hp : hwp.proof.postMerge? = some p) :
    v.validateHeaderWithProof c w hwp = .ok () ↔
      hwp.Arrives c p ∧ ∃ q, hwp.proof.era.quotient p.slot = some q ∧
        (v.entries hwp.proof.era)[q % 2 ^ w.bits]? = some (hwp.eraRoot c p) := by
  rw [validateHeaderWithProof_postMerge c w v hwp hp, ← and_assoc]
  refine and_congr Iff.rfl ?_
  simp only [HeaderValidator.commitment_eq, Option.bind_eq_some_iff, HeaderWithProof.eraRoot]
  constructor
  · rintro ⟨root, ⟨q, hq, hentry⟩, hclimb⟩
    exact ⟨q, hq, by rw [hentry, hclimb]⟩
  · rintro ⟨q, hq, hentry⟩
    exact ⟨_, ⟨q, hq, hentry⟩, rfl⟩

/-! ## 4. The builders return the honest paths -/

section Builders

variable {c : Crypto} (rs : RsMerkle c) {ε : Type}

theorem buildExecutionBlockHashProof_bellatrix (b : BeaconBlockBellatrix) :
    BeaconBlockBellatrix.buildExecutionBlockHashProof rs b
      = (BeaconBlockBellatrix.path c b).branch :=
  (BeaconBlockBellatrix.path c b).buildMerkleProofs_eq rs

theorem buildExecutionBlockHashProof_capella (b : BeaconBlockCapella) :
    BeaconBlockCapella.buildExecutionBlockHashProof rs b = (BeaconBlockCapella.path c b).branch :=
  (BeaconBlockCapella.path c b).buildMerkleProofs_eq rs

theorem buildExecutionBlockHashProof_deneb (b : BeaconBlockDeneb) :
    BeaconBlockDeneb.buildExecutionBlockHashProof rs b = (BeaconBlockDeneb.path c b).branch :=
  (BeaconBlockDeneb.path c b).buildMerkleProofs_eq rs

theorem buildExecutionBlockHashProof_electra (b : BeaconBlockElectra) :
    BeaconBlockElectra.buildExecutionBlockHashProof rs b = (BeaconBlockElectra.path c b).branch :=
  (BeaconBlockElectra.path c b).buildMerkleProofs_eq rs

/-- The proof of a slot in a vector of block roots. -/
theorem buildMerkleProofForIndex_blockRoots (v : RootsPerHistoricalRoot) {i : ℕ} (hi : i < 8192) :
    buildMerkleProofForIndex rs v.toList i
      = Merkle.branch c.hash32Concat 13 (chunkAt v.toList) i := by
  have hdepth : treeDepth v.toList.length = 13 := treeDepth_of_length v.length_eq (by decide)
  rw [buildMerkleProofForIndex_eq rs (by rw [hdepth]; exact hi), hdepth]

/-- The assertion on the length of the batch's proof holds. -/
theorem buildBlockRootProof_eq (batch : HistoricalBatch) {i : ℕ} (hi : i < 8192) :
    (batch.buildBlockRootProof rs i : Outcome ε (List B256))
      = .ok (Era.historicalRoots.branch c batch i) := by
  have hbranch : buildMerkleProofForIndex rs batch.blockRoots.toList i ++
      [treeHashRoot c batch.stateRoots] = Era.historicalRoots.branch c batch i := by
    rw [buildMerkleProofForIndex_blockRoots rs batch.blockRoots hi]
    rfl
  simp only [HistoricalBatch.buildBlockRootProof]
  rw [hbranch, if_pos (Era.length_branch c batch i).1]

theorem buildHistoricalSummariesProof_eq (w : PointerWidth) {n : ℕ} (tooLong : String)
    (slot : UInt64) (v : RootsPerHistoricalRoot) (root : B256) {path : List B256}
    (hpath : path.length = n) :
    ∃ proof, (buildHistoricalSummariesProof rs w n tooLong slot v root path : Outcome ε _)
        = .ok proof ∧
      proof.toPostMerge = ⟨path, root,
        Merkle.branch c.hash32Concat 13 (chunkAt v.toList) (slot.toNat % 8192), slot⟩ := by
  have hslot : slot.toNat % 8192 < 8192 := Nat.mod_lt _ (by norm_num)
  rw [buildHistoricalSummariesProof, HeaderValidator.asUsize_blockRootIndex,
    buildMerkleProofForIndex_blockRoots rs v hslot,
    FixedVector.new_eq_some (Merkle.branch_length _ _ _), FixedVector.new_eq_some hpath]
  exact ⟨_, rfl, rfl⟩

theorem buildHistoricalRootsProof_eq (w : PointerWidth) (slot : UInt64) (batch : HistoricalBatch)
    (b : BeaconBlockBellatrix) :
    ∃ proof, (buildHistoricalRootsProof rs w slot batch b : Outcome ε _) = .ok proof ∧
      proof.toPostMerge = ⟨(BeaconBlockBellatrix.path c b).branch, treeHashRoot c b,
        Era.historicalRoots.branch c batch (slot.toNat % 8192), slot⟩ := by
  have hslot : slot.toNat % 8192 < 8192 := Nat.mod_lt _ (by norm_num)
  have hlen : (BeaconBlockBellatrix.path c b).branch.length = 11 := ExecutionPath.length_branch _
  rw [buildHistoricalRootsProof, HeaderValidator.asUsize_blockRootIndex,
    buildBlockRootProof_eq rs batch hslot, Outcome.ok_bind,
    FixedVector.new_eq_some (Era.length_branch c batch _).1,
    buildExecutionBlockHashProof_bellatrix rs b, FixedVector.new_eq_some hlen]
  exact ⟨_, rfl, rfl⟩

theorem buildCapellaHistoricalSummariesProof_eq (w : PointerWidth) (slot : UInt64)
    (v : RootsPerHistoricalRoot) (b : BeaconBlockCapella) :
    ∃ proof, (buildCapellaHistoricalSummariesProof rs w slot v b : Outcome ε _) = .ok proof ∧
      proof.toPostMerge = ⟨(BeaconBlockCapella.path c b).branch, treeHashRoot c b,
        Merkle.branch c.hash32Concat 13 (chunkAt v.toList) (slot.toNat % 8192), slot⟩ := by
  have hlen : (BeaconBlockCapella.path c b).branch.length = 11 := ExecutionPath.length_branch _
  rw [buildCapellaHistoricalSummariesProof, buildExecutionBlockHashProof_capella]
  exact buildHistoricalSummariesProof_eq rs w _ slot v _ hlen

theorem buildDenebHistoricalSummariesProof_eq (w : PointerWidth) (slot : UInt64)
    (v : RootsPerHistoricalRoot) (b : BeaconBlockDeneb) :
    ∃ proof, (buildDenebHistoricalSummariesProof rs w slot v b : Outcome ε _) = .ok proof ∧
      proof.toPostMerge = ⟨(BeaconBlockDeneb.path c b).branch, treeHashRoot c b,
        Merkle.branch c.hash32Concat 13 (chunkAt v.toList) (slot.toNat % 8192), slot⟩ := by
  have hlen : (BeaconBlockDeneb.path c b).branch.length = 12 := ExecutionPath.length_branch _
  rw [buildDenebHistoricalSummariesProof, buildExecutionBlockHashProof_deneb]
  exact buildHistoricalSummariesProof_eq rs w _ slot v _ hlen

theorem buildElectraHistoricalSummariesProof_eq (w : PointerWidth) (slot : UInt64)
    (v : RootsPerHistoricalRoot) (b : BeaconBlockElectra) :
    ∃ proof, (buildElectraHistoricalSummariesProof rs w slot v b : Outcome ε _) = .ok proof ∧
      proof.toPostMerge = ⟨(BeaconBlockElectra.path c b).branch, treeHashRoot c b,
        Merkle.branch c.hash32Concat 13 (chunkAt v.toList) (slot.toNat % 8192), slot⟩ := by
  have hlen : (BeaconBlockElectra.path c b).branch.length = 12 := ExecutionPath.length_branch _
  rw [buildElectraHistoricalSummariesProof, buildExecutionBlockHashProof_electra]
  exact buildHistoricalSummariesProof_eq rs w _ slot v _ hlen

/-- **The builders are total**, and return the block's path and the slot's path. -/
theorem buildPostMergeProof_eq (w : PointerWidth) (slot : UInt64) (batch : HistoricalBatch)
    (b : BeaconBlock) :
    ∃ proof, (buildPostMergeProof rs w slot batch b : Outcome ε _) = .ok proof ∧
      proof.era = b.era ∧ proof.postMerge? = some ⟨(b.path c).branch, treeHashRoot c b,
        b.era.branch c batch (slot.toNat % 8192), slot⟩ := by
  cases b with
  | bellatrix b =>
    obtain ⟨proof, hproof, hpost⟩ := buildHistoricalRootsProof_eq rs (ε := ε) w slot batch b
    refine ⟨.historicalRoots proof, ?_, rfl, congrArg some hpost⟩
    rw [buildPostMergeProof, hproof]
    rfl
  | capella b =>
    obtain ⟨proof, hproof, hpost⟩ :=
      buildCapellaHistoricalSummariesProof_eq rs (ε := ε) w slot batch.blockRoots b
    refine ⟨.historicalSummariesCapella proof, ?_, rfl, congrArg some hpost⟩
    rw [buildPostMergeProof, hproof]
    rfl
  | deneb b =>
    obtain ⟨proof, hproof, hpost⟩ :=
      buildDenebHistoricalSummariesProof_eq rs (ε := ε) w slot batch.blockRoots b
    refine ⟨.historicalSummariesDeneb proof, ?_, rfl, congrArg some hpost⟩
    rw [buildPostMergeProof, hproof]
    rfl
  | electra b =>
    obtain ⟨proof, hproof, hpost⟩ :=
      buildElectraHistoricalSummariesProof_eq rs (ε := ε) w slot batch.blockRoots b
    refine ⟨.historicalSummariesDeneb proof, ?_, rfl, congrArg some hpost⟩
    rw [buildPostMergeProof, hproof]
    rfl

end Builders

end EthHistorian
