/-
# Building post-merge proofs

The four `build_*_proof` functions of `header_with_proof.rs` and the helpers they call on a
block, its body and its payload.  Each helper writes its own list of field roots, pads it to a
power of two and asks `rs_merkle` for one branch; the lists below are those of the source, fork
by fork, and do not refer to the derived tree hash.

`rs_merkle` is a crate of its own, so it is a parameter (`RsMerkle`): on a full tree it returns
the branch of the leaf, leaf end first.  `rsMerkle` is such a function.
-/
import EthHistorian.Model.Consensus
import EthHistorian.Model.HeaderWithProof

namespace EthHistorian

open Merkle

/-! ## 1. One branch -/

/-- `rs_merkle::MerkleTree::<Sha256>::from_leaves(..).proof(&[i]).proof_hashes()`. -/
structure RsMerkle (c : Crypto) where
  proofHashes : List B256 → ℕ → List B256
  /-- On a full tree, the proof is the leaf's branch. -/
  proofHashes_eq : ∀ (d : ℕ) (leaves : List B256) (i : ℕ), leaves.length = 2 ^ d → i < 2 ^ d →
    proofHashes leaves i = branch c.hash32Concat d (chunkAt leaves) i

/-- A function with this property. -/
def rsMerkle (c : Crypto) : RsMerkle c where
  proofHashes leaves i := branch c.hash32Concat (treeDepth leaves.length) (chunkAt leaves) i
  proofHashes_eq := by
    intro d leaves i hlen _
    rw [hlen, treeDepth_pow]

/-- What `rs_merkle` does on a full tree: it keeps the layers, and lists the sibling on each of
them, leaves first. -/
def ListsSiblings (c : Crypto) (proofHashes : List B256 → ℕ → List B256) : Prop :=
  ∀ (d : ℕ) (leaves : List B256) (i : ℕ), leaves.length = 2 ^ d → i < 2 ^ d →
    proofHashes leaves i = layerBranch c.hash32Concat d leaves i

theorem ListsSiblings.branch {c : Crypto} {proofHashes : List B256 → ℕ → List B256}
    (h : ListsSiblings c proofHashes) (d : ℕ) (leaves : List B256) (i : ℕ)
    (hlen : leaves.length = 2 ^ d) (hi : i < 2 ^ d) :
    proofHashes leaves i = branch c.hash32Concat d (chunkAt leaves) i :=
  (h d leaves i hlen hi).trans (layerBranch_eq _ hlen hi)

def RsMerkle.ofLayers {c : Crypto} {proofHashes : List B256 → ℕ → List B256}
    (h : ListsSiblings c proofHashes) : RsMerkle c where
  proofHashes := proofHashes
  proofHashes_eq := h.branch

/-- `usize::next_power_of_two`. -/
def nextPowerOfTwo (n : ℕ) : ℕ := 2 ^ Nat.clog 2 n

variable {c : Crypto} (rs : RsMerkle c)

def buildMerkleProofForIndex (leaves : List B256) (indexToProve : ℕ) : List B256 :=
  let fullTreeLen := nextPowerOfTwo leaves.length
  let leaves := (leaves ++ List.replicate fullTreeLen (FixedBytes.zero 32)).take fullTreeLen
  rs.proofHashes leaves indexToProve

/-! ## 2. Payloads, bodies, blocks -/

def ExecutionPayloadBellatrix.buildBlockHashProof (p : ExecutionPayloadBellatrix) : List B256 :=
  let leaves :=
    [treeHashRoot c p.parentHash, treeHashRoot c p.feeRecipient, treeHashRoot c p.stateRoot,
      treeHashRoot c p.receiptsRoot, treeHashRoot c p.logsBloom, treeHashRoot c p.prevRandao,
      treeHashRoot c p.blockNumber, treeHashRoot c p.gasLimit, treeHashRoot c p.gasUsed,
      treeHashRoot c p.timestamp, treeHashRoot c p.extraData, treeHashRoot c p.baseFeePerGas,
      treeHashRoot c p.blockHash, treeHashRoot c p.transactions]
  buildMerkleProofForIndex rs leaves 12

def ExecutionPayloadCapella.buildBlockHashProof (p : ExecutionPayloadCapella) : List B256 :=
  let leaves :=
    [treeHashRoot c p.parentHash, treeHashRoot c p.feeRecipient, treeHashRoot c p.stateRoot,
      treeHashRoot c p.receiptsRoot, treeHashRoot c p.logsBloom, treeHashRoot c p.prevRandao,
      treeHashRoot c p.blockNumber, treeHashRoot c p.gasLimit, treeHashRoot c p.gasUsed,
      treeHashRoot c p.timestamp, treeHashRoot c p.extraData, treeHashRoot c p.baseFeePerGas,
      treeHashRoot c p.blockHash, treeHashRoot c p.transactions, treeHashRoot c p.withdrawals]
  buildMerkleProofForIndex rs leaves 12

def ExecutionPayloadDeneb.buildBlockHashProof (p : ExecutionPayloadDeneb) : List B256 :=
  let leaves :=
    [treeHashRoot c p.parentHash, treeHashRoot c p.feeRecipient, treeHashRoot c p.stateRoot,
      treeHashRoot c p.receiptsRoot, treeHashRoot c p.logsBloom, treeHashRoot c p.prevRandao,
      treeHashRoot c p.blockNumber, treeHashRoot c p.gasLimit, treeHashRoot c p.gasUsed,
      treeHashRoot c p.timestamp, treeHashRoot c p.extraData, treeHashRoot c p.baseFeePerGas,
      treeHashRoot c p.blockHash, treeHashRoot c p.transactions, treeHashRoot c p.withdrawals,
      treeHashRoot c p.blobGasUsed, treeHashRoot c p.excessBlobGas]
  buildMerkleProofForIndex rs leaves 12

def ExecutionPayloadElectra.buildBlockHashProof (p : ExecutionPayloadElectra) : List B256 :=
  let leaves :=
    [treeHashRoot c p.parentHash, treeHashRoot c p.feeRecipient, treeHashRoot c p.stateRoot,
      treeHashRoot c p.receiptsRoot, treeHashRoot c p.logsBloom, treeHashRoot c p.prevRandao,
      treeHashRoot c p.blockNumber, treeHashRoot c p.gasLimit, treeHashRoot c p.gasUsed,
      treeHashRoot c p.timestamp, treeHashRoot c p.extraData, treeHashRoot c p.baseFeePerGas,
      treeHashRoot c p.blockHash, treeHashRoot c p.transactions, treeHashRoot c p.withdrawals,
      treeHashRoot c p.blobGasUsed, treeHashRoot c p.excessBlobGas]
  buildMerkleProofForIndex rs leaves 12

def BeaconBlockBodyBellatrix.buildExecutionPayloadProof (b : BeaconBlockBodyBellatrix) :
    List B256 :=
  let leaves :=
    [treeHashRoot c b.randaoReveal, treeHashRoot c b.eth1Data, treeHashRoot c b.graffiti,
      treeHashRoot c b.proposerSlashings, treeHashRoot c b.attesterSlashings,
      treeHashRoot c b.attestations, treeHashRoot c b.deposits, treeHashRoot c b.voluntaryExits,
      treeHashRoot c b.syncAggregate, treeHashRoot c b.executionPayload]
  buildMerkleProofForIndex rs leaves 9

def BeaconBlockBodyCapella.buildExecutionPayloadProof (b : BeaconBlockBodyCapella) :
    List B256 :=
  let leaves :=
    [treeHashRoot c b.randaoReveal, treeHashRoot c b.eth1Data, treeHashRoot c b.graffiti,
      treeHashRoot c b.proposerSlashings, treeHashRoot c b.attesterSlashings,
      treeHashRoot c b.attestations, treeHashRoot c b.deposits, treeHashRoot c b.voluntaryExits,
      treeHashRoot c b.syncAggregate, treeHashRoot c b.executionPayload,
      treeHashRoot c b.blsToExecutionChanges]
  buildMerkleProofForIndex rs leaves 9

def BeaconBlockBodyDeneb.buildExecutionPayloadProof (b : BeaconBlockBodyDeneb) : List B256 :=
  let leaves :=
    [treeHashRoot c b.randaoReveal, treeHashRoot c b.eth1Data, treeHashRoot c b.graffiti,
      treeHashRoot c b.proposerSlashings, treeHashRoot c b.attesterSlashings,
      treeHashRoot c b.attestations, treeHashRoot c b.deposits, treeHashRoot c b.voluntaryExits,
      treeHashRoot c b.syncAggregate, treeHashRoot c b.executionPayload,
      treeHashRoot c b.blsToExecutionChanges, treeHashRoot c b.blobKzgCommitments]
  buildMerkleProofForIndex rs leaves 9

def BeaconBlockBodyElectra.buildExecutionPayloadProof (b : BeaconBlockBodyElectra) :
    List B256 :=
  let leaves :=
    [treeHashRoot c b.randaoReveal, treeHashRoot c b.eth1Data, treeHashRoot c b.graffiti,
      treeHashRoot c b.proposerSlashings, treeHashRoot c b.attesterSlashings,
      treeHashRoot c b.attestations, treeHashRoot c b.deposits, treeHashRoot c b.voluntaryExits,
      treeHashRoot c b.syncAggregate, treeHashRoot c b.executionPayload,
      treeHashRoot c b.blsToExecutionChanges, treeHashRoot c b.blobKzgCommitments,
      treeHashRoot c b.executionRequests]
  buildMerkleProofForIndex rs leaves 9

/-- The four blocks' `build_body_root_proof` are one function of the body's root. -/
def BeaconBlockOf.buildBodyRootProof {Body : Type} [TreeHash Body] (b : BeaconBlockOf Body) :
    List B256 :=
  let leaves :=
    [treeHashRoot c b.slot, treeHashRoot c b.proposerIndex, treeHashRoot c b.parentRoot,
      treeHashRoot c b.stateRoot, treeHashRoot c b.body]
  buildMerkleProofForIndex rs leaves 4

def BeaconBlockBellatrix.buildExecutionBlockHashProof (b : BeaconBlockBellatrix) : List B256 :=
  b.body.executionPayload.buildBlockHashProof rs ++ b.body.buildExecutionPayloadProof rs ++
    b.buildBodyRootProof rs

def BeaconBlockCapella.buildExecutionBlockHashProof (b : BeaconBlockCapella) : List B256 :=
  b.body.executionPayload.buildBlockHashProof rs ++ b.body.buildExecutionPayloadProof rs ++
    b.buildBodyRootProof rs

def BeaconBlockDeneb.buildExecutionBlockHashProof (b : BeaconBlockDeneb) : List B256 :=
  b.body.executionPayload.buildBlockHashProof rs ++ b.body.buildExecutionPayloadProof rs ++
    b.buildBodyRootProof rs

def BeaconBlockElectra.buildExecutionBlockHashProof (b : BeaconBlockElectra) : List B256 :=
  b.body.executionPayload.buildBlockHashProof rs ++ b.body.buildExecutionPayloadProof rs ++
    b.buildBodyRootProof rs

/-! ## 3. The whole proofs -/

section

variable {ε : Type}

/-- The block root's branch, and the root of the other half of the batch on top. -/
def HistoricalBatch.buildBlockRootProof (batch : HistoricalBatch) (blockRootIndex : ℕ) :
    Outcome ε (List B256) :=
  let proofHashes := buildMerkleProofForIndex rs batch.blockRoots.toList blockRootIndex ++
    [treeHashRoot c batch.stateRoots]
  if proofHashes.length = 14 then .ok proofHashes
  else .panic "assertion failed: proof_hashes.len() == 14"

def buildHistoricalRootsProof (w : PointerWidth) (slot : UInt64) (historicalBatch : HistoricalBatch)
    (beaconBlock : BeaconBlockBellatrix) : Outcome ε BlockProofHistoricalRoots := do
  let hashes ← historicalBatch.buildBlockRootProof rs (asUsize w (slot % slotsPerHistoricalRoot))
  let beaconBlockProof ← .expect (FixedVector.new 14 hashes)
    "BeaconBlockProofHistoricalRoots is fixed-size 14"
  let executionBlockProof ← .expect
    (FixedVector.new 11 (BeaconBlockBellatrix.buildExecutionBlockHashProof rs beaconBlock))
    "ExecutionBlockProofBellatrix is fixed-size 11"
  return ⟨beaconBlockProof, treeHashRoot c beaconBlock, executionBlockProof, slot⟩

/-- The three builders of the summaries eras are one function of the block's own path. -/
def buildHistoricalSummariesProof (w : PointerWidth) (n : ℕ) (tooLong : String) (slot : UInt64)
    (blockRoots : RootsPerHistoricalRoot) (beaconBlockRoot : B256)
    (executionBlockHashProof : List B256) : Outcome ε (BlockProof 13 n) := do
  let beaconBlockProof ← .expect
    (FixedVector.new 13 (buildMerkleProofForIndex rs blockRoots.toList
      (asUsize w (slot % slotsPerHistoricalRoot))))
    "BeaconBlockProofHistoricalSummaries is fixed-size 13"
  let executionBlockProof ← .expect (FixedVector.new n executionBlockHashProof) tooLong
  return ⟨beaconBlockProof, beaconBlockRoot, executionBlockProof, slot⟩

def buildCapellaHistoricalSummariesProof (w : PointerWidth) (slot : UInt64)
    (blockRoots : RootsPerHistoricalRoot) (beaconBlock : BeaconBlockCapella) :
    Outcome ε BlockProofHistoricalSummariesCapella :=
  buildHistoricalSummariesProof rs w 11 "ExecutionBlockProofBellatrix is fixed-size 11" slot
    blockRoots (treeHashRoot c beaconBlock)
    (BeaconBlockCapella.buildExecutionBlockHashProof rs beaconBlock)

def buildDenebHistoricalSummariesProof (w : PointerWidth) (slot : UInt64)
    (blockRoots : RootsPerHistoricalRoot) (beaconBlock : BeaconBlockDeneb) :
    Outcome ε BlockProofHistoricalSummariesDeneb :=
  buildHistoricalSummariesProof rs w 12 "ExecutionBlockProofDeneb is fixed-size 12" slot
    blockRoots (treeHashRoot c beaconBlock)
    (BeaconBlockDeneb.buildExecutionBlockHashProof rs beaconBlock)

def buildElectraHistoricalSummariesProof (w : PointerWidth) (slot : UInt64)
    (blockRoots : RootsPerHistoricalRoot) (beaconBlock : BeaconBlockElectra) :
    Outcome ε BlockProofHistoricalSummariesDeneb :=
  buildHistoricalSummariesProof rs w 12 "ExecutionBlockProofDeneb is fixed-size 12" slot
    blockRoots (treeHashRoot c beaconBlock)
    (BeaconBlockElectra.buildExecutionBlockHashProof rs beaconBlock)

/-- How `build_post_merge_hwp` dispatches on the block's fork. -/
def buildPostMergeProof (w : PointerWidth) (slot : UInt64) (historicalBatch : HistoricalBatch) :
    BeaconBlock → Outcome ε BlockHeaderProof
  | .bellatrix b => do
    return .historicalRoots (← buildHistoricalRootsProof rs w slot historicalBatch b)
  | .capella b => do
    return .historicalSummariesCapella
      (← buildCapellaHistoricalSummariesProof rs w slot historicalBatch.blockRoots b)
  | .deneb b => do
    return .historicalSummariesDeneb
      (← buildDenebHistoricalSummariesProof rs w slot historicalBatch.blockRoots b)
  | .electra b => do
    return .historicalSummariesDeneb
      (← buildElectraHistoricalSummariesProof rs w slot historicalBatch.blockRoots b)

end

/-! ## 4. One branch, again -/

/-- Padding to a full tree changes nothing: the proof of an index is its branch in the tree the
leaves fit. -/
theorem buildMerkleProofForIndex_eq {leaves : List B256} {i : ℕ}
    (hi : i < 2 ^ treeDepth leaves.length) :
    buildMerkleProofForIndex rs leaves i
      = branch c.hash32Concat (treeDepth leaves.length) (chunkAt leaves) i := by
  have hle : leaves.length ≤ 2 ^ treeDepth leaves.length := length_le_two_pow_treeDepth _
  have htake : (leaves ++ List.replicate (nextPowerOfTwo leaves.length) (FixedBytes.zero 32)).take
        (nextPowerOfTwo leaves.length)
      = leaves ++ List.replicate (2 ^ treeDepth leaves.length - leaves.length)
          (FixedBytes.zero 32) := by
    rw [nextPowerOfTwo, ← treeDepth, List.take_append, List.take_of_length_le hle,
      List.take_replicate]
    congr 2
    exact Nat.min_eq_left (Nat.sub_le _ _)
  simp only [buildMerkleProofForIndex]
  rw [htake, rs.proofHashes_eq (treeDepth leaves.length) _ i (by simp; omega) hi]
  exact branch_congr _ i hi fun j _ => leafAt_append_replicate _ _ _ j

end EthHistorian
