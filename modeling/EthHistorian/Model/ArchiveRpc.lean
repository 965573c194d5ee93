/-
# The archive node source

`src/sources/archive_rpc.rs`, from the answer of an execution node to the bytes of a header with
its proof.  Before the merge the proof is built from an epoch accumulator, after it from a beacon
block and its era's roots; which of the three later proofs is built is decided by the variant of
the block that the beacon provider returns, and not by the header.

The HTTP client is the environment: the answer to `eth_getBlockByNumber` is a field of the
source, and so are the answers of its two optional providers.
-/
import EthHistorian.Model.BeaconRpc
import EthHistorian.Model.BlockProofs
import EthHistorian.Model.ProofConstruction
import EthHistorian.Model.RawBlock

namespace EthHistorian

/-! ## 1. Providers -/

structure SignedBeaconBlock where
  message : BeaconBlock
  signature : BlsSignature

/-- The variant of a block. -/
def BeaconBlock.forkName : BeaconBlock → ForkName
  | bellatrix _ => .bellatrix
  | capella _ => .capella
  | deneb _ => .deneb
  | electra _ => .electra

structure EpochProvider where
  getEpochAccumulator : UInt64 → Outcome Error EpochAccumulator

structure BeaconDataProvider where
  fetchSignedBeaconBlock : UInt64 → Outcome Error SignedBeaconBlock
  fetchHistoricalBatch : UInt64 → Outcome Error HistoricalBatch

/-! ## 2. The source -/

structure JsonRpcError where
  code : Int64
  message : String

structure JsonRpcResponse (α : Type) where
  result : Option α
  error : Option JsonRpcError

/-- `eth_getBlockByNumber`'s answer, or the client's own error as it is displayed. -/
structure ArchiveRpcSource where
  getBlockByNumber : UInt64 → Except String (JsonRpcResponse RawBlock)
  epochProvider : Option EpochProvider
  beaconProvider : Option BeaconDataProvider

def epochIndexOfBlock (blockNumber : UInt64) : UInt64 := blockNumber / slotsPerHistoricalRoot

namespace ArchiveRpcSource

def fetchRawBlockByNumber (source : ArchiveRpcSource) (blockNumber : UInt64) :
    Except Error RawBlock := do
  let parsed ← (source.getBlockByNumber blockNumber).mapError .http
  match parsed.error with
  | some err => .error (.dataSource s!"RPC eth_getBlockByNumber error {err.code}: {err.message}")
  | none =>
    match parsed.result with
    | some raw => .ok raw
    | none => .error (.blockNotFound blockNumber)

variable {c : Crypto} (rs : RsMerkle c) (w : PointerWidth) (source : ArchiveRpcSource)

def buildPostMergeHwp (header : Header) : Outcome Error (List UInt8) := do
  let provider ← Outcome.okOr source.beaconProvider
    (.dataSource ("ArchiveRpcSource: post-merge block requested but no BeaconDataProvider " ++
      "configured. Call .with_beacon_provider(..)"))
  let slot ← Outcome.okOr (slotForExecutionTimestamp header.timestamp)
    (.dataSource (s!"post-merge block {header.number} has timestamp {header.timestamp} before " ++
      "beacon genesis (mainnet only is supported)"))
  let signedBlock ← provider.fetchSignedBeaconBlock slot
  let historicalBatch ← provider.fetchHistoricalBatch slot
  let proof ← buildPostMergeProof rs w slot historicalBatch signedBlock.message
  return HeaderWithProof.asSszBytes ⟨header, proof⟩

def fetchHeaderWithProofByNumber (overflowChecks : Bool) (blockNumber : UInt64) :
    Outcome Error (List UInt8) := do
  let raw ← Outcome.ofExcept (source.fetchRawBlockByNumber blockNumber)
  let header ← rawBlockToAlloyHeader overflowChecks w raw
  if header.number ≥ 15537394 then source.buildPostMergeHwp rs w header
  else do
    let provider ← Outcome.okOr source.epochProvider
      (.dataSource ("ArchiveRpcSource: pre-merge block requested but no EpochProvider " ++
        "configured. Call .with_epoch_provider(..)"))
    let epochIndex := epochIndexOfBlock header.number
    let epochAcc ← provider.getEpochAccumulator epochIndex
    let proof ← constructPreMergeProof c w header epochAcc
    return HeaderWithProof.asSszBytes ⟨header, .historicalHashes proof⟩

def fetchHeaderWithProofByHash (_source : ArchiveRpcSource) (_blockHash : B256) :
    Except Error (List UInt8) :=
  .error (.dataSource
    "ArchiveRpcSource: lookup by hash not implemented (use eth_getBlockByHash if added)")

/-! ## 3. What a post-merge request returns -/

/-- **A post-merge request is answered** with the proof of the block that was fetched. -/
theorem buildPostMergeHwp_eq {header : Header} {provider : BeaconDataProvider} {slot : UInt64}
    {block : SignedBeaconBlock} {batch : HistoricalBatch} {proof : BlockHeaderProof}
    (hprovider : source.beaconProvider = some provider)
    (hslot : slotForExecutionTimestamp header.timestamp = some slot)
    (hblock : provider.fetchSignedBeaconBlock slot = .ok block)
    (hbatch : provider.fetchHistoricalBatch slot = .ok batch)
    (hproof : buildPostMergeProof rs w slot batch block.message = (.ok proof : Outcome Error _)) :
    source.buildPostMergeHwp rs w header = .ok (HeaderWithProof.asSszBytes ⟨header, proof⟩) := by
  simp only [buildPostMergeHwp, hprovider, hslot, Outcome.okOr_some, Outcome.ok_bind, hblock,
    hbatch, hproof, Outcome.pure_eq]

end ArchiveRpcSource

end EthHistorian
