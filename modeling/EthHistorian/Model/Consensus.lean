/-
# Beacon-chain containers

The consensus types of `src/portal_types/consensus/` that a beacon block is made of, with the
fields and bounds of the source, in declaration order.  Where the source generates one struct
per fork (`superstruct`), the fork's extra fields extend the previous fork's.

Each container's `TreeHash` instance is the derived one: the roots of its fields, in the order
they are declared.  The builders in `BlockProofs.lean` write their own lists of field roots;
that the two agree is proved there, and nothing here anticipates it.
-/
import EthHistorian.Model.TreeHash

namespace EthHistorian

/-! ## 1. Keys, signatures, checkpoints -/

structure BlsSignature where
  signature : FixedBytes 96
  deriving Inhabited

instance : TreeHash BlsSignature where
  packed := none
  treeHashRoot c x := bytesRoot c x.signature.bytes

structure PubKey where
  inner : FixedVector UInt8 48
  deriving Inhabited

instance : TreeHash PubKey where
  packed := none
  treeHashRoot c x := containerRoot c [treeHashRoot c x.inner]

structure KzgCommitment where
  bytes : FixedBytes 48
  deriving Inhabited

instance : TreeHash KzgCommitment where
  packed := none
  treeHashRoot c x := bytesRoot c x.bytes.bytes

/-- A newtype of `u64` with the root of one. -/
abbrev Epoch := UInt64

structure Checkpoint where
  epoch : Epoch
  root : B256
  deriving Inhabited

instance : TreeHash Checkpoint where
  packed := none
  treeHashRoot c x := containerRoot c [treeHashRoot c x.epoch, treeHashRoot c x.root]

structure Eth1Data where
  depositRoot : B256
  depositCount : UInt64
  blockHash : B256
  deriving Inhabited

instance : TreeHash Eth1Data where
  packed := none
  treeHashRoot c x :=
    containerRoot c
      [treeHashRoot c x.depositRoot, treeHashRoot c x.depositCount, treeHashRoot c x.blockHash]

/-! ## 2. Operations -/

structure BeaconBlockHeader where
  slot : UInt64
  proposerIndex : UInt64
  parentRoot : B256
  stateRoot : B256
  bodyRoot : B256
  deriving Inhabited

instance : TreeHash BeaconBlockHeader where
  packed := none
  treeHashRoot c x :=
    containerRoot c
      [treeHashRoot c x.slot, treeHashRoot c x.proposerIndex, treeHashRoot c x.parentRoot,
        treeHashRoot c x.stateRoot, treeHashRoot c x.bodyRoot]

structure SignedBeaconBlockHeader where
  message : BeaconBlockHeader
  signature : BlsSignature
  deriving Inhabited

instance : TreeHash SignedBeaconBlockHeader where
  packed := none
  treeHashRoot c x := containerRoot c [treeHashRoot c x.message, treeHashRoot c x.signature]

structure ProposerSlashing where
  signedHeader1 : SignedBeaconBlockHeader
  signedHeader2 : SignedBeaconBlockHeader
  deriving Inhabited

instance : TreeHash ProposerSlashing where
  packed := none
  treeHashRoot c x :=
    containerRoot c [treeHashRoot c x.signedHeader1, treeHashRoot c x.signedHeader2]

structure AttestationData where
  slot : UInt64
  index : UInt64
  beaconBlockRoot : B256
  source : Checkpoint
  target : Checkpoint
  deriving Inhabited

instance : TreeHash AttestationData where
  packed := none
  treeHashRoot c x :=
    containerRoot c
      [treeHashRoot c x.slot, treeHashRoot c x.index, treeHashRoot c x.beaconBlockRoot,
        treeHashRoot c x.source, treeHashRoot c x.target]

/-- `IndexedAttestation`, by the bound of its index list: 2048 before Electra, 131072 in it. -/
structure IndexedAttestation (n : ℕ) where
  attestingIndices : VariableList UInt64 n
  data : AttestationData
  signature : BlsSignature
  deriving Inhabited

instance (n : ℕ) : TreeHash (IndexedAttestation n) where
  packed := none
  treeHashRoot c x :=
    containerRoot c
      [treeHashRoot c x.attestingIndices, treeHashRoot c x.data, treeHashRoot c x.signature]

structure AttesterSlashing (n : ℕ) where
  attestation1 : IndexedAttestation n
  attestation2 : IndexedAttestation n
  deriving Inhabited

instance (n : ℕ) : TreeHash (AttesterSlashing n) where
  packed := none
  treeHashRoot c x :=
    containerRoot c [treeHashRoot c x.attestation1, treeHashRoot c x.attestation2]

abbrev AttesterSlashingBase := AttesterSlashing 2048
abbrev AttesterSlashingElectra := AttesterSlashing 131072

structure AttestationBase where
  aggregationBits : BitList 2048
  data : AttestationData
  signature : BlsSignature
  deriving Inhabited

instance : TreeHash AttestationBase where
  packed := none
  treeHashRoot c x :=
    containerRoot c
      [treeHashRoot c x.aggregationBits, treeHashRoot c x.data, treeHashRoot c x.signature]

structure AttestationElectra where
  aggregationBits : BitList 131072
  data : AttestationData
  signature : BlsSignature
  committeeBits : BitVector 64
  deriving Inhabited

instance : TreeHash AttestationElectra where
  packed := none
  treeHashRoot c x :=
    containerRoot c
      [treeHashRoot c x.aggregationBits, treeHashRoot c x.data, treeHashRoot c x.signature,
        treeHashRoot c x.committeeBits]

structure DepositData where
  pubkey : PubKey
  withdrawalCredentials : B256
  amount : UInt64
  signature : BlsSignature
  deriving Inhabited

instance : TreeHash DepositData where
  packed := none
  treeHashRoot c x :=
    containerRoot c
      [treeHashRoot c x.pubkey, treeHashRoot c x.withdrawalCredentials, treeHashRoot c x.amount,
        treeHashRoot c x.signature]

structure Deposit where
  proof : FixedVector B256 33
  data : DepositData
  deriving Inhabited

instance : TreeHash Deposit where
  packed := none
  treeHashRoot c x := containerRoot c [treeHashRoot c x.proof, treeHashRoot c x.data]

structure VoluntaryExit where
  epoch : Epoch
  validatorIndex : UInt64
  deriving Inhabited

instance : TreeHash VoluntaryExit where
  packed := none
  treeHashRoot c x := containerRoot c [treeHashRoot c x.epoch, treeHashRoot c x.validatorIndex]

structure SignedVoluntaryExit where
  message : VoluntaryExit
  signature : BlsSignature
  deriving Inhabited

instance : TreeHash SignedVoluntaryExit where
  packed := none
  treeHashRoot c x := containerRoot c [treeHashRoot c x.message, treeHashRoot c x.signature]

structure SyncAggregate where
  syncCommitteeBits : BitVector 512
  syncCommitteeSignature : BlsSignature
  deriving Inhabited

instance : TreeHash SyncAggregate where
  packed := none
  treeHashRoot c x :=
    containerRoot c [treeHashRoot c x.syncCommitteeBits, treeHashRoot c x.syncCommitteeSignature]

structure BLSToExecutionChange where
  validatorIndex : UInt64
  fromBlsPubkey : PubKey
  toExecutionAddress : Address
  deriving Inhabited

instance : TreeHash BLSToExecutionChange where
  packed := none
  treeHashRoot c x :=
    containerRoot c
      [treeHashRoot c x.validatorIndex, treeHashRoot c x.fromBlsPubkey,
        treeHashRoot c x.toExecutionAddress]

structure SignedBLSToExecutionChange where
  message : BLSToExecutionChange
  signature : BlsSignature
  deriving Inhabited

instance : TreeHash SignedBLSToExecutionChange where
  packed := none
  treeHashRoot c x := containerRoot c [treeHashRoot c x.message, treeHashRoot c x.signature]

structure Withdrawal where
  index : UInt64
  validatorIndex : UInt64
  address : Address
  amount : UInt64
  deriving Inhabited

instance : TreeHash Withdrawal where
  packed := none
  treeHashRoot c x :=
    containerRoot c
      [treeHashRoot c x.index, treeHashRoot c x.validatorIndex, treeHashRoot c x.address,
        treeHashRoot c x.amount]

/-! ## 3. Execution-layer requests -/

structure DepositRequest where
  pubkey : PubKey
  withdrawalCredentials : B256
  amount : UInt64
  signature : BlsSignature
  index : UInt64
  deriving Inhabited

instance : TreeHash DepositRequest where
  packed := none
  treeHashRoot c x :=
    containerRoot c
      [treeHashRoot c x.pubkey, treeHashRoot c x.withdrawalCredentials, treeHashRoot c x.amount,
        treeHashRoot c x.signature, treeHashRoot c x.index]

structure WithdrawalRequest where
  sourceAddress : Address
  validatorPubkey : PubKey
  amount : UInt64
  deriving Inhabited

instance : TreeHash WithdrawalRequest where
  packed := none
  treeHashRoot c x :=
    containerRoot c
      [treeHashRoot c x.sourceAddress, treeHashRoot c x.validatorPubkey, treeHashRoot c x.amount]

structure ConsolidationRequest where
  sourceAddress : Address
  sourcePubkey : PubKey
  targetPubkey : PubKey
  deriving Inhabited

instance : TreeHash ConsolidationRequest where
  packed := none
  treeHashRoot c x :=
    containerRoot c
      [treeHashRoot c x.sourceAddress, treeHashRoot c x.sourcePubkey,
        treeHashRoot c x.targetPubkey]

structure ExecutionRequests where
  deposits : VariableList DepositRequest 8192
  withdrawals : VariableList WithdrawalRequest 16
  consolidations : VariableList ConsolidationRequest 2
  deriving Inhabited

instance : TreeHash ExecutionRequests where
  packed := none
  treeHashRoot c x :=
    containerRoot c
      [treeHashRoot c x.deposits, treeHashRoot c x.withdrawals, treeHashRoot c x.consolidations]

/-! ## 4. Execution payloads -/

abbrev ByteList32 := VariableList UInt8 32
abbrev ByteList1G := VariableList UInt8 1073741824
abbrev Transactions := VariableList ByteList1G 1048576

structure ExecutionPayloadBellatrix where
  parentHash : B256
  feeRecipient : Address
  stateRoot : B256
  receiptsRoot : B256
  logsBloom : FixedVector UInt8 256
  prevRandao : B256
  blockNumber : UInt64
  gasLimit : UInt64
  gasUsed : UInt64
  timestamp : UInt64
  extraData : ByteList32
  baseFeePerGas : U256
  blockHash : B256
  transactions : Transactions
  deriving Inhabited

structure ExecutionPayloadCapella extends ExecutionPayloadBellatrix where
  withdrawals : VariableList Withdrawal 16
  deriving Inhabited

structure ExecutionPayloadDeneb extends ExecutionPayloadCapella where
  blobGasUsed : UInt64
  excessBlobGas : UInt64
  deriving Inhabited

/-- The fields of Deneb's payload, as a type of its own. -/
structure ExecutionPayloadElectra extends ExecutionPayloadDeneb
  deriving Inhabited

/-- The roots of the fields every fork's payload starts with, as declared. -/
def ExecutionPayloadBellatrix.fieldRoots (c : Crypto) (p : ExecutionPayloadBellatrix) :
    List B256 :=
  [treeHashRoot c p.parentHash, treeHashRoot c p.feeRecipient, treeHashRoot c p.stateRoot,
    treeHashRoot c p.receiptsRoot, treeHashRoot c p.logsBloom, treeHashRoot c p.prevRandao,
    treeHashRoot c p.blockNumber, treeHashRoot c p.gasLimit, treeHashRoot c p.gasUsed,
    treeHashRoot c p.timestamp, treeHashRoot c p.extraData, treeHashRoot c p.baseFeePerGas,
    treeHashRoot c p.blockHash, treeHashRoot c p.transactions]

def ExecutionPayloadCapella.fieldRoots (c : Crypto) (p : ExecutionPayloadCapella) : List B256 :=
  p.toExecutionPayloadBellatrix.fieldRoots c ++ [treeHashRoot c p.withdrawals]

def ExecutionPayloadDeneb.fieldRoots (c : Crypto) (p : ExecutionPayloadDeneb) : List B256 :=
  p.toExecutionPayloadCapella.fieldRoots c ++
    [treeHashRoot c p.blobGasUsed, treeHashRoot c p.excessBlobGas]

instance : TreeHash ExecutionPayloadBellatrix where
  packed := none
  treeHashRoot c p := containerRoot c (p.fieldRoots c)

instance : TreeHash ExecutionPayloadCapella where
  packed := none
  treeHashRoot c p := containerRoot c (p.fieldRoots c)

instance : TreeHash ExecutionPayloadDeneb where
  packed := none
  treeHashRoot c p := containerRoot c (p.fieldRoots c)

instance : TreeHash ExecutionPayloadElectra where
  packed := none
  treeHashRoot c p := containerRoot c (p.toExecutionPayloadDeneb.fieldRoots c)

/-! ## 5. Block bodies -/

structure BeaconBlockBodyBellatrix where
  randaoReveal : BlsSignature
  eth1Data : Eth1Data
  graffiti : B256
  proposerSlashings : VariableList ProposerSlashing 16
  attesterSlashings : VariableList AttesterSlashingBase 2
  attestations : VariableList AttestationBase 128
  deposits : VariableList Deposit 16
  voluntaryExits : VariableList SignedVoluntaryExit 16
  syncAggregate : SyncAggregate
  executionPayload : ExecutionPayloadBellatrix
  deriving Inhabited

structure BeaconBlockBodyCapella where
  randaoReveal : BlsSignature
  eth1Data : Eth1Data
  graffiti : B256
  proposerSlashings : VariableList ProposerSlashing 16
  attesterSlashings : VariableList AttesterSlashingBase 2
  attestations : VariableList AttestationBase 128
  deposits : VariableList Deposit 16
  voluntaryExits : VariableList SignedVoluntaryExit 16
  syncAggregate : SyncAggregate
  executionPayload : ExecutionPayloadCapella
  blsToExecutionChanges : VariableList SignedBLSToExecutionChange 16
  deriving Inhabited

structure BeaconBlockBodyDeneb where
  randaoReveal : BlsSignature
  eth1Data : Eth1Data
  graffiti : B256
  proposerSlashings : VariableList ProposerSlashing 16
  attesterSlashings : VariableList AttesterSlashingBase 2
  attestations : VariableList AttestationBase 128
  deposits : VariableList Deposit 16
  voluntaryExits : VariableList SignedVoluntaryExit 16
  syncAggregate : SyncAggregate
  executionPayload : ExecutionPayloadDeneb
  blsToExecutionChanges : VariableList SignedBLSToExecutionChange 16
  blobKzgCommitments : VariableList KzgCommitment 4096
  deriving Inhabited

structure BeaconBlockBodyElectra where
  randaoReveal : BlsSignature
  eth1Data : Eth1Data
  graffiti : B256
  proposerSlashings : VariableList ProposerSlashing 16
  attesterSlashings : VariableList AttesterSlashingElectra 1
  attestations : VariableList AttestationElectra 8
  deposits : VariableList Deposit 16
  voluntaryExits : VariableList SignedVoluntaryExit 16
  syncAggregate : SyncAggregate
  executionPayload : ExecutionPayloadElectra
  blsToExecutionChanges : VariableList SignedBLSToExecutionChange 16
  blobKzgCommitments : VariableList KzgCommitment 4096
  executionRequests : ExecutionRequests
  deriving Inhabited

def BeaconBlockBodyBellatrix.fieldRoots (c : Crypto) (b : BeaconBlockBodyBellatrix) :
    List B256 :=
  [treeHashRoot c b.randaoReveal, treeHashRoot c b.eth1Data, treeHashRoot c b.graffiti,
    treeHashRoot c b.proposerSlashings, treeHashRoot c b.attesterSlashings,
    treeHashRoot c b.attestations, treeHashRoot c b.deposits, treeHashRoot c b.voluntaryExits,
    treeHashRoot c b.syncAggregate, treeHashRoot c b.executionPayload]

def BeaconBlockBodyCapella.fieldRoots (c : Crypto) (b : BeaconBlockBodyCapella) : List B256 :=
  [treeHashRoot c b.randaoReveal, treeHashRoot c b.eth1Data, treeHashRoot c b.graffiti,
    treeHashRoot c b.proposerSlashings, treeHashRoot c b.attesterSlashings,
    treeHashRoot c b.attestations, treeHashRoot c b.deposits, treeHashRoot c b.voluntaryExits,
    treeHashRoot c b.syncAggregate, treeHashRoot c b.executionPayload,
    treeHashRoot c b.blsToExecutionChanges]

def BeaconBlockBodyDeneb.fieldRoots (c : Crypto) (b : BeaconBlockBodyDeneb) : List B256 :=
  [treeHashRoot c b.randaoReveal, treeHashRoot c b.eth1Data, treeHashRoot c b.graffiti,
    treeHashRoot c b.proposerSlashings, treeHashRoot c b.attesterSlashings,
    treeHashRoot c b.attestations, treeHashRoot c b.deposits, treeHashRoot c b.voluntaryExits,
    treeHashRoot c b.syncAggregate, treeHashRoot c b.executionPayload,
    treeHashRoot c b.blsToExecutionChanges, treeHashRoot c b.blobKzgCommitments]

def BeaconBlockBodyElectra.fieldRoots (c : Crypto) (b : BeaconBlockBodyElectra) : List B256 :=
  [treeHashRoot c b.randaoReveal, treeHashRoot c b.eth1Data, treeHashRoot c b.graffiti,
    treeHashRoot c b.proposerSlashings, treeHashRoot c b.attesterSlashings,
    treeHashRoot c b.attestations, treeHashRoot c b.deposits, treeHashRoot c b.voluntaryExits,
    treeHashRoot c b.syncAggregate, treeHashRoot c b.executionPayload,
    treeHashRoot c b.blsToExecutionChanges, treeHashRoot c b.blobKzgCommitments,
    treeHashRoot c b.executionRequests]

instance : TreeHash BeaconBlockBodyBellatrix where
  packed := none
  treeHashRoot c b := containerRoot c (b.fieldRoots c)

instance : TreeHash BeaconBlockBodyCapella where
  packed := none
  treeHashRoot c b := containerRoot c (b.fieldRoots c)

instance : TreeHash BeaconBlockBodyDeneb where
  packed := none
  treeHashRoot c b := containerRoot c (b.fieldRoots c)

instance : TreeHash BeaconBlockBodyElectra where
  packed := none
  treeHashRoot c b := containerRoot c (b.fieldRoots c)

/-! ## 6. Blocks -/

/-- The four forks' blocks, by the type of the body: the other fields are the same in each. -/
structure BeaconBlockOf (Body : Type) where
  slot : UInt64
  proposerIndex : UInt64
  parentRoot : B256
  stateRoot : B256
  body : Body
  deriving Inhabited

abbrev BeaconBlockBellatrix := BeaconBlockOf BeaconBlockBodyBellatrix
abbrev BeaconBlockCapella := BeaconBlockOf BeaconBlockBodyCapella
abbrev BeaconBlockDeneb := BeaconBlockOf BeaconBlockBodyDeneb
abbrev BeaconBlockElectra := BeaconBlockOf BeaconBlockBodyElectra

def BeaconBlockOf.fieldRoots (c : Crypto) {Body : Type} [TreeHash Body]
    (b : BeaconBlockOf Body) : List B256 :=
  [treeHashRoot c b.slot, treeHashRoot c b.proposerIndex, treeHashRoot c b.parentRoot,
    treeHashRoot c b.stateRoot, treeHashRoot c b.body]

instance (Body : Type) [TreeHash Body] : TreeHash (BeaconBlockOf Body) where
  packed := none
  treeHashRoot c b := containerRoot c (b.fieldRoots c)

inductive BeaconBlock where
  | bellatrix (b : BeaconBlockBellatrix)
  | capella (b : BeaconBlockCapella)
  | deneb (b : BeaconBlockDeneb)
  | electra (b : BeaconBlockElectra)

instance : TreeHash BeaconBlock where
  packed := none
  treeHashRoot c
    | .bellatrix b => treeHashRoot c b
    | .capella b => treeHashRoot c b
    | .deneb b => treeHashRoot c b
    | .electra b => treeHashRoot c b

/-! ## 7. Era commitments -/

def slotsPerHistoricalRoot : UInt64 := 8192
def slotsPerEpoch : UInt64 := 32
def capellaForkEpoch : UInt64 := 194048
def denebForkEpoch : UInt64 := 269568
def electraForkEpoch : UInt64 := 364032

abbrev RootsPerHistoricalRoot := FixedVector B256 8192
abbrev HistoricalRoots := VariableList B256 16777216

structure HistoricalBatch where
  blockRoots : RootsPerHistoricalRoot
  stateRoots : RootsPerHistoricalRoot
  deriving DecidableEq, Inhabited

instance : TreeHash HistoricalBatch where
  packed := none
  treeHashRoot c x := containerRoot c [treeHashRoot c x.blockRoots, treeHashRoot c x.stateRoots]

structure HistoricalSummary where
  blockSummaryRoot : B256
  stateSummaryRoot : B256
  deriving DecidableEq, Inhabited

instance : TreeHash HistoricalSummary where
  packed := none
  treeHashRoot c x :=
    containerRoot c [treeHashRoot c x.blockSummaryRoot, treeHashRoot c x.stateSummaryRoot]

abbrev HistoricalSummaries := VariableList HistoricalSummary 16777216

/-- Index of the `HistoricalSummary` covering `slot`; none for slots before Capella. -/
def historicalSummaryIndex (w : PointerWidth) (slot : UInt64) : Option ℕ :=
  let capellaSlot := capellaForkEpoch * slotsPerEpoch
  if slot < capellaSlot then none
  else some (asUsize w ((slot - capellaSlot) / slotsPerHistoricalRoot))

end EthHistorian
