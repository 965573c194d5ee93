/-
# The beacon state

`src/portal_types/consensus/beacon_state.rs`: the state of each fork, with the fields and bounds
of the source in declaration order.  The four structs of the source share their fields up to the
execution payload header, so the shared part takes the fork's header type as a parameter and the
later forks extend it.

The derived `TreeHash` of a state lists its fields' roots as they are declared, one part of the
struct after the other.  `build_historical_summaries_proof` writes the whole list by hand, once
for each of the two forks that have it; section 4 copies those two lists as they stand, and
nothing there refers to the derived one.
-/
import EthHistorian.Model.BlockProofs

namespace EthHistorian

/-! ## 1. What a state is made of -/

/-- `[u8; 4]`. -/
instance : TreeHash (FixedBytes 4) where
  packed := none
  treeHashRoot c x := bytesRoot c x.bytes

structure Fork where
  previousVersion : FixedBytes 4
  currentVersion : FixedBytes 4
  epoch : Epoch
  deriving Inhabited

instance : TreeHash Fork where
  packed := none
  treeHashRoot c x :=
    containerRoot c
      [treeHashRoot c x.previousVersion, treeHashRoot c x.currentVersion, treeHashRoot c x.epoch]

structure Validator where
  pubkey : PubKey
  withdrawalCredentials : B256
  effectiveBalance : UInt64
  slashed : Bool
  activationEligibilityEpoch : Epoch
  activationEpoch : Epoch
  exitEpoch : Epoch
  withdrawableEpoch : Epoch
  deriving Inhabited

instance : TreeHash Validator where
  packed := none
  treeHashRoot c x :=
    containerRoot c
      [treeHashRoot c x.pubkey, treeHashRoot c x.withdrawalCredentials,
        treeHashRoot c x.effectiveBalance, treeHashRoot c x.slashed,
        treeHashRoot c x.activationEligibilityEpoch, treeHashRoot c x.activationEpoch,
        treeHashRoot c x.exitEpoch, treeHashRoot c x.withdrawableEpoch]

structure ParticipationFlags where
  bits : UInt8
  deriving Inhabited

/-- The root and the packing of the byte. -/
instance : TreeHash ParticipationFlags where
  packed := some ⟨fun x => [x.bits], 32⟩
  treeHashRoot c x := treeHashRoot c x.bits

structure SyncCommittee where
  pubkeys : FixedVector PubKey 512
  aggregatePubkey : PubKey
  deriving Inhabited

instance : TreeHash SyncCommittee where
  packed := none
  treeHashRoot c x := containerRoot c [treeHashRoot c x.pubkeys, treeHashRoot c x.aggregatePubkey]

structure PendingDeposit where
  pubkey : PubKey
  withdrawalCredentials : B256
  amount : UInt64
  signature : BlsSignature
  slot : UInt64
  deriving Inhabited

instance : TreeHash PendingDeposit where
  packed := none
  treeHashRoot c x :=
    containerRoot c
      [treeHashRoot c x.pubkey, treeHashRoot c x.withdrawalCredentials, treeHashRoot c x.amount,
        treeHashRoot c x.signature, treeHashRoot c x.slot]

structure PendingPartialWithdrawal where
  validatorIndex : UInt64
  amount : UInt64
  withdrawableEpoch : Epoch
  deriving Inhabited

instance : TreeHash PendingPartialWithdrawal where
  packed := none
  treeHashRoot c x :=
    containerRoot c
      [treeHashRoot c x.validatorIndex, treeHashRoot c x.amount,
        treeHashRoot c x.withdrawableEpoch]

structure PendingConsolidation where
  sourceIndex : UInt64
  targetIndex : UInt64
  deriving Inhabited

instance : TreeHash PendingConsolidation where
  packed := none
  treeHashRoot c x := containerRoot c [treeHashRoot c x.sourceIndex, treeHashRoot c x.targetIndex]

/-! ## 2. Execution payload headers -/

structure ExecutionPayloadHeaderBellatrix where
  parentHash : B256
  feeRecipient : Address
  stateRoot : B256
  receiptsRoot : B256
  logsBloom : FixedVector UInt8 256
  prevRandao : B256
  blockNumber : UInt64
  gasLimit : UInt64
  gasUsed : UInt64
  timestamp : UInt64
  extraData : ByteList32
  baseFeePerGas : U256
  blockHash : B256
  transactionsRoot : B256
  deriving Inhabited

structure ExecutionPayloadHeaderCapella extends ExecutionPayloadHeaderBellatrix where
  withdrawalsRoot : B256
  deriving Inhabited

structure ExecutionPayloadHeaderDeneb extends ExecutionPayloadHeaderCapella where
  blobGasUsed : UInt64
  excessBlobGas : UInt64
  deriving Inhabited

/-- The fields of Deneb's header, as a type of its own. -/
structure ExecutionPayloadHeaderElectra extends ExecutionPayloadHeaderDeneb
  deriving Inhabited

/-- The roots of the fields every fork's payload header starts with, as declared. -/
def ExecutionPayloadHeaderBellatrix.fieldRoots (c : Crypto)
    (h : ExecutionPayloadHeaderBellatrix) : List B256 :=
  [treeHashRoot c h.parentHash, treeHashRoot c h.feeRecipient, treeHashRoot c h.stateRoot,
    treeHashRoot c h.receiptsRoot, treeHashRoot c h.logsBloom, treeHashRoot c h.prevRandao,
    treeHashRoot c h.blockNumber, treeHashRoot c h.gasLimit, treeHashRoot c h.gasUsed,
    treeHashRoot c h.timestamp, treeHashRoot c h.extraData, treeHashRoot c h.baseFeePerGas,
    treeHashRoot c h.blockHash, treeHashRoot c h.transactionsRoot]

def ExecutionPayloadHeaderCapella.fieldRoots (c : Crypto) (h : ExecutionPayloadHeaderCapella) :
    List B256 :=
  h.toExecutionPayloadHeaderBellatrix.fieldRoots c ++ [treeHashRoot c h.withdrawalsRoot]

def ExecutionPayloadHeaderDeneb.fieldRoots (c : Crypto) (h : ExecutionPayloadHeaderDeneb) :
    List B256 :=
  h.toExecutionPayloadHeaderCapella.fieldRoots c ++
    [treeHashRoot c h.blobGasUsed, treeHashRoot c h.excessBlobGas]

instance : TreeHash ExecutionPayloadHeaderBellatrix where
  packed := none
  treeHashRoot c h := containerRoot c (h.fieldRoots c)

instance : TreeHash ExecutionPayloadHeaderCapella where
  packed := none
  treeHashRoot c h := containerRoot c (h.fieldRoots c)

instance : TreeHash ExecutionPayloadHeaderDeneb where
  packed := none
  treeHashRoot c h := containerRoot c (h.fieldRoots c)

instance : TreeHash ExecutionPayloadHeaderElectra where
  packed := none
  treeHashRoot c h := containerRoot c (h.toExecutionPayloadHeaderDeneb.fieldRoots c)

/-! ## 3. States -/

/-- The fields every fork has, up to the execution payload header. -/
structure BeaconStateOf (PayloadHeader : Type) where
  genesisTime : UInt64
  genesisValidatorsRoot : B256
  slot : UInt64
  fork : Fork
  latestBlockHeader : BeaconBlockHeader
  blockRoots : RootsPerHistoricalRoot
  stateRoots : RootsPerHistoricalRoot
  historicalRoots : HistoricalRoots
  eth1Data : Eth1Data
  eth1DataVotes : VariableList Eth1Data 2048
  eth1DepositIndex : UInt64
  validators : VariableList Validator 1099511627776
  balances : VariableList UInt64 1099511627776
  randaoMixes : FixedVector B256 65536
  slashings : FixedVector UInt64 8192
  previousEpochParticipation : VariableList ParticipationFlags 1099511627776
  currentEpochParticipation : VariableList ParticipationFlags 1099511627776
  justificationBits : BitVector 4
  previousJustifiedCheckpoint : Checkpoint
  currentJustifiedCheckpoint : Checkpoint
  finalizedCheckpoint : Checkpoint
  inactivityScores : VariableList UInt64 1099511627776
  currentSyncCommittee : SyncCommittee
  nextSyncCommittee : SyncCommittee
  latestExecutionPayloadHeader : PayloadHeader
  deriving Inhabited

/-- The fields Capella adds, and Deneb keeps. -/
structure BeaconStateFromCapella (PayloadHeader : Type) extends BeaconStateOf PayloadHeader where
  nextWithdrawalIndex : UInt64
  nextWithdrawalValidatorIndex : UInt64
  historicalSummaries : HistoricalSummaries
  deriving Inhabited

abbrev BeaconStateBellatrix := BeaconStateOf ExecutionPayloadHeaderBellatrix
abbrev BeaconStateCapella := BeaconStateFromCapella ExecutionPayloadHeaderCapella
abbrev BeaconStateDeneb := BeaconStateFromCapella ExecutionPayloadHeaderDeneb

structure BeaconStateElectra extends BeaconStateFromCapella ExecutionPayloadHeaderElectra where
  depositRequestsStartIndex : UInt64
  depositBalanceToConsume : UInt64
  exitBalanceToConsume : UInt64
  earliestExitEpoch : Epoch
  consolidationBalanceToConsume : UInt64
  earliestConsolidationEpoch : Epoch
  pendingDeposits : VariableList PendingDeposit 134217728
  pendingPartialWithdrawals : VariableList PendingPartialWithdrawal 134217728
  pendingConsolidations : VariableList PendingConsolidation 262144
  deriving Inhabited

inductive BeaconState where
  | bellatrix (state : BeaconStateBellatrix)
  | capella (state : BeaconStateCapella)
  | deneb (state : BeaconStateDeneb)
  | electra (state : BeaconStateElectra)

namespace BeaconState

def blockRoots : BeaconState → RootsPerHistoricalRoot
  | bellatrix state => state.blockRoots
  | capella state => state.blockRoots
  | deneb state => state.blockRoots
  | electra state => state.blockRoots

def stateRoots : BeaconState → RootsPerHistoricalRoot
  | bellatrix state => state.stateRoots
  | capella state => state.stateRoots
  | deneb state => state.stateRoots
  | electra state => state.stateRoots

end BeaconState

/-! The derived roots: fields as declared, the fork's own after those it inherits. -/

section

variable {PayloadHeader : Type} [TreeHash PayloadHeader]

def BeaconStateOf.fieldRoots (c : Crypto) (s : BeaconStateOf PayloadHeader) : List B256 :=
  [treeHashRoot c s.genesisTime, treeHashRoot c s.genesisValidatorsRoot, treeHashRoot c s.slot,
    treeHashRoot c s.fork, treeHashRoot c s.latestBlockHeader, treeHashRoot c s.blockRoots,
    treeHashRoot c s.stateRoots, treeHashRoot c s.historicalRoots, treeHashRoot c s.eth1Data,
    treeHashRoot c s.eth1DataVotes, treeHashRoot c s.eth1DepositIndex,
    treeHashRoot c s.validators, treeHashRoot c s.balances, treeHashRoot c s.randaoMixes,
    treeHashRoot c s.slashings, treeHashRoot c s.previousEpochParticipation,
    treeHashRoot c s.currentEpochParticipation, treeHashRoot c s.justificationBits,
    treeHashRoot c s.previousJustifiedCheckpoint, treeHashRoot c s.currentJustifiedCheckpoint,
    treeHashRoot c s.finalizedCheckpoint, treeHashRoot c s.inactivityScores,
    treeHashRoot c s.currentSyncCommittee, treeHashRoot c s.nextSyncCommittee,
    treeHashRoot c s.latestExecutionPayloadHeader]

def BeaconStateFromCapella.fieldRoots (c : Crypto) (s : BeaconStateFromCapella PayloadHeader) :
    List B256 :=
  s.toBeaconStateOf.fieldRoots c ++
    [treeHashRoot c s.nextWithdrawalIndex, treeHashRoot c s.nextWithdrawalValidatorIndex,
      treeHashRoot c s.historicalSummaries]

instance : TreeHash (BeaconStateOf PayloadHeader) where
  packed := none
  treeHashRoot c s := containerRoot c (s.fieldRoots c)

instance : TreeHash (BeaconStateFromCapella PayloadHeader) where
  packed := none
  treeHashRoot c s := containerRoot c (s.fieldRoots c)

end

def BeaconStateElectra.fieldRoots (c : Crypto) (s : BeaconStateElectra) : List B256 :=
  s.toBeaconStateFromCapella.fieldRoots c ++
    [treeHashRoot c s.depositRequestsStartIndex, treeHashRoot c s.depositBalanceToConsume,
      treeHashRoot c s.exitBalanceToConsume, treeHashRoot c s.earliestExitEpoch,
      treeHashRoot c s.consolidationBalanceToConsume,
      treeHashRoot c s.earliestConsolidationEpoch, treeHashRoot c s.pendingDeposits,
      treeHashRoot c s.pendingPartialWithdrawals, treeHashRoot c s.pendingConsolidations]

instance : TreeHash BeaconStateElectra where
  packed := none
  treeHashRoot c s := containerRoot c (s.fieldRoots c)

instance : TreeHash BeaconState where
  packed := none
  treeHashRoot c
    | .bellatrix s => treeHashRoot c s
    | .capella s => treeHashRoot c s
    | .deneb s => treeHashRoot c s
    | .electra s => treeHashRoot c s

/-! ## 4. Proofs of the historical summaries -/

/-- Generalized index of the `historical_summaries` field in the Electra layout. -/
def historicalSummariesGindex : ℕ := 91

abbrev HistoricalSummariesProof := FixedVector B256 6

variable {c : Crypto} (rs : RsMerkle c)

def BeaconStateDeneb.buildHistoricalSummariesProof (s : BeaconStateDeneb) : List B256 :=
  let leaves :=
    [treeHashRoot c s.genesisTime, treeHashRoot c s.genesisValidatorsRoot, treeHashRoot c s.slot,
      treeHashRoot c s.fork, treeHashRoot c s.latestBlockHeader, treeHashRoot c s.blockRoots,
      treeHashRoot c s.stateRoots, treeHashRoot c s.historicalRoots, treeHashRoot c s.eth1Data,
      treeHashRoot c s.eth1DataVotes, treeHashRoot c s.eth1DepositIndex,
      treeHashRoot c s.validators, treeHashRoot c s.balances, treeHashRoot c s.randaoMixes,
      treeHashRoot c s.slashings, treeHashRoot c s.previousEpochParticipation,
      treeHashRoot c s.currentEpochParticipation, treeHashRoot c s.justificationBits,
      treeHashRoot c s.previousJustifiedCheckpoint, treeHashRoot c s.currentJustifiedCheckpoint,
      treeHashRoot c s.finalizedCheckpoint, treeHashRoot c s.inactivityScores,
      treeHashRoot c s.currentSyncCommittee, treeHashRoot c s.nextSyncCommittee,
      treeHashRoot c s.latestExecutionPayloadHeader, treeHashRoot c s.nextWithdrawalIndex,
      treeHashRoot c s.nextWithdrawalValidatorIndex, treeHashRoot c s.historicalSummaries]
  buildMerkleProofForIndex rs leaves 27

def BeaconStateElectra.buildHistoricalSummariesProof {ε : Type} (s : BeaconStateElectra) :
    Outcome ε HistoricalSummariesProof :=
  let leaves :=
    [treeHashRoot c s.genesisTime, treeHashRoot c s.genesisValidatorsRoot, treeHashRoot c s.slot,
      treeHashRoot c s.fork, treeHashRoot c s.latestBlockHeader, treeHashRoot c s.blockRoots,
      treeHashRoot c s.stateRoots, treeHashRoot c s.historicalRoots, treeHashRoot c s.eth1Data,
      treeHashRoot c s.eth1DataVotes, treeHashRoot c s.eth1DepositIndex,
      treeHashRoot c s.validators, treeHashRoot c s.balances, treeHashRoot c s.randaoMixes,
      treeHashRoot c s.slashings, treeHashRoot c s.previousEpochParticipation,
      treeHashRoot c s.currentEpochParticipation, treeHashRoot c s.justificationBits,
      treeHashRoot c s.previousJustifiedCheckpoint, treeHashRoot c s.currentJustifiedCheckpoint,
      treeHashRoot c s.finalizedCheckpoint, treeHashRoot c s.inactivityScores,
      treeHashRoot c s.currentSyncCommittee, treeHashRoot c s.nextSyncCommittee,
      treeHashRoot c s.latestExecutionPayloadHeader, treeHashRoot c s.nextWithdrawalIndex,
      treeHashRoot c s.nextWithdrawalValidatorIndex, treeHashRoot c s.historicalSummaries,
      treeHashRoot c s.depositRequestsStartIndex, treeHashRoot c s.depositBalanceToConsume,
      treeHashRoot c s.exitBalanceToConsume, treeHashRoot c s.earliestExitEpoch,
      treeHashRoot c s.consolidationBalanceToConsume,
      treeHashRoot c s.earliestConsolidationEpoch, treeHashRoot c s.pendingDeposits,
      treeHashRoot c s.pendingPartialWithdrawals, treeHashRoot c s.pendingConsolidations]
  .expect (FixedVector.new 6 (buildMerkleProofForIndex rs leaves 27))
    "Created historical summaries proof for Electra should have correct length"

end EthHistorian
