/-
# Containers and their fields

Each container of the consensus types beside the tuple of its fields, in the order they are
declared.  What a derive macro writes goes field by field, so the derived SSZ forms
(`ConsensusSsz.lean`, `BeaconStateSsz.lean`) and the laws of the derived roots (`Commitments.lean`)
are stated about these tuples and carried over.

Where forks share a prefix of their fields, `fieldsWith` opens it in front of whatever follows.
-/
import EthHistorian.Model.BeaconState
import EthHistorian.Model.ProofConstruction
import Mathlib.Logic.Equiv.Defs

namespace EthHistorian

/-! ## 1. Blocks -/

def Checkpoint.fields : Checkpoint ≃ Epoch × B256 × Unit where
  toFun x := (x.epoch, x.root, ())
  invFun := fun ⟨epoch, root, _⟩ => ⟨epoch, root⟩
  left_inv _ := rfl
  right_inv _ := rfl

def Eth1Data.fields : Eth1Data ≃ B256 × UInt64 × B256 × Unit where
  toFun x := (x.depositRoot, x.depositCount, x.blockHash, ())
  invFun := fun ⟨depositRoot, depositCount, blockHash, _⟩ => ⟨depositRoot, depositCount, blockHash⟩
  left_inv _ := rfl
  right_inv _ := rfl

def BeaconBlockHeader.fields : BeaconBlockHeader ≃ UInt64 × UInt64 × B256 × B256 × B256 × Unit where
  toFun x := (x.slot, x.proposerIndex, x.parentRoot, x.stateRoot, x.bodyRoot, ())
  invFun := fun ⟨slot, proposerIndex, parentRoot, stateRoot, bodyRoot, _⟩ =>
    ⟨slot, proposerIndex, parentRoot, stateRoot, bodyRoot⟩
  left_inv _ := rfl
  right_inv _ := rfl

def SignedBeaconBlockHeader.fields : SignedBeaconBlockHeader ≃
    BeaconBlockHeader × BlsSignature × Unit where
  toFun x := (x.message, x.signature, ())
  invFun := fun ⟨message, signature, _⟩ => ⟨message, signature⟩
  left_inv _ := rfl
  right_inv _ := rfl

def ProposerSlashing.fields : ProposerSlashing ≃
    SignedBeaconBlockHeader × SignedBeaconBlockHeader × Unit where
  toFun x := (x.signedHeader1, x.signedHeader2, ())
  invFun := fun ⟨signedHeader1, signedHeader2, _⟩ => ⟨signedHeader1, signedHeader2⟩
  left_inv _ := rfl
  right_inv _ := rfl

def AttestationData.fields : AttestationData ≃
    UInt64 × UInt64 × B256 × Checkpoint × Checkpoint × Unit where
  toFun x := (x.slot, x.index, x.beaconBlockRoot, x.source, x.target, ())
  invFun := fun ⟨slot, index, beaconBlockRoot, source, target, _⟩ =>
    ⟨slot, index, beaconBlockRoot, source, target⟩
  left_inv _ := rfl
  right_inv _ := rfl

def DepositData.fields : DepositData ≃ PubKey × B256 × UInt64 × BlsSignature × Unit where
  toFun x := (x.pubkey, x.withdrawalCredentials, x.amount, x.signature, ())
  invFun := fun ⟨pubkey, withdrawalCredentials, amount, signature, _⟩ =>
    ⟨pubkey, withdrawalCredentials, amount, signature⟩
  left_inv _ := rfl
  right_inv _ := rfl

def Deposit.fields : Deposit ≃ FixedVector B256 33 × DepositData × Unit where
  toFun x := (x.proof, x.data, ())
  invFun := fun ⟨proof, data, _⟩ => ⟨proof, data⟩
  left_inv _ := rfl
  right_inv _ := rfl

def VoluntaryExit.fields : VoluntaryExit ≃ Epoch × UInt64 × Unit where
  toFun x := (x.epoch, x.validatorIndex, ())
  invFun := fun ⟨epoch, validatorIndex, _⟩ => ⟨epoch, validatorIndex⟩
  left_inv _ := rfl
  right_inv _ := rfl

def SignedVoluntaryExit.fields : SignedVoluntaryExit ≃ VoluntaryExit × BlsSignature × Unit where
  toFun x := (x.message, x.signature, ())
  invFun := fun ⟨message, signature, _⟩ => ⟨message, signature⟩
  left_inv _ := rfl
  right_inv _ := rfl

def SyncAggregate.fields : SyncAggregate ≃ BitVector 512 × BlsSignature × Unit where
  toFun x := (x.syncCommitteeBits, x.syncCommitteeSignature, ())
  invFun := fun ⟨syncCommitteeBits, syncCommitteeSignature, _⟩ =>
    ⟨syncCommitteeBits, syncCommitteeSignature⟩
  left_inv _ := rfl
  right_inv _ := rfl

def BLSToExecutionChange.fields : BLSToExecutionChange ≃ UInt64 × PubKey × Address × Unit where
  toFun x := (x.validatorIndex, x.fromBlsPubkey, x.toExecutionAddress, ())
  invFun := fun ⟨validatorIndex, fromBlsPubkey, toExecutionAddress, _⟩ =>
    ⟨validatorIndex, fromBlsPubkey, toExecutionAddress⟩
  left_inv _ := rfl
  right_inv _ := rfl

def SignedBLSToExecutionChange.fields : SignedBLSToExecutionChange ≃
    BLSToExecutionChange × BlsSignature × Unit where
  toFun x := (x.message, x.signature, ())
  invFun := fun ⟨message, signature, _⟩ => ⟨message, signature⟩
  left_inv _ := rfl
  right_inv _ := rfl

def Withdrawal.fields : Withdrawal ≃ UInt64 × UInt64 × Address × UInt64 × Unit where
  toFun x := (x.index, x.validatorIndex, x.address, x.amount, ())
  invFun := fun ⟨index, validatorIndex, address, amount, _⟩ =>
    ⟨index, validatorIndex, address, amount⟩
  left_inv _ := rfl
  right_inv _ := rfl

def DepositRequest.fields : DepositRequest ≃
    PubKey × B256 × UInt64 × BlsSignature × UInt64 × Unit where
  toFun x := (x.pubkey, x.withdrawalCredentials, x.amount, x.signature, x.index, ())
  invFun := fun ⟨pubkey, withdrawalCredentials, amount, signature, index, _⟩ =>
    ⟨pubkey, withdrawalCredentials, amount, signature, index⟩
  left_inv _ := rfl
  right_inv _ := rfl

def WithdrawalRequest.fields : WithdrawalRequest ≃ Address × PubKey × UInt64 × Unit where
  toFun x := (x.sourceAddress, x.validatorPubkey, x.amount, ())
  invFun := fun ⟨sourceAddress, validatorPubkey, amount, _⟩ =>
    ⟨sourceAddress, validatorPubkey, amount⟩
  left_inv _ := rfl
  right_inv _ := rfl

def ConsolidationRequest.fields : ConsolidationRequest ≃ Address × PubKey × PubKey × Unit where
  toFun x := (x.sourceAddress, x.sourcePubkey, x.targetPubkey, ())
  invFun := fun ⟨sourceAddress, sourcePubkey, targetPubkey, _⟩ =>
    ⟨sourceAddress, sourcePubkey, targetPubkey⟩
  left_inv _ := rfl
  right_inv _ := rfl

def ExecutionRequests.fields : ExecutionRequests ≃
    VariableList DepositRequest 8192 × VariableList WithdrawalRequest 16 ×
      VariableList ConsolidationRequest 2 × Unit where
  toFun x := (x.deposits, x.withdrawals, x.consolidations, ())
  invFun := fun ⟨deposits, withdrawals, consolidations, _⟩ =>
    ⟨deposits, withdrawals, consolidations⟩
  left_inv _ := rfl
  right_inv _ := rfl

def IndexedAttestation.fields (n : ℕ) : IndexedAttestation n ≃
    VariableList UInt64 n × AttestationData × BlsSignature × Unit where
  toFun x := (x.attestingIndices, x.data, x.signature, ())
  invFun := fun ⟨attestingIndices, data, signature, _⟩ => ⟨attestingIndices, data, signature⟩
  left_inv _ := rfl
  right_inv _ := rfl

def AttesterSlashing.fields (n : ℕ) : AttesterSlashing n ≃
    IndexedAttestation n × IndexedAttestation n × Unit where
  toFun x := (x.attestation1, x.attestation2, ())
  invFun := fun ⟨attestation1, attestation2, _⟩ => ⟨attestation1, attestation2⟩
  left_inv _ := rfl
  right_inv _ := rfl

def AttestationBase.fields : AttestationBase ≃
    BitList 2048 × AttestationData × BlsSignature × Unit where
  toFun x := (x.aggregationBits, x.data, x.signature, ())
  invFun := fun ⟨aggregationBits, data, signature, _⟩ => ⟨aggregationBits, data, signature⟩
  left_inv _ := rfl
  right_inv _ := rfl

def AttestationElectra.fields : AttestationElectra ≃
    BitList 131072 × AttestationData × BlsSignature × BitVector 64 × Unit where
  toFun x := (x.aggregationBits, x.data, x.signature, x.committeeBits, ())
  invFun := fun ⟨aggregationBits, data, signature, committeeBits, _⟩ =>
    ⟨aggregationBits, data, signature, committeeBits⟩
  left_inv _ := rfl
  right_inv _ := rfl

def ExecutionPayloadBellatrix.fieldsWith (β : Type) : ExecutionPayloadBellatrix × β ≃
    B256 × Address × B256 × B256 × FixedVector UInt8 256 × B256 × UInt64 × UInt64 × UInt64 ×
      UInt64 × ByteList32 × U256 × B256 × Transactions × β where
  toFun := fun ⟨x, rest⟩ =>
    (x.parentHash, x.feeRecipient, x.stateRoot, x.receiptsRoot, x.logsBloom, x.prevRandao,
      x.blockNumber, x.gasLimit, x.gasUsed, x.timestamp, x.extraData, x.baseFeePerGas,
      x.blockHash, x.transactions, rest)
  invFun := fun ⟨parentHash, feeRecipient, stateRoot, receiptsRoot, logsBloom, prevRandao,
      blockNumber, gasLimit, gasUsed, timestamp, extraData, baseFeePerGas, blockHash,
      transactions, rest⟩ =>
    (⟨parentHash, feeRecipient, stateRoot, receiptsRoot, logsBloom, prevRandao, blockNumber,
      gasLimit, gasUsed, timestamp, extraData, baseFeePerGas, blockHash, transactions⟩, rest)
  left_inv _ := rfl
  right_inv _ := rfl

def ExecutionPayloadCapella.fields : ExecutionPayloadCapella ≃
    ExecutionPayloadBellatrix × VariableList Withdrawal 16 × Unit where
  toFun x := (x.toExecutionPayloadBellatrix, x.withdrawals, ())
  invFun := fun ⟨x, withdrawals, _⟩ => ⟨x, withdrawals⟩
  left_inv _ := rfl
  right_inv _ := rfl

def ExecutionPayloadDeneb.fields : ExecutionPayloadDeneb ≃
    ExecutionPayloadBellatrix × VariableList Withdrawal 16 × UInt64 × UInt64 × Unit where
  toFun x := (x.toExecutionPayloadBellatrix, x.withdrawals, x.blobGasUsed, x.excessBlobGas, ())
  invFun := fun ⟨x, withdrawals, blobGasUsed, excessBlobGas, _⟩ =>
    ⟨⟨x, withdrawals⟩, blobGasUsed, excessBlobGas⟩
  left_inv _ := rfl
  right_inv _ := rfl

def ExecutionPayloadElectra.fields : ExecutionPayloadElectra ≃
    ExecutionPayloadBellatrix × VariableList Withdrawal 16 × UInt64 × UInt64 × Unit where
  toFun x := (x.toExecutionPayloadBellatrix, x.withdrawals, x.blobGasUsed, x.excessBlobGas, ())
  invFun := fun ⟨x, withdrawals, blobGasUsed, excessBlobGas, _⟩ =>
    ⟨⟨⟨x, withdrawals⟩, blobGasUsed, excessBlobGas⟩⟩
  left_inv _ := rfl
  right_inv _ := rfl

def BeaconBlockBodyBellatrix.fields : BeaconBlockBodyBellatrix ≃
    BlsSignature × Eth1Data × B256 × VariableList ProposerSlashing 16 ×
      VariableList AttesterSlashingBase 2 × VariableList AttestationBase 128 ×
      VariableList Deposit 16 × VariableList SignedVoluntaryExit 16 × SyncAggregate ×
      ExecutionPayloadBellatrix × Unit where
  toFun x := (x.randaoReveal, x.eth1Data, x.graffiti, x.proposerSlashings, x.attesterSlashings,
    x.attestations, x.deposits, x.voluntaryExits, x.syncAggregate, x.executionPayload, ())
  invFun := fun ⟨randaoReveal, eth1Data, graffiti, proposerSlashings, attesterSlashings,
      attestations, deposits, voluntaryExits, syncAggregate, executionPayload, _⟩ =>
    ⟨randaoReveal, eth1Data, graffiti, proposerSlashings, attesterSlashings, attestations,
      deposits, voluntaryExits, syncAggregate, executionPayload⟩
  left_inv _ := rfl
  right_inv _ := rfl

def BeaconBlockBodyCapella.fields : BeaconBlockBodyCapella ≃
    BlsSignature × Eth1Data × B256 × VariableList ProposerSlashing 16 ×
      VariableList AttesterSlashingBase 2 × VariableList AttestationBase 128 ×
      VariableList Deposit 16 × VariableList SignedVoluntaryExit 16 × SyncAggregate ×
      ExecutionPayloadCapella × VariableList SignedBLSToExecutionChange 16 × Unit where
  toFun x := (x.randaoReveal, x.eth1Data, x.graffiti, x.proposerSlashings, x.attesterSlashings,
    x.attestations, x.deposits, x.voluntaryExits, x.syncAggregate, x.executionPayload,
    x.blsToExecutionChanges, ())
  invFun := fun ⟨randaoReveal, eth1Data, graffiti, proposerSlashings, attesterSlashings,
      attestations, deposits, voluntaryExits, syncAggregate, executionPayload,
      blsToExecutionChanges, _⟩ =>
    ⟨randaoReveal, eth1Data, graffiti, proposerSlashings, attesterSlashings, attestations,
      deposits, voluntaryExits, syncAggregate, executionPayload, blsToExecutionChanges⟩
  left_inv _ := rfl
  right_inv _ := rfl

def BeaconBlockBodyDeneb.fields : BeaconBlockBodyDeneb ≃
    BlsSignature × Eth1Data × B256 × VariableList ProposerSlashing 16 ×
      VariableList AttesterSlashingBase 2 × VariableList AttestationBase 128 ×
      VariableList Deposit 16 × VariableList SignedVoluntaryExit 16 × SyncAggregate ×
      ExecutionPayloadDeneb × VariableList SignedBLSToExecutionChange 16 ×
      VariableList KzgCommitment 4096 × Unit where
  toFun x := (x.randaoReveal, x.eth1Data, x.graffiti, x.proposerSlashings, x.attesterSlashings,
    x.attestations, x.deposits, x.voluntaryExits, x.syncAggregate, x.executionPayload,
    x.blsToExecutionChanges, x.blobKzgCommitments, ())
  invFun := fun ⟨randaoReveal, eth1Data, graffiti, proposerSlashings, attesterSlashings,
      attestations, deposits, voluntaryExits, syncAggregate, executionPayload,
      blsToExecutionChanges, blobKzgCommitments, _⟩ =>
    ⟨randaoReveal, eth1Data, graffiti, proposerSlashings, attesterSlashings, attestations,
      deposits, voluntaryExits, syncAggregate, executionPayload, blsToExecutionChanges,
      blobKzgCommitments⟩
  left_inv _ := rfl
  right_inv _ := rfl

def BeaconBlockBodyElectra.fields : BeaconBlockBodyElectra ≃
    BlsSignature × Eth1Data × B256 × VariableList ProposerSlashing 16 ×
      VariableList AttesterSlashingElectra 1 × VariableList AttestationElectra 8 ×
      VariableList Deposit 16 × VariableList SignedVoluntaryExit 16 × SyncAggregate ×
      ExecutionPayloadElectra × VariableList SignedBLSToExecutionChange 16 ×
      VariableList KzgCommitment 4096 × ExecutionRequests × Unit where
  toFun x := (x.randaoReveal, x.eth1Data, x.graffiti, x.proposerSlashings, x.attesterSlashings,
    x.attestations, x.deposits, x.voluntaryExits, x.syncAggregate, x.executionPayload,
    x.blsToExecutionChanges, x.blobKzgCommitments, x.executionRequests, ())
  invFun := fun ⟨randaoReveal, eth1Data, graffiti, proposerSlashings, attesterSlashings,
      attestations, deposits, voluntaryExits, syncAggregate, executionPayload,
      blsToExecutionChanges, blobKzgCommitments, executionRequests, _⟩ =>
    ⟨randaoReveal, eth1Data, graffiti, proposerSlashings, attesterSlashings, attestations,
      deposits, voluntaryExits, syncAggregate, executionPayload, blsToExecutionChanges,
      blobKzgCommitments, executionRequests⟩
  left_inv _ := rfl
  right_inv _ := rfl

def BeaconBlockOf.fields (Body : Type) : BeaconBlockOf Body ≃
    UInt64 × UInt64 × B256 × B256 × Body × Unit where
  toFun x := (x.slot, x.proposerIndex, x.parentRoot, x.stateRoot, x.body, ())
  invFun := fun ⟨slot, proposerIndex, parentRoot, stateRoot, body, _⟩ =>
    ⟨slot, proposerIndex, parentRoot, stateRoot, body⟩
  left_inv _ := rfl
  right_inv _ := rfl

/-! ## 2. States -/

def Fork.fields : Fork ≃ FixedBytes 4 × FixedBytes 4 × Epoch × Unit where
  toFun x := (x.previousVersion, x.currentVersion, x.epoch, ())
  invFun := fun ⟨previousVersion, currentVersion, epoch, _⟩ =>
    ⟨previousVersion, currentVersion, epoch⟩
  left_inv _ := rfl
  right_inv _ := rfl

def Validator.fields : Validator ≃
    PubKey × B256 × UInt64 × Bool × Epoch × Epoch × Epoch × Epoch × Unit where
  toFun x := (x.pubkey, x.withdrawalCredentials, x.effectiveBalance, x.slashed,
    x.activationEligibilityEpoch, x.activationEpoch, x.exitEpoch, x.withdrawableEpoch, ())
  invFun := fun ⟨pubkey, withdrawalCredentials, effectiveBalance, slashed,
      activationEligibilityEpoch, activationEpoch, exitEpoch, withdrawableEpoch, _⟩ =>
    ⟨pubkey, withdrawalCredentials, effectiveBalance, slashed, activationEligibilityEpoch,
      activationEpoch, exitEpoch, withdrawableEpoch⟩
  left_inv _ := rfl
  right_inv _ := rfl

def SyncCommittee.fields : SyncCommittee ≃ FixedVector PubKey 512 × PubKey × Unit where
  toFun x := (x.pubkeys, x.aggregatePubkey, ())
  invFun := fun ⟨pubkeys, aggregatePubkey, _⟩ => ⟨pubkeys, aggregatePubkey⟩
  left_inv _ := rfl
  right_inv _ := rfl

def PendingDeposit.fields : PendingDeposit ≃
    PubKey × B256 × UInt64 × BlsSignature × UInt64 × Unit where
  toFun x := (x.pubkey, x.withdrawalCredentials, x.amount, x.signature, x.slot, ())
  invFun := fun ⟨pubkey, withdrawalCredentials, amount, signature, slot, _⟩ =>
    ⟨pubkey, withdrawalCredentials, amount, signature, slot⟩
  left_inv _ := rfl
  right_inv _ := rfl

def PendingPartialWithdrawal.fields : PendingPartialWithdrawal ≃
    UInt64 × UInt64 × Epoch × Unit where
  toFun x := (x.validatorIndex, x.amount, x.withdrawableEpoch, ())
  invFun := fun ⟨validatorIndex, amount, withdrawableEpoch, _⟩ =>
    ⟨validatorIndex, amount, withdrawableEpoch⟩
  left_inv _ := rfl
  right_inv _ := rfl

def PendingConsolidation.fields : PendingConsolidation ≃ UInt64 × UInt64 × Unit where
  toFun x := (x.sourceIndex, x.targetIndex, ())
  invFun := fun ⟨sourceIndex, targetIndex, _⟩ => ⟨sourceIndex, targetIndex⟩
  left_inv _ := rfl
  right_inv _ := rfl

def HistoricalSummary.fields : HistoricalSummary ≃ B256 × B256 × Unit where
  toFun x := (x.blockSummaryRoot, x.stateSummaryRoot, ())
  invFun := fun ⟨blockSummaryRoot, stateSummaryRoot, _⟩ => ⟨blockSummaryRoot, stateSummaryRoot⟩
  left_inv _ := rfl
  right_inv _ := rfl

def ExecutionPayloadHeaderBellatrix.fieldsWith (β : Type) : ExecutionPayloadHeaderBellatrix × β ≃
    B256 × Address × B256 × B256 × FixedVector UInt8 256 × B256 × UInt64 × UInt64 × UInt64 ×
      UInt64 × ByteList32 × U256 × B256 × B256 × β where
  toFun := fun ⟨x, rest⟩ =>
    (x.parentHash, x.feeRecipient, x.stateRoot, x.receiptsRoot, x.logsBloom, x.prevRandao,
      x.blockNumber, x.gasLimit, x.gasUsed, x.timestamp, x.extraData, x.baseFeePerGas,
      x.blockHash, x.transactionsRoot, rest)
  invFun := fun ⟨parentHash, feeRecipient, stateRoot, receiptsRoot, logsBloom, prevRandao,
      blockNumber, gasLimit, gasUsed, timestamp, extraData, baseFeePerGas, blockHash,
      transactionsRoot, rest⟩ =>
    (⟨parentHash, feeRecipient, stateRoot, receiptsRoot, logsBloom, prevRandao, blockNumber,
      gasLimit, gasUsed, timestamp, extraData, baseFeePerGas, blockHash, transactionsRoot⟩, rest)
  left_inv _ := rfl
  right_inv _ := rfl

def ExecutionPayloadHeaderCapella.fields : ExecutionPayloadHeaderCapella ≃
    ExecutionPayloadHeaderBellatrix × B256 × Unit where
  toFun x := (x.toExecutionPayloadHeaderBellatrix, x.withdrawalsRoot, ())
  invFun := fun ⟨x, withdrawalsRoot, _⟩ => ⟨x, withdrawalsRoot⟩
  left_inv _ := rfl
  right_inv _ := rfl

def ExecutionPayloadHeaderDeneb.fields : ExecutionPayloadHeaderDeneb ≃
    ExecutionPayloadHeaderBellatrix × B256 × UInt64 × UInt64 × Unit where
  toFun x := (x.toExecutionPayloadHeaderBellatrix, x.withdrawalsRoot, x.blobGasUsed,
    x.excessBlobGas, ())
  invFun := fun ⟨x, withdrawalsRoot, blobGasUsed, excessBlobGas, _⟩ =>
    ⟨⟨x, withdrawalsRoot⟩, blobGasUsed, excessBlobGas⟩
  left_inv _ := rfl
  right_inv _ := rfl

def ExecutionPayloadHeaderElectra.fields : ExecutionPayloadHeaderElectra ≃
    ExecutionPayloadHeaderBellatrix × B256 × UInt64 × UInt64 × Unit where
  toFun x := (x.toExecutionPayloadHeaderBellatrix, x.withdrawalsRoot, x.blobGasUsed,
    x.excessBlobGas, ())
  invFun := fun ⟨x, withdrawalsRoot, blobGasUsed, excessBlobGas, _⟩ =>
    ⟨⟨⟨x, withdrawalsRoot⟩, blobGasUsed, excessBlobGas⟩⟩
  left_inv _ := rfl
  right_inv _ := rfl

def BeaconStateOf.fieldsWith (PayloadHeader β : Type) : BeaconStateOf PayloadHeader × β ≃
    UInt64 × B256 × UInt64 × Fork × BeaconBlockHeader × RootsPerHistoricalRoot ×
      RootsPerHistoricalRoot × HistoricalRoots × Eth1Data × VariableList Eth1Data 2048 × UInt64 ×
      VariableList Validator 1099511627776 × VariableList UInt64 1099511627776 ×
      FixedVector B256 65536 × FixedVector UInt64 8192 ×
      VariableList ParticipationFlags 1099511627776 ×
      VariableList ParticipationFlags 1099511627776 × BitVector 4 × Checkpoint × Checkpoint ×
      Checkpoint × VariableList UInt64 1099511627776 × SyncCommittee × SyncCommittee ×
      PayloadHeader × β where
  toFun := fun ⟨x, rest⟩ =>
    (x.genesisTime, x.genesisValidatorsRoot, x.slot, x.fork, x.latestBlockHeader, x.blockRoots,
      x.stateRoots, x.historicalRoots, x.eth1Data, x.eth1DataVotes, x.eth1DepositIndex,
      x.validators, x.balances, x.randaoMixes, x.slashings, x.previousEpochParticipation,
      x.currentEpochParticipation, x.justificationBits, x.previousJustifiedCheckpoint,
      x.currentJustifiedCheckpoint, x.finalizedCheckpoint, x.inactivityScores,
      x.currentSyncCommittee, x.nextSyncCommittee, x.latestExecutionPayloadHeader, rest)
  invFun := fun ⟨genesisTime, genesisValidatorsRoot, slot, fork, latestBlockHeader, blockRoots,
      stateRoots, historicalRoots, eth1Data, eth1DataVotes, eth1DepositIndex, validators,
      balances, randaoMixes, slashings, previousEpochParticipation, currentEpochParticipation,
      justificationBits, previousJustifiedCheckpoint, currentJustifiedCheckpoint,
      finalizedCheckpoint, inactivityScores, currentSyncCommittee, nextSyncCommittee,
      latestExecutionPayloadHeader, rest⟩ =>
    (⟨genesisTime, genesisValidatorsRoot, slot, fork, latestBlockHeader, blockRoots, stateRoots,
      historicalRoots, eth1Data, eth1DataVotes, eth1DepositIndex, validators, balances,
      randaoMixes, slashings, previousEpochParticipation, currentEpochParticipation,
      justificationBits, previousJustifiedCheckpoint, currentJustifiedCheckpoint,
      finalizedCheckpoint, inactivityScores, currentSyncCommittee, nextSyncCommittee,
      latestExecutionPayloadHeader⟩, rest)
  left_inv _ := rfl
  right_inv _ := rfl

def BeaconStateFromCapella.fieldsWith (PayloadHeader β : Type) :
    BeaconStateFromCapella PayloadHeader × β ≃
      BeaconStateOf PayloadHeader × UInt64 × UInt64 × HistoricalSummaries × β where
  toFun := fun ⟨x, rest⟩ =>
    (x.toBeaconStateOf, x.nextWithdrawalIndex, x.nextWithdrawalValidatorIndex,
      x.historicalSummaries, rest)
  invFun := fun ⟨x, nextWithdrawalIndex, nextWithdrawalValidatorIndex, historicalSummaries,
      rest⟩ =>
    (⟨x, nextWithdrawalIndex, nextWithdrawalValidatorIndex, historicalSummaries⟩, rest)
  left_inv _ := rfl
  right_inv _ := rfl

def BeaconStateElectra.fields : BeaconStateElectra ≃
    BeaconStateFromCapella ExecutionPayloadHeaderElectra × UInt64 × UInt64 × UInt64 × Epoch ×
      UInt64 × Epoch × VariableList PendingDeposit 134217728 ×
      VariableList PendingPartialWithdrawal 134217728 × VariableList PendingConsolidation 262144 ×
      Unit where
  toFun x := (x.toBeaconStateFromCapella, x.depositRequestsStartIndex, x.depositBalanceToConsume,
    x.exitBalanceToConsume, x.earliestExitEpoch, x.consolidationBalanceToConsume,
    x.earliestConsolidationEpoch, x.pendingDeposits, x.pendingPartialWithdrawals,
    x.pendingConsolidations, ())
  invFun := fun ⟨x, depositRequestsStartIndex, depositBalanceToConsume, exitBalanceToConsume,
      earliestExitEpoch, consolidationBalanceToConsume, earliestConsolidationEpoch,
      pendingDeposits, pendingPartialWithdrawals, pendingConsolidations, _⟩ =>
    ⟨x, depositRequestsStartIndex, depositBalanceToConsume, exitBalanceToConsume,
      earliestExitEpoch, consolidationBalanceToConsume, earliestConsolidationEpoch,
      pendingDeposits, pendingPartialWithdrawals, pendingConsolidations⟩
  left_inv _ := rfl
  right_inv _ := rfl

end EthHistorian
