/-
# The SSZ forms of the consensus containers

The derived `Encode` and `Decode` of `src/portal_types/consensus/`: a container's fields in the
order they are declared, nothing more, so each form is `Fields.record` at its own fields, and its
laws come with it.  The four blocks of the source have no tag that tells them apart; the reader is
told the fork.

`SignedBeaconBlock::from_ssz_bytes_with` is written out by hand, since the block's reader is an
argument of it.
-/
import EthHistorian.Model.Containers
import EthHistorian.Model.SszValues

namespace EthHistorian

open Ssz (Fields Ty)

/-! ## 1. Containers of fixed width -/

section

variable {ε : Type} [Ssz.Refusal ε]

def sszCheckpoint : Ty ε Checkpoint :=
  Fields.record (.cons sszU64 <| .cons sszHash .nil) Checkpoint.fields

def sszEth1Data : Ty ε Eth1Data :=
  Fields.record (.cons sszHash <| .cons sszU64 <| .cons sszHash .nil) Eth1Data.fields

def sszBeaconBlockHeader : Ty ε BeaconBlockHeader :=
  Fields.record
    (.cons sszU64 <| .cons sszU64 <| .cons sszHash <| .cons sszHash <| .cons sszHash .nil)
    BeaconBlockHeader.fields

def sszSignedBeaconBlockHeader : Ty ε SignedBeaconBlockHeader :=
  Fields.record (.cons sszBeaconBlockHeader <| .cons sszBlsSignature .nil)
    SignedBeaconBlockHeader.fields

def sszProposerSlashing : Ty ε ProposerSlashing :=
  Fields.record (.cons sszSignedBeaconBlockHeader <| .cons sszSignedBeaconBlockHeader .nil)
    ProposerSlashing.fields

def sszAttestationData : Ty ε AttestationData :=
  Fields.record
    (.cons sszU64 <| .cons sszU64 <| .cons sszHash <| .cons sszCheckpoint <|
      .cons sszCheckpoint .nil)
    AttestationData.fields

def sszDepositData : Ty ε DepositData :=
  Fields.record (.cons sszPubKey <| .cons sszHash <| .cons sszU64 <| .cons sszBlsSignature .nil)
    DepositData.fields

def sszDeposit : Ty ε Deposit :=
  Fields.record
    (.cons (sszVector 33 32 sszHash slot_sszHash) <| .cons sszDepositData .nil)
    Deposit.fields

def sszVoluntaryExit : Ty ε VoluntaryExit :=
  Fields.record (.cons sszU64 <| .cons sszU64 .nil) VoluntaryExit.fields

def sszSignedVoluntaryExit : Ty ε SignedVoluntaryExit :=
  Fields.record (.cons sszVoluntaryExit <| .cons sszBlsSignature .nil) SignedVoluntaryExit.fields

def sszSyncAggregate : Ty ε SyncAggregate :=
  Fields.record (.cons (sszBitVector 512) <| .cons sszBlsSignature .nil)
    SyncAggregate.fields

def sszBLSToExecutionChange : Ty ε BLSToExecutionChange :=
  Fields.record (.cons sszU64 <| .cons sszPubKey <| .cons sszAddress .nil)
    BLSToExecutionChange.fields

def sszSignedBLSToExecutionChange : Ty ε SignedBLSToExecutionChange :=
  Fields.record (.cons sszBLSToExecutionChange <| .cons sszBlsSignature .nil)
    SignedBLSToExecutionChange.fields

def sszWithdrawal : Ty ε Withdrawal :=
  Fields.record (.cons sszU64 <| .cons sszU64 <| .cons sszAddress <| .cons sszU64 .nil)
    Withdrawal.fields

def sszDepositRequest : Ty ε DepositRequest :=
  Fields.record
    (.cons sszPubKey <| .cons sszHash <| .cons sszU64 <| .cons sszBlsSignature <|
      .cons sszU64 .nil)
    DepositRequest.fields

def sszWithdrawalRequest : Ty ε WithdrawalRequest :=
  Fields.record (.cons sszAddress <| .cons sszPubKey <| .cons sszU64 .nil)
    WithdrawalRequest.fields

def sszConsolidationRequest : Ty ε ConsolidationRequest :=
  Fields.record (.cons sszAddress <| .cons sszPubKey <| .cons sszPubKey .nil)
    ConsolidationRequest.fields

/-! ## 2. Containers of variable width -/

def sszExecutionRequests : Ty ε ExecutionRequests :=
  Fields.record
    (.cons (sszList 8192 192 sszDepositRequest rfl Fields.strict_record) <|
      .cons (sszList 16 76 sszWithdrawalRequest rfl Fields.strict_record) <|
      .cons (sszList 2 116 sszConsolidationRequest rfl Fields.strict_record) .nil)
    ExecutionRequests.fields

def sszIndexedAttestation (n : ℕ) : Ty ε (IndexedAttestation n) :=
  Fields.record
    (.cons (sszList n 8 sszU64 slot_sszU64 strict_sszU64) <|
      .cons sszAttestationData <| .cons sszBlsSignature .nil)
    (IndexedAttestation.fields n)

def sszAttesterSlashing (n : ℕ) : Ty ε (AttesterSlashing n) :=
  Fields.record (.cons (sszIndexedAttestation n) <| .cons (sszIndexedAttestation n) .nil)
    (AttesterSlashing.fields n)

def sszAttestationBase : Ty ε AttestationBase :=
  Fields.record
    (.cons (sszBitList 2048) <| .cons sszAttestationData <| .cons sszBlsSignature .nil)
    AttestationBase.fields

def sszAttestationElectra : Ty ε AttestationElectra :=
  Fields.record
    (.cons (sszBitList 131072) <| .cons sszAttestationData <| .cons sszBlsSignature <|
      .cons (sszBitVector 64) .nil)
    AttestationElectra.fields

end

/-! ## 3. Execution payloads -/

section

variable {ε β : Type} [Ssz.ListRefusal ε]

def sszTransactions : Ty ε Transactions := sszVariableList 1048576 (sszByteList 1073741824) rfl

/-- The fields every fork's payload starts with, and those that follow. -/
def executionPayloadFields (rest : Fields ε β) : Fields ε (ExecutionPayloadBellatrix × β) :=
  Fields.map
    (.cons sszHash <| .cons sszAddress <| .cons sszHash <| .cons sszHash <|
      .cons (sszVector 256 1 sszU8 slot_sszU8) <| .cons sszHash <|
      .cons sszU64 <| .cons sszU64 <| .cons sszU64 <| .cons sszU64 <| .cons (sszByteList 32) <|
      .cons sszU256 <| .cons sszHash <| .cons sszTransactions rest)
    (ExecutionPayloadBellatrix.fieldsWith β)

def sszWithdrawals : Ty ε (VariableList Withdrawal 16) :=
  sszList 16 44 sszWithdrawal rfl Fields.strict_record

def sszExecutionPayloadBellatrix : Ty ε ExecutionPayloadBellatrix :=
  Fields.record (executionPayloadFields .nil) (Equiv.prodPUnit _).symm

def sszExecutionPayloadCapella : Ty ε ExecutionPayloadCapella :=
  Fields.record (executionPayloadFields <| .cons sszWithdrawals .nil)
    ExecutionPayloadCapella.fields

def sszExecutionPayloadDeneb : Ty ε ExecutionPayloadDeneb :=
  Fields.record
    (executionPayloadFields <| .cons sszWithdrawals <| .cons sszU64 <| .cons sszU64 .nil)
    ExecutionPayloadDeneb.fields

def sszExecutionPayloadElectra : Ty ε ExecutionPayloadElectra :=
  Fields.record
    (executionPayloadFields <| .cons sszWithdrawals <| .cons sszU64 <| .cons sszU64 .nil)
    ExecutionPayloadElectra.fields

/-! ## 4. Blocks -/

set_option maxRecDepth 2048 in
def sszProposerSlashings : Ty ε (VariableList ProposerSlashing 16) :=
  sszList 16 416 sszProposerSlashing rfl Fields.strict_record

def sszAttesterSlashings : Ty ε (VariableList AttesterSlashingBase 2) :=
  sszVariableList 2 (sszAttesterSlashing 2048) rfl

def sszAttestations : Ty ε (VariableList AttestationBase 128) :=
  sszVariableList 128 sszAttestationBase rfl

def sszDeposits : Ty ε (VariableList Deposit 16) :=
  sszList 16 1240 sszDeposit rfl Fields.strict_record

def sszVoluntaryExits : Ty ε (VariableList SignedVoluntaryExit 16) :=
  sszList 16 112 sszSignedVoluntaryExit rfl Fields.strict_record

def sszBlsToExecutionChanges : Ty ε (VariableList SignedBLSToExecutionChange 16) :=
  sszList 16 172 sszSignedBLSToExecutionChange rfl Fields.strict_record

def sszKzgCommitments : Ty ε (VariableList KzgCommitment 4096) :=
  sszList 4096 48 sszKzgCommitment rfl (Ty.strict_ofFixed _).map

def sszBeaconBlockBodyBellatrix : Ty ε BeaconBlockBodyBellatrix :=
  Fields.record
    (.cons sszBlsSignature <| .cons sszEth1Data <| .cons sszHash <| .cons sszProposerSlashings <|
      .cons sszAttesterSlashings <| .cons sszAttestations <| .cons sszDeposits <|
      .cons sszVoluntaryExits <| .cons sszSyncAggregate <|
      .cons sszExecutionPayloadBellatrix .nil)
    BeaconBlockBodyBellatrix.fields

def sszBeaconBlockBodyCapella : Ty ε BeaconBlockBodyCapella :=
  Fields.record
    (.cons sszBlsSignature <| .cons sszEth1Data <| .cons sszHash <| .cons sszProposerSlashings <|
      .cons sszAttesterSlashings <| .cons sszAttestations <| .cons sszDeposits <|
      .cons sszVoluntaryExits <| .cons sszSyncAggregate <|
      .cons sszExecutionPayloadCapella <| .cons sszBlsToExecutionChanges .nil)
    BeaconBlockBodyCapella.fields

def sszBeaconBlockBodyDeneb : Ty ε BeaconBlockBodyDeneb :=
  Fields.record
    (.cons sszBlsSignature <| .cons sszEth1Data <| .cons sszHash <| .cons sszProposerSlashings <|
      .cons sszAttesterSlashings <| .cons sszAttestations <| .cons sszDeposits <|
      .cons sszVoluntaryExits <| .cons sszSyncAggregate <|
      .cons sszExecutionPayloadDeneb <| .cons sszBlsToExecutionChanges <|
      .cons sszKzgCommitments .nil)
    BeaconBlockBodyDeneb.fields

def sszBeaconBlockBodyElectra : Ty ε BeaconBlockBodyElectra :=
  Fields.record
    (.cons sszBlsSignature <| .cons sszEth1Data <| .cons sszHash <| .cons sszProposerSlashings <|
      .cons (sszVariableList 1 (sszAttesterSlashing 131072) rfl) <|
      .cons (sszVariableList 8 sszAttestationElectra rfl) <| .cons sszDeposits <|
      .cons sszVoluntaryExits <| .cons sszSyncAggregate <|
      .cons sszExecutionPayloadElectra <| .cons sszBlsToExecutionChanges <|
      .cons sszKzgCommitments <| .cons sszExecutionRequests .nil)
    BeaconBlockBodyElectra.fields

/-- The block of a fork, by its body. -/
def sszBeaconBlockOf {Body : Type} (body : Ty ε Body) : Ty ε (BeaconBlockOf Body) :=
  Fields.record
    (.cons sszU64 <| .cons sszU64 <| .cons sszHash <| .cons sszHash <| .cons body .nil)
    (BeaconBlockOf.fields Body)

def sszBeaconBlockBellatrix : Ty ε BeaconBlockBellatrix :=
  sszBeaconBlockOf sszBeaconBlockBodyBellatrix

def sszBeaconBlockCapella : Ty ε BeaconBlockCapella := sszBeaconBlockOf sszBeaconBlockBodyCapella

def sszBeaconBlockDeneb : Ty ε BeaconBlockDeneb := sszBeaconBlockOf sszBeaconBlockBodyDeneb

def sszBeaconBlockElectra : Ty ε BeaconBlockElectra := sszBeaconBlockOf sszBeaconBlockBodyElectra

end

end EthHistorian
