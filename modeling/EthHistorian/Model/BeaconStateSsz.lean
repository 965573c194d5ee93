/-
# The SSZ forms of the beacon states

The derived readers of the four states, with those of what only a state holds.  A state is a record
like a block, but has no list of variable items, so its reader gives the errors of a container and
no others.  `stateDecoder` puts the four together: it is the `StateDecoder` that a beacon node's
source is handed.
-/
import EthHistorian.Model.BeaconRpc
import EthHistorian.Model.ConsensusSsz

namespace EthHistorian

open Ssz (Fields Ty)

section

variable {ε β : Type} [Ssz.Refusal ε]

/-! ## 1. What a state is made of -/

def sszFork : Ty ε Fork :=
  Fields.record (.cons sszVersion <| .cons sszVersion <| .cons sszU64 .nil) Fork.fields

def sszValidator : Ty ε Validator :=
  Fields.record
    (.cons sszPubKey <| .cons sszHash <| .cons sszU64 <| .cons sszBool <| .cons sszU64 <|
      .cons sszU64 <| .cons sszU64 <| .cons sszU64 .nil)
    Validator.fields

/-- The byte, and no more. -/
def sszParticipationFlags : Ty ε ParticipationFlags :=
  sszU8.map ⟨ParticipationFlags.bits, ParticipationFlags.mk, fun _ => rfl, fun _ => rfl⟩

def sszSyncCommittee : Ty ε SyncCommittee :=
  Fields.record
    (.cons (sszVector 512 48 sszPubKey rfl) <| .cons sszPubKey .nil)
    SyncCommittee.fields

def sszPendingDeposit : Ty ε PendingDeposit :=
  Fields.record
    (.cons sszPubKey <| .cons sszHash <| .cons sszU64 <| .cons sszBlsSignature <|
      .cons sszU64 .nil)
    PendingDeposit.fields

def sszPendingPartialWithdrawal : Ty ε PendingPartialWithdrawal :=
  Fields.record (.cons sszU64 <| .cons sszU64 <| .cons sszU64 .nil)
    PendingPartialWithdrawal.fields

def sszPendingConsolidation : Ty ε PendingConsolidation :=
  Fields.record (.cons sszU64 <| .cons sszU64 .nil) PendingConsolidation.fields

def sszHistoricalSummary : Ty ε HistoricalSummary :=
  Fields.record (.cons sszHash <| .cons sszHash .nil) HistoricalSummary.fields

def sszHistoricalSummaries : Ty ε HistoricalSummaries :=
  sszList 16777216 64 sszHistoricalSummary rfl Fields.strict_record

def sszRootsPerHistoricalRoot : Ty ε RootsPerHistoricalRoot :=
  sszVector 8192 32 sszHash slot_sszHash

/-! ## 2. Execution payload headers -/

/-- The fields every fork's header starts with, and those that follow. -/
def executionPayloadHeaderFields (rest : Fields ε β) :
    Fields ε (ExecutionPayloadHeaderBellatrix × β) :=
  Fields.map
    (.cons sszHash <| .cons sszAddress <| .cons sszHash <| .cons sszHash <|
      .cons (sszVector 256 1 sszU8 slot_sszU8) <| .cons sszHash <|
      .cons sszU64 <| .cons sszU64 <| .cons sszU64 <| .cons sszU64 <| .cons (sszByteList 32) <|
      .cons sszU256 <| .cons sszHash <| .cons sszHash rest)
    (ExecutionPayloadHeaderBellatrix.fieldsWith β)

def sszExecutionPayloadHeaderBellatrix : Ty ε ExecutionPayloadHeaderBellatrix :=
  Fields.record (executionPayloadHeaderFields .nil) (Equiv.prodPUnit _).symm

def sszExecutionPayloadHeaderCapella : Ty ε ExecutionPayloadHeaderCapella :=
  Fields.record (executionPayloadHeaderFields <| .cons sszHash .nil)
    ExecutionPayloadHeaderCapella.fields

def sszExecutionPayloadHeaderDeneb : Ty ε ExecutionPayloadHeaderDeneb :=
  Fields.record
    (executionPayloadHeaderFields <| .cons sszHash <| .cons sszU64 <| .cons sszU64 .nil)
    ExecutionPayloadHeaderDeneb.fields

def sszExecutionPayloadHeaderElectra : Ty ε ExecutionPayloadHeaderElectra :=
  Fields.record
    (executionPayloadHeaderFields <| .cons sszHash <| .cons sszU64 <| .cons sszU64 .nil)
    ExecutionPayloadHeaderElectra.fields

/-! ## 3. States -/

/-- One item for each validator. -/
def sszPerValidator {α : Type} (n : ℕ) [Size n] (T : Ty ε α) (hslot : T.slot = .fixed n)
    (hstrict : T.Strict) : Ty ε (VariableList α 1099511627776) :=
  sszList 1099511627776 n T hslot hstrict

/-- The fields every fork's state starts with, and those that follow. -/
def beaconStateFields {PayloadHeader : Type} (payloadHeader : Ty ε PayloadHeader)
    (rest : Fields ε β) : Fields ε (BeaconStateOf PayloadHeader × β) :=
  Fields.map
    (.cons sszU64 <| .cons sszHash <| .cons sszU64 <| .cons sszFork <|
      .cons sszBeaconBlockHeader <| .cons sszRootsPerHistoricalRoot <|
      .cons sszRootsPerHistoricalRoot <|
      .cons (sszList 16777216 32 sszHash slot_sszHash strict_sszHash) <|
      .cons sszEth1Data <|
      .cons (sszList 2048 72 sszEth1Data rfl Fields.strict_record) <|
      .cons sszU64 <|
      .cons (sszPerValidator 121 sszValidator rfl Fields.strict_record) <|
      .cons (sszPerValidator 8 sszU64 slot_sszU64 strict_sszU64) <|
      .cons (sszVector 65536 32 sszHash slot_sszHash) <|
      .cons (sszVector 8192 8 sszU64 slot_sszU64) <|
      .cons (sszPerValidator 1 sszParticipationFlags rfl
        (Ty.strict_ofFixed _).map) <|
      .cons (sszPerValidator 1 sszParticipationFlags rfl
        (Ty.strict_ofFixed _).map) <|
      .cons (sszBitVector 4) <| .cons sszCheckpoint <| .cons sszCheckpoint <|
      .cons sszCheckpoint <|
      .cons (sszPerValidator 8 sszU64 slot_sszU64 strict_sszU64) <|
      .cons sszSyncCommittee <| .cons sszSyncCommittee <| .cons payloadHeader rest)
    (BeaconStateOf.fieldsWith PayloadHeader β)

/-- Those of Capella's, after the ones it inherits. -/
def beaconStateFromCapellaFields {PayloadHeader : Type} (payloadHeader : Ty ε PayloadHeader)
    (rest : Fields ε β) : Fields ε (BeaconStateFromCapella PayloadHeader × β) :=
  Fields.map
    (beaconStateFields payloadHeader <| .cons sszU64 <| .cons sszU64 <|
      .cons sszHistoricalSummaries rest)
    (BeaconStateFromCapella.fieldsWith PayloadHeader β)

def sszBeaconStateBellatrix : Ty ε BeaconStateBellatrix :=
  Fields.record (beaconStateFields sszExecutionPayloadHeaderBellatrix .nil)
    (Equiv.prodPUnit _).symm

def sszBeaconStateCapella : Ty ε BeaconStateCapella :=
  Fields.record (beaconStateFromCapellaFields sszExecutionPayloadHeaderCapella .nil)
    (Equiv.prodPUnit _).symm

def sszBeaconStateDeneb : Ty ε BeaconStateDeneb :=
  Fields.record (beaconStateFromCapellaFields sszExecutionPayloadHeaderDeneb .nil)
    (Equiv.prodPUnit _).symm

def sszBeaconStateElectra : Ty ε BeaconStateElectra :=
  Fields.record
    (beaconStateFromCapellaFields sszExecutionPayloadHeaderElectra <|
      .cons sszU64 <| .cons sszU64 <| .cons sszU64 <| .cons sszU64 <| .cons sszU64 <|
      .cons sszU64 <|
      .cons (sszList 134217728 192 sszPendingDeposit rfl Fields.strict_record) <|
      .cons (sszList 134217728 24 sszPendingPartialWithdrawal rfl
        Fields.strict_record) <|
      .cons (sszList 262144 16 sszPendingConsolidation rfl
        Fields.strict_record) .nil)
    BeaconStateElectra.fields

end

end EthHistorian
