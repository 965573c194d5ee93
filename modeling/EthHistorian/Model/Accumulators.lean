/-
# The accumulators, as bytes

What the crate reads from files and from its own binary: epoch accumulators
(`portal_types/execution/accumulator.rs`, `proof_construction.rs`), the two canonized accumulators
(`accumulator.rs`, `historical_roots_acc.rs`), and the summaries that a Portal client sends
(`portal_types/consensus/historical_summaries.rs`).  Their SSZ forms and their roots are derived,
`HistoricalRootsAccumulator` apart, which hands both on to its list.
-/
import EthHistorian.Model.ArchiveRpc
import EthHistorian.Model.BeaconStateSsz
import EthHistorian.Model.Commitments

namespace EthHistorian

open Ssz (Fields Ty)

/-! ## 1. Fields and roots -/

def HeaderRecord.fields : HeaderRecord ≃ B256 × U256 × Unit where
  toFun x := (x.blockHash, x.totalDifficulty, ())
  invFun := fun ⟨blockHash, totalDifficulty, _⟩ => ⟨blockHash, totalDifficulty⟩
  left_inv _ := rfl
  right_inv _ := rfl

def HistoricalBatch.fields : HistoricalBatch ≃
    RootsPerHistoricalRoot × RootsPerHistoricalRoot × Unit where
  toFun x := (x.blockRoots, x.stateRoots, ())
  invFun := fun ⟨blockRoots, stateRoots, _⟩ => ⟨blockRoots, stateRoots⟩
  left_inv _ := rfl
  right_inv _ := rfl

def PreMergeAccumulator.fields : PreMergeAccumulator ≃ VariableList B256 131072 × Unit where
  toFun x := (x.historicalEpochs, ())
  invFun := fun ⟨historicalEpochs, _⟩ => ⟨historicalEpochs⟩
  left_inv _ := rfl
  right_inv _ := rfl

structure HistoricalSummariesWithProof where
  epoch : UInt64
  historicalSummaries : HistoricalSummaries
  proof : HistoricalSummariesProof

def HistoricalSummariesWithProof.fields : HistoricalSummariesWithProof ≃
    UInt64 × HistoricalSummaries × HistoricalSummariesProof × Unit where
  toFun x := (x.epoch, x.historicalSummaries, x.proof, ())
  invFun := fun ⟨epoch, historicalSummaries, proof, _⟩ => ⟨epoch, historicalSummaries, proof⟩
  left_inv _ := rfl
  right_inv _ := rfl

instance : TreeHash PreMergeAccumulator where
  packed := none
  treeHashRoot c x := containerRoot c [treeHashRoot c x.historicalEpochs]

instance : TreeHash HistoricalRootsAccumulator where
  packed := none
  treeHashRoot c x := treeHashRoot c x.historicalRoots

/-! ## 2. SSZ forms -/

section

variable {ε : Type} [Ssz.Refusal ε]

def sszHeaderRecord : Ty ε HeaderRecord :=
  Fields.record (.cons sszHash <| .cons sszU256 .nil) HeaderRecord.fields

def sszEpochAccumulator : Ty ε EpochAccumulator :=
  sszList 8192 64 sszHeaderRecord rfl Fields.strict_record

def sszPreMergeAccumulator : Ty ε PreMergeAccumulator :=
  Fields.record
    (.cons (sszList 131072 32 sszHash slot_sszHash strict_sszHash) .nil)
    PreMergeAccumulator.fields

def sszHistoricalRootsList : Ty ε HistoricalRoots :=
  sszList 16777216 32 sszHash slot_sszHash strict_sszHash

def sszHistoricalRootsAccumulator : Ty ε HistoricalRootsAccumulator :=
  sszHistoricalRootsList.map
    ⟨HistoricalRootsAccumulator.historicalRoots, HistoricalRootsAccumulator.mk, fun _ => rfl,
      fun _ => rfl⟩

def sszHistoricalSummariesWithProof : Ty ε HistoricalSummariesWithProof :=
  Fields.record
    (.cons sszU64 <| .cons sszHistoricalSummaries <|
      .cons (sszVector 6 32 sszHash slot_sszHash) .nil)
    HistoricalSummariesWithProof.fields

end

/-! ## 3. Epochs from files -/

def decodeEpochAccumulator (bytes : List UInt8) : Outcome Error EpochAccumulator :=
  (sszEpochAccumulator.dec bytes).mapErr fun e : Ssz.DecodeError =>
    .proofConstruction s!"EpochAccumulator SSZ decode failed: {e.debug}"

/-- A directory, and what reading a path gives: the bytes, or the system's error as displayed. -/
structure FilesystemEpochProvider where
  root : String
  read : String → Except String (List UInt8)

namespace FilesystemEpochProvider

/-- `root.join(format!("epoch_{}.bin", epoch_index))`. -/
def candidate (provider : FilesystemEpochProvider) (epochIndex : UInt64) : String :=
  if provider.root = "" ∨ provider.root.endsWith "/" then
    s!"{provider.root}epoch_{epochIndex}.bin"
  else s!"{provider.root}/epoch_{epochIndex}.bin"

def getEpochAccumulator (provider : FilesystemEpochProvider) (epochIndex : UInt64) :
    Outcome Error EpochAccumulator := do
  let candidate := provider.candidate epochIndex
  let bytes ← (Outcome.ofExcept (provider.read candidate)).mapErr fun e =>
    .dataSource s!"no EpochAccumulator at {candidate}: {e}"
  decodeEpochAccumulator bytes

def provider (files : FilesystemEpochProvider) : EpochProvider := ⟨files.getEpochAccumulator⟩

/-- **A directory has an epoch** when its file has the epoch's bytes. -/
theorem getEpochAccumulator_eq_ok {files : FilesystemEpochProvider} {epochIndex : UInt64}
    {E : EpochAccumulator} :
    files.getEpochAccumulator epochIndex = .ok E ↔
      files.read (files.candidate epochIndex)
        = .ok ((sszEpochAccumulator : Ty Ssz.DecodeError _).enc E) := by
  have hstrict : (sszEpochAccumulator : Ty Ssz.DecodeError _).Strict :=
    Ty.strict_of_dynamic rfl
  simp only [getEpochAccumulator, decodeEpochAccumulator, Outcome.bind_eq_ok,
    Outcome.mapErr_eq_ok, Outcome.ofExcept_eq_ok, hstrict.dec_eq_ok]
  constructor
  · rintro ⟨bytes, hread, -, rfl⟩
    exact hread
  · intro hread
    exact ⟨_, hread, valid_sszList (by norm_num) E, rfl⟩

end FilesystemEpochProvider

/-! ## 4. Roots that bind -/

instance : Commits HeaderRecord := .ofFields HeaderRecord.fields fun _ _ => rfl
instance : CommitsItems HeaderRecord := .ofRoots rfl
instance : Commits HistoricalBatch := .ofFields HistoricalBatch.fields fun _ _ => rfl
instance : Commits PreMergeAccumulator := .ofFields PreMergeAccumulator.fields fun _ _ => rfl

instance : Commits HistoricalRootsAccumulator where
  inputs c x := Commits.inputs c x.historicalRoots
  binds := by
    intro c x y h
    rcases Commits.binds c x.historicalRoots y.historicalRoots h with heq | hcol
    · exact Or.inl (congrArg HistoricalRootsAccumulator.mk heq)
    · exact Or.inr hcol

end EthHistorian
