/-
# Mainnet fork boundaries

`src/portal_types/network_spec.rs`: the block number and the two timestamps at which the shape
of a proof changes, and the map from an execution timestamp to a beacon slot.
-/
import Mathlib.Tactic

namespace EthHistorian

def mainnetParisBlock : UInt64 := 15537394
def mainnetShanghaiTimestamp : UInt64 := 1681338455
def mainnetCancunTimestamp : UInt64 := 1710338135
def mainnetBeaconGenesisTimestamp : UInt64 := 1606824023
def mainnetSecondsPerSlot : UInt64 := 12

/-- The consensus slot of an execution timestamp; none before beacon genesis. -/
def slotForExecutionTimestamp (timestamp : UInt64) : Option UInt64 :=
  if timestamp < mainnetBeaconGenesisTimestamp then none
  else some ((timestamp - mainnetBeaconGenesisTimestamp) / mainnetSecondsPerSlot)

def isParisActiveAtBlock (blockNumber : UInt64) : Bool := blockNumber ≥ mainnetParisBlock

def isShanghaiActiveAtTimestamp (timestamp : UInt64) : Bool :=
  timestamp ≥ mainnetShanghaiTimestamp

def isCancunActiveAtTimestamp (timestamp : UInt64) : Bool := timestamp ≥ mainnetCancunTimestamp

/-- The fork predicates, as inequalities between numbers. -/
theorem isParisActiveAtBlock_iff {n : UInt64} :
    isParisActiveAtBlock n = true ↔ 15537394 ≤ n.toNat := by
  simp [isParisActiveAtBlock, mainnetParisBlock, UInt64.le_iff_toNat_le]

theorem isShanghaiActiveAtTimestamp_iff {t : UInt64} :
    isShanghaiActiveAtTimestamp t = true ↔ 1681338455 ≤ t.toNat := by
  simp [isShanghaiActiveAtTimestamp, mainnetShanghaiTimestamp, UInt64.le_iff_toNat_le]

theorem isCancunActiveAtTimestamp_iff {t : UInt64} :
    isCancunActiveAtTimestamp t = true ↔ 1710338135 ≤ t.toNat := by
  simp [isCancunActiveAtTimestamp, mainnetCancunTimestamp, UInt64.le_iff_toNat_le]

end EthHistorian
