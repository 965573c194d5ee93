/-
# The beacon node source

`src/sources/beacon_rpc.rs`, the part that fetches an era's roots.  The HTTP client is the
environment: what the node answers to the request for a state is a field of the source.  The
derived SSZ readers of the four states are the fields of `StateDecoder`.

Arithmetic on slots wraps in a release build and aborts on overflow in a debug build; the model
takes the build as a parameter.
-/
import EthHistorian.Model.BeaconState
import EthHistorian.Model.Errors

namespace EthHistorian

/-! ## 1. Forks -/

inductive ForkName where
  | bellatrix
  | capella
  | deneb
  | electra
  deriving DecidableEq, Repr

/-- The derived `{:?}`. -/
def ForkName.debug : ForkName → String
  | bellatrix => "Bellatrix"
  | capella => "Capella"
  | deneb => "Deneb"
  | electra => "Electra"

def forkForSlot (slot : UInt64) : ForkName :=
  let epoch := slot / slotsPerEpoch
  if epoch ≥ electraForkEpoch then .electra
  else if epoch ≥ denebForkEpoch then .deneb
  else if epoch ≥ capellaForkEpoch then .capella
  else .bellatrix

/-- `<BeaconState* as ssz::Decode>::from_ssz_bytes`, derived for each fork. -/
structure StateDecoder where
  bellatrix : List UInt8 → Except Ssz.DecodeError BeaconStateBellatrix
  capella : List UInt8 → Except Ssz.DecodeError BeaconStateCapella
  deneb : List UInt8 → Except Ssz.DecodeError BeaconStateDeneb
  electra : List UInt8 → Except Ssz.DecodeError BeaconStateElectra

def BeaconState.fromSszBytes (D : StateDecoder) (bytes : List UInt8) (forkName : ForkName) :
    Except Ssz.DecodeError BeaconState :=
  match forkName with
  | .bellatrix => (D.bellatrix bytes).map .bellatrix
  | .capella => (D.capella bytes).map .capella
  | .deneb => (D.deneb bytes).map .deneb
  | .electra => (D.electra bytes).map .electra

/-! ## 2. The build's arithmetic -/

/-- `a + b` on `u64`. -/
def addU64 {ε : Type} (overflowChecks : Bool) (a b : UInt64) : Outcome ε UInt64 :=
  if overflowChecks ∧ 2 ^ 64 ≤ a.toNat + b.toNat then .panic "attempt to add with overflow"
  else .ok (a + b)

/-- `a - b` on `u64`. -/
def subU64 {ε : Type} (overflowChecks : Bool) (a b : UInt64) : Outcome ε UInt64 :=
  if overflowChecks ∧ a < b then .panic "attempt to subtract with overflow"
  else .ok (a - b)

/-! ## 3. The source -/

structure HttpResponse where
  isSuccess : Bool
  /-- The status as it is displayed. -/
  status : String
  body : Except String (List UInt8)

/-- `getState` is the answer to `GET {base_url}/eth/v2/debug/beacon/states/{state_id}`. -/
structure BeaconRpcSource where
  getState : UInt64 → Except String HttpResponse

namespace BeaconRpcSource

def fetchStateSsz (source : BeaconRpcSource) (stateId : UInt64) : Except Error (List UInt8) := do
  let res ← (source.getState stateId).mapError .http
  if res.isSuccess then res.body.mapError .http
  else .error (.dataSource s!"beacon state at slot {stateId}: HTTP {res.status}")

def fetchHistoricalBatch (D : StateDecoder) (overflowChecks : Bool) (source : BeaconRpcSource)
    (slot : UInt64) : Outcome Error HistoricalBatch := do
  let eraStart := slot / slotsPerHistoricalRoot * slotsPerHistoricalRoot
  let eraNext ← addU64 overflowChecks eraStart slotsPerHistoricalRoot
  let eraEnd ← subU64 overflowChecks eraNext 1
  let bytes ← Outcome.ofExcept (source.fetchStateSsz eraEnd)
  let stateFork := forkForSlot eraEnd
  let state ← (Outcome.ofExcept (BeaconState.fromSszBytes D bytes stateFork)).mapErr fun e =>
    .dataSource (s!"decoding BeaconState at slot {eraEnd} (fork={stateFork.debug}): {e.debug}")
  return ⟨state.blockRoots, state.stateRoots⟩

/-! ## 4. The era of a slot -/

theorem toNat_eraStart (slot : UInt64) :
    (slot / slotsPerHistoricalRoot * slotsPerHistoricalRoot).toNat = slot.toNat / 8192 * 8192 := by
  have hbase : slotsPerHistoricalRoot.toNat = 8192 := rfl
  have hlt := UInt64.toNat_lt slot
  rw [UInt64.toNat_mul, UInt64.toNat_div, hbase]
  omega

/-- The era's last slot, also where the sum in between wraps. -/
theorem toNat_eraEnd (slot : UInt64) :
    (slot / slotsPerHistoricalRoot * slotsPerHistoricalRoot + slotsPerHistoricalRoot - 1).toNat
      = slot.toNat / 8192 * 8192 + 8191 := by
  have hbase : slotsPerHistoricalRoot.toNat = 8192 := rfl
  have hone : (1 : UInt64).toNat = 1 := rfl
  have hlt := UInt64.toNat_lt slot
  rw [UInt64.toNat_sub, UInt64.toNat_add, toNat_eraStart, hbase, hone]
  omega

/-- In a checked build the last era of all aborts. -/
def Overflows (overflowChecks : Bool) (slot : UInt64) : Prop :=
  overflowChecks = true ∧ 2 ^ 64 ≤ slot.toNat / 8192 * 8192 + 8192

theorem fetchHistoricalBatch_of_overflows {D : StateDecoder} {overflowChecks : Bool}
    {source : BeaconRpcSource} {slot : UInt64} (h : Overflows overflowChecks slot) :
    source.fetchHistoricalBatch D overflowChecks slot
      = .panic "attempt to add with overflow" := by
  have hbase : slotsPerHistoricalRoot.toNat = 8192 := rfl
  rw [fetchHistoricalBatch, addU64, if_pos (by rw [toNat_eraStart, hbase]; exact h)]
  rfl

end BeaconRpcSource

end EthHistorian
