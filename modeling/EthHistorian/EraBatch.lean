/-
# The roots of an era, fetched one slot early

A beacon state keeps the roots of the last 8,192 slots in two rings.  The entry of a slot is
written when the chain moves on from it, so the rings hold a whole era, in order, in the first
slot of the NEXT era (`isStateAt_next_aligned`).  `fetch_historical_batch` asks for the state of
the era's last slot instead.  There the last entry of both rings is still that of the slot before
the era, so the batch is off by one leaf of 8,192, and with it the roots that every proof of the
era is made of.

`fetchHistoricalBatch_aligned_iff`: for every chain and every slot, a batch aligned with the
slot's era comes back exactly when the two entries happen to be equal, the answer is a state of a
fork that the crate has a reader for (it has none from before Bellatrix), and the build does not
abort on the sum past the last era.
-/
import EthHistorian.Encodings
import EthHistorian.Lib.Ring

namespace EthHistorian

/-! ## 1. Chains and their states -/

/-- A chain: the roots of every slot, and what the rings held at genesis. -/
structure BeaconHistory where
  blockRoot : ℕ → B256
  stateRoot : ℕ → B256
  initialBlockRoot : ℕ → B256
  initialStateRoot : ℕ → B256

namespace BeaconHistory

variable (H : BeaconHistory)

/-- The rings of the state at a slot. -/
def blockCells : ℕ → ℕ → B256 := Ring.after 8192 H.initialBlockRoot H.blockRoot
def stateCells : ℕ → ℕ → B256 := Ring.after 8192 H.initialStateRoot H.stateRoot

/-- The state at slot `s` has the rings of slot `s`. -/
structure IsStateAt (s : ℕ) (state : BeaconState) : Prop where
  blockRoots : ∀ i < 8192, state.blockRoots.toList[i]? = some (H.blockCells s i)
  stateRoots : ∀ i < 8192, state.stateRoots.toList[i]? = some (H.stateCells s i)

/-- Where the answer to the request for a slot is a state of the slot's fork, it is the chain's.
A node that has no such state, or an older fork's, answers with something else. -/
def HonestAt (source : BeaconRpcSource) (slot : UInt64) : Prop :=
  ∀ s : BeaconState, s.forkName = forkForSlot slot → s.Valid →
    HttpResponse.Carries (source.getState slot) s.asSszBytes → H.IsStateAt slot.toNat s

/-- Entry `i` of the batch is the root of slot `era_start + i`. -/
def Aligned (era : ℕ) (batch : HistoricalBatch) : Prop :=
  ∀ i < 8192, batch.blockRoots.toList[i]? = some (H.blockRoot (era * 8192 + i)) ∧
    batch.stateRoots.toList[i]? = some (H.stateRoot (era * 8192 + i))

/-- The roots of the era's last slot are those that their cells held before the era: the roots of
the slot before it, or in the first era the initial ones. -/
def LastRootsRepeat (era : ℕ) : Prop :=
  H.blockRoot (era * 8192 + 8191)
      = (if era = 0 then H.initialBlockRoot 8191 else H.blockRoot (era * 8192 - 1)) ∧
    H.stateRoot (era * 8192 + 8191)
      = (if era = 0 then H.initialStateRoot 8191 else H.stateRoot (era * 8192 - 1))

instance (era : ℕ) : Decidable (H.LastRootsRepeat era) := inferInstanceAs (Decidable (_ ∧ _))

/-- One slot later the rings hold the era. -/
theorem isStateAt_next_aligned {era : ℕ} {state : BeaconState}
    (h : H.IsStateAt (era * 8192 + 8192) state) :
    H.Aligned era ⟨state.blockRoots, state.stateRoots⟩ := fun i hi =>
  ⟨(h.blockRoots i hi).trans (congrArg some (Ring.after_turn 8192 _ _ hi)),
    (h.stateRoots i hi).trans (congrArg some (Ring.after_turn 8192 _ _ hi))⟩

/-- **In the last slot of the era they do not**, unless the last roots repeat. -/
theorem isStateAt_last_aligned_iff {era : ℕ} {state : BeaconState}
    (h : H.IsStateAt (era * 8192 + 8191) state) :
    H.Aligned era ⟨state.blockRoots, state.stateRoots⟩ ↔ H.LastRootsRepeat era := by
  have hblock : ∀ i < 8192, H.blockCells (era * 8192 + 8191) i
      = if i + 1 < 8192 then H.blockRoot (era * 8192 + i)
        else if era = 0 then H.initialBlockRoot i else H.blockRoot (era * 8192 - 1) :=
    fun i hi => Ring.after_turn_last 8192 _ _ hi
  have hstate : ∀ i < 8192, H.stateCells (era * 8192 + 8191) i
      = if i + 1 < 8192 then H.stateRoot (era * 8192 + i)
        else if era = 0 then H.initialStateRoot i else H.stateRoot (era * 8192 - 1) :=
    fun i hi => Ring.after_turn_last 8192 _ _ hi
  constructor
  · intro haligned
    obtain ⟨hb, hs⟩ := haligned 8191 (by norm_num)
    have hb' := Option.some.inj (hb.symm.trans (h.blockRoots 8191 (by norm_num)))
    have hs' := Option.some.inj (hs.symm.trans (h.stateRoots 8191 (by norm_num)))
    rw [hblock 8191 (by norm_num), if_neg (by norm_num)] at hb'
    rw [hstate 8191 (by norm_num), if_neg (by norm_num)] at hs'
    exact ⟨hb', hs'⟩
  · rintro ⟨hb, hs⟩ i hi
    refine ⟨(h.blockRoots i hi).trans ?_, (h.stateRoots i hi).trans ?_⟩
    · rw [hblock i hi]
      split
      · rfl
      · obtain rfl : i = 8191 := by omega
        rw [hb]
    · rw [hstate i hi]
      split
      · rfl
      · obtain rfl : i = 8191 := by omega
        rw [hs]

end BeaconHistory

/-! ## 2. The request -/

namespace BeaconRpcSource

/-- **When the batch is aligned**, for every chain and every slot. -/
theorem fetchHistoricalBatch_aligned_iff (H : BeaconHistory) (overflowChecks : Bool)
    (source : BeaconRpcSource) (slot eraEnd : UInt64)
    (heraEnd : eraEnd.toNat = slot.toNat / 8192 * 8192 + 8191)
    (hnode : H.HonestAt source eraEnd) :
    (∃ batch, source.fetchHistoricalBatch stateDecoder overflowChecks slot = .ok batch ∧
        H.Aligned (slot.toNat / 8192) batch) ↔
      ¬ Overflows overflowChecks slot ∧ H.LastRootsRepeat (slot.toNat / 8192) ∧
        ∃ s : BeaconState, HttpResponse.Carries (source.getState eraEnd) s.asSszBytes ∧
          s.forkName = forkForSlot eraEnd ∧ s.Valid := by
  have hstate : ∀ s : BeaconState, s.forkName = forkForSlot eraEnd → s.Valid →
      HttpResponse.Carries (source.getState eraEnd) s.asSszBytes →
        (H.Aligned (slot.toNat / 8192) ⟨s.blockRoots, s.stateRoots⟩ ↔
          H.LastRootsRepeat (slot.toNat / 8192)) := by
    intro s hfork hvalid hcarries
    have hat := hnode s hfork hvalid hcarries
    rw [heraEnd] at hat
    exact H.isStateAt_last_aligned_iff hat
  constructor
  · rintro ⟨batch, hbatch, haligned⟩
    obtain ⟨hover, eraEnd', s, heq, hcarries, hfork, hvalid, rfl⟩ :=
      BeaconNode.fetchHistoricalBatch_eq_ok.mp hbatch
    obtain rfl := UInt64.toNat_inj.mp (heq.trans heraEnd.symm)
    exact ⟨hover, (hstate s hfork hvalid hcarries).mp haligned, s, hcarries, hfork, hvalid⟩
  · rintro ⟨hover, hrepeat, s, hcarries, hfork, hvalid⟩
    exact ⟨_, BeaconNode.fetchHistoricalBatch_eq_ok.mpr
      ⟨hover, eraEnd, s, heraEnd, hcarries, hfork, hvalid, rfl⟩,
      (hstate s hfork hvalid hcarries).mpr hrepeat⟩

/-! ## 3. A node that has the state -/

/-- The ring of a slot, as the vector of a state. -/
def ringVector (cells : ℕ → B256) : RootsPerHistoricalRoot :=
  ⟨(List.range 8192).map cells, by simp⟩

theorem ringVector_get {cells : ℕ → B256} {i : ℕ} (hi : i < 8192) :
    (ringVector cells).toList[i]? = some (cells i) := by
  simp [ringVector, hi]

/-- A state of the chain, with nothing in it but the rings. -/
def ringState (H : BeaconHistory) (s : ℕ) : BeaconState :=
  .bellatrix { (default : BeaconStateBellatrix) with
    blockRoots := ringVector (H.blockCells s)
    stateRoots := ringVector (H.stateCells s) }

theorem isStateAt_ringState (H : BeaconHistory) (s : ℕ) : H.IsStateAt s (ringState H s) where
  blockRoots _ hi := ringVector_get hi
  stateRoots _ hi := ringVector_get hi

/-- A node that answers with it. -/
def ringNode (H : BeaconHistory) (s : ℕ) : BeaconRpcSource where
  getState _ := .ok ⟨true, "200 OK", .ok (ringState H s).asSszBytes⟩

theorem honestAt_ringNode {H : BeaconHistory} {slot : UInt64}
    (hfork : forkForSlot slot = .bellatrix) (hring : (ringState H slot.toNat).Valid) :
    H.HonestAt (ringNode H slot.toNat) slot := by
  rintro s hs hvalid ⟨res, hres, -, hbody⟩
  obtain rfl := Except.ok.inj hres
  have hread := BeaconState.fromSszBytes_eq_ok.mpr ⟨rfl, hring, Except.ok.inj hbody.symm⟩
  have hread' := BeaconState.fromSszBytes_eq_ok.mpr ⟨hs.trans hfork, hvalid, rfl⟩
  obtain rfl := Except.ok.inj (hread.symm.trans hread')
  exact isStateAt_ringState H slot.toNat

/-- A chain whose roots are the numbers of the slots. -/
def numberedHistory : BeaconHistory where
  blockRoot s := U256.toLeBytes (BitVec.ofNat 256 s)
  stateRoot s := U256.toLeBytes (BitVec.ofNat 256 s)
  initialBlockRoot _ := default
  initialStateRoot _ := default

/-- The container of a state, whose long vectors are not written out. -/
theorem valid_numberedState : (ringState numberedHistory 4702207).Valid := by
  let F : Ssz.Fields Ssz.DecodeError BeaconStateBellatrix :=
    (beaconStateFields sszExecutionPayloadHeaderBellatrix .nil).map (Equiv.prodPUnit _).symm
  let state : BeaconStateBellatrix := { (default : BeaconStateBellatrix) with
    blockRoots := ringVector (numberedHistory.blockCells 4702207)
    stateRoots := ringVector (numberedHistory.stateCells 4702207) }
  have hhead : Ssz.fixedWidth F.slots ≤ 2 ^ 24 := by decide +kernel
  have hbody : (Ssz.bodyBytes F.slots (F.parts state)).length ≤ 2 ^ 24 := by decide +kernel
  have hlen := Ssz.length_encode (F.admits_parts state)
  have hpow : (256 : ℕ) ^ 4 = 2 ^ 32 := by norm_num
  refine F.valid_of_length_encode_lt state ?_
  change (Ssz.encode _ _).length < _
  rw [hlen]
  omega

theorem honestAt_numberedNode :
    numberedHistory.HonestAt (ringNode numberedHistory 4702207) 4702207 :=
  @honestAt_ringNode numberedHistory 4702207 (by decide) valid_numberedState

theorem numberedHistory_not_repeat : ¬ numberedHistory.LastRootsRepeat (4700013 / 8192) := by
  decide

theorem fetchHistoricalBatch_aligned_iff_numbered :
    ¬ ∃ batch, (ringNode numberedHistory 4702207).fetchHistoricalBatch stateDecoder false 4700013
        = .ok batch ∧ numberedHistory.Aligned (4700013 / 8192) batch := fun h =>
  numberedHistory_not_repeat ((fetchHistoricalBatch_aligned_iff numberedHistory false
    (ringNode numberedHistory 4702207) 4700013 4702207 (by decide) honestAt_numberedNode).mp h).2.1

theorem fetchHistoricalBatch_not_aligned :
    ¬ ∀ (H : BeaconHistory) (overflowChecks : Bool) (source : BeaconRpcSource)
      (slot eraEnd : UInt64), eraEnd.toNat = slot.toNat / 8192 * 8192 + 8191 →
        H.HonestAt source eraEnd →
        (∃ s : BeaconState, HttpResponse.Carries (source.getState eraEnd) s.asSszBytes ∧
          s.forkName = forkForSlot eraEnd ∧ s.Valid) →
        ∃ batch, source.fetchHistoricalBatch stateDecoder overflowChecks slot = .ok batch ∧
          H.Aligned (slot.toNat / 8192) batch := by
  intro hall
  have hend : (4702207 : UInt64).toNat = (4700013 : UInt64).toNat / 8192 * 8192 + 8191 := by decide
  have hcarries : HttpResponse.Carries ((ringNode numberedHistory 4702207).getState 4702207)
      (ringState numberedHistory 4702207).asSszBytes := ⟨_, rfl, rfl, rfl⟩
  have hfork : (ringState numberedHistory 4702207).forkName = forkForSlot 4702207 := by decide
  obtain ⟨batch, hbatch, haligned⟩ := hall numberedHistory false
    (ringNode numberedHistory 4702207) 4700013 4702207 hend honestAt_numberedNode
    ⟨_, hcarries, hfork, valid_numberedState⟩
  obtain ⟨-, eraEnd, s, heq, hsent, hs, hvalid, rfl⟩ :=
    BeaconNode.fetchHistoricalBatch_eq_ok.mp hbatch
  obtain rfl := UInt64.toNat_inj.mp (heq.trans hend.symm)
  have hat := honestAt_numberedNode s hs hvalid hsent
  exact numberedHistory_not_repeat ((numberedHistory.isStateAt_last_aligned_iff hat).mp haligned)

end BeaconRpcSource

end EthHistorian
