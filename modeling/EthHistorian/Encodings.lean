/-
# What a beacon node can make the readers accept

A beacon node sends bytes and nothing else, so everything the crate builds from it goes through the
derived readers of eight large containers.

* `SignedBeaconBlock.reader_exact`, `BeaconState.stateDecoder_exact`: for every fork and every byte
  string, the reader returns, and it accepts the encodings of that fork's values and nothing else;
  what takes less than 4 GiB is read back.
* `BeaconNode.provider_exact`: so both requests of a node succeed on one answer each, up to what
  the request does not ask for (a signature is read, the rest of a state is dropped).
-/
import EthHistorian.Model.BeaconNode

namespace EthHistorian

/-! ## 1. Readers -/

namespace SignedBeaconBlock

/-- What takes less than 4 GiB is read back. -/
theorem fromSszBytes_of_length_lt {b : SignedBeaconBlock} (h : b.asSszBytes.length < 2 ^ 32) :
    fromSszBytes b.asSszBytes b.message.forkName = .ok b :=
  fromSszBytes_eq_ok.mpr
    ⟨rfl, BeaconBlock.valid_of_length_lt (b.length_message_le.trans_lt h), rfl⟩

/-- **The reader of signed blocks** is exact, for the four forks. -/
theorem reader_exact (bytes : List UInt8) (forkName : ForkName) :
    (fromSszBytes bytes forkName).Returns ∧
    (∀ b : SignedBeaconBlock, fromSszBytes bytes forkName = .ok b ↔
      b.message.forkName = forkName ∧ b.message.Valid ∧ bytes = b.asSszBytes) ∧
    ∀ b : SignedBeaconBlock, b.message.forkName = forkName → b.asSszBytes.length < 2 ^ 32 →
      fromSszBytes b.asSszBytes forkName = .ok b := by
  refine ⟨fromSszBytes_returns bytes forkName, fun b => fromSszBytes_eq_ok, ?_⟩
  rintro b rfl hlen
  exact fromSszBytes_of_length_lt hlen

end SignedBeaconBlock

namespace BeaconState

/-- What takes less than 4 GiB is read back. -/
theorem fromSszBytes_of_length_lt {s : BeaconState} (h : s.asSszBytes.length < 2 ^ 32) :
    fromSszBytes stateDecoder s.asSszBytes s.forkName = .ok s :=
  fromSszBytes_eq_ok.mpr ⟨rfl, valid_of_length_lt h, rfl⟩

/-- **The reader of states** is exact, for the four forks. -/
theorem stateDecoder_exact (bytes : List UInt8) (forkName : ForkName) :
    (∀ s : BeaconState, fromSszBytes stateDecoder bytes forkName = .ok s ↔
      s.forkName = forkName ∧ s.Valid ∧ bytes = s.asSszBytes) ∧
    ∀ s : BeaconState, s.forkName = forkName → s.asSszBytes.length < 2 ^ 32 →
      fromSszBytes stateDecoder s.asSszBytes forkName = .ok s := by
  refine ⟨fun s => fromSszBytes_eq_ok, ?_⟩
  rintro s rfl hlen
  exact fromSszBytes_of_length_lt hlen

end BeaconState

/-! ## 2. Requests -/

/-- The node answers a request with these bytes. -/
def HttpResponse.Carries (answer : Except String HttpResponse) (bytes : List UInt8) : Prop :=
  ∃ res, answer = .ok res ∧ res.isSuccess = true ∧ res.body = .ok bytes

/-- A request that is answered, and whose answer has a body. -/
theorem HttpResponse.carries_iff {answer : Except String HttpResponse} {bytes : List UInt8}
    {failed : HttpResponse → Error} :
    (do
      let res ← answer.mapError Error.http
      if res.isSuccess then res.body.mapError Error.http else .error (failed res)
      : Except Error (List UInt8)) = .ok bytes ↔ Carries answer bytes := by
  rw [Except.bind_eq_ok]
  constructor
  · rintro ⟨res, hres, hbody⟩
    cases answer with
    | error e => cases hres
    | ok res' =>
      obtain rfl := Except.ok.inj hres
      cases hsuccess : res'.isSuccess with
      | false =>
        rw [hsuccess] at hbody
        cases hbody
      | true =>
        rw [hsuccess, if_pos rfl] at hbody
        cases hbytes : res'.body with
        | error e =>
          rw [hbytes] at hbody
          cases hbody
        | ok bytes' =>
          rw [hbytes] at hbody
          obtain rfl := Except.ok.inj hbody
          exact ⟨res', rfl, hsuccess, hbytes⟩
  · rintro ⟨res, rfl, hsuccess, hbody⟩
    refine ⟨res, rfl, ?_⟩
    rw [hsuccess, if_pos rfl, hbody]
    rfl

namespace BeaconNode

/-- The bytes of a block, for the fork of its slot. -/
theorem fetchSignedBeaconBlock_eq_ok {node : BeaconNode} {slot : UInt64} {b : SignedBeaconBlock} :
    node.fetchSignedBeaconBlock slot = .ok b ↔
      HttpResponse.Carries (node.getBlock slot) b.asSszBytes ∧
        b.message.forkName = forkForSlot slot ∧ b.message.Valid := by
  simp only [fetchSignedBeaconBlock, Outcome.bind_eq_ok, Outcome.ofExcept_eq_ok,
    Outcome.mapErr_eq_ok, SignedBeaconBlock.fromSszBytes_eq_ok, fetchBlockSsz]
  constructor
  · rintro ⟨bytes, hbytes, hfork, hvalid, rfl⟩
    exact ⟨HttpResponse.carries_iff.mp hbytes, hfork, hvalid⟩
  · rintro ⟨hbytes, hfork, hvalid⟩
    exact ⟨_, HttpResponse.carries_iff.mpr hbytes, hfork, hvalid, rfl⟩

/-- The sums before the request go through, or the request aborts. -/
theorem eraEnd_eq {overflowChecks : Bool} {slot : UInt64}
    (h : ¬ BeaconRpcSource.Overflows overflowChecks slot) :
    (do
      let eraNext ← addU64 overflowChecks
        (slot / slotsPerHistoricalRoot * slotsPerHistoricalRoot) slotsPerHistoricalRoot
      subU64 overflowChecks eraNext 1 : Outcome Error UInt64)
      = .ok (slot / slotsPerHistoricalRoot * slotsPerHistoricalRoot + slotsPerHistoricalRoot
          - 1) := by
  have hbase : slotsPerHistoricalRoot.toNat = 8192 := rfl
  have hone : (1 : UInt64).toNat = 1 := rfl
  have hstart := BeaconRpcSource.toNat_eraStart slot
  have hsum : overflowChecks = true → ¬ 2 ^ 64 ≤ slot.toNat / 8192 * 8192 + 8192 :=
    fun hc hge => h ⟨hc, hge⟩
  have hadd : ¬ (overflowChecks = true ∧
      2 ^ 64 ≤ (slot / slotsPerHistoricalRoot * slotsPerHistoricalRoot).toNat
        + slotsPerHistoricalRoot.toNat) := by
    rintro ⟨hc, hge⟩
    rw [hstart, hbase] at hge
    exact hsum hc hge
  have hsub : ¬ (overflowChecks = true ∧
      slot / slotsPerHistoricalRoot * slotsPerHistoricalRoot + slotsPerHistoricalRoot < 1) := by
    rintro ⟨hc, hlt⟩
    have hlt' := hsum hc
    rw [UInt64.lt_iff_toNat_lt, UInt64.toNat_add, hstart, hbase, hone] at hlt
    omega
  rw [addU64, if_neg hadd, Outcome.ok_bind, subU64, if_neg hsub]

/-- The bytes of a state, for the fork of the era's last slot; the two lists of roots are kept. -/
theorem fetchHistoricalBatch_eq_ok {node : BeaconRpcSource} {overflowChecks : Bool}
    {slot : UInt64} {batch : HistoricalBatch} :
    node.fetchHistoricalBatch stateDecoder overflowChecks slot = .ok batch ↔
      ¬ BeaconRpcSource.Overflows overflowChecks slot ∧ ∃ (eraEnd : UInt64) (s : BeaconState),
        eraEnd.toNat = slot.toNat / 8192 * 8192 + 8191 ∧
        HttpResponse.Carries (node.getState eraEnd) s.asSszBytes ∧
        s.forkName = forkForSlot eraEnd ∧ s.Valid ∧ batch = ⟨s.blockRoots, s.stateRoots⟩ := by
  by_cases hover : BeaconRpcSource.Overflows overflowChecks slot
  · rw [BeaconRpcSource.fetchHistoricalBatch_of_overflows hover]
    exact iff_of_false nofun fun h => h.1 hover
  · have hend := eraEnd_eq hover
    rw [Outcome.bind_eq_ok] at hend
    obtain ⟨eraNext, hnext, hend⟩ := hend
    have hnat := BeaconRpcSource.toNat_eraEnd slot
    simp only [BeaconRpcSource.fetchHistoricalBatch, hnext, hend, Outcome.ok_bind,
      Outcome.bind_eq_ok, Outcome.ofExcept_eq_ok, Outcome.mapErr_eq_ok,
      BeaconState.fromSszBytes_eq_ok, BeaconRpcSource.fetchStateSsz, Outcome.pure_eq,
      Outcome.ok.injEq]
    constructor
    · rintro ⟨bytes, hbytes, s, ⟨hfork, hvalid, rfl⟩, rfl⟩
      exact ⟨hover, _, s, hnat, HttpResponse.carries_iff.mp hbytes, hfork, hvalid, rfl⟩
    · rintro ⟨-, eraEnd, s, heq, hbytes, hfork, hvalid, rfl⟩
      obtain rfl := UInt64.toNat_inj.mp (heq.trans hnat.symm)
      exact ⟨_, HttpResponse.carries_iff.mpr hbytes, s, ⟨hfork, hvalid, rfl⟩, rfl⟩

/-- **Each request succeeds on one answer**: the encoding of a block of the slot's fork, or of a
state of the fork of the era's last slot, in a successful response.  Nothing else in the answer
matters, and only the sum past the last era can abort. -/
theorem provider_exact (overflowChecks : Bool) (node : BeaconNode) (slot : UInt64) :
    (∀ b, (node.provider overflowChecks).fetchSignedBeaconBlock slot = .ok b ↔
      HttpResponse.Carries (node.getBlock slot) b.asSszBytes ∧
        b.message.forkName = forkForSlot slot ∧ b.message.Valid) ∧
    (∀ batch, (node.provider overflowChecks).fetchHistoricalBatch slot = .ok batch ↔
      ¬ BeaconRpcSource.Overflows overflowChecks slot ∧ ∃ (eraEnd : UInt64) (s : BeaconState),
        eraEnd.toNat = slot.toNat / 8192 * 8192 + 8191 ∧
        HttpResponse.Carries (node.getState eraEnd) s.asSszBytes ∧
        s.forkName = forkForSlot eraEnd ∧ s.Valid ∧ batch = ⟨s.blockRoots, s.stateRoots⟩) ∧
    ((node.provider overflowChecks).fetchSignedBeaconBlock slot).Returns ∧
    (((node.provider overflowChecks).fetchHistoricalBatch slot).Returns ↔
      ¬ BeaconRpcSource.Overflows overflowChecks slot) := by
  refine ⟨fun b => fetchSignedBeaconBlock_eq_ok, fun batch => fetchHistoricalBatch_eq_ok, ?_, ?_⟩
  · intro msg hpanic
    rcases Outcome.bind_eq_panic.mp hpanic with h | ⟨bytes, -, h⟩
    · exact Outcome.ofExcept_ne_panic h
    · exact SignedBeaconBlock.fromSszBytes_returns _ _ msg (Outcome.mapErr_eq_panic.mp h)
  · constructor
    · intro hret hover
      exact hret _ (BeaconRpcSource.fetchHistoricalBatch_of_overflows hover)
    · intro hover msg hpanic
      have hend := eraEnd_eq hover
      rw [Outcome.bind_eq_ok] at hend
      obtain ⟨eraNext, hnext, hend⟩ := hend
      simp only [provider, BeaconRpcSource.fetchHistoricalBatch, hnext, hend, Outcome.ok_bind,
        Outcome.bind_eq_panic, Outcome.ofExcept_ne_panic, Outcome.mapErr_eq_panic,
        Outcome.pure_eq, reduceCtorEq, and_false, exists_false, or_self] at hpanic

end BeaconNode

end EthHistorian
