/-
# The header validator

`src/header_validator.rs` with its two accumulators and the summaries provider: the four era
paths of `validate_header_with_proof`, guard by guard.  A failed check is an error with its
message; an index past the end of an accumulator is an abort.

Section 3 states, path by path, when it accepts and when it aborts.  The theorems elsewhere
start from these equivalences and not from the definitions.
-/
import EthHistorian.Model.Consensus
import EthHistorian.Model.HeaderWithProof

namespace EthHistorian

open Merkle

/-! ## 1. What a validator holds -/

structure PreMergeAccumulator where
  historicalEpochs : VariableList B256 131072

structure HistoricalRootsAccumulator where
  historicalRoots : HistoricalRoots

structure HistoricalSummariesProvider where
  summaries : HistoricalSummaries

structure HeaderValidator where
  preMergeAcc : PreMergeAccumulator
  historicalRootsAcc : HistoricalRootsAccumulator
  historicalSummariesProvider : HistoricalSummariesProvider

def PreMergeAccumulator.getEpochIndexOfHeader (header : Header) : UInt64 :=
  header.number / slotsPerHistoricalRoot

def HistoricalSummariesProvider.getHistoricalSummary (w : PointerWidth)
    (p : HistoricalSummariesProvider) (slot : UInt64) : Except String HistoricalSummary :=
  match historicalSummaryIndex w slot with
  | none => .error "Can't provide Historical Summary for slot before Capella"
  | some i =>
    match p.summaries.get? i with
    | some historicalSummary => .ok historicalSummary
    | none => .error s!"Historical summary index out of bounds: {i}"

/-! ## 2. The four paths -/

namespace HeaderValidator

variable (c : Crypto) (w : PointerWidth) (v : HeaderValidator)

def verifyPreMergeHeader (header : Header) (proof : BlockProofHistoricalHashesAccumulator) :
    Outcome String Unit := do
  if isParisActiveAtBlock header.number then
    .err "Invalid proof type found for post-merge header."
  else
    let headerIndex := header.number % slotsPerHistoricalRoot
    let genIndex := slotsPerHistoricalRoot * 2 * 2 + headerIndex * 2
    let epochIndex := asUsize w (PreMergeAccumulator.getEpochIndexOfHeader header)
    let epochHash ← v.preMergeAcc.historicalEpochs.index epochIndex
    let verified ←
      verifyMerkleProof c (header.hashSlow c) proof.toList 15 (asUsize w genIndex) epochHash
    .require verified "Execution block proof verification failed for pre-Merge header"

/-- The depth of this check is the length of the proof. -/
def verifyExecutionBlockProof (genIndex : ℕ) (executionHeaderHash : B256)
    (executionBlockProof : List B256) (blockBodyRoot : B256) : Outcome String Bool :=
  verifyMerkleProof c executionHeaderHash executionBlockProof executionBlockProof.length genIndex
    blockBodyRoot

def verifyBellatrixToDenebExecutionBlockProof := verifyExecutionBlockProof c 3228

/-- Deneb's and Electra's payload has 17 fields, so its tree is one level deeper. -/
def verifyPostDenebExecutionBlockProof := verifyExecutionBlockProof c 6444

def verifyHistoricalRootsBeaconBlockProof (slot : UInt64) (beaconBlockRoot : B256)
    (beaconBlockProof : FixedVector B256 14) : Outcome String Bool := do
  let blockRootIndex := slot % slotsPerHistoricalRoot
  let genIndex := 2 * slotsPerHistoricalRoot + blockRootIndex
  let historicalRootIndex := slot / slotsPerHistoricalRoot
  -- the source indexes the list, where the summaries path below asks it
  let historicalRoot ←
    v.historicalRootsAcc.historicalRoots.index (asUsize w historicalRootIndex)
  verifyMerkleProof c beaconBlockRoot beaconBlockProof.toList 14 (asUsize w genIndex)
    historicalRoot

def verifyHistoricalSummariesBeaconBlockProof (slot : UInt64) (beaconBlockRoot : B256)
    (beaconBlockProof : FixedVector B256 13) : Outcome String Bool :=
  match v.historicalSummariesProvider.getHistoricalSummary w slot with
  | .error _ => .ok false
  | .ok historicalSummary =>
    verifyMerkleProof c beaconBlockRoot beaconBlockProof.toList 13
      (asUsize w (slotsPerHistoricalRoot + slot % slotsPerHistoricalRoot))
      historicalSummary.blockSummaryRoot

def verifyMergeToCapellaHeader (blockNumber blockTimestamp : UInt64) (headerHash : B256)
    (proof : BlockProofHistoricalRoots) : Outcome String Unit := do
  .require (isParisActiveAtBlock blockNumber)
    "Invalid BlockProofHistoricalRoots found for pre-Merge header."
  .require (!isShanghaiActiveAtTimestamp blockTimestamp)
    "Invalid BlockProofHistoricalRoots found for post-Shanghai header."
  let verified ← verifyBellatrixToDenebExecutionBlockProof c headerHash
    proof.executionBlockProof.toList proof.beaconBlockRoot
  .require verified "Execution block proof verification failed for Merge-Capella header"
  let verified ← v.verifyHistoricalRootsBeaconBlockProof c w proof.slot proof.beaconBlockRoot
    proof.beaconBlockProof
  .require verified "Beacon block proof verification failed for Merge-Capella header"

def verifyCapellaToDenebHeader (blockTimestamp : UInt64) (headerHash : B256)
    (proof : BlockProofHistoricalSummariesCapella) : Outcome String Unit := do
  .require (isShanghaiActiveAtTimestamp blockTimestamp)
    "Invalid BlockProofHistoricalSummariesCapella found for pre-Shanghai header."
  .require (!isCancunActiveAtTimestamp blockTimestamp)
    "Invalid BlockProofHistoricalSummariesCapella found for post-Cancun header."
  let verified ← verifyBellatrixToDenebExecutionBlockProof c headerHash
    proof.executionBlockProof.toList proof.beaconBlockRoot
  .require verified "Execution block proof verification failed for Capella-Deneb header"
  let verified ← v.verifyHistoricalSummariesBeaconBlockProof c w proof.slot proof.beaconBlockRoot
    proof.beaconBlockProof
  .require verified "Beacon block proof verification failed for Capella-Deneb header"

def verifyPostDenebHeader (blockTimestamp : UInt64) (headerHash : B256)
    (proof : BlockProofHistoricalSummariesDeneb) : Outcome String Unit := do
  .require (isCancunActiveAtTimestamp blockTimestamp)
    "Invalid BlockProofHistoricalSummariesDeneb found for pre-Cancun header."
  let verified ← verifyPostDenebExecutionBlockProof c headerHash
    proof.executionBlockProof.toList proof.beaconBlockRoot
  .require verified "Execution block proof verification failed for post-Deneb header"
  let verified ← v.verifyHistoricalSummariesBeaconBlockProof c w proof.slot proof.beaconBlockRoot
    proof.beaconBlockProof
  .require verified "Beacon block proof verification failed for post-Deneb header"

def validateHeaderWithProof (hwp : HeaderWithProof) : Outcome String Unit :=
  let header := hwp.header
  match hwp.proof with
  | .historicalHashes proof => v.verifyPreMergeHeader c w header proof
  | .historicalRoots proof =>
    v.verifyMergeToCapellaHeader c w header.number header.timestamp (header.hashSlow c) proof
  | .historicalSummariesCapella proof =>
    v.verifyCapellaToDenebHeader c w header.timestamp (header.hashSlow c) proof
  | .historicalSummariesDeneb proof =>
    v.verifyPostDenebHeader c w header.timestamp (header.hashSlow c) proof

/-! ## 3. The indices, as numbers -/

theorem toNat_mod_slotsPerHistoricalRoot (s : UInt64) :
    (s % slotsPerHistoricalRoot).toNat = s.toNat % 8192 := UInt64.toNat_mod s _

theorem toNat_div_slotsPerHistoricalRoot (s : UInt64) :
    (s / slotsPerHistoricalRoot).toNat = s.toNat / 8192 := UInt64.toNat_div s _

/-- The generalized indices are small, so the casts keep them. -/
theorem asUsize_blockRootIndex (s : UInt64) :
    asUsize w (s % slotsPerHistoricalRoot) = s.toNat % 8192 := by
  have hmod := toNat_mod_slotsPerHistoricalRoot s
  rw [asUsize_of_lt (by omega), hmod]

theorem asUsize_historicalRootsGenIndex (s : UInt64) :
    asUsize w (2 * slotsPerHistoricalRoot + s % slotsPerHistoricalRoot)
      = 16384 + s.toNat % 8192 := by
  have hmod := toNat_mod_slotsPerHistoricalRoot s
  have hbase : (2 * slotsPerHistoricalRoot).toNat = 16384 := rfl
  have hsum : (2 * slotsPerHistoricalRoot + s % slotsPerHistoricalRoot).toNat
      = 16384 + s.toNat % 8192 := by
    rw [UInt64.toNat_add, hbase, hmod]
    omega
  rw [asUsize_of_lt (by omega), hsum]

theorem asUsize_historicalSummariesGenIndex (s : UInt64) :
    asUsize w (slotsPerHistoricalRoot + s % slotsPerHistoricalRoot)
      = 8192 + s.toNat % 8192 := by
  have hmod := toNat_mod_slotsPerHistoricalRoot s
  have hbase : slotsPerHistoricalRoot.toNat = 8192 := rfl
  have hsum : (slotsPerHistoricalRoot + s % slotsPerHistoricalRoot).toNat
      = 8192 + s.toNat % 8192 := by
    rw [UInt64.toNat_add, hbase, hmod]
    omega
  rw [asUsize_of_lt (by omega), hsum]

theorem asUsize_preMergeGenIndex (n : UInt64) :
    asUsize w (slotsPerHistoricalRoot * 2 * 2 + n % slotsPerHistoricalRoot * 2)
      = 32768 + n.toNat % 8192 * 2 := by
  have hmod := toNat_mod_slotsPerHistoricalRoot n
  have hbase : (slotsPerHistoricalRoot * 2 * 2).toNat = 32768 := rfl
  have htwice : (n % slotsPerHistoricalRoot * 2).toNat = n.toNat % 8192 * 2 := by
    have htwo : (2 : UInt64).toNat = 2 := rfl
    rw [UInt64.toNat_mul, hmod, htwo]
    omega
  have hsum : (slotsPerHistoricalRoot * 2 * 2 + n % slotsPerHistoricalRoot * 2).toNat
      = 32768 + n.toNat % 8192 * 2 := by
    rw [UInt64.toNat_add, hbase, htwice]
    omega
  rw [asUsize_of_lt (by omega), hsum]

/-- A pre-merge block number's epoch, too. -/
theorem asUsize_epochIndex {h : Header} (hn : h.number.toNat < 15537394) :
    asUsize w (PreMergeAccumulator.getEpochIndexOfHeader h) = h.number.toNat / 8192 := by
  have hdiv := toNat_div_slotsPerHistoricalRoot h.number
  rw [PreMergeAccumulator.getEpochIndexOfHeader, asUsize_of_lt (by omega), hdiv]

/-! ## 4. When each path accepts, and when it aborts -/

/-- The execution block check, which never aborts. -/
theorem verifyExecutionBlockProof_eq (genIndex : ℕ) (hash : B256) (proof : List B256)
    (root : B256) :
    verifyExecutionBlockProof c genIndex hash proof root
      = .ok (decide (climb c.hash32Concat genIndex hash proof = root)) := by
  rw [verifyExecutionBlockProof, verifyMerkleProof_eq]
  simp

theorem verifyPreMergeHeader_of_paris {header : Header}
    {proof : BlockProofHistoricalHashesAccumulator} (hn : ¬ header.number.toNat < 15537394) :
    v.verifyPreMergeHeader c w header proof
      = .err "Invalid proof type found for post-merge header." := by
  rw [verifyPreMergeHeader, if_pos (isParisActiveAtBlock_iff.mpr (by omega))]

theorem verifyPreMergeHeader_of_not_paris {header : Header}
    {proof : BlockProofHistoricalHashesAccumulator} (hn : header.number.toNat < 15537394) :
    v.verifyPreMergeHeader c w header proof
      = (v.preMergeAcc.historicalEpochs.index (header.number.toNat / 8192) >>= fun epochHash =>
          .require (decide (climb c.hash32Concat (32768 + header.number.toNat % 8192 * 2)
            (header.hashSlow c) proof.toList = epochHash))
            "Execution block proof verification failed for pre-Merge header") := by
  have hparis : isParisActiveAtBlock header.number = false := by
    rw [Bool.eq_false_iff, Ne, isParisActiveAtBlock_iff]
    omega
  rw [verifyPreMergeHeader, if_neg (by rw [hparis]; exact Bool.false_ne_true)]
  simp only [verifyMerkleProof_eq, Outcome.ok_bind, proof.length_eq, true_and,
    asUsize_preMergeGenIndex, asUsize_epochIndex w hn]

/-- **The pre-merge path.** -/
theorem verifyPreMergeHeader_eq_ok {header : Header}
    {proof : BlockProofHistoricalHashesAccumulator} :
    v.verifyPreMergeHeader c w header proof = .ok () ↔
      header.number.toNat < 15537394 ∧ ∃ root,
        v.preMergeAcc.historicalEpochs.toList[header.number.toNat / 8192]? = some root ∧
          climb c.hash32Concat (32768 + header.number.toNat % 8192 * 2) (header.hashSlow c)
            proof.toList = root := by
  by_cases hn : header.number.toNat < 15537394
  · rw [verifyPreMergeHeader_of_not_paris c w v hn, Outcome.bind_eq_ok]
    simp only [VariableList.index_eq_ok, Outcome.require_eq_ok, decide_eq_true_eq, hn, true_and]
  · rw [verifyPreMergeHeader_of_paris c w v hn]
    simp [hn]

theorem verifyPreMergeHeader_panic {header : Header}
    {proof : BlockProofHistoricalHashesAccumulator} :
    (∃ msg, v.verifyPreMergeHeader c w header proof = .panic msg) ↔
      header.number.toNat < 15537394 ∧
        v.preMergeAcc.historicalEpochs.toList.length ≤ header.number.toNat / 8192 := by
  by_cases hn : header.number.toNat < 15537394
  · rw [verifyPreMergeHeader_of_not_paris c w v hn]
    simp only [Outcome.bind_eq_panic, Outcome.require_ne_panic, and_false, exists_false, or_false,
      VariableList.index_eq_panic, hn, true_and]
  · rw [verifyPreMergeHeader_of_paris c w v hn]
    simp [hn]

/-- The check of a block root against the list of historical roots. -/
theorem verifyHistoricalRootsBeaconBlockProof_eq (slot : UInt64) (root : B256)
    (proof : FixedVector B256 14) :
    v.verifyHistoricalRootsBeaconBlockProof c w slot root proof
      = (v.historicalRootsAcc.historicalRoots.index
          (asUsize w (slot / slotsPerHistoricalRoot)) >>= fun historicalRoot =>
          .ok (decide (climb c.hash32Concat (16384 + slot.toNat % 8192) root proof.toList
            = historicalRoot))) := by
  unfold verifyHistoricalRootsBeaconBlockProof
  simp only [verifyMerkleProof_eq, asUsize_historicalRootsGenIndex, proof.length_eq, true_and]

/-- **The path of the historical roots.** -/
theorem verifyMergeToCapellaHeader_eq_ok {number timestamp : UInt64} {hash : B256}
    {proof : BlockProofHistoricalRoots} :
    v.verifyMergeToCapellaHeader c w number timestamp hash proof = .ok () ↔
      15537394 ≤ number.toNat ∧ timestamp.toNat < 1681338455 ∧
        climb c.hash32Concat 3228 hash proof.executionBlockProof.toList = proof.beaconBlockRoot ∧
        ∃ root, v.historicalRootsAcc.historicalRoots.toList[
            asUsize w (proof.slot / slotsPerHistoricalRoot)]? = some root ∧
          climb c.hash32Concat (16384 + proof.slot.toNat % 8192) proof.beaconBlockRoot
            proof.beaconBlockProof.toList = root := by
  have hs := @isShanghaiActiveAtTimestamp_iff timestamp
  simp only [verifyMergeToCapellaHeader, verifyBellatrixToDenebExecutionBlockProof,
    verifyExecutionBlockProof_eq, verifyHistoricalRootsBeaconBlockProof_eq, Outcome.bind_eq_ok,
    Outcome.require_eq_ok, Outcome.ok.injEq, VariableList.index_eq_ok, isParisActiveAtBlock_iff,
    Bool.not_eq_true', ← Bool.not_eq_true, hs, Nat.not_le]
  constructor
  · rintro ⟨-, hp, -, ht, _, rfl, -, he, _, ⟨root, hr, rfl⟩, hb⟩
    exact ⟨hp, ht, by simpa using he, root, hr, by simpa using hb⟩
  · rintro ⟨hp, ht, he, root, hr, hb⟩
    exact ⟨(), hp, (), ht, _, rfl, (), by simpa using he, _, ⟨root, hr, rfl⟩, by simpa using hb⟩

theorem verifyMergeToCapellaHeader_panic {number timestamp : UInt64} {hash : B256}
    {proof : BlockProofHistoricalRoots} :
    (∃ msg, v.verifyMergeToCapellaHeader c w number timestamp hash proof = .panic msg) ↔
      15537394 ≤ number.toNat ∧ timestamp.toNat < 1681338455 ∧
        climb c.hash32Concat 3228 hash proof.executionBlockProof.toList = proof.beaconBlockRoot ∧
        v.historicalRootsAcc.historicalRoots.toList.length
          ≤ asUsize w (proof.slot / slotsPerHistoricalRoot) := by
  have hs := @isShanghaiActiveAtTimestamp_iff timestamp
  rw [← VariableList.index_eq_panic (ε := String)]
  simp only [verifyMergeToCapellaHeader, verifyBellatrixToDenebExecutionBlockProof,
    verifyExecutionBlockProof_eq, verifyHistoricalRootsBeaconBlockProof_eq, Outcome.bind_eq_panic,
    Outcome.require_eq_ok, Outcome.require_ne_panic, Outcome.ok.injEq, reduceCtorEq,
    isParisActiveAtBlock_iff, Bool.not_eq_true', ← Bool.not_eq_true, hs, Nat.not_le]
  constructor
  · rintro ⟨msg, h⟩
    obtain ⟨hp, ht, he, hi⟩ : 15537394 ≤ number.toNat ∧ timestamp.toNat < 1681338455 ∧
        climb c.hash32Concat 3228 hash proof.executionBlockProof.toList = proof.beaconBlockRoot ∧
        v.historicalRootsAcc.historicalRoots.index
          (asUsize w (proof.slot / slotsPerHistoricalRoot)) = .panic msg := by
      simpa using h
    exact ⟨hp, ht, he, msg, hi⟩
  · rintro ⟨hp, ht, he, msg, hi⟩
    exact ⟨msg, by simp [hp, ht, he, hi]⟩

/-- The check of a block root against the snapshot.  A slot it does not cover fails it. -/
theorem verifyHistoricalSummariesBeaconBlockProof_eq (slot : UInt64) (root : B256)
    (proof : FixedVector B256 13) :
    ∃ b, v.verifyHistoricalSummariesBeaconBlockProof c w slot root proof = .ok b ∧
      (b = true ↔ ∃ historicalSummary,
        v.historicalSummariesProvider.getHistoricalSummary w slot = .ok historicalSummary ∧
          climb c.hash32Concat (8192 + slot.toNat % 8192) root proof.toList
            = historicalSummary.blockSummaryRoot) := by
  unfold verifyHistoricalSummariesBeaconBlockProof
  cases v.historicalSummariesProvider.getHistoricalSummary w slot with
  | error e => exact ⟨false, rfl, by simp⟩
  | ok historicalSummary =>
    refine ⟨_, verifyMerkleProof_eq _ _ _ _ _ _, ?_⟩
    simp [asUsize_historicalSummariesGenIndex, proof.length_eq]

/-- **The path of the summaries, from Capella to Deneb.** -/
theorem verifyCapellaToDenebHeader_eq_ok {timestamp : UInt64} {hash : B256}
    {proof : BlockProofHistoricalSummariesCapella} :
    v.verifyCapellaToDenebHeader c w timestamp hash proof = .ok () ↔
      1681338455 ≤ timestamp.toNat ∧ timestamp.toNat < 1710338135 ∧
        climb c.hash32Concat 3228 hash proof.executionBlockProof.toList = proof.beaconBlockRoot ∧
        ∃ historicalSummary,
          v.historicalSummariesProvider.getHistoricalSummary w proof.slot
            = .ok historicalSummary ∧
          climb c.hash32Concat (8192 + proof.slot.toNat % 8192) proof.beaconBlockRoot
            proof.beaconBlockProof.toList = historicalSummary.blockSummaryRoot := by
  have hc := @isCancunActiveAtTimestamp_iff timestamp
  obtain ⟨b, hb, hiff⟩ := v.verifyHistoricalSummariesBeaconBlockProof_eq c w proof.slot
    proof.beaconBlockRoot proof.beaconBlockProof
  simp only [verifyCapellaToDenebHeader, verifyBellatrixToDenebExecutionBlockProof,
    verifyExecutionBlockProof_eq, hb, Outcome.bind_eq_ok, Outcome.require_eq_ok, Outcome.ok.injEq,
    isShanghaiActiveAtTimestamp_iff, Bool.not_eq_true', ← Bool.not_eq_true, hc, Nat.not_le]
  rw [← hiff]
  constructor
  · rintro ⟨-, hs, -, ht, _, rfl, -, he, _, rfl, hb⟩
    exact ⟨hs, ht, by simpa using he, hb⟩
  · rintro ⟨hs, ht, he, hb⟩
    exact ⟨(), hs, (), ht, _, rfl, (), by simpa using he, _, rfl, hb⟩

/-- **The path of the summaries, from Deneb on.** -/
theorem verifyPostDenebHeader_eq_ok {timestamp : UInt64} {hash : B256}
    {proof : BlockProofHistoricalSummariesDeneb} :
    v.verifyPostDenebHeader c w timestamp hash proof = .ok () ↔
      1710338135 ≤ timestamp.toNat ∧
        climb c.hash32Concat 6444 hash proof.executionBlockProof.toList = proof.beaconBlockRoot ∧
        ∃ historicalSummary,
          v.historicalSummariesProvider.getHistoricalSummary w proof.slot
            = .ok historicalSummary ∧
          climb c.hash32Concat (8192 + proof.slot.toNat % 8192) proof.beaconBlockRoot
            proof.beaconBlockProof.toList = historicalSummary.blockSummaryRoot := by
  obtain ⟨b, hb, hiff⟩ := v.verifyHistoricalSummariesBeaconBlockProof_eq c w proof.slot
    proof.beaconBlockRoot proof.beaconBlockProof
  simp only [verifyPostDenebHeader, verifyPostDenebExecutionBlockProof,
    verifyExecutionBlockProof_eq, hb, Outcome.bind_eq_ok, Outcome.require_eq_ok, Outcome.ok.injEq,
    isCancunActiveAtTimestamp_iff]
  rw [← hiff]
  constructor
  · rintro ⟨-, hc, _, rfl, -, he, _, rfl, hb⟩
    exact ⟨hc, by simpa using he, hb⟩
  · rintro ⟨hc, he, hb⟩
    exact ⟨(), hc, _, rfl, (), by simpa using he, _, rfl, hb⟩

/-- Neither path of the summaries aborts. -/
theorem verifyCapellaToDenebHeader_returns (timestamp : UInt64) (hash : B256)
    (proof : BlockProofHistoricalSummariesCapella) :
    (v.verifyCapellaToDenebHeader c w timestamp hash proof).Returns := by
  obtain ⟨b, hb, -⟩ := v.verifyHistoricalSummariesBeaconBlockProof_eq c w proof.slot
    proof.beaconBlockRoot proof.beaconBlockProof
  intro msg h
  simp [verifyCapellaToDenebHeader, verifyBellatrixToDenebExecutionBlockProof,
    verifyExecutionBlockProof_eq, hb, Outcome.bind_eq_panic] at h

theorem verifyPostDenebHeader_returns (timestamp : UInt64) (hash : B256)
    (proof : BlockProofHistoricalSummariesDeneb) :
    (v.verifyPostDenebHeader c w timestamp hash proof).Returns := by
  obtain ⟨b, hb, -⟩ := v.verifyHistoricalSummariesBeaconBlockProof_eq c w proof.slot
    proof.beaconBlockRoot proof.beaconBlockProof
  intro msg h
  simp [verifyPostDenebHeader, verifyPostDenebExecutionBlockProof,
    verifyExecutionBlockProof_eq, hb, Outcome.bind_eq_panic] at h

end HeaderValidator

end EthHistorian
