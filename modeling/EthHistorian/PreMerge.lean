/-
# Pre-merge proofs: complete, sound and unique

Two paths of the crate meet here: `construct_pre_merge_proof`, which walks a sparse tree and
splices a difficulty and a length around its branch, and `verify_pre_merge_header`, which climbs
fifteen levels along a generalized index.  Against the root of an epoch accumulator of any
length they agree on every proof (`verifyPreMergeHeader_iff`): what is constructed is accepted,
and what is accepted is what is constructed, so a proof for a record is unique and a position
in the padding has none -- unless the proof exhibits two pairs with one hash, or a pair that
hashes to the zero chunk.

Section 3 is about the inputs on which nothing is constructed: another header's record is an
error, but a place past the end of a short epoch is an abort (`constructPreMergeProof_clean_iff`).
-/
import EthHistorian.Model.ProofConstruction

namespace EthHistorian

open Merkle ByteString

/-! ## 1. The root of an epoch -/

theorem lengthChunk_eq (E : EpochAccumulator) :
    EpochAccumulator.lengthChunk E = chunkOfBytes (toLE 8 E.toList.length) := by
  have hle := E.length_le
  have hmod : E.toList.length % 2 ^ 256 = E.toList.length := Nat.mod_eq_of_lt (by omega)
  rw [chunkOfBytes_toLE (by omega), EpochAccumulator.lengthChunk, U256.toLeBytes]
  simp only [BitVec.toNat_ofNat, hmod]

/-- **The SSZ root of an epoch**: thirteen levels over its records' leaves, and its length. -/
theorem treeHashRoot_epochAccumulator (c : Crypto) (E : EpochAccumulator) :
    treeHashRoot c E = c.hash32Concat
      (subtree c.hash32Concat 13 (chunkAt (EpochAccumulator.leaves c E)))
      (EpochAccumulator.lengthChunk E) := by
  rw [lengthChunk_eq]
  rfl

/-- The path of a position climbs to the root, also where the padding is. -/
theorem climb_epochBranch (c : Crypto) (E : EpochAccumulator) {i : ℕ} (hi : i < 8192) :
    climb c.hash32Concat (16384 + i) (chunkAt (EpochAccumulator.leaves c E) i)
      (EpochAccumulator.branch c E i) = treeHashRoot c E := by
  have hindex : 16384 + i = 2 ^ 13 * 2 + i := by norm_num
  have hbranch := climb_branch (H := c.hash32Concat) 13
    (chunkAt (EpochAccumulator.leaves c E)) i hi
  rw [hindex, EpochAccumulator.branch, climb_append_index (branch_length _ _ _) hi, hbranch,
    treeHashRoot_epochAccumulator]
  rfl

/-! ## 2. The two paths against one root -/

/-- The pairs hashed on the honest path of a position: the record's, and those above. -/
def EpochAccumulator.inputs (c : Crypto) (E : EpochAccumulator) (i : ℕ) : List (B256 × B256) :=
  (E.toList[i]?.map fun record => (record.blockHash, U256.toLeBytes record.totalDifficulty)).toList
    ++ climbInputs c.hash32Concat (16384 + i) (chunkAt (EpochAccumulator.leaves c E) i)
      (EpochAccumulator.branch c E i)

theorem constructPreMergeProof_eq_ok {c : Crypto} {w : PointerWidth} {header : Header}
    {E : EpochAccumulator} {p : BlockProofHistoricalHashesAccumulator} :
    constructPreMergeProof c w header E = .ok p ↔
      ∃ record, E.toList[header.number.toNat % 8192]? = some record ∧
        record.blockHash = header.hashSlow c ∧
        p = EpochAccumulator.proof c E (header.number.toNat % 8192) record := by
  rw [constructPreMergeProof_eq, Outcome.bind_eq_ok]
  constructor
  · rintro ⟨record, hrec, h⟩
    split at h
    · cases h
    · rename_i hhash
      exact ⟨record, VariableList.index_eq_ok.mp hrec, not_not.mp hhash, (Outcome.ok.inj h).symm⟩
  · rintro ⟨record, hrec, hhash, rfl⟩
    exact ⟨record, VariableList.index_eq_ok.mpr hrec, if_neg (not_not.mpr hhash)⟩

/-- The lowest level of the verifier's climb is the record's own hash. -/
theorem climb_preMergeProof (c : Crypto) (i : ℕ) (hash p0 : B256) (ps : List B256) :
    climb c.hash32Concat (32768 + i * 2) hash (p0 :: ps)
        = climb c.hash32Concat (16384 + i) (c.hash32Concat hash p0) ps ∧
      climbInputs c.hash32Concat (32768 + i * 2) hash (p0 :: ps)
        = (hash, p0) :: climbInputs c.hash32Concat (16384 + i) (c.hash32Concat hash p0) ps := by
  have hbit : (32768 + i * 2) % 2 ≠ 1 := by omega
  have hhalf : (32768 + i * 2) / 2 = 16384 + i := by omega
  simp only [climb, climbInputs, pair, if_neg hbit, hhalf, and_self]

/-- A climb to an epoch's root, from a header's hash and a claimed difficulty. -/
theorem preMergeProof_binds {c : Crypto} {E : EpochAccumulator} {i : ℕ} (hi : i < 8192)
    {hash p0 : B256} {ps : List B256} (hlen : ps.length = 14)
    (h : climb c.hash32Concat (16384 + i) (c.hash32Concat hash p0) ps = treeHashRoot c E) :
    (∃ record, E.toList[i]? = some record ∧ record.blockHash = hash ∧
        p0 = U256.toLeBytes record.totalDifficulty ∧ ps = EpochAccumulator.branch c E i) ∨
      Collision c.hash32Concat
        ((hash, p0) :: climbInputs c.hash32Concat (16384 + i) (c.hash32Concat hash p0) ps)
        (EpochAccumulator.inputs c E i) ∨
      c.ZeroPreimage [(hash, p0)] := by
  rw [← climb_epochBranch c E hi] at h
  have hlen' : ps.length = (EpochAccumulator.branch c E i).length := by
    rw [hlen, EpochAccumulator.length_branch]
  rcases climb_binding _ _ _ _ _ hlen' h with ⟨hleaf, hps⟩ | hcol
  · cases hrec : E.toList[i]? with
    | none =>
      -- a position in the padding: the leaf there is the zero chunk
      have hge : (EpochAccumulator.leaves c E).length ≤ i := by
        rw [EpochAccumulator.leaves, List.length_map]
        exact List.getElem?_eq_none_iff.mp hrec
      rw [chunkAt, leafAt_of_ge hge] at hleaf
      exact Or.inr (Or.inr ⟨_, List.mem_cons_self, hleaf⟩)
    | some record =>
      rw [EpochAccumulator.chunkAt_leaves hrec] at hleaf
      by_cases hpair : (hash, p0) = (record.blockHash, U256.toLeBytes record.totalDifficulty)
      · obtain ⟨hhash, hp0⟩ := Prod.mk.inj hpair
        exact Or.inl ⟨record, rfl, hhash.symm, hp0, hps⟩
      · refine Or.inr (Or.inl ⟨_, List.mem_cons_self, _, ?_, hpair, hleaf⟩)
        rw [EpochAccumulator.inputs, hrec]
        exact List.mem_cons_self
  · exact Or.inr (Or.inl (hcol.mono (List.subset_cons_self _ _) (List.subset_append_right _ _)))

/-- **Construction and verification agree**, against the root of any epoch accumulator. -/
theorem verifyPreMergeHeader_iff (c : Crypto) (w : PointerWidth) (v : HeaderValidator)
    (header : Header) (E : EpochAccumulator) (p : BlockProofHistoricalHashesAccumulator)
    (hn : header.number.toNat < 15537394)
    (hroot : v.preMergeAcc.historicalEpochs.toList[header.number.toNat / 8192]?
      = some (treeHashRoot c E)) :
    (constructPreMergeProof c w header E = .ok p → v.verifyPreMergeHeader c w header p = .ok ()) ∧
    (v.verifyPreMergeHeader c w header p = .ok () →
      (constructPreMergeProof c w header E = .ok p ∧
        ∃ record, E.toList[header.number.toNat % 8192]? = some record ∧
          record.blockHash = header.hashSlow c) ∨
      Collision c.hash32Concat
        (climbInputs c.hash32Concat (32768 + header.number.toNat % 8192 * 2) (header.hashSlow c)
          p.toList)
        (EpochAccumulator.inputs c E (header.number.toNat % 8192)) ∨
      c.ZeroPreimage (climbInputs c.hash32Concat (32768 + header.number.toNat % 8192 * 2)
        (header.hashSlow c) p.toList)) := by
  have hi : header.number.toNat % 8192 < 8192 := Nat.mod_lt _ (by norm_num)
  have hverify : v.verifyPreMergeHeader c w header p = .ok () ↔
      climb c.hash32Concat (32768 + header.number.toNat % 8192 * 2) (header.hashSlow c) p.toList
        = treeHashRoot c E := by
    rw [HeaderValidator.verifyPreMergeHeader_eq_ok, hroot]
    simp [hn, eq_comm]
  obtain ⟨p0, ps, hp⟩ : ∃ p0 ps, p.toList = p0 :: ps :=
    List.exists_cons_of_ne_nil fun h => by
      have hlen := p.length_eq
      rw [h] at hlen
      cases hlen
  have hlen : ps.length = 14 := by
    have hlen := p.length_eq
    rw [hp, List.length_cons] at hlen
    omega
  obtain ⟨hclimb, hinputs⟩ :=
    climb_preMergeProof c (header.number.toNat % 8192) (header.hashSlow c) p0 ps
  rw [hverify, hp, hclimb, hinputs]
  constructor
  · intro hok
    obtain ⟨record, hrec, hhash, rfl⟩ := constructPreMergeProof_eq_ok.mp hok
    obtain ⟨rfl, rfl⟩ := List.cons.inj hp
    have hpath := climb_epochBranch c E hi
    rwa [EpochAccumulator.chunkAt_leaves hrec, HeaderRecord.leaf, hhash] at hpath
  · intro h
    rcases preMergeProof_binds hi hlen h with ⟨record, hrec, hhash, rfl, rfl⟩ | hcol | hzero
    · refine Or.inl ⟨constructPreMergeProof_eq_ok.mpr ⟨record, hrec, hhash, ?_⟩,
        record, hrec, hhash⟩
      exact FixedVector.ext hp
    · exact Or.inr (Or.inl hcol)
    · obtain ⟨q, hq, hz⟩ := hzero
      rw [List.mem_singleton] at hq
      exact Or.inr (Or.inr ⟨q, by rw [hq]; exact List.mem_cons_self, hz⟩)

/-- An epoch of one block. -/
def genesisEpoch (c : Crypto) : EpochAccumulator :=
  ⟨[⟨(default : Header).hashSlow c, 17179869184⟩], by norm_num⟩

def genesisValidator (c : Crypto) : HeaderValidator where
  preMergeAcc := ⟨⟨[treeHashRoot c (genesisEpoch c)], by norm_num⟩⟩
  historicalRootsAcc := ⟨default⟩
  historicalSummariesProvider := ⟨default⟩

/-! The second of three blocks of the second epoch, and its proof. -/

def frontierHeader : Header :=
  { (default : Header) with
    number := 8193, difficulty := 511437094733, gasLimit := 5000, timestamp := 1438334627
    extraData := ⟨[71, 101, 116, 104], by norm_num⟩ }

def frontierRecord : HeaderRecord := ⟨frontierHeader.hashSlow prefixCrypto, 22019797038325⟩

def frontierEpoch : EpochAccumulator :=
  ⟨[⟨chunkOfBytes [1], 22019285601231⟩, frontierRecord, ⟨chunkOfBytes [3], 22020308225185⟩],
    by norm_num⟩

def frontierValidator : HeaderValidator :=
  { genesisValidator prefixCrypto with
    preMergeAcc := ⟨⟨[treeHashRoot prefixCrypto (genesisEpoch prefixCrypto),
      treeHashRoot prefixCrypto frontierEpoch], by norm_num⟩⟩ }

def frontierProof : BlockProofHistoricalHashesAccumulator :=
  EpochAccumulator.proof prefixCrypto frontierEpoch 1 frontierRecord

theorem verifyPreMergeHeader_iff_frontier :
    frontierValidator.verifyPreMergeHeader prefixCrypto .w64 frontierHeader frontierProof
        = .ok () ∧
      ((constructPreMergeProof prefixCrypto .w64 frontierHeader frontierEpoch = .ok frontierProof ∧
          ∃ record, frontierEpoch.toList[1]? = some record ∧
            record.blockHash = frontierHeader.hashSlow prefixCrypto) ∨
        Collision prefixCrypto.hash32Concat
          (climbInputs prefixCrypto.hash32Concat 32770 (frontierHeader.hashSlow prefixCrypto)
            frontierProof.toList)
          (EpochAccumulator.inputs prefixCrypto frontierEpoch 1) ∨
        prefixCrypto.ZeroPreimage (climbInputs prefixCrypto.hash32Concat 32770
          (frontierHeader.hashSlow prefixCrypto) frontierProof.toList)) := by
  obtain ⟨hcomplete, hsound⟩ := verifyPreMergeHeader_iff prefixCrypto .w64 frontierValidator
    frontierHeader frontierEpoch frontierProof (by decide) rfl
  have hok := hcomplete (constructPreMergeProof_eq_ok.mpr ⟨frontierRecord, rfl, rfl, rfl⟩)
  exact ⟨hok, hsound hok⟩

/-! ## 3. When it fails -/

/-- The failures kept for a tree that is not what was built: of the walk, of the leaf it ends
at, and of the number of elements put together. -/
inductive Error.IsInternal : Error → Prop where
  | treeWalk (e : MerkleTreeError) :
      IsInternal (.proofConstruction s!"merkle proof generation failed: {e.debug}")
  | leafMismatch :
      IsInternal (.proofConstruction "internal: leaf mismatch after merkle construction")
  | proofLength : IsInternal (.proofConstruction "proof length != 15")
  | fixedVector (len : ℕ) : IsInternal (.proofConstruction
      (s!"FixedVector<B256, U15> construction failed: " ++
        s!"OutOfBounds \x7b i: {len}, len: 15 \x7d"))

/-- An internal failure is told from a record's mismatch by its first letter. -/
theorem Error.IsInternal.head {e : Error} (h : e.IsInternal) :
    ∃ reason, e = .proofConstruction reason ∧ reason.toList.head? ≠ some 'h' := by
  cases h with
  | treeWalk e' => exact ⟨_, rfl, by simp [toString]⟩
  | leafMismatch => exact ⟨_, rfl, by simp⟩
  | proofLength => exact ⟨_, rfl, by simp⟩
  | fixedVector len => exact ⟨_, rfl, by simp [toString]⟩

theorem headerHashMismatch_not_internal (headerHash recordHash : B256) (i : ℕ) :
    ¬ (headerHashMismatch headerHash recordHash i).IsInternal := by
  intro h
  obtain ⟨reason, heq, hhead⟩ := h.head
  have htext := Error.proofConstruction.inj heq
  rw [← htext] at hhead
  exact hhead (by simp [toString])

/-- The epoch has the header's own record, at the header's place. -/
def EpochAccumulator.Covers (c : Crypto) (E : EpochAccumulator) (header : Header) : Prop :=
  ∃ record, E.toList[header.number.toNat % 8192]? = some record ∧
    record.blockHash = header.hashSlow c

/-- A construction that succeeds on the header's own epoch, and otherwise fails with an error
that is none of the internal ones. -/
structure ConstructsCleanly (c : Crypto) (w : PointerWidth) (header : Header)
    (E : EpochAccumulator) : Prop where
  ok_iff : (∃ p, constructPreMergeProof c w header E = .ok p) ↔ EpochAccumulator.Covers c E header
  err_of_not : ¬ EpochAccumulator.Covers c E header →
    ∃ e, constructPreMergeProof c w header E = .err e
  not_internal : ∀ e, constructPreMergeProof c w header E = .err e → ¬ e.IsInternal

/-- The only error, and the only abort: a record of another header, and no record. -/
theorem constructPreMergeProof_err {c : Crypto} {w : PointerWidth} {header : Header}
    {E : EpochAccumulator} {e : Error} (h : constructPreMergeProof c w header E = .err e) :
    ∃ record, E.toList[header.number.toNat % 8192]? = some record ∧
      e = headerHashMismatch (header.hashSlow c) record.blockHash
        (header.number.toNat % 8192) := by
  rw [constructPreMergeProof_eq] at h
  cases hrec : (E.index (header.number.toNat % 8192) : Outcome Error HeaderRecord) with
  | err e' =>
    unfold VariableList.index Outcome.expect at hrec
    split at hrec <;> cases hrec
  | panic msg =>
    rw [hrec] at h
    cases h
  | ok record =>
    rw [hrec, Outcome.ok_bind] at h
    split at h
    · exact ⟨record, VariableList.index_eq_ok.mp hrec, (Outcome.err.inj h).symm⟩
    · cases h

theorem constructPreMergeProof_panic {c : Crypto} {w : PointerWidth} {header : Header}
    {E : EpochAccumulator} :
    (∃ msg, constructPreMergeProof c w header E = .panic msg) ↔
      E.toList.length ≤ header.number.toNat % 8192 := by
  rw [← VariableList.index_eq_panic (ε := Error)]
  constructor
  · rintro ⟨msg, h⟩
    rw [constructPreMergeProof_eq, Outcome.bind_eq_panic] at h
    rcases h with h | ⟨record, -, h⟩
    · exact ⟨msg, h⟩
    · split at h <;> cases h
  · rintro ⟨msg, h⟩
    refine ⟨msg, ?_⟩
    rw [constructPreMergeProof_eq, h, Outcome.panic_bind]

/-- **The construction is clean exactly where the epoch has a record at the header's place.** -/
theorem constructPreMergeProof_clean_iff (c : Crypto) (w : PointerWidth) (header : Header)
    (E : EpochAccumulator) :
    ConstructsCleanly c w header E ↔ header.number.toNat % 8192 < E.toList.length := by
  have hok : (∃ p, constructPreMergeProof c w header E = .ok p) ↔
      EpochAccumulator.Covers c E header := by
    constructor
    · rintro ⟨p, hp⟩
      obtain ⟨record, hrec, hhash, -⟩ := constructPreMergeProof_eq_ok.mp hp
      exact ⟨record, hrec, hhash⟩
    · rintro ⟨record, hrec, hhash⟩
      exact ⟨_, constructPreMergeProof_eq_ok.mpr ⟨record, hrec, hhash, rfl⟩⟩
  constructor
  · intro hclean
    by_contra hge
    have hnone := List.getElem?_eq_none_iff.mpr (not_lt.mp hge)
    obtain ⟨msg, hpanic⟩ := constructPreMergeProof_panic.mpr (not_lt.mp hge)
    obtain ⟨e, herr⟩ := hclean.err_of_not fun ⟨record, hrec, _⟩ => by
      rw [hnone] at hrec
      cases hrec
    rw [hpanic] at herr
    cases herr
  · intro hlt
    refine ⟨hok, fun hnot => ?_, fun e he => ?_⟩
    · cases hrun : constructPreMergeProof c w header E with
      | ok p => exact absurd (hok.mp ⟨p, hrun⟩) hnot
      | err e => exact ⟨e, rfl⟩
      | panic msg => exact absurd (constructPreMergeProof_panic.mp ⟨msg, hrun⟩) (not_le.mpr hlt)
    · obtain ⟨record, -, rfl⟩ := constructPreMergeProof_err he
      exact headerHashMismatch_not_internal _ _ _

/-- Block 1 against an epoch of one block. -/
theorem constructPreMergeProof_not_clean :
    ¬ ∀ (c : Crypto) (w : PointerWidth) (header : Header) (E : EpochAccumulator),
      ConstructsCleanly c w header E := by
  intro hall
  let header : Header := { (default : Header) with number := 1 }
  have hclean := hall prefixCrypto .w64 header (genesisEpoch prefixCrypto)
  obtain ⟨e, herr⟩ := hclean.err_of_not fun ⟨record, hrec, _⟩ => by cases hrec
  have hlen : (genesisEpoch prefixCrypto).toList.length ≤ header.number.toNat % 8192 := le_rfl
  obtain ⟨msg, hpanic⟩ := constructPreMergeProof_panic.mpr hlen
  exact nomatch hpanic.symm.trans herr

end EthHistorian
