/-
# Building pre-merge proofs

`src/proof_construction.rs`: the proof that a header is the record its epoch accumulator has for
it.  Two elements are spliced in by hand, the total difficulty before the tree's branch and the
length after it; the record itself is taken by index, so a short accumulator is an abort.

`constructPreMergeProof_eq` runs the function once and for all.
-/
import EthHistorian.Model.Consensus
import EthHistorian.Model.Errors
import EthHistorian.Model.HeaderValidator

namespace EthHistorian

open Merkle ByteString

/-! ## 1. The source -/

structure HeaderRecord where
  blockHash : B256
  totalDifficulty : U256
  deriving DecidableEq, Inhabited

instance : TreeHash HeaderRecord where
  packed := none
  treeHashRoot c x := containerRoot c [treeHashRoot c x.blockHash, treeHashRoot c x.totalDifficulty]

abbrev EpochAccumulator := VariableList HeaderRecord 8192

/-- The answer to a record of another header. -/
def headerHashMismatch (headerHash recordHash : B256) (hrIndex : ℕ) : Error :=
  .proofConstruction (s!"header hash {headerHash.debug} doesn't match epoch accumulator " ++
    s!"entry {recordHash.debug} at index {hrIndex}")

def constructPreMergeProof (c : Crypto) (w : PointerWidth) (header : Header)
    (epochAcc : EpochAccumulator) : Outcome Error BlockProofHistoricalHashesAccumulator := do
  let hrIndex := asUsize w (header.number % slotsPerHistoricalRoot)
  let headerRecord ← epochAcc.index hrIndex
  if headerRecord.blockHash ≠ header.hashSlow c then
    .err (headerHashMismatch (header.hashSlow c) headerRecord.blockHash hrIndex)
  else
    let headerDifficulty := U256.toLeBytes headerRecord.totalDifficulty
    let headerRecordHash := c.hash32Concat headerRecord.blockHash headerDifficulty
    let leaves := epochAcc.toList.map fun record =>
      c.hash32Concat record.blockHash (U256.toLeBytes record.totalDifficulty)
    let merkleTree := MerkleTree.create c leaves 13
    let (leaf, proof) ← (merkleTree.generateProof c hrIndex 13).mapErr fun e =>
      .proofConstruction s!"merkle proof generation failed: {e.debug}"
    if leaf ≠ headerRecordHash then
      .err (.proofConstruction "internal: leaf mismatch after merkle construction")
    else
      let epochSize := U256.toLeBytes (BitVec.ofNat 256 epochAcc.toList.length)
      -- the difficulty is what the record's leaf is hashed with, the length what the root is
      let finalProof := headerDifficulty :: proof ++ [epochSize]
      if finalProof.length ≠ 15 then .err (.proofConstruction "proof length != 15")
      else
        match FixedVector.new 15 finalProof with
        | some v => .ok v
        | none => .err (.proofConstruction (s!"FixedVector<B256, U15> construction failed: " ++
            s!"OutOfBounds \x7b i: {finalProof.length}, len: 15 \x7d"))

/-! ## 2. What it returns -/

/-- The leaf of a record. -/
def HeaderRecord.leaf (c : Crypto) (record : HeaderRecord) : B256 :=
  c.hash32Concat record.blockHash (U256.toLeBytes record.totalDifficulty)

/-- The leaves of an epoch. -/
def EpochAccumulator.leaves (c : Crypto) (E : EpochAccumulator) : List B256 :=
  E.toList.map (HeaderRecord.leaf c)

/-- The chunk of an epoch's length. -/
def EpochAccumulator.lengthChunk (E : EpochAccumulator) : B256 :=
  U256.toLeBytes (BitVec.ofNat 256 E.toList.length)

/-- The siblings above the `i`-th leaf, and the length on top. -/
def EpochAccumulator.branch (c : Crypto) (E : EpochAccumulator) (i : ℕ) : List B256 :=
  Merkle.branch c.hash32Concat 13 (chunkAt (EpochAccumulator.leaves c E)) i ++
    [EpochAccumulator.lengthChunk E]

theorem EpochAccumulator.length_branch (c : Crypto) (E : EpochAccumulator) (i : ℕ) :
    (EpochAccumulator.branch c E i).length = 14 := by
  simp [EpochAccumulator.branch]

/-- The proof of a record: its difficulty, and the path of its leaf. -/
def EpochAccumulator.proof (c : Crypto) (E : EpochAccumulator) (i : ℕ) (record : HeaderRecord) :
    BlockProofHistoricalHashesAccumulator :=
  ⟨U256.toLeBytes record.totalDifficulty :: EpochAccumulator.branch c E i, by
    rw [List.length_cons, EpochAccumulator.length_branch]⟩

theorem EpochAccumulator.chunkAt_leaves {c : Crypto} {E : EpochAccumulator} {i : ℕ}
    {record : HeaderRecord} (h : E.toList[i]? = some record) :
    chunkAt (EpochAccumulator.leaves c E) i = HeaderRecord.leaf c record := by
  simp [chunkAt, leafAt, EpochAccumulator.leaves, h]

/-- **The construction, run**: past the end it aborts, at another header's record it fails, and
otherwise it returns the record's own proof. -/
theorem constructPreMergeProof_eq (c : Crypto) (w : PointerWidth) (header : Header)
    (E : EpochAccumulator) :
    constructPreMergeProof c w header E
      = (E.index (header.number.toNat % 8192) >>= fun record =>
          if record.blockHash ≠ header.hashSlow c then
            .err (headerHashMismatch (header.hashSlow c) record.blockHash
              (header.number.toNat % 8192))
          else .ok (EpochAccumulator.proof c E (header.number.toNat % 8192) record)) := by
  have hi : header.number.toNat % 8192 < 2 ^ 13 := Nat.mod_lt _ (by norm_num)
  have hlen : (EpochAccumulator.leaves c E).length ≤ 2 ^ 13 := by
    rw [EpochAccumulator.leaves, List.length_map]
    exact E.length_le
  have hwalk := generateProof_create c hlen hi
  simp only [constructPreMergeProof, HeaderValidator.asUsize_blockRootIndex]
  cases hrec : (E.index (header.number.toNat % 8192) : Outcome Error HeaderRecord) with
  | err e => rfl
  | panic msg => rfl
  | ok record =>
    have hleaf := EpochAccumulator.chunkAt_leaves (c := c) (VariableList.index_eq_ok.mp hrec)
    have hfifteen : (U256.toLeBytes record.totalDifficulty ::
        EpochAccumulator.branch c E (header.number.toNat % 8192)).length = 15 := by
      rw [List.length_cons, EpochAccumulator.length_branch]
    simp only [Outcome.ok_bind]
    split
    · rfl
    · -- the tree's own leaf is the record's, and its branch has thirteen siblings
      rw [hleaf] at hwalk
      change ((MerkleTree.generateProof c (MerkleTree.create c (EpochAccumulator.leaves c E) 13)
        (header.number.toNat % 8192) 13).mapErr _ >>= _) = _
      rw [hwalk, Outcome.mapErr_ok, Outcome.ok_bind]
      change (if HeaderRecord.leaf c record ≠ HeaderRecord.leaf c record then _ else
        if (U256.toLeBytes record.totalDifficulty ::
          EpochAccumulator.branch c E (header.number.toNat % 8192)).length ≠ 15 then _ else
        match FixedVector.new 15 (U256.toLeBytes record.totalDifficulty ::
          EpochAccumulator.branch c E (header.number.toNat % 8192)) with
        | some v => Outcome.ok v
        | none => _) = _
      rw [if_neg (not_not.mpr rfl), if_neg (not_not.mpr hfifteen),
        FixedVector.new_eq_some hfifteen]
      rfl

end EthHistorian
