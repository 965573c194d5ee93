/-
# The canonized accumulators, and verifiers built on them

`src/lib.rs`, `src/constants.rs` and the builder of `src/api.rs`.  The two accumulators that decide
every header from before Capella are files, embedded when the crate is built; a verifier loads
them, after it has compared their digests and their roots with four constants.

None of this returns an error: what does not go through aborts.  The embedded files are the
environment, so they are a parameter, and `EmbeddedAssets.get` is all that is known of them.
-/
import EthHistorian.Model.Accumulators
import EthHistorian.Model.Api

namespace EthHistorian

open Ssz (Fields Ty)

/-! ## 1. The accumulators -/

structure EmbeddedAssets where
  get : String → Option (List UInt8)

/-- `expect` on a decoding, which quotes the error. -/
def expectDecoded {α : Type} (x : Outcome Ssz.DecodeError α) (msg : String) : Outcome Empty α :=
  match x with
  | .ok a => .ok a
  | .err e => .panic s!"{msg}: {e.debug}"
  | .panic msg => .panic msg

def PreMergeAccumulator.defaultFrom (assets : EmbeddedAssets) :
    Outcome Empty PreMergeAccumulator := do
  let raw ← .expect (assets.get "validation_assets/merge_macc.bin")
    "embedded merge_macc.bin missing — build broken"
  expectDecoded (sszPreMergeAccumulator.dec raw)
    "embedded merge_macc.bin failed SSZ decode — vendored asset corrupted"

/-- `new`, which is also `default`. -/
def HistoricalRootsAccumulator.new (assets : EmbeddedAssets) :
    Outcome Empty HistoricalRootsAccumulator := do
  let rawBytes ← .expect (assets.get "validation_assets/historical_roots.ssz")
    "embedded historical_roots.ssz missing — build broken"
  let historicalRoots ← expectDecoded (sszHistoricalRootsList.dec rawBytes)
    "embedded historical_roots.ssz failed SSZ decode — vendored asset corrupted"
  return ⟨historicalRoots⟩

/-! ## 2. The fingerprints -/

def defaultPreMergeAccHash : B256 := ⟨
  [0x8e, 0xac, 0x39, 0x9e, 0x24, 0x48, 0x0d, 0xce, 0x3c, 0xfe, 0x06, 0xf4, 0xbd, 0xec, 0xba, 0x51,
    0xc6, 0xe5, 0xd0, 0xc4, 0x62, 0x00, 0xe3, 0xe8, 0x61, 0x1a, 0x0b, 0x44, 0xa3, 0xa6, 0x9f, 0xf9],
  rfl⟩

def defaultHistoricalRootsHash : B256 := ⟨
  [0x4d, 0xf6, 0xb8, 0x97, 0x55, 0x12, 0x5d, 0x4f, 0x6c, 0x55, 0x75, 0x03, 0x9a, 0x04, 0xe2, 0x23,
    0x01, 0xa5, 0xa4, 0x9e, 0xe8, 0x93, 0xc1, 0xd2, 0x7e, 0x55, 0x9e, 0x3e, 0xea, 0xb7, 0x3d, 0xa7],
  rfl⟩

def mergeMaccBinSha256 : B256 := ⟨
  [0xa2, 0x36, 0x8b, 0xfa, 0x82, 0xa8, 0x9a, 0x89, 0x8b, 0x31, 0xdc, 0xa6, 0xf3, 0x7a, 0xa2, 0x87,
    0x91, 0x8b, 0xd6, 0x71, 0xbd, 0x74, 0x05, 0x89, 0x12, 0xbc, 0x44, 0x0c, 0x22, 0x88, 0xd7, 0x91],
  rfl⟩

def historicalRootsSszSha256 : B256 := ⟨
  [0x64, 0xed, 0x2c, 0xbe, 0xd1, 0x3a, 0x65, 0xc2, 0x24, 0xb4, 0x71, 0xf5, 0x3b, 0x5f, 0x83, 0x20,
    0x30, 0xc1, 0x1e, 0x73, 0x71, 0x0e, 0x27, 0x02, 0x12, 0x1e, 0x7b, 0x1a, 0x50, 0x82, 0xa3, 0x16],
  rfl⟩

/-- `{:?}` of a byte slice. -/
def FixedBytes.sliceDebug {n : ℕ} (x : FixedBytes n) : String := toString (x.bytes.map UInt8.toNat)

/-- `assert_eq!(left, right, msg)`, for values that are displayed this way. -/
def assertEq (debug : B256 → String) (left right : B256) (msg : String) : Outcome Empty Unit :=
  if left = right then .ok ()
  else .panic
    s!"assertion `left == right` failed: {msg}\n  left: {debug left}\n right: {debug right}"

def assertCanonizedAccumulatorFingerprints (c : Crypto) (assets : EmbeddedAssets) :
    Outcome Empty Unit := do
  let mergeMaccBytes ← .expect (assets.get "validation_assets/merge_macc.bin")
    "merge_macc.bin missing from embedded assets"
  assertEq FixedBytes.sliceDebug (c.hash mergeMaccBytes) mergeMaccBinSha256
    "merge_macc.bin SHA-256 mismatch — embedded asset has been altered"
  let historicalRootsBytes ← .expect (assets.get "validation_assets/historical_roots.ssz")
    "historical_roots.ssz missing from embedded assets"
  assertEq FixedBytes.sliceDebug (c.hash historicalRootsBytes) historicalRootsSszSha256
    "historical_roots.ssz SHA-256 mismatch — embedded asset has been altered"
  let preMergeAcc ← PreMergeAccumulator.defaultFrom assets
  assertEq FixedBytes.debug (treeHashRoot c preMergeAcc) defaultPreMergeAccHash
    ("PreMergeAccumulator tree-hash root mismatch — vendored binary inconsistent with trin's " ++
      "canonized hash")
  let historicalRootsAcc ← HistoricalRootsAccumulator.new assets
  assertEq FixedBytes.debug (treeHashRoot c historicalRootsAcc) defaultHistoricalRootsHash
    ("HistoricalRootsAccumulator tree-hash root mismatch — vendored binary inconsistent with " ++
      "trin's canonized hash")

/-! ## 3. The builder -/

def HeaderValidator.newWithHistoricalSummaries (assets : EmbeddedAssets)
    (historicalSummaries : HistoricalSummaries) : Outcome Empty HeaderValidator := do
  let preMergeAcc ← PreMergeAccumulator.defaultFrom assets
  let historicalRootsAcc ← HistoricalRootsAccumulator.new assets
  return ⟨preMergeAcc, historicalRootsAcc, ⟨historicalSummaries⟩⟩

/-- With an empty snapshot. -/
def HeaderValidator.defaultFrom (assets : EmbeddedAssets) : Outcome Empty HeaderValidator :=
  newWithHistoricalSummaries assets default

structure VerifierBuilder where
  dataSources : List DataSource
  historicalSummaries : Option HistoricalSummaries
  skipFingerprintCheck : Bool

/-- The methods of a builder, each of which returns the builder. -/
inductive BuilderCall where
  | dataSource (source : DataSource)
  | historicalSummaries (summaries : HistoricalSummaries)
  | skipFingerprintCheck

namespace VerifierBuilder

def new : VerifierBuilder := ⟨[], none, false⟩

def call (b : VerifierBuilder) : BuilderCall → VerifierBuilder
  | .dataSource source => { b with dataSources := b.dataSources ++ [source] }
  | .historicalSummaries summaries => { b with historicalSummaries := some summaries }
  | .skipFingerprintCheck => { b with skipFingerprintCheck := true }

/-- The validator that `build` loads. -/
def validator (assets : EmbeddedAssets) (b : VerifierBuilder) : Outcome Empty HeaderValidator :=
  match b.historicalSummaries with
  | some summaries => HeaderValidator.newWithHistoricalSummaries assets summaries
  | none => HeaderValidator.defaultFrom assets

def build (c : Crypto) (assets : EmbeddedAssets) (b : VerifierBuilder) :
    Outcome Empty Verifier := do
  let () ← (if b.skipFingerprintCheck then .ok ()
    else assertCanonizedAccumulatorFingerprints c assets)
  let validator ← b.validator assets
  return ⟨validator, b.dataSources⟩

end VerifierBuilder

/-- A chain of calls on a fresh builder. -/
def Verifier.builder (calls : List BuilderCall) : VerifierBuilder :=
  calls.foldl VerifierBuilder.call .new

def Verifier.new (c : Crypto) (assets : EmbeddedAssets) : Outcome Empty Verifier :=
  (Verifier.builder []).build c assets

/-! ## 4. What loading and checking come to -/

theorem expectDecoded_eq_ok {α : Type} {x : Outcome Ssz.DecodeError α} {msg : String} {a : α} :
    expectDecoded x msg = .ok a ↔ x = .ok a := by
  cases x <;> simp [expectDecoded]

theorem expect_eq_ok {α : Type} {x : Option α} {msg : String} {a : α} :
    (Outcome.expect x msg : Outcome Empty α) = .ok a ↔ x = some a := by
  cases x <;> simp [Outcome.expect]

theorem assertEq_eq_ok {debug : B256 → String} {left right : B256} {msg : String} {u : Unit} :
    assertEq debug left right msg = .ok u ↔ left = right := by
  unfold assertEq
  split <;> simp_all

/-- A container of one list is its offset and the list. -/
theorem valid_sszPreMergeAccumulator (x : PreMergeAccumulator) :
    (sszPreMergeAccumulator : Ty Ssz.DecodeError _).Valid x := by
  refine Ty.valid_of_length_lt _ x ?_
  have hroots : ((sszList 131072 32 (sszHash : Ty Ssz.DecodeError _) slot_sszHash
      strict_sszHash).enc x.historicalEpochs).length
        = x.historicalEpochs.toList.length * 32 :=
    Ssz.length_flatten_map_enc rfl x.historicalEpochs.toList
  have hle := x.historicalEpochs.length_le
  have hadm : List.Forall₂ Ssz.Slot.Admits [.dynamic]
      [(sszList 131072 32 (sszHash : Ty Ssz.DecodeError _) slot_sszHash
        strict_sszHash).enc x.historicalEpochs] := .cons trivial .nil
  have hlen := Ssz.length_encode hadm
  have hbody : ∀ p : List UInt8, Ssz.bodyBytes [.dynamic] [p] = p := List.append_nil
  rw [hbody, hroots] at hlen
  change (Ssz.encode _ _).length < _
  refine hlen.trans_lt ?_
  change 4 + _ < _
  omega

/-- The file that an accumulator is loaded from. -/
def PreMergeAccumulator.asset (x : PreMergeAccumulator) : List UInt8 :=
  (sszPreMergeAccumulator : Ty Ssz.DecodeError _).enc x

def HistoricalRootsAccumulator.asset (x : HistoricalRootsAccumulator) : List UInt8 :=
  (sszHistoricalRootsList : Ty Ssz.DecodeError _).enc x.historicalRoots

theorem PreMergeAccumulator.eq_of_asset_eq {x y : PreMergeAccumulator} (h : x.asset = y.asset) :
    x = y :=
  Ty.eq_of_enc_eq _ (valid_sszPreMergeAccumulator x) (valid_sszPreMergeAccumulator y) h

theorem HistoricalRootsAccumulator.eq_of_asset_eq {x y : HistoricalRootsAccumulator}
    (h : x.asset = y.asset) : x = y :=
  congrArg HistoricalRootsAccumulator.mk (Ty.eq_of_enc_eq _ (valid_sszList (by norm_num) _)
    (valid_sszList (by norm_num) _) h)

theorem PreMergeAccumulator.defaultFrom_eq_ok {assets : EmbeddedAssets}
    {x : PreMergeAccumulator} :
    PreMergeAccumulator.defaultFrom assets = .ok x ↔
      assets.get "validation_assets/merge_macc.bin" = some x.asset := by
  have hstrict : (sszPreMergeAccumulator : Ty Ssz.DecodeError _).Strict := Fields.strict_record
  simp only [PreMergeAccumulator.defaultFrom, Outcome.bind_eq_ok, expect_eq_ok,
    expectDecoded_eq_ok, hstrict.dec_eq_ok]
  constructor
  · rintro ⟨raw, hraw, -, rfl⟩
    exact hraw
  · intro hraw
    exact ⟨_, hraw, valid_sszPreMergeAccumulator x, rfl⟩

theorem HistoricalRootsAccumulator.new_eq_ok {assets : EmbeddedAssets}
    {x : HistoricalRootsAccumulator} :
    HistoricalRootsAccumulator.new assets = .ok x ↔
      assets.get "validation_assets/historical_roots.ssz" = some x.asset := by
  have hstrict : (sszHistoricalRootsList : Ty Ssz.DecodeError _).Strict := Ty.strict_of_dynamic rfl
  simp only [HistoricalRootsAccumulator.new, Outcome.bind_eq_ok, expect_eq_ok,
    expectDecoded_eq_ok, hstrict.dec_eq_ok, Outcome.pure_eq, Outcome.ok.injEq]
  constructor
  · rintro ⟨raw, hraw, roots, ⟨-, rfl⟩, rfl⟩
    exact hraw
  · intro hraw
    exact ⟨_, hraw, x.historicalRoots, ⟨valid_sszList (by norm_num) _, rfl⟩, rfl⟩

end EthHistorian
