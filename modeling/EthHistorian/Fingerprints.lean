/-
# What a checked verifier can be made to believe

The fingerprint check compares each embedded file twice, its digest and the root of what was read
from it, and a verifier has its snapshots from its caller and from nobody else.

* `Verifier.build_calls`: after any calls a builder builds the verifier of its files: the sources
  in the order they were named, the last snapshot, and the check unless some call took it away.
* `Verifier.build_agree`: two checked verifiers answer alike to everything from before Capella,
  or the files they were built from break SHA-256 twice: two files have one digest, and two
  computations of a root hashed two pairs to one value.
* `Session.accepted_installed`: in every run of a built verifier, what is accepted is accepted
  under a snapshot that was put there before, by the builder or by a refresh.  So a verifier with
  no snapshot accepts nothing that needs one, whatever its sources send.
-/
import EthHistorian.Model.Canonized
import EthHistorian.Sessions

namespace EthHistorian

open Merkle
open Ssz (Ty)

variable {c : Crypto} {w : PointerWidth} {D : HeaderDecoder}

/-! ## 1. The check -/

/-- The files of two accumulators. -/
structure EmbeddedAssets.Holds (assets : EmbeddedAssets) (P : PreMergeAccumulator)
    (R : HistoricalRootsAccumulator) : Prop where
  mergeMacc : assets.get "validation_assets/merge_macc.bin" = some P.asset
  historicalRoots : assets.get "validation_assets/historical_roots.ssz" = some R.asset

/-- Just the two files. -/
def EmbeddedAssets.of (P : PreMergeAccumulator) (R : HistoricalRootsAccumulator) :
    EmbeddedAssets where
  get name :=
    if name = "validation_assets/merge_macc.bin" then some P.asset
    else if name = "validation_assets/historical_roots.ssz" then some R.asset
    else none

theorem EmbeddedAssets.Holds.of (P : PreMergeAccumulator) (R : HistoricalRootsAccumulator) :
    (EmbeddedAssets.of P R).Holds P R where
  mergeMacc := by simp [EmbeddedAssets.of]
  historicalRoots := by simp [EmbeddedAssets.of]

/-- The four fingerprints. -/
structure Canonized (c : Crypto) (P : PreMergeAccumulator) (R : HistoricalRootsAccumulator) :
    Prop where
  mergeMacc : c.hash P.asset = mergeMaccBinSha256
  historicalRootsSsz : c.hash R.asset = historicalRootsSszSha256
  preMergeAcc : treeHashRoot c P = defaultPreMergeAccHash
  historicalRootsAcc : treeHashRoot c R = defaultHistoricalRootsHash

/-- A list's root is its tree's, with the length. -/
theorem treeHashRoot_roots (c : Crypto) {n : ℕ} (l : VariableList B256 n) :
    treeHashRoot c l = c.hash32Concat (vecRoot c n l.toList)
      (chunkOfBytes (ByteString.toLE 8 l.toList.length)) := rfl

theorem PreMergeAccumulator.treeHashRoot_eq (c : Crypto) (x : PreMergeAccumulator) :
    treeHashRoot c x = treeHashRoot c x.historicalEpochs := by
  change subtree c.hash32Concat (treeDepth 1) (chunkAt [treeHashRoot c x.historicalEpochs]) = _
  rw [treeDepth, Nat.clog_one_right]
  rfl

theorem HistoricalRootsAccumulator.treeHashRoot_eq (c : Crypto) (x : HistoricalRootsAccumulator) :
    treeHashRoot c x = treeHashRoot c x.historicalRoots := rfl

/-- **The check passes** on the files of canonized accumulators. -/
theorem assertCanonizedAccumulatorFingerprints_eq_ok {assets : EmbeddedAssets} :
    assertCanonizedAccumulatorFingerprints c assets = .ok () ↔
      ∃ P R, assets.Holds P R ∧ Canonized c P R := by
  simp only [assertCanonizedAccumulatorFingerprints, Outcome.bind_eq_ok, expect_eq_ok,
    assertEq_eq_ok, PreMergeAccumulator.defaultFrom_eq_ok, HistoricalRootsAccumulator.new_eq_ok]
  constructor
  · rintro ⟨raw, hraw, -, hsha, raw', hraw', -, hsha', P, hP, -, hroot, R, hR, hroot'⟩
    obtain rfl := Option.some.inj (hraw.symm.trans hP)
    obtain rfl := Option.some.inj (hraw'.symm.trans hR)
    exact ⟨P, R, ⟨hP, hR⟩, hsha, hsha', hroot, hroot'⟩
  · rintro ⟨P, R, ⟨hP, hR⟩, hsha, hsha', hroot, hroot'⟩
    exact ⟨_, hP, (), hsha, _, hR, (), hsha', P, hP, (), hroot, R, hR, hroot'⟩

/-- Files are of one pair of accumulators. -/
theorem EmbeddedAssets.Holds.unique {assets : EmbeddedAssets} {P P' : PreMergeAccumulator}
    {R R' : HistoricalRootsAccumulator} (h : assets.Holds P R) (h' : assets.Holds P' R') :
    P = P' ∧ R = R' := by
  have hP := PreMergeAccumulator.defaultFrom_eq_ok.mpr h.mergeMacc
  have hR := HistoricalRootsAccumulator.new_eq_ok.mpr h.historicalRoots
  rw [PreMergeAccumulator.defaultFrom_eq_ok.mpr h'.mergeMacc] at hP
  rw [HistoricalRootsAccumulator.new_eq_ok.mpr h'.historicalRoots] at hR
  exact ⟨(Outcome.ok.inj hP).symm, (Outcome.ok.inj hR).symm⟩

theorem HeaderValidator.newWithHistoricalSummaries_eq_ok {assets : EmbeddedAssets}
    {summaries : HistoricalSummaries} {v : HeaderValidator} :
    newWithHistoricalSummaries assets summaries = .ok v ↔
      assets.Holds v.preMergeAcc v.historicalRootsAcc ∧
        v.historicalSummariesProvider.summaries = summaries := by
  simp only [newWithHistoricalSummaries, Outcome.bind_eq_ok,
    PreMergeAccumulator.defaultFrom_eq_ok, HistoricalRootsAccumulator.new_eq_ok, Outcome.pure_eq,
    Outcome.ok.injEq]
  constructor
  · rintro ⟨P, hP, R, hR, rfl⟩
    exact ⟨⟨hP, hR⟩, rfl⟩
  · rintro ⟨⟨hP, hR⟩, rfl⟩
    exact ⟨_, hP, _, hR, rfl⟩

/-! ## 2. The builder -/

namespace BuilderCall

/-- The source that a call names. -/
def source? : BuilderCall → Option DataSource
  | dataSource source => some source
  | _ => none

/-- The snapshot that a call supplies. -/
def summaries? : BuilderCall → Option HistoricalSummaries
  | historicalSummaries summaries => some summaries
  | _ => none

end BuilderCall

namespace Verifier

/-- The sources that the calls name, in their order. -/
def namedSources (calls : List BuilderCall) : List DataSource :=
  calls.filterMap BuilderCall.source?

/-- The snapshot that the calls leave, of several the last one. -/
def suppliedSummaries (calls : List BuilderCall) : Option HistoricalSummaries :=
  (calls.filterMap BuilderCall.summaries?).getLast?

end Verifier

namespace VerifierBuilder

/-- **A chain of calls**: each says one thing, and leaves the rest as it was. -/
theorem foldl_call (b : VerifierBuilder) (calls : List BuilderCall) :
    (calls.foldl call b).dataSources = b.dataSources ++ Verifier.namedSources calls ∧
    (calls.foldl call b).historicalSummaries
      = (Verifier.suppliedSummaries calls).or b.historicalSummaries ∧
    ((calls.foldl call b).skipFingerprintCheck = true ↔
      b.skipFingerprintCheck = true ∨ .skipFingerprintCheck ∈ calls) := by
  induction calls generalizing b with
  | nil => exact ⟨(List.append_nil _).symm, rfl, by simp⟩
  | cons first calls ih =>
    obtain ⟨hsources, hsummaries, hskip⟩ := ih (b.call first)
    rw [List.foldl_cons, hsources, hsummaries, hskip]
    cases first with
    | dataSource source =>
      exact ⟨List.append_assoc _ [source] _, rfl, by simp [call]⟩
    | historicalSummaries summaries =>
      refine ⟨rfl, ?_, by simp [call]⟩
      change _ = (summaries :: calls.filterMap BuilderCall.summaries?).getLast?.or _
      rw [List.getLast?_cons]
      cases hlast : (calls.filterMap BuilderCall.summaries?).getLast? with
      | none => simp [Verifier.suppliedSummaries, hlast, call]
      | some last => simp [Verifier.suppliedSummaries, hlast]
    | skipFingerprintCheck => exact ⟨rfl, rfl, by simp [call]⟩

theorem build_eq_ok {assets : EmbeddedAssets} {b : VerifierBuilder} {v : Verifier} :
    b.build c assets = .ok v ↔
      assets.Holds v.validator.preMergeAcc v.validator.historicalRootsAcc ∧
      (b.skipFingerprintCheck = false →
        Canonized c v.validator.preMergeAcc v.validator.historicalRootsAcc) ∧
      v.validator.historicalSummariesProvider.summaries = b.historicalSummaries.getD default ∧
      v.dataSources = b.dataSources := by
  have hvalidator : ∀ validator, b.validator assets = .ok validator ↔
      assets.Holds validator.preMergeAcc validator.historicalRootsAcc ∧
        validator.historicalSummariesProvider.summaries
          = b.historicalSummaries.getD default := by
    intro validator
    unfold VerifierBuilder.validator
    cases b.historicalSummaries with
    | none => exact HeaderValidator.newWithHistoricalSummaries_eq_ok
    | some summaries => exact HeaderValidator.newWithHistoricalSummaries_eq_ok
  have hcheck : ∀ u, (if b.skipFingerprintCheck then (.ok () : Outcome Empty Unit)
      else assertCanonizedAccumulatorFingerprints c assets) = .ok u ↔
        (b.skipFingerprintCheck = false → ∃ P R, assets.Holds P R ∧ Canonized c P R) := by
    intro u
    cases b.skipFingerprintCheck with
    | true => exact iff_of_true rfl nofun
    | false =>
      exact assertCanonizedAccumulatorFingerprints_eq_ok.trans ⟨fun h _ => h, fun h => h rfl⟩
  simp only [build, Outcome.bind_eq_ok, hcheck, hvalidator, Outcome.pure_eq, Outcome.ok.injEq]
  constructor
  · rintro ⟨-, hcanonized, validator, ⟨hholds, hsummaries⟩, rfl⟩
    refine ⟨hholds, fun hskip => ?_, hsummaries, rfl⟩
    obtain ⟨P, R, hfiles, h⟩ := hcanonized hskip
    obtain ⟨rfl, rfl⟩ := hfiles.unique hholds
    exact h
  · rintro ⟨hholds, hcanonized, hsummaries, hsources⟩
    exact ⟨(), fun hskip => ⟨_, _, hholds, hcanonized hskip⟩, v.validator, ⟨hholds, hsummaries⟩,
      by rw [← hsources]⟩

end VerifierBuilder

namespace Verifier

/-- **What calls on a builder come to**, in whatever order they are made. -/
theorem build_calls (c : Crypto) (assets : EmbeddedAssets) (calls : List BuilderCall)
    (v : Verifier) :
    (builder calls).build c assets = .ok v ↔
      assets.Holds v.validator.preMergeAcc v.validator.historicalRootsAcc ∧
      (.skipFingerprintCheck ∉ calls →
        Canonized c v.validator.preMergeAcc v.validator.historicalRootsAcc) ∧
      v.validator.historicalSummariesProvider.summaries
        = (suppliedSummaries calls).getD default ∧
      v.dataSources = namedSources calls := by
  obtain ⟨hsources, hsummaries, hskip⟩ := VerifierBuilder.foldl_call .new calls
  rw [VerifierBuilder.build_eq_ok, builder, hsources, hsummaries, ← Bool.not_eq_true, hskip]
  simp [VerifierBuilder.new]

/-! ## 3. Two checked verifiers -/

/-- Two different files have one digest. -/
def FilesCollide (c : Crypto) (bytes bytes' : List UInt8) : Prop :=
  bytes ≠ bytes' ∧ c.hash bytes = c.hash bytes'

/-- The accumulators of two checks are equal, or the checks were beaten twice over. -/
theorem canonized_agree {P P' : PreMergeAccumulator} {R R' : HistoricalRootsAccumulator}
    (h : Canonized c P R) (h' : Canonized c P' R') :
    (P = P' ∨ FilesCollide c P.asset P'.asset ∧
      Collision c.hash32Concat (Commits.inputs c P) (Commits.inputs c P')) ∧
    (R = R' ∨ FilesCollide c R.asset R'.asset ∧
      Collision c.hash32Concat (Commits.inputs c R) (Commits.inputs c R')) := by
  constructor
  · by_cases hfile : P.asset = P'.asset
    · exact Or.inl (PreMergeAccumulator.eq_of_asset_eq hfile)
    · rcases Commits.binds c P P' (h.preMergeAcc.trans h'.preMergeAcc.symm) with heq | hcol
      · exact Or.inl heq
      · exact Or.inr ⟨⟨hfile, h.mergeMacc.trans h'.mergeMacc.symm⟩, hcol⟩
  · by_cases hfile : R.asset = R'.asset
    · exact Or.inl (HistoricalRootsAccumulator.eq_of_asset_eq hfile)
    · rcases Commits.binds c R R' (h.historicalRootsAcc.trans h'.historicalRootsAcc.symm) with
        heq | hcol
      · exact Or.inl heq
      · exact Or.inr ⟨⟨hfile, h.historicalRootsSsz.trans h'.historicalRootsSsz.symm⟩, hcol⟩

/-- **Two checked verifiers** answer alike to every proof from before Capella, whatever files each
was built from and whatever else its builder was told. -/
theorem build_agree (c : Crypto) (w : PointerWidth) {assets assets' : EmbeddedAssets}
    {calls calls' : List BuilderCall} {v v' : Verifier}
    (hv : (builder calls).build c assets = .ok v) (hv' : (builder calls').build c assets' = .ok v')
    (hchecked : .skipFingerprintCheck ∉ calls) (hchecked' : .skipFingerprintCheck ∉ calls') :
    (∀ hwp : HeaderWithProof, hwp.proof.era.isHistoricalSummaries = false →
      v.verify c w hwp = v'.verify c w hwp) ∨
    (FilesCollide c v.validator.preMergeAcc.asset v'.validator.preMergeAcc.asset ∧
      Collision c.hash32Concat (Commits.inputs c v.validator.preMergeAcc)
        (Commits.inputs c v'.validator.preMergeAcc)) ∨
    FilesCollide c v.validator.historicalRootsAcc.asset v'.validator.historicalRootsAcc.asset ∧
      Collision c.hash32Concat (Commits.inputs c v.validator.historicalRootsAcc)
        (Commits.inputs c v'.validator.historicalRootsAcc) := by
  obtain ⟨-, hcanonized, -, -⟩ := (build_calls c assets calls v).mp hv
  obtain ⟨-, hcanonized', -, -⟩ := (build_calls c assets' calls' v').mp hv'
  obtain ⟨hpre, hroots⟩ := canonized_agree (hcanonized hchecked) (hcanonized' hchecked')
  rcases hpre with hpre | hbeaten
  · rcases hroots with hroots | hbeaten
    · exact Or.inl fun hwp hera =>
        verify_congr (HeaderValidator.validateHeaderWithProof_of_acc_eq hpre hroots hera)
    · exact Or.inr (Or.inr hbeaten)
  · exact Or.inr (Or.inl hbeaten)

end Verifier

namespace Verifier

/-- A hash with the four fingerprints of two small accumulators. -/
def fingerprintCrypto : Crypto where
  hash bs :=
    if bs.length = 4 then mergeMaccBinSha256
    else if bs.length = 32 then historicalRootsSszSha256
    else if bs.drop 32 = List.replicate 32 0 then defaultPreMergeAccHash
    else defaultHistoricalRootsHash
  keccak256 := chunkOfBytes

/-- No epochs, and one root. -/
def smallPreMergeAcc : PreMergeAccumulator := ⟨⟨[], by norm_num⟩⟩

def smallHistoricalRootsAcc : HistoricalRootsAccumulator := ⟨⟨[FixedBytes.zero 32], by norm_num⟩⟩

def smallAssets : EmbeddedAssets := .of smallPreMergeAcc smallHistoricalRootsAcc

theorem hash32Concat_fingerprintCrypto (a b : B256) :
    fingerprintCrypto.hash32Concat a b
      = if b = FixedBytes.zero 32 then defaultPreMergeAccHash else defaultHistoricalRootsHash := by
  have hlen : (a.bytes ++ b.bytes).length = 64 := by
    rw [List.length_append, a.length_eq, b.length_eq]
  have hdrop : (a.bytes ++ b.bytes).drop 32 = b.bytes := List.drop_left' a.length_eq
  have hzero : b.bytes = List.replicate 32 0 ↔ b = FixedBytes.zero 32 :=
    ⟨fun h => FixedBytes.ext h, fun h => congrArg FixedBytes.bytes h⟩
  simp only [Crypto.hash32Concat, fingerprintCrypto, hlen, hdrop, hzero]
  norm_num

theorem canonized_small : Canonized fingerprintCrypto smallPreMergeAcc smallHistoricalRootsAcc where
  mergeMacc := by decide
  historicalRootsSsz := by decide
  preMergeAcc := by
    rw [PreMergeAccumulator.treeHashRoot_eq, treeHashRoot_roots, hash32Concat_fingerprintCrypto,
      if_pos (by decide)]
  historicalRootsAcc := by
    rw [HistoricalRootsAccumulator.treeHashRoot_eq, treeHashRoot_roots,
      hash32Concat_fingerprintCrypto, if_neg (by decide)]

/-- What is built on the small accumulators. -/
def smallVerifier (sources : List DataSource) : Verifier :=
  ⟨⟨smallPreMergeAcc, smallHistoricalRootsAcc, ⟨default⟩⟩, sources⟩

theorem build_smallVerifier (calls : List BuilderCall) (h : suppliedSummaries calls = none) :
    (builder calls).build fingerprintCrypto smallAssets
      = .ok (smallVerifier (namedSources calls)) := by
  obtain ⟨hsources, hsummaries, -⟩ := VerifierBuilder.foldl_call .new calls
  refine VerifierBuilder.build_eq_ok.mpr ⟨.of _ _, fun _ => canonized_small, ?_, ?_⟩
  · rw [builder, hsummaries, h]
    rfl
  · rw [builder, hsources]
    rfl

/-- A verifier on its own, and one with a source. -/
theorem build_agree_small :
    (smallVerifier []).verify fingerprintCrypto .w64 mergeHeaderWithProof
      = (smallVerifier [offlineSource]).verify fingerprintCrypto .w64 mergeHeaderWithProof := by
  rcases build_agree fingerprintCrypto .w64 (build_smallVerifier [] rfl)
    (build_smallVerifier [.dataSource offlineSource] rfl) List.not_mem_nil (by simp) with
    h | ⟨⟨hne, -⟩, -⟩ | ⟨⟨hne, -⟩, -⟩
  · exact h mergeHeaderWithProof rfl
  · exact absurd rfl hne
  · exact absurd rfl hne

end Verifier

/-! ## 4. Snapshots -/

namespace Session

variable {s s' : Session} {e : SessionEvent}

/-- One step of anybody leaves the validator at its snapshot, or brings it another. -/
theorem Step.snapshot (h : Step c w D s e s') (hs : s.Sharing) {v : HeaderValidator}
    (hv : s.heap[0]? = some v) :
    ∃ S, s'.heap[0]? = some (v.setHistoricalSummaries S) ∧
      (S = v.historicalSummariesProvider.summaries ∨
        ∃ i replaced, e = .shared (.refreshed i replaced S)) := by
  have hsame : s'.heap = s.heap → ∃ S, s'.heap[0]? = some (v.setHistoricalSummaries S) ∧
      (S = v.historicalSummariesProvider.summaries ∨
        ∃ i replaced, e = .shared (.refreshed i replaced S)) :=
    fun hheap => ⟨_, by rw [hheap, hv]; rfl, Or.inl rfl⟩
  cases h with
  | shared h =>
    cases h with
    | clone hi => exact hsame rfl
    | verify hi hv' hwp => exact hsame rfl
    | @setHistoricalSummaries i handle v' hi hv' summaries =>
      rw [hs.handles handle (List.mem_of_getElem? hi)] at hv' ⊢
      obtain rfl := Option.some.inj (hv.symm.trans hv')
      have hlt := (List.getElem?_eq_some_iff.mp hv).1
      exact ⟨summaries, List.getElem?_set_self hlt, Or.inr ⟨i, _, rfl⟩⟩
  | ask hi request => exact hsame rfl
  | attempt hk hp hv' fetched => exact hsame rfl
  | exhaust hk hp => exact hsame rfl

/-- And so does a run. -/
theorem snapshot_of_run {es : List SessionEvent} (hrun : Run (Step c w D) s es s')
    (hs : s.Sharing) {v : HeaderValidator} (hv : s.heap[0]? = some v) :
    s'.Sharing ∧ ∃ S, s'.heap[0]? = some (v.setHistoricalSummaries S) ∧
      (S = v.historicalSummariesProvider.summaries ∨
        ∃ i replaced, .shared (.refreshed i replaced S) ∈ es) := by
  induction hrun generalizing v with
  | nil s => exact ⟨hs, _, hv, Or.inl rfl⟩
  | @cons s s₁ s' e es head tail ih =>
    obtain ⟨S₁, hS₁, hfirst⟩ := head.snapshot hs hv
    obtain ⟨hs', S, hS, hlast⟩ := ih (head.sharing hs) hS₁
    refine ⟨hs', S, hS, ?_⟩
    rcases hlast with rfl | ⟨i, replaced, hmem⟩
    · rcases hfirst with hfirst | ⟨i, replaced, rfl⟩
      · exact Or.inl hfirst
      · exact Or.inr ⟨i, replaced, List.mem_cons_self⟩
    · exact Or.inr ⟨i, replaced, List.mem_cons_of_mem _ hmem⟩

/-- **What is accepted, a snapshot accounts for**: the builder's, or one that a refresh put there
before.  A proof from Capella on needs an entry of it. -/
theorem accepted_installed (c : Crypto) (w : PointerWidth) (D : HeaderDecoder)
    {assets : EmbeddedAssets} {calls : List BuilderCall} {v : Verifier}
    (hv : (Verifier.builder calls).build c assets = .ok v)
    {before after : List SessionEvent} {s' : Session}
    (hrun : Run (Step c w D) v.session (before ++ e :: after) s') {hwp : HeaderWithProof}
    {b : VerifiedBlock} (ha : e.Accepts D hwp b) :
    ∃ S : HistoricalSummaries,
      (S = (Verifier.suppliedSummaries calls).getD default ∨
        ∃ i replaced, .shared (.refreshed i replaced S) ∈ before) ∧
      (v.validator.setHistoricalSummaries S).validateHeaderWithProof c w hwp = .ok () ∧
      (hwp.proof.era.isHistoricalSummaries = true →
        ∃ p q, hwp.proof.postMerge? = some p ∧ hwp.proof.era.quotient p.slot = some q ∧
          q % 2 ^ w.bits < S.toList.length) := by
  obtain ⟨s₁, s₂, hbefore, hstep, -⟩ := hrun.of_event
  obtain ⟨hs₁, S, hS, hinstalled⟩ :=
    snapshot_of_run hbefore (sharing_session v) (heap_session v)
  obtain ⟨hvalid, -⟩ := hstep.accepts hs₁ hS ha
  obtain ⟨hsources, hsummaries, -⟩ := VerifierBuilder.foldl_call .new calls
  obtain ⟨-, -, hbuilt, -⟩ := VerifierBuilder.build_eq_ok.mp hv
  rw [Verifier.builder, hsummaries, VerifierBuilder.new, Option.or_none] at hbuilt
  refine ⟨S, hinstalled.imp (fun h => h.trans hbuilt) id, hvalid, fun hera => ?_⟩
  obtain ⟨p, hp⟩ := BlockHeaderProof.exists_postMerge hera
  obtain ⟨-, q, hq, hentry⟩ := (validateHeaderWithProof_entry c w _ hwp hp).mp hvalid
  have hlt := (List.getElem?_eq_some_iff.mp hentry).1
  rw [v.validator.length_entries_set S hera] at hlt
  exact ⟨p, q, hp, hq, hlt⟩

/-- Built without a snapshot and with the check off, refreshed, and asked about a proof of Capella's
first slot: the snapshot is the one that the refresh put there. -/
theorem accepted_installed_capella :
    ∃ S, S = capellaSnapshot prefixCrypto ∧
      (HeaderValidator.setHistoricalSummaries ⟨⟨default⟩, ⟨default⟩, ⟨default⟩⟩
        S).validateHeaderWithProof prefixCrypto .w64 (capellaHwp prefixCrypto) = .ok () ∧
      ∃ p q, (capellaHwp prefixCrypto).proof.postMerge? = some p ∧
        Era.historicalSummariesCapella.quotient p.slot = some q ∧
        q % 2 ^ PointerWidth.w64.bits < S.toList.length := by
  let v : Verifier := ⟨⟨⟨default⟩, ⟨default⟩, ⟨default⟩⟩, []⟩
  let b : VerifiedBlock := ⟨capellaHeader, .historicalSummariesCapella⟩
  have hbuild : (Verifier.builder [.skipFingerprintCheck]).build prefixCrypto
      (.of ⟨default⟩ ⟨default⟩) = .ok v :=
    VerifierBuilder.build_eq_ok.mpr ⟨.of _ _, nofun, rfl, rfl⟩
  have hrefresh : Step prefixCrypto .w64 rlpHeaderDecoder v.session
      (.shared (.refreshed 0 default (capellaSnapshot prefixCrypto)))
      (capellaVerifier prefixCrypto).session :=
    .shared (@SharedState.Step.setHistoricalSummaries prefixCrypto .w64 v.shared 0 ⟨0, []⟩ _ rfl rfl
      (capellaSnapshot prefixCrypto))
  have hverify : Step prefixCrypto .w64 rlpHeaderDecoder (capellaVerifier prefixCrypto).session
      (.shared (.verified 0 (capellaHwp prefixCrypto) (.ok b)))
      (capellaVerifier prefixCrypto).session := by
    rw [← capellaHwp_accepted prefixCrypto .w64]
    exact .shared (.verify rfl rfl _)
  have hrun : Run (Step prefixCrypto .w64 rlpHeaderDecoder) v.session
      ([.shared (.refreshed 0 default (capellaSnapshot prefixCrypto))] ++
        .shared (.verified 0 (capellaHwp prefixCrypto) (.ok b)) :: [])
      (capellaVerifier prefixCrypto).session := .cons hrefresh (.cons hverify (.nil _))
  obtain ⟨S, hinstalled, hvalid, hentry⟩ := accepted_installed prefixCrypto .w64 rlpHeaderDecoder
    hbuild hrun (.verified 0)
  obtain ⟨p, q, hp, hq, hlt⟩ := hentry rfl
  refine ⟨S, ?_, hvalid, p, q, hp, hq, hlt⟩
  rcases hinstalled with rfl | ⟨i, replaced, hmem⟩
  · -- the snapshot that was built in has no entry
    cases hlt
  · obtain ⟨-, -, hS⟩ := Event.refreshed.inj (SessionEvent.shared.inj (List.mem_singleton.mp hmem))
    exact hS

end Session

end EthHistorian
