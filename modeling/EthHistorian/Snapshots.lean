/-
# Snapshots that grow, and snapshots that are too short

The summaries are the one part of a verifier that changes: a caller replaces the snapshot as the
chain goes on, through any clone.  What a proof needs of it is one entry, at an index its own slot
gives, so it matters only whether the snapshot reaches that far.

* A snapshot that keeps what it replaces keeps that entry: what was accepted stays accepted in
  every run, on every clone (`Verifier.verify_stable`).
* A snapshot that ends before the entry gives the answer a forged proof gets
  (`Verifier.verify_prefix_iff`): the error that would tell the two apart is declared, documented,
  and constructed nowhere.
-/
import EthHistorian.Model.SharedVerifier
import EthHistorian.Paths

namespace EthHistorian

open Merkle

variable {c : Crypto} {w : PointerWidth}

/-! ## 1. The entry a proof needs -/

/-- The eras before Capella do not look at the snapshot. -/
theorem HeaderValidator.validateHeaderWithProof_of_acc_eq {v v' : HeaderValidator}
    {hwp : HeaderWithProof} (hpre : v'.preMergeAcc = v.preMergeAcc)
    (hroots : v'.historicalRootsAcc = v.historicalRootsAcc)
    (hera : hwp.proof.era.isHistoricalSummaries = false) :
    v'.validateHeaderWithProof c w hwp = v.validateHeaderWithProof c w hwp := by
  obtain ⟨header, proof⟩ := hwp
  cases proof with
  | historicalHashes p =>
    simp only [validateHeaderWithProof, verifyPreMergeHeader, hpre]
  | historicalRoots p =>
    simp only [validateHeaderWithProof, verifyMergeToCapellaHeader,
      verifyHistoricalRootsBeaconBlockProof, hroots]
  | historicalSummariesCapella p => cases hera
  | historicalSummariesDeneb p => cases hera

/-- Entries of a shorter snapshot are entries of a longer one. -/
theorem HeaderValidator.Extends.entries {v v' : HeaderValidator} (h : v.Extends v') (era : Era) :
    v.entries era <+: v'.entries era := by
  obtain ⟨hpre, hroots, hsummaries⟩ := h
  cases era with
  | historicalHashes => simp only [HeaderValidator.entries, hpre, List.prefix_refl]
  | historicalRoots => simp only [HeaderValidator.entries, hroots, List.prefix_refl]
  | historicalSummariesCapella => exact hsummaries.map _
  | historicalSummariesDeneb => exact hsummaries.map _

theorem getElem?_of_prefix {α : Type} {l l' : List α} {i : ℕ} {a : α} (h : l <+: l')
    (hi : l[i]? = some a) : l'[i]? = some a := by
  obtain ⟨t, rfl⟩ := h
  rw [List.getElem?_append_left (List.getElem?_eq_some_iff.mp hi).1, hi]

/-- An era of the summaries has a proof with a slot. -/
theorem BlockHeaderProof.exists_postMerge {proof : BlockHeaderProof}
    (h : proof.era.isHistoricalSummaries = true) : ∃ p, proof.postMerge? = some p := by
  cases proof with
  | historicalHashes p => cases h
  | historicalRoots p => cases h
  | historicalSummariesCapella p => exact ⟨_, rfl⟩
  | historicalSummariesDeneb p => exact ⟨_, rfl⟩

/-- **What a validator accepts, one that extends it accepts.** -/
theorem HeaderValidator.Extends.accepts {v v' : HeaderValidator} (h : v.Extends v')
    {hwp : HeaderWithProof} (hok : v.validateHeaderWithProof c w hwp = .ok ()) :
    v'.validateHeaderWithProof c w hwp = .ok () := by
  cases hera : hwp.proof.era.isHistoricalSummaries with
  | false =>
    rw [HeaderValidator.validateHeaderWithProof_of_acc_eq h.preMergeAcc h.historicalRootsAcc hera,
      hok]
  | true =>
    obtain ⟨p, hp⟩ := BlockHeaderProof.exists_postMerge hera
    obtain ⟨harrives, q, hq, hentry⟩ := (validateHeaderWithProof_entry c w v hwp hp).mp hok
    exact (validateHeaderWithProof_entry c w v' hwp hp).mpr
      ⟨harrives, q, hq, getElem?_of_prefix (h.entries _) hentry⟩

/-- A snapshot has an entry for each of its summaries. -/
theorem HeaderValidator.length_entries_set (v : HeaderValidator) (S : HistoricalSummaries)
    {era : Era} (hera : era.isHistoricalSummaries = true) :
    ((v.setHistoricalSummaries S).entries era).length = S.toList.length := by
  cases era with
  | historicalHashes => cases hera
  | historicalRoots => cases hera
  | historicalSummariesCapella => exact List.length_map _
  | historicalSummariesDeneb => exact List.length_map _

theorem historicalSummaryIndex_of_quotient (w : PointerWidth) {era : Era} {slot : UInt64} {q : ℕ}
    (hera : era.isHistoricalSummaries = true) (hq : era.quotient slot = some q) :
    historicalSummaryIndex w slot = some (q % 2 ^ w.bits) := by
  have hcapella : Era.historicalSummariesCapella.quotient slot = some q := by
    cases era with
    | historicalHashes => cases hera
    | historicalRoots => cases hera
    | historicalSummariesCapella => exact hq
    | historicalSummariesDeneb => exact hq
  rw [historicalSummaryIndex_eq_quotient, hcapella, Option.map_some]

namespace Verifier

/-- `verify` asks the validator only. -/
theorem verify_congr {v v' : Verifier} {hwp : HeaderWithProof}
    (h : v'.validator.validateHeaderWithProof c w hwp
      = v.validator.validateHeaderWithProof c w hwp) :
    v'.verify c w hwp = v.verify c w hwp := by
  simp only [verify, h]

/-! ## 2. Runs -/

/-- The state of a check: a validator that extends the one the run began with. -/
theorem exists_of_verified {v : Verifier} {before after : List Event} {s' : SharedState}
    {i : ℕ} {hwp : HeaderWithProof} {answer : Outcome Error VerifiedBlock}
    (hrun : Run (SharedState.Step c w) v.shared (before ++ .verified i hwp answer :: after) s')
    (hes : ∀ e ∈ before ++ .verified i hwp answer :: after, e.Extends) :
    ∃ s v' sources, Run (SharedState.Step c w) s after s' ∧ s.Sharing v' ∧
      v.validator.Extends v' ∧ answer = Verifier.verify c w ⟨v', sources⟩ hwp := by
  obtain ⟨s, s'', hbefore, hstep, hafter⟩ := hrun.of_event
  have hsharing : s.Sharing v.validator := hbefore.invariant
    (fun hs he h => h.sharing hs he) (fun e he => hes e (List.mem_append_left _ he))
    v.sharing_shared
  obtain ⟨rfl, v', sources, hv', hext, hanswer⟩ := hstep.verified hsharing
  exact ⟨_, v', sources, hafter, ⟨hsharing.handles, v', hv', .refl v'⟩, hext, hanswer⟩

/-- **Refreshing never revokes.**  In every run of a verifier and its clones whose refreshes keep
what they replace, what was accepted once is accepted ever after, and the answer to a proof from
before Capella never changes. -/
theorem verify_stable (c : Crypto) (w : PointerWidth) (v : Verifier) (es : List Event)
    (s' : SharedState) (hrun : Run (SharedState.Step c w) v.shared es s')
    (hes : ∀ e ∈ es, e.Extends) :
    (∀ before after i j hwp b answer, es = before ++ .verified i hwp (.ok b) :: after →
      .verified j hwp answer ∈ after → answer = .ok b) ∧
    ∀ i j hwp answer answer', hwp.proof.era.isHistoricalSummaries = false →
      .verified i hwp answer ∈ es → .verified j hwp answer' ∈ es → answer = answer' := by
  constructor
  · rintro before after i j hwp b answer rfl hmem
    obtain ⟨s, v', sources, hafter, hsharing, -, hok⟩ := exists_of_verified hrun hes
    -- the second check, in the run that goes on from the first one
    obtain ⟨middle, rest, rfl⟩ := List.append_of_mem hmem
    obtain ⟨s'', _, hmiddle, hstep, -⟩ := hafter.of_event
    have hsharing' : s''.Sharing v' := hmiddle.invariant (fun hs he h => h.sharing hs he)
      (fun e he => hes e (by simp [he])) hsharing
    obtain ⟨-, v'', sources'', -, hext, rfl⟩ := hstep.verified hsharing'
    obtain ⟨haccepted, rfl⟩ := (verify_eq_ok c w _).mp hok.symm
    exact (verify_eq_ok c w _).mpr ⟨hext.accepts haccepted, rfl⟩
  · intro i j hwp answer answer' hera hi hj
    -- both answers are the one of the verifier the run began with
    have hsame : ∀ {k a}, Event.verified k hwp a ∈ es → a = v.verify c w hwp := by
      intro k a hmem
      obtain ⟨before, after, rfl⟩ := List.append_of_mem hmem
      obtain ⟨-, v', sources, -, -, hext, rfl⟩ := exists_of_verified hrun hes
      exact verify_congr (HeaderValidator.validateHeaderWithProof_of_acc_eq hext.preMergeAcc
        hext.historicalRootsAcc hera)
    rw [hsame hi, hsame hj]

end Verifier

/-! A proof of Capella's first slot, whose branches are zeros, and the summary it climbs to. -/

def capellaHeader : Header :=
  { (default : Header) with number := 17034870, timestamp := 1681338455 }

def capellaProof (c : Crypto) : BlockProofHistoricalSummariesCapella where
  beaconBlockProof := default
  beaconBlockRoot := climb c.hash32Concat 3228 (capellaHeader.hashSlow c)
    (default : FixedVector B256 11).toList
  executionBlockProof := default
  slot := 6209536

def capellaHwp (c : Crypto) : HeaderWithProof :=
  ⟨capellaHeader, .historicalSummariesCapella (capellaProof c)⟩

def capellaSummary (c : Crypto) : HistoricalSummary where
  blockSummaryRoot := climb c.hash32Concat 8192 (capellaProof c).beaconBlockRoot
    (default : FixedVector B256 13).toList
  stateSummaryRoot := default

def capellaSnapshot (c : Crypto) : HistoricalSummaries := ⟨[capellaSummary c], by norm_num⟩

def longerSnapshot (c : Crypto) : HistoricalSummaries := ⟨[capellaSummary c, default], by norm_num⟩

/-- A verifier with the shorter snapshot. -/
def capellaVerifier (c : Crypto) : Verifier where
  validator := ⟨⟨default⟩, ⟨default⟩, ⟨capellaSnapshot c⟩⟩
  dataSources := []

theorem capellaHwp_accepted (c : Crypto) (w : PointerWidth) :
    (capellaVerifier c).verify c w (capellaHwp c)
      = .ok ⟨capellaHeader, .historicalSummariesCapella⟩ := by
  have hera : capellaHeader.era = .historicalSummariesCapella := by decide
  have hquot : Era.historicalSummariesCapella.quotient 6209536 = some 0 := by decide
  have hplace : (6209536 : UInt64).toNat % 8192 = 0 := rfl
  have hroot : (capellaHwp c).eraRoot c (capellaProof c).toPostMerge
      = (capellaSummary c).blockSummaryRoot := by
    simp only [HeaderWithProof.eraRoot, capellaHwp, BlockHeaderProof.era, BlockProof.toPostMerge,
      capellaProof, hplace, Era.beaconIndex, capellaSummary, Nat.add_zero]
  have harrives : (capellaHwp c).Arrives c (capellaProof c).toPostMerge := by
    refine ⟨hera, ?_⟩
    simp only [capellaHwp, BlockHeaderProof.era, Era.executionIndex, BlockProof.toPostMerge,
      capellaProof]
  refine (Verifier.verify_eq_ok c w _).mpr ⟨?_, rfl⟩
  refine (validateHeaderWithProof_entry c w _ (capellaHwp c) rfl).mpr ⟨harrives, 0, hquot, ?_⟩
  rw [Nat.zero_mod, hroot]
  rfl

namespace Verifier

/-- The answer of a clone, after a refresh through the clone. -/
theorem verify_stable_capella :
    Verifier.verify prefixCrypto .w64
      ⟨(capellaVerifier prefixCrypto).validator.setHistoricalSummaries
        (longerSnapshot prefixCrypto), []⟩ (capellaHwp prefixCrypto)
      = .ok ⟨capellaHeader, .historicalSummariesCapella⟩ := by
  let v := (capellaVerifier prefixCrypto).validator
  let handles : List VerifierHandle := [⟨0, []⟩, ⟨0, []⟩]
  have hclone : SharedState.Step prefixCrypto .w64 (capellaVerifier prefixCrypto).shared
      (.cloned 0) ⟨[v], handles⟩ := .clone rfl
  have hfirst : SharedState.Step prefixCrypto .w64 ⟨[v], handles⟩
      (.verified 0 (capellaHwp prefixCrypto) (.ok ⟨capellaHeader, .historicalSummariesCapella⟩))
      ⟨[v], handles⟩ := by
    rw [← capellaHwp_accepted prefixCrypto .w64]
    exact .verify rfl rfl _
  have hrefresh : SharedState.Step prefixCrypto .w64 ⟨[v], handles⟩
      (.refreshed 1 (capellaSnapshot prefixCrypto) (longerSnapshot prefixCrypto))
      ⟨[v.setHistoricalSummaries (longerSnapshot prefixCrypto)], handles⟩ :=
    @SharedState.Step.setHistoricalSummaries prefixCrypto .w64 ⟨[v], handles⟩ 1 ⟨0, []⟩ v rfl rfl _
  have hsecond : SharedState.Step prefixCrypto .w64
      ⟨[v.setHistoricalSummaries (longerSnapshot prefixCrypto)], handles⟩
      (.verified 1 (capellaHwp prefixCrypto) (Verifier.verify prefixCrypto .w64
        ⟨v.setHistoricalSummaries (longerSnapshot prefixCrypto), []⟩ (capellaHwp prefixCrypto)))
      ⟨[v.setHistoricalSummaries (longerSnapshot prefixCrypto)], handles⟩ :=
    .verify rfl rfl _
  refine (verify_stable prefixCrypto .w64 (capellaVerifier prefixCrypto) _ _
    (.cons hclone (.cons hfirst (.cons hrefresh (.cons hsecond (.nil _))))) ?_).1 [.cloned 0] _ 0 1
    _ _ _ rfl (List.mem_cons_of_mem _ List.mem_cons_self)
  intro e he
  simp only [List.mem_cons, List.not_mem_nil, or_false] at he
  rcases he with rfl | rfl | rfl | rfl
  · trivial
  · trivial
  · exact ⟨[default], rfl⟩
  · trivial

/-! ## 3. A snapshot that ends before the entry -/

/-- **The error for a missing snapshot is never given.** -/
theorem verify_ne_unavailable (c : Crypto) (w : PointerWidth) (v : Verifier)
    (hwp : HeaderWithProof) : v.verify c w hwp ≠ .err .historicalSummariesUnavailable := by
  unfold verify
  cases v.validator.validateHeaderWithProof c w hwp with
  | ok u => nofun
  | err e => nofun
  | panic msg => nofun

/-- With a summary proof the longer snapshot accepts, the shorter one answers the same exactly
where its list reaches the index. -/
theorem verify_prefix_summaries (c : Crypto) (w : PointerWidth) (v : HeaderValidator)
    {S P : HistoricalSummaries} {hwp : HeaderWithProof} {p : PostMergeProof} {q : ℕ}
    (hera : hwp.proof.era.isHistoricalSummaries = true) (hp : hwp.proof.postMerge? = some p)
    (hq : hwp.proof.era.quotient p.slot = some q) (hP : P.toList <+: S.toList)
    (hok : (v.setHistoricalSummaries S).validateHeaderWithProof c w hwp = .ok ()) :
    (v.setHistoricalSummaries P).validateHeaderWithProof c w hwp = .ok () ↔
      q % 2 ^ w.bits < P.toList.length := by
  obtain ⟨harrives, q', hq', hentry⟩ := (validateHeaderWithProof_entry c w _ hwp hp).mp hok
  obtain rfl := Option.some.inj (hq.symm.trans hq')
  have hlen := v.length_entries_set P hera
  rw [validateHeaderWithProof_entry c w _ hwp hp]
  constructor
  · rintro ⟨-, q', hq', hentry'⟩
    obtain rfl := Option.some.inj (hq.symm.trans hq')
    rw [← hlen]
    exact (List.getElem?_eq_some_iff.mp hentry').1
  · intro hlt
    -- the shorter list reaches the entry, so the longer one has the same there
    have hext : (v.setHistoricalSummaries P).Extends (v.setHistoricalSummaries S) :=
      ⟨rfl, rfl, hP⟩
    obtain ⟨t, ht⟩ := hext.entries hwp.proof.era
    rw [← ht, List.getElem?_append_left (hlen ▸ hlt)] at hentry
    exact ⟨harrives, q, hq, hentry⟩

/-- **A shorter snapshot answers the same exactly where it has the entry.** -/
theorem verify_prefix_iff (c : Crypto) (w : PointerWidth) (v : Verifier)
    (S P : HistoricalSummaries) (hwp : HeaderWithProof) (b : VerifiedBlock)
    (hok : (v.setHistoricalSummaries S).verify c w hwp = .ok b) (hP : P.toList <+: S.toList) :
    ((v.setHistoricalSummaries P).verify c w hwp = .ok b ∨
      (v.setHistoricalSummaries P).verify c w hwp = .err .historicalSummariesUnavailable) ↔
    (hwp.proof.era.isHistoricalSummaries = false ∨
      ∃ p i, hwp.proof.postMerge? = some p ∧ historicalSummaryIndex w p.slot = some i ∧
        i < P.toList.length) := by
  rw [or_iff_left (verify_ne_unavailable c w _ hwp)]
  obtain ⟨haccepted, rfl⟩ := (verify_eq_ok c w _).mp hok
  rw [verify_eq_ok, and_iff_left rfl]
  cases hera : hwp.proof.era.isHistoricalSummaries with
  | false =>
    have hsame : (v.validator.setHistoricalSummaries P).validateHeaderWithProof c w hwp
        = (v.validator.setHistoricalSummaries S).validateHeaderWithProof c w hwp :=
      HeaderValidator.validateHeaderWithProof_of_acc_eq rfl rfl hera
    exact iff_of_true (hsame.trans haccepted) (Or.inl rfl)
  | true =>
    obtain ⟨p, hp⟩ := BlockHeaderProof.exists_postMerge hera
    obtain ⟨-, q, hq, -⟩ := (validateHeaderWithProof_entry c w _ hwp hp).mp haccepted
    have hindex := historicalSummaryIndex_of_quotient w hera hq
    have hiff := verify_prefix_summaries c w v.validator hera hp hq hP haccepted
    constructor
    · intro hshorter
      exact Or.inr ⟨p, _, hp, hindex, hiff.mp hshorter⟩
    · rintro (h | ⟨p', i, hp', hi, hlt⟩)
      · cases h
      · obtain rfl := Option.some.inj (hp.symm.trans hp')
        obtain rfl := Option.some.inj (hindex.symm.trans hi)
        exact hiff.mpr hlt

/-- The verifier without its snapshot. -/
theorem verify_prefix_iff_capella :
    ¬ (((capellaVerifier prefixCrypto).setHistoricalSummaries default).verify prefixCrypto .w64
        (capellaHwp prefixCrypto) = .ok ⟨capellaHeader, .historicalSummariesCapella⟩ ∨
      ((capellaVerifier prefixCrypto).setHistoricalSummaries default).verify prefixCrypto .w64
        (capellaHwp prefixCrypto) = .err .historicalSummariesUnavailable) := by
  intro h
  rcases (verify_prefix_iff prefixCrypto .w64 (capellaVerifier prefixCrypto)
    (capellaSnapshot prefixCrypto) default _ _ (capellaHwp_accepted prefixCrypto .w64)
    (List.nil_prefix)).mp h with hera | ⟨p, i, -, -, hlt⟩
  · cases hera
  · cases hlt

theorem verify_prefix_not_distinguished :
    ¬ ∀ (c : Crypto) (w : PointerWidth) (v : Verifier) (S P : HistoricalSummaries)
      (hwp : HeaderWithProof) (b : VerifiedBlock),
      (v.setHistoricalSummaries S).verify c w hwp = .ok b → P.toList <+: S.toList →
        (v.setHistoricalSummaries P).verify c w hwp = .ok b ∨
          (v.setHistoricalSummaries P).verify c w hwp = .err .historicalSummariesUnavailable := by
  intro hall
  rcases hall prefixCrypto .w64 (capellaVerifier prefixCrypto) (capellaSnapshot prefixCrypto)
    default _ _ (capellaHwp_accepted prefixCrypto .w64) List.nil_prefix with hok | herr
  · have haccepted := ((verify_eq_ok _ _ _).mp hok).1
    obtain ⟨-, q, -, hentry⟩ :=
      (validateHeaderWithProof_entry _ _ _ (capellaHwp prefixCrypto) rfl).mp haccepted
    cases hentry
  · exact verify_ne_unavailable _ _ _ _ herr

end Verifier

end EthHistorian
