/-
# The validator on two targets

A slot is 64 bits wide and comes with the proof.  The validator divides it by the length of an
era and casts the quotient to `usize` to look an entry up.  Natively the cast keeps the quotient;
in the wasm32 build it keeps the low 32 bits, so a slot far past the end of a list is checked
against an entry near its start.

Nothing else depends on the target: the indices into a branch are remainders and stay small, and
the epoch of a pre-merge block is bounded by its guard (`validateHeaderWithProof_preMerge`).  So
`validateHeaderWithProof_pointerWidth_iff` can say exactly on which inputs the two differ.
-/
import EthHistorian.PostMerge

namespace EthHistorian

open Merkle

/-! ## 1. One lookup, two casts -/

/-- A quotient of 32 bits survives the cast on both targets. -/
theorem mod_bits_of_lt (w : PointerWidth) {q : ℕ} (h : q < 2 ^ 32) : q % 2 ^ w.bits = q := by
  refine Nat.mod_eq_of_lt (h.trans_le ?_)
  cases w <;> norm_num [PointerWidth.bits]

theorem Era.quotient_lt {slot : UInt64} {era : Era} {q : ℕ} (h : era.quotient slot = some q) :
    q < 2 ^ 51 := by
  have hslot := UInt64.toNat_lt slot
  unfold Era.quotient at h
  split at h
  · cases h
  · obtain rfl := Option.some.inj h
    omega
  · split at h
    · cases h
    · obtain rfl := Option.some.inj h
      omega

/-- Natively, the entry looked up is the quotient's. -/
theorem mod_bits_w64 {slot : UInt64} {era : Era} {q : ℕ} (h : era.quotient slot = some q) :
    q % 2 ^ PointerWidth.w64.bits = q := by
  have hlt := Era.quotient_lt h
  refine Nat.mod_eq_of_lt (hlt.trans_le ?_)
  norm_num [PointerWidth.bits]

/-- An entry stands at an index of 32 bits. -/
theorem HeaderValidator.lt_of_entry {v : HeaderValidator} {era : Era} {q : ℕ} {root : B256}
    (h : (v.entries era)[q]? = some root) : q < 2 ^ 32 := by
  have hlt := (List.getElem?_eq_some_iff.mp h).1
  have hle := v.length_entries_le era
  omega

/-! ## 2. Verdicts -/

/-- The pre-merge path is the same on both targets. -/
theorem validateHeaderWithProof_preMerge (c : Crypto) (v : HeaderValidator) {hwp : HeaderWithProof}
    (hp : hwp.proof.postMerge? = none) :
    v.validateHeaderWithProof c .w32 hwp = v.validateHeaderWithProof c .w64 hwp := by
  obtain ⟨header, proof⟩ := hwp
  cases proof with
  | historicalHashes p =>
    dsimp only [HeaderValidator.validateHeaderWithProof]
    by_cases hn : header.number.toNat < 15537394
    · rw [HeaderValidator.verifyPreMergeHeader_of_not_paris c .w32 v hn,
        HeaderValidator.verifyPreMergeHeader_of_not_paris c .w64 v hn]
    · rw [HeaderValidator.verifyPreMergeHeader_of_paris c .w32 v hn,
        HeaderValidator.verifyPreMergeHeader_of_paris c .w64 v hn]
  | historicalRoots p => cases hp
  | historicalSummariesCapella p => cases hp
  | historicalSummariesDeneb p => cases hp

/-- After the merge only the index into the historical roots aborts. -/
theorem validateHeaderWithProof_panic (c : Crypto) (w : PointerWidth) (v : HeaderValidator)
    (hwp : HeaderWithProof) {p : PostMergeProof} (hp : hwp.proof.postMerge? = some p) :
    (∃ msg, v.validateHeaderWithProof c w hwp = .panic msg) ↔
      hwp.proof.era = .historicalRoots ∧ hwp.Arrives c p ∧
        (v.entries .historicalRoots).length ≤ p.slot.toNat / 8192 % 2 ^ w.bits := by
  obtain ⟨header, proof⟩ := hwp
  cases proof with
  | historicalHashes p' => cases hp
  | historicalRoots p' =>
    obtain rfl := Option.some.inj hp
    change (∃ msg, v.verifyMergeToCapellaHeader c w _ _ _ p' = .panic msg) ↔ _
    have hdiv := HeaderValidator.toNat_div_slotsPerHistoricalRoot p'.slot
    rw [HeaderValidator.verifyMergeToCapellaHeader_panic, asUsize_eq, hdiv,
      HeaderWithProof.Arrives]
    dsimp only [BlockHeaderProof.era]
    rw [Header.era_eq_historicalRoots, eq_self, true_and, and_assoc, and_assoc]
    rfl
  | historicalSummariesCapella p' =>
    have hreturns :=
      v.verifyCapellaToDenebHeader_returns c w header.timestamp (header.hashSlow c) p'
    exact iff_of_false (Outcome.returns_iff_not_panic.mp hreturns) (by rintro ⟨h, -⟩; cases h)
  | historicalSummariesDeneb p' =>
    have hreturns := v.verifyPostDenebHeader_returns c w header.timestamp (header.hashSlow c) p'
    exact iff_of_false (Outcome.returns_iff_not_panic.mp hreturns) (by rintro ⟨h, -⟩; cases h)

variable (c : Crypto) (v : HeaderValidator) (hwp : HeaderWithProof)

/-- Both targets accept or neither does, and what is accepted was checked against the entry at
the quotient. -/
structure PointerWidthFree : Prop where
  accepts : v.validateHeaderWithProof c .w32 hwp = .ok () ↔
    v.validateHeaderWithProof c .w64 hwp = .ok ()
  entry : ∀ (w : PointerWidth) (p : PostMergeProof), hwp.proof.postMerge? = some p →
    v.validateHeaderWithProof c w hwp = .ok () →
      ∃ q, hwp.proof.era.quotient p.slot = some q ∧
        (v.entries hwp.proof.era)[q]? = some (hwp.eraRoot c p)

/-- Both targets abort or neither does. -/
def AbortsAlike : Prop :=
  (∃ msg, v.validateHeaderWithProof c .w32 hwp = .panic msg) ↔
    ∃ msg, v.validateHeaderWithProof c .w64 hwp = .panic msg

/-- A quotient past 32 bits whose low bits are the index of an entry, in a proof whose climbs
arrive, the second one at that entry. -/
def ArrivesTruncated : Prop :=
  ∃ p q, hwp.proof.postMerge? = some p ∧ hwp.proof.era.quotient p.slot = some q ∧ 2 ^ 32 ≤ q ∧
    hwp.Arrives c p ∧ (v.entries hwp.proof.era)[q % 2 ^ 32]? = some (hwp.eraRoot c p)

/-- The same among the historical roots, wherever the second climb ends. -/
def IndexesTruncated : Prop :=
  ∃ p, hwp.proof.postMerge? = some p ∧ hwp.proof.era = .historicalRoots ∧ hwp.Arrives c p ∧
    2 ^ 32 ≤ p.slot.toNat / 8192 ∧
    p.slot.toNat / 8192 % 2 ^ 32 < (v.entries .historicalRoots).length

/-! ## 3. Where the targets differ -/

/-- Where no truncated quotient arrives, what either target accepts was looked up at a quotient
that fits. -/
theorem entry_of_not_arrivesTruncated {c : Crypto} {v : HeaderValidator} {hwp : HeaderWithProof}
    (hnot : ¬ ArrivesTruncated c v hwp) (w : PointerWidth) {p : PostMergeProof}
    (hp : hwp.proof.postMerge? = some p) (hok : v.validateHeaderWithProof c w hwp = .ok ()) :
    hwp.Arrives c p ∧ ∃ q, hwp.proof.era.quotient p.slot = some q ∧
      (v.entries hwp.proof.era)[q]? = some (hwp.eraRoot c p) := by
  obtain ⟨harrives, q, hq, hentry⟩ := (validateHeaderWithProof_entry c w v hwp hp).mp hok
  refine ⟨harrives, q, hq, ?_⟩
  cases w with
  | w64 => rwa [mod_bits_w64 hq] at hentry
  | w32 =>
    have hlt : q < 2 ^ 32 := by
      by_contra hlarge
      exact hnot ⟨p, q, hp, hq, not_lt.mp hlarge, harrives, hentry⟩
    rwa [mod_bits_of_lt .w32 hlt] at hentry

/-- There the other target accepts it too. -/
theorem validateHeaderWithProof_of_width {c : Crypto} {v : HeaderValidator}
    {hwp : HeaderWithProof} (hnot : ¬ ArrivesTruncated c v hwp) (w w' : PointerWidth)
    (hok : v.validateHeaderWithProof c w hwp = .ok ()) :
    v.validateHeaderWithProof c w' hwp = .ok () := by
  cases hp : hwp.proof.postMerge? with
  | none =>
    have hsame := validateHeaderWithProof_preMerge c v hp
    have hw64 : ∀ u, v.validateHeaderWithProof c u hwp = v.validateHeaderWithProof c .w64 hwp
      | .w32 => hsame
      | .w64 => rfl
    rwa [hw64 w', ← hw64 w]
  | some p =>
    obtain ⟨harrives, q, hq, hentry⟩ := entry_of_not_arrivesTruncated hnot w hp hok
    refine (validateHeaderWithProof_entry c w' v hwp hp).mpr ⟨harrives, q, hq, ?_⟩
    rwa [mod_bits_of_lt w' (HeaderValidator.lt_of_entry hentry)]

theorem pointerWidthFree_iff : PointerWidthFree c v hwp ↔ ¬ ArrivesTruncated c v hwp := by
  constructor
  · rintro hfree ⟨p, q, hp, hq, hlarge, harrives, hentry⟩
    have haccepted := (validateHeaderWithProof_entry c .w32 v hwp hp).mpr
      ⟨harrives, q, hq, hentry⟩
    obtain ⟨q', hq', hentry'⟩ := hfree.entry .w32 p hp haccepted
    obtain rfl := Option.some.inj (hq.symm.trans hq')
    exact absurd (HeaderValidator.lt_of_entry hentry') (not_lt.mpr hlarge)
  · intro hnot
    constructor
    · exact ⟨validateHeaderWithProof_of_width hnot .w32 .w64,
        validateHeaderWithProof_of_width hnot .w64 .w32⟩
    · intro w p hp hok
      exact (entry_of_not_arrivesTruncated hnot w hp hok).2

theorem abortsAlike_iff : AbortsAlike c v hwp ↔ ¬ IndexesTruncated c v hwp := by
  unfold AbortsAlike IndexesTruncated
  cases hp : hwp.proof.postMerge? with
  | none =>
    rw [validateHeaderWithProof_preMerge c v hp]
    simp
  | some p =>
    have hlen := v.length_entries_le .historicalRoots
    have hquot : p.slot.toNat / 8192 < 2 ^ 64 := by
      have hslot := UInt64.toNat_lt p.slot
      omega
    rw [validateHeaderWithProof_panic c .w32 v hwp hp,
      validateHeaderWithProof_panic c .w64 v hwp hp]
    have h32 : PointerWidth.w32.bits = 32 := rfl
    have h64 : PointerWidth.w64.bits = 64 := rfl
    rw [h32, h64, Nat.mod_eq_of_lt hquot]
    by_cases harrives : hwp.proof.era = .historicalRoots ∧ hwp.Arrives c p
    · obtain ⟨hera, harrives⟩ := harrives
      simp only [hera, harrives, true_and, Option.some.injEq, exists_eq_left']
      omega
    · refine iff_of_true ⟨?_, ?_⟩ ?_
      · rintro ⟨hera, h, -⟩
        exact absurd ⟨hera, h⟩ harrives
      · rintro ⟨hera, h, -⟩
        exact absurd ⟨hera, h⟩ harrives
      · rintro ⟨p', hp', hera, h, -⟩
        obtain rfl := Option.some.inj hp'
        exact harrives ⟨hera, h⟩

/-- **The two targets accept the same inputs except where a truncated quotient arrives**, and
abort on the same ones except where one is an index. -/
theorem validateHeaderWithProof_pointerWidth_iff :
    (PointerWidthFree c v hwp ↔ ¬ ArrivesTruncated c v hwp) ∧
      (PointerWidthFree c v hwp ∧ AbortsAlike c v hwp ↔
        ¬ ArrivesTruncated c v hwp ∧ ¬ IndexesTruncated c v hwp) :=
  ⟨pointerWidthFree_iff c v hwp,
    and_congr (pointerWidthFree_iff c v hwp) (abortsAlike_iff c v hwp)⟩

/-! A slot `2 ^ 45` later is of the same place in its era, and of an era `2 ^ 32` later. -/

def BlockProof.atSlot {m n : ℕ} (p : BlockProof m n) (slot : UInt64) : BlockProof m n :=
  { p with slot := slot }

/-- **Every accepted proof of the roots has a late double** that one target takes. -/
theorem arrivesTruncated_late {c : Crypto} {v : HeaderValidator} {header : Header}
    {p : BlockProofHistoricalRoots} {slot : UInt64} (hslot : slot.toNat = p.slot.toNat + 2 ^ 45)
    (hok : v.validateHeaderWithProof c .w64 ⟨header, .historicalRoots p⟩ = .ok ()) :
    ArrivesTruncated c v ⟨header, .historicalRoots (p.atSlot slot)⟩ := by
  obtain ⟨harrives, q, hq, hentry⟩ := (validateHeaderWithProof_entry c .w64 v
    ⟨header, .historicalRoots p⟩ rfl).mp hok
  rw [mod_bits_w64 hq] at hentry
  have hlt := HeaderValidator.lt_of_entry hentry
  obtain rfl : p.slot.toNat / 8192 = q := Option.some.inj hq
  have hplace : slot.toNat % 8192 = p.slot.toNat % 8192 := by omega
  have hindex : slot.toNat / 8192 % 2 ^ 32 = p.slot.toNat / 8192 := by omega
  have hroot : HeaderWithProof.eraRoot c ⟨header, .historicalRoots (p.atSlot slot)⟩
        (p.atSlot slot).toPostMerge
      = HeaderWithProof.eraRoot c ⟨header, .historicalRoots p⟩ p.toPostMerge := by
    simp only [HeaderWithProof.eraRoot, BlockProof.toPostMerge, BlockProof.atSlot, hplace,
      BlockHeaderProof.era]
  refine ⟨(p.atSlot slot).toPostMerge, slot.toNat / 8192, rfl, rfl, by omega, harrives, ?_⟩
  rw [hindex, hroot]
  exact hentry

theorem validateHeaderWithProof_not_pointerWidthFree :
    ¬ ∀ (c : Crypto) (v : HeaderValidator) (hwp : HeaderWithProof), PointerWidthFree c v hwp := by
  intro hall
  have hslot : (35184376788845 : UInt64).toNat = mergeProof.slot.toNat + 2 ^ 45 := by
    have hmerge : mergeProof.slot.toNat = 4700013 := rfl
    rw [hmerge]
    rfl
  have hlate := arrivesTruncated_late hslot mergeProof_accepted
  exact (pointerWidthFree_iff _ _ _).mp (hall _ _ _) hlate

end EthHistorian
