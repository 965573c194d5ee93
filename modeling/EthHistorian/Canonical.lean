/-
# What is accepted is on the chain

A verifier knows the chain by its commitments: the roots of the epochs from before the merge, those
of the eras up to Capella, and the summaries of the eras since.  Against a chain with these
commitments, whatever the sources send:

* `HeaderValidator.Follows.accepted`: a header that the validator accepts has the hash of a header
  of the chain, or its proof is a `Forgery`: the check hashed two pairs to one value with a path of
  the chain, or hit a chunk that is a number, or the header's own hash is a constant;
* `Verifier.build_follows`: a checked verifier has the commitments that the fingerprints are of;
* `Session.accepted_on_chain`: so it is with everything that is accepted in a run whose refreshes
  bring the chain's summaries;
* `Session.answers_on_chain`: and what a query is answered with is the chain's header for it.

Nothing is assumed of the slot that a proof names: on a target with short pointers the validator
may look up another era, and the header's fork need not be the slot's.
-/
import EthHistorian.Landings
import EthHistorian.Portal

namespace EthHistorian

open Merkle

variable {c : Crypto} {w : PointerWidth} {D : HeaderDecoder}

/-! ## 1. A chain -/

/-- A beacon block of a chain. -/
inductive ChainBlock where
  | early (b : EarlyBlock)
  | merged (b : BeaconBlock)

namespace ChainBlock

def root (c : Crypto) : ChainBlock → B256
  | early b => b.root c
  | merged b => treeHashRoot c b

/-- The pairs hashed above the place of an era's execution hashes. -/
def landingInputs (c : Crypto) (e : Era) : ChainBlock → List (B256 × B256)
  | early b => (b.landing c e).inputs
  | merged b => (b.landing c e).inputs

end ChainBlock

/-- A chain: its headers by number, the records of its epochs from before the merge, and the last
beacon block up to each slot.  A block from before the merge carries no hash. -/
structure Chain (c : Crypto) where
  header : UInt64 → Header
  epoch : ℕ → EpochAccumulator
  block : ℕ → ChainBlock
  history : BeaconHistory
  number_eq : ∀ n, (header n).number = n
  shape : ∀ n, (header n).PrefixShape
  record_eq : ∀ (n : UInt64) (record : HeaderRecord),
    (epoch (n.toNat / 8192)).toList[n.toNat % 8192]? = some record →
      record.blockHash = (header n).hashSlow c
  blockRoot_eq : ∀ slot, history.blockRoot slot = (block slot).root c
  payload_eq : ∀ slot b, block slot = .merged b →
    b.blockHash = FixedBytes.zero 32 ∨ ∃ n, b.blockHash = (header n).hashSlow c

namespace Chain

variable (chain : Chain c)

/-- The accumulators are the chain's. -/
structure Accumulated (P : PreMergeAccumulator) (R : HistoricalRootsAccumulator) : Prop where
  preMerge : ∀ k root, P.historicalEpochs.toList[k]? = some root →
    root = treeHashRoot c (chain.epoch k)
  historicalRoots : ∀ k root, R.historicalRoots.toList[k]? = some root →
    root = treeHashRoot c (chain.history.batch k)

/-- The summaries are the chain's, up to some era. -/
def Summarized (S : HistoricalSummaries) : Prop :=
  ∃ era, S.toList <+: chain.history.summariesBefore c era

/-- The paths of the chain: of a record in its epoch, of a block root in its era, and of what a
block has at the place of an execution hash. -/
inductive Path : List (B256 × B256) → Prop
  | epoch (k i : ℕ) : Path (EpochAccumulator.inputs c (chain.epoch k) i)
  | era (e : Era) (k i : ℕ) :
    Path (climbInputs c.hash32Concat (e.beaconIndex i)
      (chunkAt (chain.history.batch k).blockRoots.toList i)
      (e.branch c (chain.history.batch k) i))
  | block (e : Era) (slot : ℕ) : Path ((chain.block slot).landingInputs c e)

/-- What a proof for a header that is not on the chain exhibits. -/
inductive Forgery (hwp : HeaderWithProof) : Prop
  | collision {T : List (B256 × B256)} (hT : chain.Path T)
      (h : Collision c.hash32Concat (hwp.inputs c) T)
  | number {q : B256 × B256} (hq : q ∈ hwp.inputs c) (h : NumberChunk (c.hash32Concat q.1 q.2))
  | empty (h : hwp.header.hashSlow c = FixedBytes.zero 32)
  | padding (h : hwp.header.hashSlow c
      = c.hash32Concat (FixedBytes.zero 32) (FixedBytes.zero 32))

end Chain

/-- The validator has the chain's commitments. -/
structure HeaderValidator.Follows (v : HeaderValidator) (chain : Chain c) : Prop where
  accumulated : chain.Accumulated v.preMergeAcc v.historicalRootsAcc
  summarized : chain.Summarized v.historicalSummariesProvider.summaries

/-! ## 2. One check -/

/-- What comes out below a landing was hashed on the way. -/
theorem Landing.node_mem_inputs {e : Era} {root : B256} (L : Landing c e root)
    (hskip : 0 < L.skip) {hash : B256} {path : List B256}
    (hlen : path.length = e.executionDepth)
    (hnode : climb c.hash32Concat e.executionIndex hash (path.take L.skip) = L.node) :
    ∃ q ∈ climbInputs c.hash32Concat e.executionIndex hash path,
      c.hash32Concat q.1 q.2 = L.node := by
  have hne : path ≠ [] := by
    intro hnil
    have hdepth := L.length_eq
    rw [hnil, List.length_nil] at hlen
    omega
  obtain ⟨q, hq, heq⟩ := climb_take_mem_inputs (H := c.hash32Concat) hskip hne
    e.executionIndex hash
  exact ⟨q, hq, heq.symm.trans hnode⟩

namespace Chain

variable (chain : Chain c) {hwp : HeaderWithProof}

/-- The header has the hash of one of the chain's. -/
def Has (h : Header) : Prop := ∃ n, h.hashSlow c = (chain.header n).hashSlow c

/-- **A record of the chain's epoch is of the chain's header.** -/
theorem preMerge_accepted {h : Header} {p : BlockProofHistoricalHashesAccumulator}
    (hclimb : climb c.hash32Concat (32768 + h.number.toNat % 8192 * 2) (h.hashSlow c) p.toList
      = treeHashRoot c (chain.epoch (h.number.toNat / 8192))) :
    chain.Has h ∨ chain.Forgery ⟨h, .historicalHashes p⟩ := by
  have hi : h.number.toNat % 8192 < 8192 := Nat.mod_lt _ (by norm_num)
  have hlen := p.length_eq
  cases hp : p.toList with
  | nil =>
    rw [hp] at hlen
    cases hlen
  | cons p0 ps =>
    obtain ⟨hstep, hinputs⟩ :=
      climb_preMergeProof c (h.number.toNat % 8192) (h.hashSlow c) p0 ps
    have hall : HeaderWithProof.inputs c ⟨h, .historicalHashes p⟩
        = (h.hashSlow c, p0) :: climbInputs c.hash32Concat (16384 + h.number.toNat % 8192)
          (c.hash32Concat (h.hashSlow c) p0) ps := by
      rw [HeaderWithProof.inputs]
      dsimp only
      rw [hp, hinputs]
    rw [hp, List.length_cons] at hlen
    rw [hp, hstep] at hclimb
    rcases preMergeProof_binds hi (by omega) hclimb with
      ⟨record, hrecord, hhash, -, -⟩ | hcol | hzero
    · exact Or.inl ⟨h.number, hhash.symm.trans (chain.record_eq _ record hrecord)⟩
    · exact Or.inr (.collision (.epoch _ _) (by rw [hall]; exact hcol))
    · obtain ⟨q, hq, hz⟩ := hzero
      rw [List.mem_singleton] at hq
      subst hq
      refine Or.inr (.number (q := (h.hashSlow c, p0)) ?_ (by rw [hz]; exact numberChunk_zero))
      rw [hall]
      exact List.mem_cons_self

/-- **A path into the chain's block comes from one of the chain's headers.** -/
theorem block_accepted (slot : ℕ) {e : Era} {path : List B256}
    (hlen : path.length = e.executionDepth)
    (hclimb : climb c.hash32Concat e.executionIndex (hwp.header.hashSlow c) path
      = (chain.block slot).root c)
    (hsub : climbInputs c.hash32Concat e.executionIndex (hwp.header.hashSlow c) path
      ⊆ hwp.inputs c) :
    chain.Has hwp.header ∨ chain.Forgery hwp := by
  have hnumber : ∀ {root : B256} (L : Landing c e root), 0 < L.skip → NumberChunk L.node →
      climb c.hash32Concat e.executionIndex (hwp.header.hashSlow c) (path.take L.skip) = L.node →
      chain.Forgery hwp := by
    intro root L hskip hchunk hnode
    obtain ⟨q, hq, heq⟩ := L.node_mem_inputs hskip hlen hnode
    exact .number (hsub hq) (by rw [heq]; exact hchunk)
  have hpath : chain.Path ((chain.block slot).landingInputs c e) := .block e slot
  cases hblock : chain.block slot with
  | early b =>
    rw [hblock] at hclimb hpath
    obtain ⟨hskip, hchunk⟩ := b.landing_spec c e
    rcases (b.landing c e).binds hlen hclimb with ⟨hnode, -⟩ | hcol
    · exact Or.inr (hnumber _ hskip hchunk hnode)
    · exact Or.inr (.collision hpath (hcol.mono hsub (List.Subset.refl _)))
  | merged b =>
    rw [hblock] at hclimb hpath
    change _ = treeHashRoot c b at hclimb
    rw [← b.path_root c] at hclimb
    rcases (b.landing c e).binds hlen hclimb with ⟨hnode, -⟩ | hcol
    · rcases b.landing_spec c e with ⟨hskip, hplace⟩ | ⟨hskip, hchunk⟩
      · rw [hskip, List.take_zero, climb] at hnode
        rcases hplace with hhash | hpadding
        · rw [hhash] at hnode
          rcases chain.payload_eq slot b hblock with hempty | ⟨n, hn⟩
          · exact Or.inr (.empty (hnode.trans hempty))
          · exact Or.inl ⟨n, hnode.trans hn⟩
        · exact Or.inr (.padding (hnode.trans hpadding))
      · exact Or.inr (hnumber _ hskip hchunk hnode)
    · exact Or.inr (.collision hpath (hcol.mono hsub (List.Subset.refl _)))

end Chain

namespace HeaderValidator.Follows

variable {v : HeaderValidator} {chain : Chain c}

/-- **Every commitment is one of the chain's**, whichever entry the cast of an index leads to. -/
theorem commitment (hv : v.Follows chain) {slot : UInt64} {e : Era} {root : B256}
    (h : v.commitment w slot e = some root) :
    ∃ k, root = e.root c (chain.history.batch k) := by
  rw [HeaderValidator.commitment_eq] at h
  obtain ⟨q, -, hentry⟩ := Option.bind_eq_some_iff.mp h
  obtain ⟨era, hprefix⟩ := hv.summarized
  have hsummary : ∀ {i : ℕ},
      (v.historicalSummariesProvider.summaries.toList.map
        HistoricalSummary.blockSummaryRoot)[i]? = some root →
      root = treeHashRoot c (chain.history.batch (758 + i)).blockRoots := by
    intro i hi
    rw [List.getElem?_map] at hi
    obtain ⟨s, hs, rfl⟩ := Option.map_eq_some_iff.mp hi
    have hin := getElem?_of_prefix hprefix hs
    have hlt := (List.getElem?_eq_some_iff.mp hin).1
    rw [BeaconHistory.length_summariesBefore] at hlt
    rw [BeaconHistory.summariesBefore_getElem? c _ hlt] at hin
    rw [← Option.some.inj hin, BeaconHistory.summary]
  cases e with
  | historicalHashes => exact absurd h (by simp [Era.quotient])
  | historicalRoots => exact ⟨_, hv.accumulated.historicalRoots _ _ hentry⟩
  | historicalSummariesCapella => exact ⟨_, hsummary hentry⟩
  | historicalSummariesDeneb => exact ⟨_, hsummary hentry⟩

/-- **What is accepted is on the chain**, or its proof is a forgery. -/
theorem accepted (hv : v.Follows chain) {hwp : HeaderWithProof}
    (hok : v.validateHeaderWithProof c w hwp = .ok ()) :
    chain.Has hwp.header ∨ chain.Forgery hwp := by
  cases hp : hwp.proof.postMerge? with
  | none =>
    have hera := BlockHeaderProof.postMerge?_eq_none.mp hp
    obtain ⟨h, proof⟩ := hwp
    cases proof with
    | historicalHashes p =>
      obtain ⟨-, root, hroot, hclimb⟩ := (v.verifyPreMergeHeader_eq_ok c w).mp hok
      have hchain := hv.accumulated.preMerge _ _ hroot
      exact chain.preMerge_accepted (hclimb.trans hchain)
    | _ => cases hera
  | some p =>
    obtain ⟨-, hexec, root, hroot, hbeacon⟩ :=
      (validateHeaderWithProof_postMerge c w v hwp hp).mp hok
    obtain ⟨k, rfl⟩ := hv.commitment hroot
    have hi : p.slot.toNat % 8192 < 8192 := Nat.mod_lt _ (by norm_num)
    obtain ⟨hlenE, hlenB⟩ :=
      BlockHeaderProof.length_postMerge hp c (chain.history.batch k) (p.slot.toNat % 8192)
    have hinputs := HeaderWithProof.inputs_postMerge (c := c) hp
    rcases beaconProof_binds hi hlenB hbeacon with ⟨hleaf, -⟩ | hcol
    · rw [BeaconHistory.batch, BeaconRpcSource.ringVector_get hi] at hleaf
      have hblock := (chain.blockRoot_eq _).symm.trans (Option.some.inj hleaf)
      refine chain.block_accepted _ hlenE (hexec.trans hblock.symm) ?_
      rw [hinputs]
      exact List.subset_append_left _ _
    · refine Or.inr (.collision (.era hwp.proof.era k (p.slot.toNat % 8192)) ?_)
      rw [hinputs]
      exact hcol.mono (List.subset_append_right _ _) (List.Subset.refl _)

theorem setHistoricalSummaries (hv : v.Follows chain) {S : HistoricalSummaries}
    (hS : chain.Summarized S) :
    (v.setHistoricalSummaries S).Follows chain :=
  ⟨hv.accumulated, hS⟩

end HeaderValidator.Follows

/-- **A checked verifier has the chain's accumulators**, if the fingerprints are of these, or its
files break SHA-256 twice. -/
theorem Verifier.build_follows {chain : Chain c} {P : PreMergeAccumulator}
    {R : HistoricalRootsAccumulator} (hchain : chain.Accumulated P R) (hcanonized : Canonized c P R)
    {assets : EmbeddedAssets} {calls : List BuilderCall} {v : Verifier}
    (hv : (builder calls).build c assets = .ok v) (hchecked : .skipFingerprintCheck ∉ calls)
    (hsummaries : chain.Summarized ((suppliedSummaries calls).getD default)) :
    v.validator.Follows chain ∨
      (FilesCollide c v.validator.preMergeAcc.asset P.asset ∧
        Collision c.hash32Concat (Commits.inputs c v.validator.preMergeAcc)
          (Commits.inputs c P)) ∨
      FilesCollide c v.validator.historicalRootsAcc.asset R.asset ∧
        Collision c.hash32Concat (Commits.inputs c v.validator.historicalRootsAcc)
          (Commits.inputs c R) := by
  obtain ⟨-, hcanonized', hsnapshot, -⟩ := (build_calls c assets calls v).mp hv
  obtain ⟨hpre, hroots⟩ := canonized_agree (hcanonized' hchecked) hcanonized
  rcases hpre with rfl | hbeaten
  · rcases hroots with rfl | hbeaten
    · exact Or.inl ⟨hchain, by rw [hsnapshot]; exact hsummaries⟩
    · exact Or.inr (Or.inr hbeaten)
  · exact Or.inr (Or.inl hbeaten)

/-! ## 3. Runs -/

namespace Chain

variable (chain : Chain c)

/-- The chain's answer to a request. -/
def Answers : Request → Header → Prop
  | .byNumber n, h => h = chain.header n
  | .byHash x, h => h.hashSlow c = x ∧ ∃ n, h = chain.header n

theorem answers_of_asked {request : Request} {n : UInt64}
    (h : request.asked c (chain.header n) = true) : chain.Answers request (chain.header n) := by
  cases request with
  | byNumber m =>
    have hnumber : (chain.header n).number = m := eq_of_beq h
    rw [chain.number_eq] at hnumber
    rw [Answers, hnumber]
  | byHash x => exact ⟨eq_of_beq h, n, rfl⟩

end Chain

namespace Session

/-- The refreshes of a run bring the chain's summaries. -/
def Refreshes (chain : Chain c) (es : List SessionEvent) : Prop :=
  ∀ i replaced S, .shared (.refreshed i replaced S) ∈ es → chain.Summarized S

/-- What a run accepts was accepted by a validator with the chain's commitments. -/
theorem accepted_of_run {chain : Chain c} {v : Verifier} (hv : v.validator.Follows chain)
    {es : List SessionEvent} {s' : Session} (hrun : Run (Step c w D) v.session es s')
    (hes : Refreshes chain es) {e : SessionEvent} (he : e ∈ es) {hwp : HeaderWithProof}
    {b : VerifiedBlock} (ha : e.Accepts D hwp b) :
    b = ⟨hwp.header, authPathFor hwp.proof⟩ ∧ (chain.Has hwp.header ∨ chain.Forgery hwp) := by
  obtain ⟨before, after, rfl⟩ := List.append_of_mem he
  obtain ⟨s₁, s₂, hbefore, hstep, -⟩ := hrun.of_event
  obtain ⟨hs₁, S, hS, hinstalled⟩ :=
    snapshot_of_run hbefore (sharing_session v) (heap_session v)
  obtain ⟨hvalid, hb⟩ := hstep.accepts hs₁ hS ha
  have hsummarized : chain.Summarized S := by
    rcases hinstalled with rfl | ⟨i, replaced, hmem⟩
    · exact hv.summarized
    · exact hes i replaced S (List.mem_append_left _ hmem)
  exact ⟨hb, (hv.setHistoricalSummaries hsummarized).accepted hvalid⟩

/-- **What a run accepts is on the chain.**  The verifier begins with the chain's commitments and
is refreshed with the chain's summaries; the headers and the proofs are anybody's. -/
theorem accepted_on_chain (c : Crypto) (w : PointerWidth) (D : HeaderDecoder) (chain : Chain c)
    (v : Verifier) (hv : v.validator.Follows chain) {es : List SessionEvent} {s' : Session}
    (hrun : Run (Step c w D) v.session es s') (hes : Refreshes chain es) {e : SessionEvent}
    (he : e ∈ es) {hwp : HeaderWithProof} {b : VerifiedBlock} (ha : e.Accepts D hwp b) :
    (∃ n, b.blockHash c = (chain.header n).hashSlow c) ∨ chain.Forgery hwp := by
  obtain ⟨rfl, haccepted⟩ := accepted_of_run hv hrun hes he ha
  exact haccepted

/-- **What a query answers is the chain's answer**, or there is a forgery among what the sources
sent, or a header that has the hash of another one of the chain's. -/
theorem answers_on_chain (c : Crypto) (w : PointerWidth) (D : HeaderDecoder) (chain : Chain c)
    (v : Verifier) (hv : v.validator.Follows chain) {es : List SessionEvent} {s' : Session}
    (hrun : Run (Step c w D) v.session es s') (hes : Refreshes chain es) {k : ℕ} {q : Query}
    {b : VerifiedBlock} (hq : s'.queries[k]? = some q) (hb : q.progress = .answered (.ok b)) :
    chain.Answers q.request b.header ∨ (∃ n, b.header.HashCollision c (chain.header n)) ∨
      ∃ source bytes hwp, .attempted k source (.ok bytes) (.ok b) ∈ es ∧
        HeaderWithProof.fromSszBytes D bytes = .ok hwp ∧ chain.Forgery hwp := by
  obtain ⟨source, bytes, hwp, hmem, hdec, hasked, rfl⟩ :=
    (answered_of_run hrun hq hb).resolve_left nofun
  obtain ⟨-, hchain⟩ := accepted_of_run hv hrun hes hmem (.attempted k source bytes hdec)
  rcases hchain with ⟨n, hhash⟩ | hforgery
  · obtain ⟨_, _, -, -, hread, -⟩ := HeaderWithProof.fromSszBytes_eq_ok.mp hdec
    rcases Header.eq_or_hashCollision (D.canonical hread).1 (chain.shape n) hhash with heq | hcol
    · dsimp only at hasked ⊢
      rw [heq] at hasked ⊢
      exact Or.inl (chain.answers_of_asked hasked)
    · exact Or.inr (Or.inl ⟨n, hcol⟩)
  · exact Or.inr (Or.inr ⟨source, bytes, hwp, hmem, hdec, hforgery⟩)

/-! The chain with the block of the merge in every slot. -/

open ArchiveRpcSource (mergeHistory batch_mergeHistory)

def mergeChainHeader (n : UInt64) : Header :=
  if n = 15537394 then mergeHeader else { (default : Header) with number := n }

theorem number_mergeChainHeader (n : UInt64) : (mergeChainHeader n).number = n := by
  unfold mergeChainHeader
  split
  · rename_i hn
    exact hn.symm
  · rfl

theorem prefixShape_mergeChainHeader (n : UInt64) : (mergeChainHeader n).PrefixShape := by
  unfold mergeChainHeader
  split
  · decide
  · change (default : Header).PrefixShape
    decide

def mergeChain : Chain prefixCrypto where
  header := mergeChainHeader
  epoch _ := default
  block _ := .merged (.bellatrix mergeBlock)
  history := mergeHistory
  number_eq := number_mergeChainHeader
  shape := prefixShape_mergeChainHeader
  record_eq _ _ h := nomatch h
  blockRoot_eq _ := rfl
  payload_eq _ b hb := by
    cases hb
    exact Or.inr ⟨15537394, rfl⟩

theorem follows_mergeChain : mergeValidator.Follows mergeChain where
  accumulated :=
    { preMerge := fun k root h => by cases h
      historicalRoots := fun k root h => by
        have hentry : (List.replicate 758 (treeHashRoot prefixCrypto mergeBatch))[k]?
            = some root := h
        have hmem := List.mem_of_getElem? hentry
        rw [List.eq_of_mem_replicate hmem]
        exact congrArg (treeHashRoot prefixCrypto) (batch_mergeHistory k).symm }
  summarized := ⟨0, List.nil_prefix⟩

theorem refreshes_mergeEvents :
    Refreshes mergeChain (.asked 0 mergeRequest :: mergeEvents) := by
  intro i replaced S hmem
  simp [mergeEvents] at hmem

theorem accepted_on_chain_merge :
    (∃ n, mergeBlockVerified.blockHash prefixCrypto
        = (mergeChain.header n).hashSlow prefixCrypto) ∨
      mergeChain.Forgery Verifier.mergeHeaderWithProof :=
  accepted_on_chain prefixCrypto .w64 rlpHeaderDecoder mergeChain Verifier.mergeVerifier
    follows_mergeChain mergeRun refreshes_mergeEvents (List.mem_cons_of_mem _ (List.mem_of_getElem?
      (i := 2) rfl)) (.verified 0)

theorem answers_on_chain_merge :
    mergeChain.Answers mergeRequest mergeHeader ∨
      (∃ n, mergeHeader.HashCollision prefixCrypto (mergeChain.header n)) ∨
      ∃ source bytes hwp, .attempted 0 source (.ok bytes) (.ok mergeBlockVerified)
          ∈ SessionEvent.asked 0 mergeRequest :: mergeEvents ∧
        HeaderWithProof.fromSszBytes rlpHeaderDecoder bytes = .ok hwp ∧
          mergeChain.Forgery hwp :=
  answers_on_chain prefixCrypto .w64 rlpHeaderDecoder mergeChain Verifier.mergeVerifier
    follows_mergeChain mergeRun refreshes_mergeEvents (k := 0) (q := mergeAnswered) rfl rfl

end Session

end EthHistorian
