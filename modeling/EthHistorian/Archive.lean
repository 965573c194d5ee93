/-
# From a node's answers to a verified block

The archive source asks an execution node for a block and a directory or a beacon node for what a
proof is made of, writes header and proof as bytes, and the verifier reads the bytes and checks
them.  Two results about the whole way, for honest nodes.

* `ArchiveRpcSource.preMerge_verified_iff`: before the merge the block comes out verified exactly
  when the epoch's file has its record.
* `ArchiveRpcSource.postMerge_verified`: after it, only by accident.  The batch is fetched one slot
  early (`EraBatch.lean`), and a proof made of it is rejected unless the entry that is out of date
  is not on the proof's path, or happens to be right; and from Prague on the header comes back
  without its requests hash, and so with another hash.
-/
import EthHistorian.EraBatch
import EthHistorian.ForkSchedule
import EthHistorian.Model.Accumulators
import EthHistorian.PreMerge
import EthHistorian.RawBlocks
import EthHistorian.Sessions

namespace EthHistorian

open Merkle

variable {c : Crypto}

/-! ## 1. The execution node -/

/-- The node answers with the object of a header. -/
def ArchiveRpcSource.Answers (c : Crypto) (source : ArchiveRpcSource) (n : UInt64) (h : Header) :
    Prop :=
  ∃ members raw, h.IsBlockObject c members ∧ RawBlock.fromJson (.object members) = some raw ∧
    source.getBlockByNumber n = .ok ⟨some raw, none⟩

/-- The header as it is received. -/
def Header.received (h : Header) : Header := { h with requestsHash := none }

/-- **What an honest answer becomes.** -/
theorem ArchiveRpcSource.Answers.fetch {source : ArchiveRpcSource} {n : UInt64} {h : Header}
    (ha : source.Answers c n h) (overflowChecks : Bool) (w : PointerWidth) :
    ∃ raw, source.fetchRawBlockByNumber n = .ok raw ∧
      rawBlockToAlloyHeader overflowChecks w raw = .ok h.received := by
  obtain ⟨members, raw, hobject, hraw, hanswer⟩ := ha
  obtain ⟨raw', hraw', hheader⟩ := rawBlockToAlloyHeader_honest c overflowChecks w hobject
  obtain rfl := Option.some.inj (hraw.symm.trans hraw')
  refine ⟨raw, ?_, hheader⟩
  rw [fetchRawBlockByNumber, hanswer]
  rfl

/-- Taking the last of the optional fields away leaves a prefix of them. -/
theorem Header.PrefixShape.received {h : Header} (hshape : h.PrefixShape) :
    h.received.PrefixShape := by
  have hpresence : h.received.presence = h.presence.dropLast ++ [false] := rfl
  rw [Header.PrefixShape, hpresence, List.pairwise_append]
  refine ⟨List.Pairwise.sublist (List.dropLast_sublist _) hshape, List.pairwise_singleton _ _, ?_⟩
  intro a _ b hb
  rw [List.mem_singleton.mp hb]
  intro htrue
  exact absurd htrue Bool.false_ne_true

/-- Two headers that differ in their requests hash have two hashes. -/
theorem Header.received_hash {h : Header} (hshape : h.PrefixShape)
    (hhash : h.received.hashSlow c = h.hashSlow c) :
    h.requestsHash = none ∨ h.received.HashCollision c h := by
  by_cases henc : h.received.encode = h.encode
  · have hnot := Header.not_sameItemsElsewhere_of_prefixShape hshape.received hshape
    have heq : h.received = h := by
      refine Header.eq_of_encode_eq henc ?_
      by_contra hne
      exact hnot ⟨Header.encode_eq_iff.mp henc, hne⟩
    exact Or.inl (congrArg Header.requestsHash heq).symm
  · exact Or.inr ⟨henc, hhash⟩

/-- A header of ordinary size is read back, with its proof. -/
theorem HeaderWithProof.fromSszBytes_written (D : HeaderDecoder) {h : Header}
    {proof : BlockHeaderProof} (hshape : h.PrefixShape) (hextra : h.extraData.data.length ≤ 900)
    (hera : proof.era = h.era) :
    fromSszBytes D (asSszBytes ⟨h, proof⟩) = .ok ⟨h, proof⟩ := by
  have hlen := h.length_encode_le hextra
  have hdec : D.decode h.encode = .ok (h, []) := by
    have hread := D.roundTrip [] hshape hlen
    rwa [List.append_nil] at hread
  exact fromSszBytes_eq_ok.mpr ⟨h.encode, [], hlen, asSszBytes_eq hlen, hdec, hera⟩

/-! ## 2. Before the merge -/

/-- A record's own proof is accepted. -/
theorem HeaderValidator.verifyPreMergeHeader_record (w : PointerWidth) {v : HeaderValidator}
    {h : Header} {E : EpochAccumulator} {record : HeaderRecord} (hn : h.number.toNat < 15537394)
    (hroot : v.preMergeAcc.historicalEpochs.toList[h.number.toNat / 8192]?
      = some (treeHashRoot c E))
    (hrecord : E.toList[h.number.toNat % 8192]? = some record)
    (hhash : record.blockHash = h.hashSlow c) :
    v.verifyPreMergeHeader c w h (EpochAccumulator.proof c E (h.number.toNat % 8192) record)
      = .ok () := by
  have hi : h.number.toNat % 8192 < 8192 := Nat.mod_lt _ (by norm_num)
  refine (v.verifyPreMergeHeader_eq_ok c w).mpr ⟨hn, _, hroot, ?_⟩
  have hleaf := EpochAccumulator.chunkAt_leaves (c := c) hrecord
  rw [HeaderRecord.leaf, hhash] at hleaf
  rw [EpochAccumulator.proof, (climb_preMergeProof c _ _ _ _).1, ← hleaf,
    climb_epochBranch c E hi]

namespace ArchiveRpcSource

/-- What the source sends for an honest answer from before the merge. -/
theorem fetchHeaderWithProofByNumber_preMerge {source : ArchiveRpcSource} {provider : EpochProvider}
    {h : Header} {E : EpochAccumulator} (rs : RsMerkle c) (w : PointerWidth)
    (overflowChecks : Bool) (hprovider : source.epochProvider = some provider)
    (ha : source.Answers c h.number h)
    (hepoch : provider.getEpochAccumulator (epochIndexOfBlock h.number) = .ok E)
    (hn : h.number.toNat < 15537394) (hrequests : h.requestsHash = none) :
    source.fetchHeaderWithProofByNumber rs w overflowChecks h.number
      = (constructPreMergeProof c w h E >>= fun proof =>
          .ok (HeaderWithProof.asSszBytes ⟨h, .historicalHashes proof⟩)) := by
  obtain ⟨raw, hraw, hheader⟩ := ha.fetch overflowChecks w
  have hreceived : h.received = h := by
    rw [Header.received, ← hrequests]
  have hparis : ¬ h.number ≥ 15537394 := by
    intro hge
    have hge' := UInt64.le_iff_toNat_le.mp hge
    have hbound : (15537394 : UInt64).toNat = 15537394 := rfl
    omega
  rw [hreceived] at hheader
  simp only [fetchHeaderWithProofByNumber, hraw, hheader, Outcome.ofExcept_ok, Outcome.ok_bind,
    if_neg hparis, hprovider, Outcome.okOr_some, hepoch, Outcome.pure_eq]

/-- **Before the merge** an honest answer and the epoch's file come out as a verified block, or
the file has no such record. -/
theorem preMerge_verified_iff (c : Crypto) (w : PointerWidth) (D : HeaderDecoder)
    (rs : RsMerkle c) (overflowChecks : Bool) (source : ArchiveRpcSource)
    (files : FilesystemEpochProvider) (v : HeaderValidator) (h : Header) (E : EpochAccumulator)
    (hfiles : source.epochProvider = some files.provider) (ha : source.Answers c h.number h)
    (hfile : files.read (files.candidate (epochIndexOfBlock h.number))
      = .ok ((sszEpochAccumulator : Ssz.Ty Ssz.DecodeError _).enc E))
    (hroot : v.preMergeAcc.historicalEpochs.toList[h.number.toNat / 8192]?
      = some (treeHashRoot c E))
    (hera : h.era = .historicalHashes) (hshape : h.PrefixShape)
    (hextra : h.extraData.data.length ≤ 900) (hrequests : h.requestsHash = none) :
    (Request.byNumber h.number).attempt c w D v
        (source.fetchHeaderWithProofByNumber rs w overflowChecks h.number)
      = .ok ⟨h, .historicalHashes⟩ ↔
    ∃ record, E.toList[h.number.toNat % 8192]? = some record ∧
      record.blockHash = h.hashSlow c := by
  have hn := Header.number_lt_of_era hera
  have hepoch := FilesystemEpochProvider.getEpochAccumulator_eq_ok.mpr hfile
  rw [fetchHeaderWithProofByNumber_preMerge rs w overflowChecks hfiles ha hepoch hn hrequests]
  constructor
  · intro hok
    obtain ⟨bytes, hwp, hfetched, -⟩ := Request.attempt_eq_ok.mp hok
    obtain ⟨proof, hproof, -⟩ := Outcome.bind_eq_ok.mp hfetched
    obtain ⟨record, hrecord, hhash, -⟩ := constructPreMergeProof_eq_ok.mp hproof
    exact ⟨record, hrecord, hhash⟩
  · rintro ⟨record, hrecord, hhash⟩
    rw [constructPreMergeProof_eq_ok.mpr ⟨record, hrecord, hhash, rfl⟩]
    have hread := @HeaderWithProof.fromSszBytes_written D h
      (.historicalHashes (EpochAccumulator.proof c E (h.number.toNat % 8192) record))
      hshape hextra hera.symm
    exact Request.attempt_eq_ok.mpr ⟨_, _, rfl, hread, beq_self_eq_true h.number,
      HeaderValidator.verifyPreMergeHeader_record w hn hroot hrecord hhash, rfl⟩

/-- A node with one block, and a directory with one epoch. -/
def blockNode (c : Crypto) (h : Header) : UInt64 → Except String (JsonRpcResponse RawBlock) :=
  fun _ => .ok ⟨RawBlock.fromJson (.object (h.blockMembers c)), none⟩

theorem answers_blockNode (c : Crypto) {h : Header} (hextra : h.extraData.data.length ≤ 900)
    (epochs : Option EpochProvider) (beacon : Option BeaconDataProvider) (n : UInt64) :
    (ArchiveRpcSource.mk (blockNode c h) epochs beacon).Answers c n h := by
  have hobject := isBlockObject_blockMembers c (h := h) (by omega)
  obtain ⟨raw, hraw, -⟩ := RawBlock.fromJson_of_isBlockObject hobject
  refine ⟨_, raw, hobject, hraw, ?_⟩
  change (.ok ⟨RawBlock.fromJson _, none⟩ : Except String (JsonRpcResponse RawBlock)) = _
  rw [hraw]

def genesisFiles (c : Crypto) : FilesystemEpochProvider where
  root := "epochs"
  read _ := .ok ((sszEpochAccumulator : Ssz.Ty Ssz.DecodeError _).enc (genesisEpoch c))

theorem preMerge_verified_iff_genesis :
    (Request.byNumber 0).attempt prefixCrypto .w64 rlpHeaderDecoder (genesisValidator prefixCrypto)
        (fetchHeaderWithProofByNumber (rsMerkle prefixCrypto) .w64
          ⟨blockNode prefixCrypto default, some (genesisFiles prefixCrypto).provider, none⟩ false 0)
      = .ok ⟨default, .historicalHashes⟩ :=
  (preMerge_verified_iff prefixCrypto .w64 rlpHeaderDecoder (rsMerkle prefixCrypto) false
    ⟨blockNode prefixCrypto default, some (genesisFiles prefixCrypto).provider, none⟩
    (genesisFiles prefixCrypto) (genesisValidator prefixCrypto) default
    (genesisEpoch prefixCrypto) rfl (answers_blockNode prefixCrypto (by decide) _ _ _) rfl rfl
    (by decide) (by decide) (by decide) rfl).mpr ⟨_, rfl, rfl⟩

end ArchiveRpcSource

/-! ## 3. A batch fetched one slot early -/

namespace BeaconHistory

variable (H : BeaconHistory)

/-- The batch of an era. -/
def batch (era : ℕ) : HistoricalBatch where
  blockRoots := BeaconRpcSource.ringVector fun i => H.blockRoot (era * 8192 + i)
  stateRoots := BeaconRpcSource.ringVector fun i => H.stateRoot (era * 8192 + i)

/-- The last block root is the one that its cell held before the era. -/
def LastBlockRootRepeats (era : ℕ) : Prop :=
  H.blockRoot (era * 8192 + 8191)
    = if era = 0 then H.initialBlockRoot 8191 else H.blockRoot (era * 8192 - 1)

def LastStateRootRepeats (era : ℕ) : Prop :=
  H.stateRoot (era * 8192 + 8191)
    = if era = 0 then H.initialStateRoot 8191 else H.stateRoot (era * 8192 - 1)

/-- A proof of the `i`-th root is the same for the batch fetched early: its path keeps clear of
the entry that is out of date, or the entry is right. -/
def SamePath (era i : ℕ) (e : Era) : Prop :=
  (i = 8191 ∨ H.LastBlockRootRepeats era) ∧ (e = .historicalRoots → H.LastStateRootRepeats era)

end BeaconHistory

/-- The pairs hashed for the two vectors of a batch. -/
def HistoricalBatch.inputs (c : Crypto) (batch : HistoricalBatch) : List (B256 × B256) :=
  subtreeInputs c.hash32Concat 13 (chunkAt batch.blockRoots.toList) ++
    subtreeInputs c.hash32Concat 13 (chunkAt batch.stateRoots.toList)

theorem chunkAt_ringVector (cells : ℕ → B256) {j : ℕ} (hj : j < 8192) :
    chunkAt (BeaconRpcSource.ringVector cells).toList j = cells j :=
  chunkAt_of_getElem? (BeaconRpcSource.ringVector_get hj)

namespace BeaconHistory

variable {H : BeaconHistory} {era : ℕ} {state : BeaconState}

/-- The vectors of the state before the last slot, entry by entry. -/
theorem IsStateAt.chunks (h : H.IsStateAt (era * 8192 + 8191) state) {j : ℕ} (hj : j < 8192) :
    chunkAt state.blockRoots.toList j
        = (if j + 1 < 8192 then H.blockRoot (era * 8192 + j)
          else if era = 0 then H.initialBlockRoot j else H.blockRoot (era * 8192 - 1)) ∧
      chunkAt state.stateRoots.toList j
        = (if j + 1 < 8192 then H.stateRoot (era * 8192 + j)
          else if era = 0 then H.initialStateRoot j else H.stateRoot (era * 8192 - 1)) := by
  constructor
  · rw [chunkAt_of_getElem? (h.blockRoots j hj)]
    exact congrArg id (Ring.after_turn_last 8192 _ _ hj)
  · rw [chunkAt_of_getElem? (h.stateRoots j hj)]
    exact congrArg id (Ring.after_turn_last 8192 _ _ hj)

/-- They are the era's, but for the last entry. -/
theorem IsStateAt.chunks_of_ne (h : H.IsStateAt (era * 8192 + 8191) state) {j : ℕ}
    (hj : j < 8192) (hne : j ≠ 8191) :
    chunkAt state.blockRoots.toList j = chunkAt (H.batch era).blockRoots.toList j ∧
      chunkAt state.stateRoots.toList j = chunkAt (H.batch era).stateRoots.toList j := by
  obtain ⟨hblock, hstate⟩ := h.chunks hj
  rw [if_pos (by omega)] at hblock hstate
  rw [hblock, hstate, batch, chunkAt_ringVector _ hj, chunkAt_ringVector _ hj]
  exact ⟨rfl, rfl⟩

theorem IsStateAt.chunk_last (h : H.IsStateAt (era * 8192 + 8191) state) :
    (chunkAt state.blockRoots.toList 8191 = chunkAt (H.batch era).blockRoots.toList 8191 ↔
      H.LastBlockRootRepeats era) ∧
    (chunkAt state.stateRoots.toList 8191 = chunkAt (H.batch era).stateRoots.toList 8191 ↔
      H.LastStateRootRepeats era) := by
  obtain ⟨hblock, hstate⟩ := h.chunks (j := 8191) (by norm_num)
  rw [if_neg (by norm_num)] at hblock hstate
  rw [hblock, hstate, batch, chunkAt_ringVector _ (by norm_num),
    chunkAt_ringVector _ (by norm_num)]
  exact ⟨eq_comm, eq_comm⟩

/-- So are their trees, when the last entry is right. -/
theorem IsStateAt.eq_of_last (h : H.IsStateAt (era * 8192 + 8191) state) :
    (H.LastBlockRootRepeats era → ∀ j < 2 ^ 13,
      chunkAt state.blockRoots.toList j = chunkAt (H.batch era).blockRoots.toList j) ∧
    (H.LastStateRootRepeats era → ∀ j < 2 ^ 13,
      chunkAt state.stateRoots.toList j = chunkAt (H.batch era).stateRoots.toList j) := by
  obtain ⟨hblock, hstate⟩ := h.chunk_last
  constructor
  · intro hlast j hj
    by_cases hne : j = 8191
    · rw [hne]
      exact hblock.mpr hlast
    · exact (h.chunks_of_ne hj hne).1
  · intro hlast j hj
    by_cases hne : j = 8191
    · rw [hne]
      exact hstate.mpr hlast
    · exact (h.chunks_of_ne hj hne).2

/-- **The path of a root in the batch that is fetched** is its path in the era's batch, up to
what the two batches hash. -/
theorem IsStateAt.branch_eq_iff (c : Crypto) (h : H.IsStateAt (era * 8192 + 8191) state) {i : ℕ}
    (hi : i < 8192) (e : Era) :
    (H.SamePath era i e →
      e.branch c ⟨state.blockRoots, state.stateRoots⟩ i = e.branch c (H.batch era) i) ∧
    (e.branch c ⟨state.blockRoots, state.stateRoots⟩ i = e.branch c (H.batch era) i →
      H.SamePath era i e ∨ Collision c.hash32Concat
        (HistoricalBatch.inputs c ⟨state.blockRoots, state.stateRoots⟩)
        (HistoricalBatch.inputs c (H.batch era))) := by
  obtain ⟨hblocks, hstates⟩ := h.eq_of_last
  obtain ⟨hblock, hstate⟩ := h.chunk_last
  -- the part of the path that is among the block roots
  have hto : (i = 8191 ∨ H.LastBlockRootRepeats era) →
      Merkle.branch c.hash32Concat 13 (chunkAt state.blockRoots.toList) i
        = Merkle.branch c.hash32Concat 13 (chunkAt (H.batch era).blockRoots.toList) i := by
    rintro (rfl | hlast)
    · exact branch_congr_of_ne hi fun j hj hne => (h.chunks_of_ne hj hne).1
    · exact Merkle.branch_congr 13 i hi (hblocks hlast)
  have hfrom : Merkle.branch c.hash32Concat 13 (chunkAt state.blockRoots.toList) i
        = Merkle.branch c.hash32Concat 13 (chunkAt (H.batch era).blockRoots.toList) i →
      (i = 8191 ∨ H.LastBlockRootRepeats era) ∨ Collision c.hash32Concat
        (subtreeInputs c.hash32Concat 13 (chunkAt state.blockRoots.toList))
        (subtreeInputs c.hash32Concat 13 (chunkAt (H.batch era).blockRoots.toList)) := by
    intro hpath
    by_cases hlast : i = 8191
    · exact Or.inl (Or.inl hlast)
    · refine (branch_binding hi hpath).imp (fun hothers => Or.inr ?_) id
      exact hblock.mp (hothers 8191 (by norm_num) (Ne.symm hlast))
  have hsummaries : e ≠ .historicalRoots → e.branch c ⟨state.blockRoots, state.stateRoots⟩ i
      = Merkle.branch c.hash32Concat 13 (chunkAt state.blockRoots.toList) i ∧
      e.branch c (H.batch era) i
        = Merkle.branch c.hash32Concat 13 (chunkAt (H.batch era).blockRoots.toList) i := by
    intro hne
    cases e with
    | historicalRoots => exact absurd rfl hne
    | _ => exact ⟨rfl, rfl⟩
  by_cases he : e = .historicalRoots
  · subst he
    -- and its last sibling, the root of the state roots
    rw [Era.branch, Era.branch]
    constructor
    · rintro ⟨hpath, hlast⟩
      rw [hto hpath, treeHashRoot_blockRoots, treeHashRoot_blockRoots,
        subtree_congr 13 (hstates (hlast rfl))]
    · intro hpath
      obtain ⟨hpath, hroot⟩ := List.append_inj hpath (by rw [branch_length, branch_length])
      have hroot := List.singleton_inj.mp hroot
      rw [treeHashRoot_blockRoots, treeHashRoot_blockRoots] at hroot
      rcases and_or_collision (hfrom hpath) (subtree_binding 13 _ _ hroot) with
        ⟨hpath, hall⟩ | hcol
      · exact Or.inl ⟨hpath, fun _ => hstate.mp (hall 8191 (by norm_num))⟩
      · exact Or.inr hcol
  · obtain ⟨hfetched, hchain⟩ := hsummaries he
    rw [hfetched, hchain]
    constructor
    · rintro ⟨hpath, -⟩
      exact hto hpath
    · intro hpath
      rcases hfrom hpath with hpath | hcol
      · exact Or.inl ⟨hpath, fun hroots => absurd hroots he⟩
      · exact Or.inr (hcol.mono (List.subset_append_left _ _) (List.subset_append_left _ _))

end BeaconHistory

/-! ## 4. After the merge -/

/-- What an honest node has for a slot: its block, and the state before the end of its era. -/
structure BeaconNode.Serves (node : BeaconNode) (H : BeaconHistory) (slot : UInt64)
    (b : SignedBeaconBlock) : Prop where
  block : HttpResponse.Carries (node.getBlock slot) b.asSszBytes
  fork : b.message.forkName = forkForSlot slot
  valid : b.message.Valid
  state : ∀ eraEnd : UInt64, eraEnd.toNat = slot.toNat / 8192 * 8192 + 8191 →
    ∃ s : BeaconState, HttpResponse.Carries (node.getState eraEnd) s.asSszBytes ∧
      s.forkName = forkForSlot eraEnd ∧ s.Valid ∧ H.IsStateAt eraEnd.toNat s

/-- The block of a slot, and its header. -/
structure BeaconHistory.HasBlock (c : Crypto) (H : BeaconHistory) (slot : UInt64)
    (b : BeaconBlock) (h : Header) : Prop where
  root : H.blockRoot slot.toNat = treeHashRoot c b
  hash : h.hashSlow c = b.blockHash
  slot_eq : slotForExecutionTimestamp h.timestamp = some slot
  number_le : 15537394 ≤ h.number.toNat

/-- The slot decides the era of both. -/
theorem BeaconHistory.HasBlock.era_received {H : BeaconHistory} {slot : UInt64} {b : BeaconBlock}
    {h : Header} (hblock : H.HasBlock c slot b h) (hfork : b.forkName = forkForSlot slot) :
    h.received.era = b.era := by
  rw [b.era_eq, hfork, forkForSlot_era]
  exact Header.era_eq_ofSlot hblock.number_le hblock.slot_eq

/-- A slot of a timestamp is far from the last era. -/
theorem not_overflows_of_slot {t slot : UInt64} (overflowChecks : Bool)
    (h : slotForExecutionTimestamp t = some slot) :
    ¬ BeaconRpcSource.Overflows overflowChecks slot := by
  obtain ⟨-, hslot⟩ := slotForExecutionTimestamp_eq_some.mp h
  have hlt := UInt64.toNat_lt t
  rintro ⟨-, hge⟩
  omega

namespace ArchiveRpcSource

variable {w : PointerWidth} {source : ArchiveRpcSource} {node : BeaconNode} {H : BeaconHistory}
  {h : Header} {slot : UInt64} {b : SignedBeaconBlock}

/-- What the source sends for an honest answer from after the merge. -/
theorem fetchHeaderWithProofByNumber_postMerge (rs : RsMerkle c) (w : PointerWidth)
    (overflowChecks : Bool)
    (hprovider : source.beaconProvider = some (node.provider overflowChecks))
    (ha : source.Answers c h.number h) (hserves : node.Serves H slot b)
    (hblock : H.HasBlock c slot b.message h) :
    ∃ (s : BeaconState) (proof : BlockHeaderProof),
      H.IsStateAt (slot.toNat / 8192 * 8192 + 8191) s ∧
      (node.provider overflowChecks).fetchHistoricalBatch slot
        = .ok ⟨s.blockRoots, s.stateRoots⟩ ∧
      source.fetchHeaderWithProofByNumber rs w overflowChecks h.number
        = .ok (HeaderWithProof.asSszBytes ⟨h.received, proof⟩) ∧
      proof.era = b.message.era ∧ proof.postMerge? = some ⟨(b.message.path c).branch,
        treeHashRoot c b.message, b.message.era.branch c ⟨s.blockRoots, s.stateRoots⟩
          (slot.toNat % 8192), slot⟩ := by
  obtain ⟨raw, hraw, hheader⟩ := ha.fetch overflowChecks w
  have hend := BeaconRpcSource.toNat_eraEnd slot
  obtain ⟨s, hcarries, hfork, hvalid, hat⟩ := hserves.state _ hend
  rw [hend] at hat
  have hfetch : (node.provider overflowChecks).fetchSignedBeaconBlock slot = .ok b :=
    BeaconNode.fetchSignedBeaconBlock_eq_ok.mpr ⟨hserves.block, hserves.fork, hserves.valid⟩
  have hbatch : (node.provider overflowChecks).fetchHistoricalBatch slot
      = .ok ⟨s.blockRoots, s.stateRoots⟩ :=
    BeaconNode.fetchHistoricalBatch_eq_ok.mpr
      ⟨not_overflows_of_slot overflowChecks hblock.slot_eq, _, s, hend, hcarries, hfork, hvalid,
        rfl⟩
  obtain ⟨proof, hproof, hera, hpost⟩ := buildPostMergeProof_eq rs (ε := Error) w slot
    ⟨s.blockRoots, s.stateRoots⟩ b.message
  refine ⟨s, proof, hat, hbatch, ?_, hera, hpost⟩
  have hparis : h.received.number ≥ 15537394 := UInt64.le_iff_toNat_le.mpr hblock.number_le
  have hsent : source.buildPostMergeHwp rs w h.received
      = .ok (HeaderWithProof.asSszBytes ⟨h.received, proof⟩) :=
    buildPostMergeHwp_eq rs w source hprovider hblock.slot_eq hfetch hbatch hproof
  simp only [fetchHeaderWithProofByNumber, hraw, hheader, Outcome.ofExcept_ok, Outcome.ok_bind,
    if_pos hparis, hsent]

/-- **What the validator says to it**: yes, where the path is the chain's and the hash is the
block's, and otherwise no, unless it can be made to hash two things to one value. -/
theorem validate_fetched {v : HeaderValidator} {s : BeaconState} {proof : BlockHeaderProof}
    (hshape : h.PrefixShape) (hblock : H.HasBlock c slot b.message h)
    (hfork : b.message.forkName = forkForSlot slot)
    (hat : H.IsStateAt (slot.toNat / 8192 * 8192 + 8191) s)
    (hcommit : v.commitment w slot b.message.era
      = some (b.message.era.root c (H.batch (slot.toNat / 8192))))
    (hera : proof.era = b.message.era)
    (hpost : proof.postMerge? = some ⟨(b.message.path c).branch, treeHashRoot c b.message,
      b.message.era.branch c ⟨s.blockRoots, s.stateRoots⟩ (slot.toNat % 8192), slot⟩) :
    (H.SamePath (slot.toNat / 8192) (slot.toNat % 8192) b.message.era ∧ h.requestsHash = none →
      v.validateHeaderWithProof c w ⟨h.received, proof⟩ = .ok ()) ∧
    (v.validateHeaderWithProof c w ⟨h.received, proof⟩ = .ok () →
      (H.SamePath (slot.toNat / 8192) (slot.toNat % 8192) b.message.era ∧
        h.requestsHash = none) ∨
      h.received.HashCollision c h ∨
      Collision c.hash32Concat
        (HeaderWithProof.inputs c ⟨h.received, proof⟩ ++
          HistoricalBatch.inputs c ⟨s.blockRoots, s.stateRoots⟩)
        (climbInputs c.hash32Concat b.message.era.executionIndex b.message.blockHash
            (b.message.path c).branch ++
          climbInputs c.hash32Concat (b.message.era.beaconIndex (slot.toNat % 8192))
            (treeHashRoot c b.message)
            (b.message.era.branch c (H.batch (slot.toNat / 8192)) (slot.toNat % 8192)) ++
          HistoricalBatch.inputs c (H.batch (slot.toNat / 8192)))) := by
  have hi : slot.toNat % 8192 < 8192 := Nat.mod_lt _ (by norm_num)
  have hleaf : (H.batch (slot.toNat / 8192)).blockRoots.toList[slot.toNat % 8192]?
      = some (treeHashRoot c b.message) := by
    have hplace : slot.toNat / 8192 * 8192 + slot.toNat % 8192 = slot.toNat := by omega
    rw [← hblock.root, BeaconHistory.batch, BeaconRpcSource.ringVector_get hi, hplace]
  obtain ⟨hto, hfrom⟩ := hat.branch_eq_iff c hi b.message.era
  rw [validateHeaderWithProof_postMerge c w v _ hpost, hera]
  dsimp only
  constructor
  · rintro ⟨hsame, hrequests⟩
    have hreceived : h.received = h := by
      rw [Header.received, ← hrequests]
    refine ⟨hblock.era_received hfork, ?_, _, hcommit, ?_⟩
    · rw [hreceived, hblock.hash, b.message.climb_path c]
    · rw [hto hsame, Era.climb_branch_eq c _ hi hleaf]
  · rintro ⟨-, hexec, root, hroot, hbeacon⟩
    obtain rfl := Option.some.inj (hroot.symm.trans hcommit)
    rw [HeaderWithProof.inputs_postMerge hpost, HeaderWithProof.postMergeInputs, hera]
    dsimp only
    obtain ⟨-, hlen⟩ := BlockHeaderProof.length_postMerge hpost c (H.batch (slot.toNat / 8192))
      (slot.toNat % 8192)
    rw [hera] at hlen
    rcases executionProof_binds rfl (b.message.length_path c) hexec with ⟨hhash, -⟩ | hcol
    · rcases beaconProof_binds hi hlen hbeacon with ⟨-, hpath⟩ | hcol
      · rcases hfrom hpath with hsame | hcol
        · rcases Header.received_hash hshape (hhash.trans hblock.hash.symm) with hnone | hcol
          · exact Or.inl ⟨hsame, hnone⟩
          · exact Or.inr (Or.inl hcol)
        · exact Or.inr (Or.inr (hcol.mono (List.subset_append_right _ _)
            (List.subset_append_right _ _)))
      · rw [chunkAt_of_getElem? hleaf] at hcol
        refine Or.inr (Or.inr (hcol.mono ?_ ?_))
        · exact List.subset_append_of_subset_left _ (List.subset_append_right _ _)
        · exact List.subset_append_of_subset_left _ (List.subset_append_right _ _)
    · refine Or.inr (Or.inr (hcol.mono ?_ ?_))
      · exact List.subset_append_of_subset_left _ (List.subset_append_left _ _)
      · exact List.subset_append_of_subset_left _ (List.subset_append_left _ _)

/-- **After the merge** an honest answer and an honest node come out as a verified block when the
batch's late entry is out of the way and the header has no requests hash to lose; and, collisions
apart, only then. -/
theorem postMerge_verified (c : Crypto) (w : PointerWidth) (D : HeaderDecoder) (rs : RsMerkle c)
    (overflowChecks : Bool) (source : ArchiveRpcSource) (node : BeaconNode) (H : BeaconHistory)
    (v : HeaderValidator) (slot : UInt64) (h : Header) (b : SignedBeaconBlock)
    (hprovider : source.beaconProvider = some (node.provider overflowChecks))
    (ha : source.Answers c h.number h) (hserves : node.Serves H slot b)
    (hblock : H.HasBlock c slot b.message h)
    (hcommit : v.commitment w slot b.message.era
      = some (b.message.era.root c (H.batch (slot.toNat / 8192))))
    (hshape : h.PrefixShape) (hextra : h.extraData.data.length ≤ 900) :
    ∃ fetched proof bytes,
      (node.provider overflowChecks).fetchHistoricalBatch slot = .ok fetched ∧
      source.fetchHeaderWithProofByNumber rs w overflowChecks h.number = .ok bytes ∧
      HeaderWithProof.fromSszBytes D bytes = .ok ⟨h.received, proof⟩ ∧
      (H.SamePath (slot.toNat / 8192) (slot.toNat % 8192) b.message.era ∧
          h.requestsHash = none →
        (Request.byNumber h.number).attempt c w D v (.ok bytes)
          = .ok ⟨h, authPathFor proof⟩) ∧
      ∀ verified, (Request.byNumber h.number).attempt c w D v (.ok bytes) = .ok verified →
        (H.SamePath (slot.toNat / 8192) (slot.toNat % 8192) b.message.era ∧
          h.requestsHash = none) ∨
        h.received.HashCollision c h ∨
        Collision c.hash32Concat
          (HeaderWithProof.inputs c ⟨h.received, proof⟩ ++ HistoricalBatch.inputs c fetched)
          (climbInputs c.hash32Concat b.message.era.executionIndex b.message.blockHash
              (b.message.path c).branch ++
            climbInputs c.hash32Concat (b.message.era.beaconIndex (slot.toNat % 8192))
              (treeHashRoot c b.message)
              (b.message.era.branch c (H.batch (slot.toNat / 8192)) (slot.toNat % 8192)) ++
            HistoricalBatch.inputs c (H.batch (slot.toNat / 8192))) := by
  obtain ⟨s, proof, hat, hbatch, hsent, hera, hpost⟩ :=
    fetchHeaderWithProofByNumber_postMerge rs w overflowChecks hprovider ha hserves hblock
  obtain ⟨hto, hfrom⟩ :=
    validate_fetched (w := w) (v := v) hshape hblock hserves.fork hat hcommit hera hpost
  have hheader : proof.era = h.received.era :=
    hera.trans (hblock.era_received hserves.fork).symm
  have hread := @HeaderWithProof.fromSszBytes_written D h.received proof hshape.received hextra
    hheader
  refine ⟨_, proof, _, hbatch, hsent, hread, ?_, ?_⟩
  · intro hgood
    have hvalid := hto hgood
    have hreceived : h.received = h := by
      rw [Header.received, ← hgood.2]
    rw [hreceived] at hread hvalid ⊢
    exact Request.attempt_eq_ok.mpr
      ⟨_, _, rfl, hread, beq_self_eq_true h.number, hvalid, rfl⟩
  · intro verified hok
    obtain ⟨bytes, hwp, hbytes, hdec, -, hvalid, -⟩ := Request.attempt_eq_ok.mp hok
    obtain rfl := Outcome.ok.inj hbytes
    obtain rfl := Except.ok.inj (hread.symm.trans hdec)
    exact hfrom hvalid

end ArchiveRpcSource

/-! A chain of one block again, whose last roots repeat. -/

namespace ArchiveRpcSource

def mergeHistory : BeaconHistory where
  blockRoot _ := treeHashRoot prefixCrypto mergeBlock
  stateRoot _ := default
  initialBlockRoot _ := treeHashRoot prefixCrypto mergeBlock
  initialStateRoot _ := default

/-- The state of every slot. -/
def mergeState : BeaconStateBellatrix :=
  { (default : BeaconStateBellatrix) with blockRoots := mergeBatch.blockRoots }

def mergeSigned : SignedBeaconBlock := ⟨.bellatrix mergeBlock, ⟨default⟩⟩

def mergeNode : BeaconNode where
  getState _ := .ok ⟨true, "200 OK", .ok (BeaconState.bellatrix mergeState).asSszBytes⟩
  getBlock _ := .ok ⟨true, "200 OK", .ok mergeSigned.asSszBytes⟩

theorem batch_mergeHistory (era : ℕ) : mergeHistory.batch era = mergeBatch := by
  have hconst : ∀ x : B256, (BeaconRpcSource.ringVector fun _ => x).toList
      = List.replicate 8192 x := by
    intro x
    refine List.eq_replicate_iff.mpr ⟨(BeaconRpcSource.ringVector _).length_eq, fun b hb => ?_⟩
    simp only [BeaconRpcSource.ringVector, List.mem_map] at hb
    obtain ⟨-, -, rfl⟩ := hb
    rfl
  rw [BeaconHistory.batch, mergeBatch]
  exact congrArg₂ HistoricalBatch.mk (FixedVector.ext (hconst _)) (FixedVector.ext (hconst _))

theorem isStateAt_mergeState (s : ℕ) : mergeHistory.IsStateAt s (.bellatrix mergeState) := by
  have hconst : ∀ (x : B256) (s i : ℕ), Ring.after 8192 (fun _ => x) (fun _ => x) s i = x := by
    intro x s i
    induction s with
    | zero => rfl
    | succ s ih =>
      rw [Ring.after_succ, ih, ite_self]
  constructor
  · intro i hi
    rw [BeaconHistory.blockCells, mergeHistory, hconst]
    exact (List.getElem?_replicate).trans (if_pos hi)
  · intro i hi
    rw [BeaconHistory.stateCells, mergeHistory, hconst]
    exact (List.getElem?_replicate).trans (if_pos hi)

/-- The container of a state, whose long vectors are not written out. -/
theorem valid_mergeState : (BeaconState.bellatrix mergeState).Valid := by
  let F : Ssz.Fields Ssz.DecodeError BeaconStateBellatrix :=
    (beaconStateFields sszExecutionPayloadHeaderBellatrix .nil).map (Equiv.prodPUnit _).symm
  have hhead : Ssz.fixedWidth F.slots ≤ 2 ^ 24 := by decide +kernel
  have hbody : (Ssz.bodyBytes F.slots (F.parts mergeState)).length ≤ 2 ^ 24 := by decide +kernel
  have hlen := Ssz.length_encode (F.admits_parts mergeState)
  have hpow : (256 : ℕ) ^ 4 = 2 ^ 32 := by norm_num
  refine F.valid_of_length_encode_lt mergeState ?_
  change (Ssz.encode _ _).length < _
  rw [hlen]
  omega

theorem serves_mergeNode : mergeNode.Serves mergeHistory 4700013 mergeSigned where
  block := ⟨_, rfl, rfl, rfl⟩
  fork := by decide
  valid := BeaconBlock.valid_of_length_lt (b := .bellatrix mergeBlock) (by decide +kernel)
  state := by
    intro eraEnd hend
    have hnat : eraEnd = 4702207 := UInt64.toNat_inj.mp hend
    subst hnat
    exact ⟨.bellatrix mergeState, ⟨_, rfl, rfl, rfl⟩, by decide, valid_mergeState,
      isStateAt_mergeState _⟩

theorem postMerge_verified_merge :
    ∃ bytes path, fetchHeaderWithProofByNumber (rsMerkle prefixCrypto) .w64
        ⟨blockNode prefixCrypto mergeHeader, none, some (mergeNode.provider false)⟩ false 15537394
          = .ok bytes ∧
      (Request.byNumber 15537394).attempt prefixCrypto .w64 rlpHeaderDecoder mergeValidator
        (.ok bytes) = .ok ⟨mergeHeader, path⟩ := by
  have hcommit := commitment_of_committed .w64 mergeBlock_committed
  rw [← batch_mergeHistory 573] at hcommit
  obtain ⟨-, proof, bytes, -, hsent, -, hverified, -⟩ := postMerge_verified prefixCrypto .w64
    rlpHeaderDecoder (rsMerkle prefixCrypto) false
    ⟨blockNode prefixCrypto mergeHeader, none, some (mergeNode.provider false)⟩ mergeNode
    mergeHistory mergeValidator 4700013 mergeHeader mergeSigned rfl
    (answers_blockNode prefixCrypto (by decide) _ _ _) serves_mergeNode
    ⟨rfl, rfl, by decide, by decide⟩ hcommit (by decide) (by decide)
  exact ⟨bytes, _, hsent, hverified ⟨⟨Or.inr rfl, fun _ => rfl⟩, rfl⟩⟩

end ArchiveRpcSource

end EthHistorian
