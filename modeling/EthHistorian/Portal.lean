/-
# What a Portal client can do

A client that keeps contents under the keys of the network is read back key by key.

An honest one has, for the first epoch of an era, the summaries of the eras before it.  A verifier
that is refreshed from it accepts the blocks of those eras and of no later one; and in a session
whose refreshes are installed in the order in which they were fetched, every refresh keeps what it
replaces, so that a query made after it is served to its end.

The proof that comes with the summaries is not looked at: for every header from Capella on there
are summaries with which it is accepted.
-/
import EthHistorian.Archive
import EthHistorian.Fingerprints
import EthHistorian.Model.Portal

namespace EthHistorian

variable {c : Crypto} {w : PointerWidth} {D : HeaderDecoder}

/-! ## 1. Contents, kept by their keys -/

/-- The contents that are asked for. -/
inductive ContentKey where
  | blockHeaderByHash (blockHash : B256)
  | blockHeaderByNumber (blockNumber : UInt64)
  | historicalSummariesWithProof (epoch : UInt64)

namespace ContentKey

/-- A key as the network writes it: a selector, and what it selects. -/
def bytes : ContentKey → List UInt8
  | blockHeaderByHash blockHash => 0x00 :: blockHash.bytes
  | blockHeaderByNumber blockNumber => 0x03 :: u64ToLeBytes blockNumber
  | historicalSummariesWithProof epoch => 0x14 :: u64ToLeBytes epoch

/-- The method of its sub-network. -/
def method : ContentKey → String
  | blockHeaderByHash _ => "portal_legacyHistoryGetContent"
  | blockHeaderByNumber _ => "portal_legacyHistoryGetContent"
  | historicalSummariesWithProof _ => "portal_beaconGetContent"

/-- The reader of a client. -/
def ofBytes? : List UInt8 → Option ContentKey
  | [] => none
  | selector :: rest =>
    if selector = 0x00 then
      if h : rest.length = 32 then some (blockHeaderByHash ⟨rest, h⟩) else none
    else if rest.length = 8 then
      if selector = 0x03 then some (blockHeaderByNumber (UInt64.ofNat (ByteString.ofLE rest)))
      else if selector = 0x14 then
        some (historicalSummariesWithProof (UInt64.ofNat (ByteString.ofLE rest)))
      else none
    else none

theorem ofLE_u64ToLeBytes (x : UInt64) :
    UInt64.ofNat (ByteString.ofLE (u64ToLeBytes x)) = x := by
  have hle : ByteString.ofLE (u64ToLeBytes x) = x.toNat := by
    rw [u64ToLeBytes, ByteString.ofLE_toLE]
    exact Nat.mod_eq_of_lt (UInt64.toNat_lt x)
  rw [hle, UInt64.ofNat_toNat]

/-- **A key is read back.** -/
theorem ofBytes?_bytes (key : ContentKey) : ofBytes? key.bytes = some key := by
  have hlen : ∀ x : UInt64, (u64ToLeBytes x).length = 8 := fun x => ByteString.toLE_length 8 _
  cases key with
  | blockHeaderByHash blockHash =>
    rw [bytes, ofBytes?, if_pos rfl, dif_pos blockHash.length_eq]
  | blockHeaderByNumber blockNumber =>
    rw [bytes, ofBytes?, if_neg (by decide), if_pos (hlen _), if_pos rfl, ofLE_u64ToLeBytes]
  | historicalSummariesWithProof epoch =>
    rw [bytes, ofBytes?, if_neg (by decide), if_pos (hlen _), if_neg (by decide), if_pos rfl,
      ofLE_u64ToLeBytes]

end ContentKey

namespace PortalRpc

/-- A content that can be written as text. -/
abbrev Content := {content : List UInt8 // content.length < 2 ^ 62}

def Content.text (content : Content) : Str where
  bytes := Hex.encode content.val
  length_lt := by
    have hlt := content.property
    rw [Hex.length_encode]
    omega

/-- A client that reads the key and answers with what it keeps under it, if it is asked by the
method of the key's sub-network. -/
def ofStore (store : ContentKey → Option Content) : PortalRpc where
  post method keyHex :=
    match (Hex.decode (Hex.trimMarkers keyHex)).toOption.bind ContentKey.ofBytes? with
    | some key =>
      if method = key.method then .ok ⟨(store key).map fun content => ⟨content.text⟩, none⟩
      else .ok ⟨none, some ⟨-32602, "Invalid params"⟩⟩
    | none => .ok ⟨none, some ⟨-32602, "Invalid params"⟩⟩

/-- What `get_content` makes of such a client. -/
theorem getContent_ofStore (store : ContentKey → Option Content) (name : String)
    (key : ContentKey) :
    (ofStore store).getContent key.method name key.bytes
      = match store key with
        | some content => .ok content.val
        | none => .error (.dataSource
            s!"{name} returned no result for {asciiText (contentKeyHex key.bytes)}") := by
  have hkey : (Hex.decode (Hex.trimMarkers (contentKeyHex key.bytes))).toOption.bind
      ContentKey.ofBytes? = some key := by
    rw [contentKeyHex, Hex.trimMarkers_mark (Hex.not_mem_encode _), Hex.decode_encode]
    exact key.ofBytes?_bytes
  have hpost : (ofStore store).post key.method (contentKeyHex key.bytes)
      = .ok ⟨(store key).map fun content => ⟨content.text⟩, none⟩ := by
    rw [ofStore]
    dsimp only
    rw [hkey]
    exact if_pos rfl
  rw [getContent, hpost]
  cases store key with
  | none => rfl
  | some content =>
    refine hexDecode_eq_ok.mpr ?_
    dsimp only [Content.text]
    rw [Hex.trimMarkers_of_not_mem (Hex.not_mem_encode _), Hex.decode_encode]

/-- **What is kept is fetched.**  Over a client that keeps contents under their keys, a header is
the content of its own key or an error that names the key, and summaries are what the content of
theirs encodes, or such an error. -/
theorem fetch_ofStore (store : ContentKey → Option Content) :
    (∀ blockNumber,
      (PortalSidecarSource.mk (ofStore store)).fetchHeaderWithProofByNumber blockNumber
      = match store (.blockHeaderByNumber blockNumber) with
        | some content => .ok content.val
        | none => .error (.dataSource s!"Portal returned no result for {asciiText
            (contentKeyHex (ContentKey.blockHeaderByNumber blockNumber).bytes)}")) ∧
    (∀ blockHash, (PortalSidecarSource.mk (ofStore store)).fetchHeaderWithProofByHash blockHash
      = match store (.blockHeaderByHash blockHash) with
        | some content => .ok content.val
        | none => .error (.dataSource s!"Portal returned no result for {asciiText
            (contentKeyHex (ContentKey.blockHeaderByHash blockHash).bytes)}")) ∧
    (∀ epoch x,
      (PortalBeaconSidecarSource.mk (ofStore store)).fetchHistoricalSummariesWithProof epoch
        = .ok x ↔
      ∃ content, store (.historicalSummariesWithProof epoch) = some content ∧
        content.val = (sszHistoricalSummariesWithProof : Ssz.Ty Ssz.DecodeError _).enc x) ∧
    ∀ epoch, store (.historicalSummariesWithProof epoch) = none →
      (PortalBeaconSidecarSource.mk (ofStore store)).fetchHistoricalSummariesWithProof epoch
        = .err (.dataSource s!"Portal beacon returned no result for {asciiText
            (contentKeyHex (ContentKey.historicalSummariesWithProof epoch).bytes)}") := by
  have hstrict : (sszHistoricalSummariesWithProof : Ssz.Ty Ssz.DecodeError _).Strict :=
    Ssz.Ty.strict_of_dynamic rfl
  have hget : ∀ epoch, (PortalBeaconSidecarSource.mk (ofStore store)).getContent
      (PortalBeaconSidecarSource.selectorHistoricalSummariesWithProof :: u64ToLeBytes epoch) = _ :=
    fun epoch => getContent_ofStore store "Portal beacon" (.historicalSummariesWithProof epoch)
  refine ⟨fun blockNumber => getContent_ofStore store "Portal" (.blockHeaderByNumber blockNumber),
    fun blockHash => getContent_ofStore store "Portal" (.blockHeaderByHash blockHash),
    fun epoch x => ?_, fun epoch hnone => ?_⟩
  · simp only [PortalBeaconSidecarSource.fetchHistoricalSummariesWithProof, Outcome.bind_eq_ok,
      Outcome.mapErr_eq_ok, Outcome.ofExcept_eq_ok, hstrict.dec_eq_ok, hget]
    cases store (.historicalSummariesWithProof epoch) with
    | none => simp
    | some content =>
      simp only [Except.ok.injEq, Option.some.injEq, exists_eq_left']
      exact and_iff_right (valid_sszHistoricalSummariesWithProof x)
  · rw [PortalBeaconSidecarSource.fetchHistoricalSummariesWithProof, hget, hnone]
    rfl

theorem has_ofStore {store : ContentKey → Option Content} (key : ContentKey)
    {content : List UInt8} :
    (ofStore store).Has key.method key.bytes content ↔
      ∃ x, store key = some x ∧ x.val = content := by
  rw [← @getContent_eq_ok _ _ "Portal", getContent_ofStore]
  cases store key <;> simp

end PortalRpc

/-! ## 2. What a refresh covers -/

namespace BeaconHistory

variable (c) (H : BeaconHistory)

/-- The summary of an era. -/
def summary (era : ℕ) : HistoricalSummary :=
  ⟨treeHashRoot c (H.batch era).blockRoots, treeHashRoot c (H.batch era).stateRoots⟩

/-- The summaries that the chain has at the beginning of an era: of the eras since Capella that
have ended. -/
def summariesBefore (era : ℕ) : List HistoricalSummary :=
  (List.range (era - 758)).map fun i => H.summary c (758 + i)

theorem length_summariesBefore (era : ℕ) : (H.summariesBefore c era).length = era - 758 := by
  rw [summariesBefore, List.length_map, List.length_range]

theorem summariesBefore_getElem? {era i : ℕ} (hi : i < era - 758) :
    (H.summariesBefore c era)[i]? = some (H.summary c (758 + i)) := by
  rw [summariesBefore, List.getElem?_map, List.getElem?_range hi, Option.map_some]

-- comparing two of them would subtract the first era one by one
attribute [irreducible] summariesBefore

end BeaconHistory

/-- The key of the header that a request asks for. -/
def Request.contentKey : Request → ContentKey
  | byNumber blockNumber => .blockHeaderByNumber blockNumber
  | byHash blockHash => .blockHeaderByHash blockHash

/-- A Portal source is asked for the content of the key. -/
theorem Request.fetch_dataSource (request : Request) (source : PortalSidecarSource) :
    request.fetch source.dataSource
      = source.rpc.getContent request.contentKey.method "Portal" request.contentKey.bytes := by
  cases request <;> rfl

/-- A client that has the header of a block, with the chain's proof of it. -/
structure PortalSidecarSource.Serves {c : Crypto} (rs : RsMerkle c) (w : PointerWidth)
    (source : PortalSidecarSource) (H : BeaconHistory) (slot : UInt64) (b : BeaconBlock)
    (h : Header) (proof : BlockHeaderProof) (request : Request) : Prop where
  block : H.HasBlock c slot b h
  fork : b.forkName = forkForSlot slot
  shape : h.PrefixShape
  extra : h.extraData.data.length ≤ 900
  proof_eq : buildPostMergeProof rs w slot (H.batch (slot.toNat / 8192)) b
    = (.ok proof : Outcome Error _)
  asked : request.asked c h = true
  content : source.rpc.Has request.contentKey.method request.contentKey.bytes
    (HeaderWithProof.asSszBytes ⟨h, proof⟩)

namespace PortalBeaconSidecarSource

variable {source : PortalBeaconSidecarSource} {H : BeaconHistory} {epoch now : UInt64}
  {S : HistoricalSummaries}

/-- The client answers the key of an epoch with these summaries, under whatever epoch and with
whatever proof of theirs. -/
def Answers (source : PortalBeaconSidecarSource) (epoch : UInt64)
    (x : HistoricalSummariesWithProof) : Prop :=
  source.rpc.Has "portal_beaconGetContent" (ContentKey.historicalSummariesWithProof epoch).bytes
    ((sszHistoricalSummariesWithProof : Ssz.Ty Ssz.DecodeError _).enc x)

/-- A client that has, under the key of an epoch, the summaries of the eras before the one that
the epoch is in, for all the keys that it answers. -/
def Honest (c : Crypto) (H : BeaconHistory) (source : PortalBeaconSidecarSource) : Prop :=
  ∀ epoch x, source.Answers epoch x →
    x.historicalSummaries.toList = H.summariesBefore c (epoch.toNat / 256)

/-- The key that is asked for is that of the first epoch of the era. -/
theorem fetchLatest_of_answers (hepoch : epoch.toNat = eraAt now * 256)
    {x : HistoricalSummariesWithProof} (h : source.Answers epoch x) :
    source.fetchLatestHistoricalSummaries (some now) = .ok x.historicalSummaries := by
  have hkey : currentHistoricalSummariesEpoch (some now) = epoch :=
    UInt64.toNat_inj.mp ((toNat_currentHistoricalSummariesEpoch now).trans hepoch.symm)
  exact fetchLatestHistoricalSummaries_eq_ok.mpr ⟨x.epoch, x.proof, hkey ▸ h⟩

/-- **What an honest client answers is the summaries of the eras that have ended.** -/
theorem Honest.fetched (hsource : source.Honest c H)
    (h : source.fetchLatestHistoricalSummaries (some now) = .ok S) :
    S.toList = H.summariesBefore c (eraAt now) := by
  obtain ⟨epoch, proof, hhas⟩ := fetchLatestHistoricalSummaries_eq_ok.mp h
  have hS := hsource _ ⟨epoch, S, proof⟩ hhas
  rwa [toNat_currentHistoricalSummariesEpoch, Nat.mul_div_cancel _ (by norm_num)] at hS

end PortalBeaconSidecarSource

/-! Such clients exist. -/

theorem HistoricalSummariesWithProof.length_enc_lt (x : HistoricalSummariesWithProof) :
    ((sszHistoricalSummariesWithProof : Ssz.Ty Ssz.DecodeError _).enc x).length < 2 ^ 62 := by
  have hle := x.historicalSummaries.length_le
  rw [length_enc_historicalSummariesWithProof]
  omega

/-- The summaries of every era, under its first epoch and the others, while a list can hold
them. -/
def BeaconHistory.summariesStore (c : Crypto) (H : BeaconHistory) :
    ContentKey → Option PortalRpc.Content
  | .historicalSummariesWithProof epoch =>
    if h : (H.summariesBefore c (epoch.toNat / 256)).length ≤ 16777216 then
      some ⟨_, HistoricalSummariesWithProof.length_enc_lt ⟨epoch, ⟨_, h⟩, default⟩⟩
    else none
  | _ => none

theorem BeaconHistory.honest_summariesStore (c : Crypto) (H : BeaconHistory) :
    (PortalBeaconSidecarSource.mk (.ofStore (H.summariesStore c))).Honest c H := by
  intro epoch x hanswers
  obtain ⟨content, hstore, hx⟩ :=
    (PortalRpc.has_ofStore (.historicalSummariesWithProof epoch)).mp hanswers
  rw [summariesStore] at hstore
  split at hstore
  · obtain rfl := Option.some.inj hstore
    have hvalid := valid_sszHistoricalSummariesWithProof
    rw [← sszHistoricalSummariesWithProof.eq_of_enc_eq (hvalid _) (hvalid _) hx]
  · cases hstore

/-- What it has, while a list can hold it. -/
theorem BeaconHistory.answers_summariesStore (c : Crypto) (H : BeaconHistory) (epoch : UInt64)
    (hepoch : epoch.toNat / 256 ≤ 16777974) :
    ∃ S, (PortalBeaconSidecarSource.mk (.ofStore (H.summariesStore c))).Answers epoch
      ⟨epoch, S, default⟩ := by
  have hle : (H.summariesBefore c (epoch.toNat / 256)).length ≤ 16777216 := by
    rw [length_summariesBefore]
    omega
  exact ⟨⟨_, hle⟩, (PortalRpc.has_ofStore (.historicalSummariesWithProof epoch)).mpr
    ⟨_, dif_pos hle, rfl⟩⟩

theorem HeaderWithProof.length_asSszBytes_le (hwp : HeaderWithProof) :
    hwp.asSszBytes.length ≤ 4096 := by
  have hheader : (sszHeader.sszAppend hwp.header).length ≤ 2048 := VariableList.length_le _
  have hproof : hwp.proof.sszAppend.length ≤ 1024 := by
    cases hwp.proof with
    | historicalHashes p => exact (sszHistoricalHashes.enc_length p).le.trans (by decide)
    | historicalRoots p => exact (sszHistoricalRoots.enc_length p).le.trans (by decide)
    | historicalSummariesCapella p =>
      exact (sszHistoricalSummariesCapella.enc_length p).le.trans (by decide)
    | historicalSummariesDeneb p =>
      exact (sszHistoricalSummariesDeneb.enc_length p).le.trans (by decide)
  have hadm : List.Forall₂ Ssz.Slot.Admits slots
      [sszHeader.sszAppend hwp.header, hwp.proof.sszAppend] :=
    .cons trivial (.cons trivial .nil)
  rw [asSszBytes, Ssz.length_encode hadm]
  change 8 + (_ ++ (_ ++ [])).length ≤ _
  rw [List.append_nil, List.length_append]
  omega

def HeaderWithProof.content (hwp : HeaderWithProof) : PortalRpc.Content :=
  ⟨hwp.asSszBytes, hwp.length_asSszBytes_le.trans_lt (by norm_num)⟩

/-- A client with one header. -/
def HeaderWithProof.store (c : Crypto) (hwp : HeaderWithProof) :
    ContentKey → Option PortalRpc.Content
  | .blockHeaderByNumber blockNumber =>
    if hwp.header.number = blockNumber then some hwp.content else none
  | .blockHeaderByHash blockHash =>
    if hwp.header.hashSlow c = blockHash then some hwp.content else none
  | _ => none

theorem HeaderWithProof.has_store (hwp : HeaderWithProof) (request : Request)
    (hasked : request.asked c hwp.header = true) :
    (PortalRpc.ofStore (hwp.store c)).Has request.contentKey.method request.contentKey.bytes
      hwp.asSszBytes := by
  cases request with
  | byNumber n =>
    exact (PortalRpc.has_ofStore (.blockHeaderByNumber n)).mpr
      ⟨hwp.content, if_pos (eq_of_beq hasked), rfl⟩
  | byHash x =>
    exact (PortalRpc.has_ofStore (.blockHeaderByHash x)).mpr
      ⟨hwp.content, if_pos (eq_of_beq hasked), rfl⟩

/-- A check against the snapshot never aborts. -/
theorem HeaderValidator.validateHeaderWithProof_returns (v : HeaderValidator)
    {proof : BlockHeaderProof} (hera : proof.era.isHistoricalSummaries = true) (h : Header) :
    (v.validateHeaderWithProof c w ⟨h, proof⟩).Returns := by
  cases proof with
  | historicalHashes p => cases hera
  | historicalRoots p => cases hera
  | historicalSummariesCapella p => exact v.verifyCapellaToDenebHeader_returns c w _ _ p
  | historicalSummariesDeneb p => exact v.verifyPostDenebHeader_returns c w _ _ p

namespace PortalSidecarSource.Serves

variable {rs : RsMerkle c} {source : PortalSidecarSource} {H : BeaconHistory} {slot : UInt64}
  {b : BeaconBlock} {h : Header} {proof : BlockHeaderProof} {request : Request}

/-- The header and the proof are of the era of the block. -/
theorem era (hs : source.Serves rs w H slot b h proof request) :
    h.era = b.era ∧ proof.era = b.era ∧ b.era = Era.ofSlot slot.toNat ∧
      proof.postMerge? = some ⟨(b.path c).branch, treeHashRoot c b,
        b.era.branch c (H.batch (slot.toNat / 8192)) (slot.toNat % 8192), slot⟩ := by
  obtain ⟨proof', hproof', hera, hpost⟩ := buildPostMergeProof_eq rs (ε := Error) w slot
    (H.batch (slot.toNat / 8192)) b
  obtain rfl := Outcome.ok.inj (hs.proof_eq.symm.trans hproof')
  have hofSlot : b.era = Era.ofSlot slot.toNat := by
    rw [b.era_eq, hs.fork, forkForSlot_era]
  exact ⟨(Header.era_eq_ofSlot hs.block.number_le hs.block.slot_eq).trans hofSlot.symm, hera,
    hofSlot, hpost⟩

theorem isHistoricalSummaries (hs : source.Serves rs w H slot b h proof request)
    (hcapella : 6209536 ≤ slot.toNat) : proof.era.isHistoricalSummaries = true := by
  obtain ⟨-, hpera, hofSlot, -⟩ := hs.era
  rw [hpera, hofSlot]
  exact Era.isHistoricalSummaries_ofSlot.mpr hcapella

/-- **The validator's answer**, for a snapshot of the chain: yes, for the eras that it has. -/
theorem validate_iff (hs : source.Serves rs w H slot b h proof request) (v : HeaderValidator)
    {S : HistoricalSummaries} {n : ℕ} (hS : S.toList = H.summariesBefore c n)
    (hcapella : 6209536 ≤ slot.toNat) (hfits : slot.toNat / 8192 < 2 ^ 32) :
    (v.setHistoricalSummaries S).validateHeaderWithProof c w ⟨h, proof⟩ = .ok () ↔
      slot.toNat / 8192 < n := by
  obtain ⟨hera, hpera, hofSlot, hpost⟩ := hs.era
  have hsummaries := hs.isHistoricalSummaries hcapella
  have hindex : (slot.toNat - 6209536) / 8192 + 758 = slot.toNat / 8192 := by omega
  constructor
  · intro hvalid
    obtain ⟨-, q, hq, hentry⟩ := (validateHeaderWithProof_entry c w _ ⟨h, proof⟩ hpost).mp hvalid
    have hlt := (List.getElem?_eq_some_iff.mp hentry).1
    rw [v.length_entries_set S hsummaries, hS, H.length_summariesBefore] at hlt
    have hquotient : proof.era.quotient slot = some ((slot.toNat - 6209536) / 8192) := by
      cases hp : proof.era with
      | historicalHashes => rw [hp] at hsummaries; cases hsummaries
      | historicalRoots => rw [hp] at hsummaries; cases hsummaries
      | _ => exact if_neg (by omega)
    obtain rfl := Option.some.inj (hquotient.symm.trans hq)
    have hbits : 2 ^ 32 ≤ 2 ^ w.bits := Nat.pow_le_pow_right (by norm_num) (by cases w <;> decide)
    rw [Nat.mod_eq_of_lt (by omega)] at hlt
    omega
  · intro hcovered
    have hi : slot.toNat % 8192 < 8192 := Nat.mod_lt _ (by norm_num)
    have hplace : slot.toNat / 8192 * 8192 + slot.toNat % 8192 = slot.toNat := by omega
    have hleaf : (H.batch (slot.toNat / 8192)).blockRoots.toList[slot.toNat % 8192]?
        = some (treeHashRoot c b) := by
      rw [← hs.block.root, BeaconHistory.batch, BeaconRpcSource.ringVector_get hi, hplace]
    have hcommit : b.Committed c (v.setHistoricalSummaries S) slot
        (H.batch (slot.toNat / 8192)) := by
      have hentry : S.toList[(slot.toNat - 6209536) / 8192]?
          = some (H.summary c (slot.toNat / 8192)) := by
        rw [hS, H.summariesBefore_getElem? c (by omega), Nat.add_comm, hindex]
      cases b with
      | bellatrix b =>
        rw [hpera] at hsummaries
        cases hsummaries
      | _ => exact ⟨hcapella, _, hentry, rfl⟩
    exact validateHeaderWithProof_honest w _ hleaf hs.block.hash hera hpera hpost hcommit

/-- An attempt on what the client sends is a check of it. -/
theorem attempt_eq (hs : source.Serves rs w H slot b h proof request) (D : HeaderDecoder)
    (v : HeaderValidator) :
    request.attempt c w D v (Outcome.ofExcept (request.fetch source.dataSource))
      = Verifier.verify c w ⟨v, []⟩ ⟨h, proof⟩ := by
  obtain ⟨hera, hpera, -⟩ := hs.era
  have hread := HeaderWithProof.fromSszBytes_written D hs.shape hs.extra (hpera.trans hera.symm)
  rw [request.fetch_dataSource, PortalRpc.getContent_eq_ok.mpr hs.content]
  simp only [Request.attempt, Verifier.attempt, Outcome.ofExcept_ok, Outcome.ok_bind, hread,
    Outcome.mapErr_ok, hs.asked, Outcome.require_true]

/-- So a block of an era that it has is verified. -/
theorem attempt_eq_ok (hs : source.Serves rs w H slot b h proof request) (D : HeaderDecoder)
    (v : HeaderValidator) {S : HistoricalSummaries} {n : ℕ} (hS : S.toList = H.summariesBefore c n)
    (hcapella : 6209536 ≤ slot.toNat) (hfits : slot.toNat / 8192 < 2 ^ 32)
    (hended : slot.toNat / 8192 < n) :
    request.attempt c w D (v.setHistoricalSummaries S)
      (Outcome.ofExcept (request.fetch source.dataSource)) = .ok ⟨h, authPathFor proof⟩ := by
  rw [hs.attempt_eq]
  exact (Verifier.verify_eq_ok c w _).mpr
    ⟨(hs.validate_iff v hS hcapella hfits).mpr hended, rfl⟩

end PortalSidecarSource.Serves

/-- **A refresh covers the eras that have ended.**  After one from an honest client that has the
first epoch of the era, a block from Capella on comes out of an honest source as a verified block
if its era had ended at the time of the refresh, and as an error of the check if it had not. -/
theorem PortalBeaconSidecarSource.refresh_covers (c : Crypto) (w : PointerWidth)
    (D : HeaderDecoder) (rs : RsMerkle c) (v : HeaderValidator) (H : BeaconHistory)
    (beacon : PortalBeaconSidecarSource) (source : PortalSidecarSource) (now : UInt64)
    (epoch : UInt64) (x : HistoricalSummariesWithProof) (slot : UInt64) (b : BeaconBlock)
    (h : Header) (proof : BlockHeaderProof) (request : Request) (hbeacon : beacon.Honest c H)
    (hepoch : epoch.toNat = eraAt now * 256) (hanswers : beacon.Answers epoch x)
    (hs : source.Serves rs w H slot b h proof request) (hcapella : 6209536 ≤ slot.toNat)
    (hfits : slot.toNat / 8192 < 2 ^ 32) :
    beacon.fetchLatestHistoricalSummaries (some now) = .ok x.historicalSummaries ∧
    (slot.toNat / 8192 < eraAt now →
      request.attempt c w D (v.setHistoricalSummaries x.historicalSummaries)
        (Outcome.ofExcept (request.fetch source.dataSource)) = .ok ⟨h, authPathFor proof⟩) ∧
    (eraAt now ≤ slot.toNat / 8192 → ∃ reason,
      request.attempt c w D (v.setHistoricalSummaries x.historicalSummaries)
        (Outcome.ofExcept (request.fetch source.dataSource))
        = .err (.verificationFailed h.number reason)) := by
  have hfetched := fetchLatest_of_answers hepoch hanswers
  have hS := hbeacon.fetched hfetched
  refine ⟨hfetched, hs.attempt_eq_ok D v hS hcapella hfits, ?_⟩
  · intro hlate
    have hinvalid := mt (hs.validate_iff v hS hcapella hfits).mp (not_lt.mpr hlate)
    have hreturns := HeaderValidator.validateHeaderWithProof_returns (c := c) (w := w)
      (v.setHistoricalSummaries x.historicalSummaries) (hs.isHistoricalSummaries hcapella) h
    rcases Outcome.returns_iff.mp hreturns with ⟨⟨⟩, hvalid⟩ | ⟨reason, hreason⟩
    · exact absurd hvalid hinvalid
    · refine ⟨reason, ?_⟩
      rw [hs.attempt_eq, Verifier.verify, hreason]
      rfl

/-! A chain of one block: the one in the third slot of Capella, in every slot. -/

/-- A block that is nothing but the hash in it, of an era of the summaries. -/
def BeaconBlock.carrying (blockHash : B256) : Era → BeaconBlock
  | .historicalSummariesDeneb => deneb
    { (default : BeaconBlockDeneb) with
      body :=
        { (default : BeaconBlockBodyDeneb) with
          executionPayload := { (default : ExecutionPayloadDeneb) with blockHash } } }
  | _ => capella
    { (default : BeaconBlockCapella) with
      body :=
        { (default : BeaconBlockBodyCapella) with
          executionPayload := { (default : ExecutionPayloadCapella) with blockHash } } }

theorem BeaconBlock.carrying_eq (blockHash : B256) {era : Era}
    (hera : era.isHistoricalSummaries = true) :
    (carrying blockHash era).blockHash = blockHash ∧ (carrying blockHash era).era = era := by
  cases era with
  | historicalHashes => cases hera
  | historicalRoots => cases hera
  | _ => exact ⟨rfl, rfl⟩

def shapellaHeader : Header :=
  { (default : Header) with number := 17034870, timestamp := 1681338479 }

def shapellaRequest : Request := .byNumber 17034870

def shapellaBlock : BeaconBlock :=
  .carrying (shapellaHeader.hashSlow prefixCrypto) .historicalSummariesCapella

def shapellaHistory : BeaconHistory where
  blockRoot _ := treeHashRoot prefixCrypto shapellaBlock
  stateRoot _ := default
  initialBlockRoot _ := default
  initialStateRoot _ := default

/-- A client that has its header with a proof. -/
def shapellaSource (proof : BlockHeaderProof) : PortalSidecarSource :=
  ⟨.ofStore (HeaderWithProof.store prefixCrypto ⟨shapellaHeader, proof⟩)⟩

def shapellaBeacon : PortalBeaconSidecarSource :=
  ⟨.ofStore (shapellaHistory.summariesStore prefixCrypto)⟩

theorem serves_shapellaSource :
    ∃ proof, (shapellaSource proof).Serves (rsMerkle prefixCrypto) .w64 shapellaHistory 6209538
      shapellaBlock shapellaHeader proof shapellaRequest := by
  obtain ⟨proof, hproof, -⟩ := buildPostMergeProof_eq (rsMerkle prefixCrypto) (ε := Error) .w64
    6209538 (shapellaHistory.batch 758) shapellaBlock
  exact ⟨proof, ⟨rfl, rfl, by decide, by decide⟩, by decide, by decide, by decide, hproof, rfl,
    HeaderWithProof.has_store ⟨shapellaHeader, proof⟩ shapellaRequest rfl⟩

/-- A refresh one era later, and one in the era of the block. -/
theorem PortalBeaconSidecarSource.refresh_covers_shapella :
    ∃ proof S S', shapellaBeacon.fetchLatestHistoricalSummaries (some 1681436759) = .ok S ∧
      shapellaRequest.attempt prefixCrypto .w64 rlpHeaderDecoder
        (mergeValidator.setHistoricalSummaries S)
        (Outcome.ofExcept (shapellaRequest.fetch (shapellaSource proof).dataSource))
        = .ok ⟨shapellaHeader, authPathFor proof⟩ ∧
      shapellaBeacon.fetchLatestHistoricalSummaries (some 1681338479) = .ok S' ∧
      ∃ reason, shapellaRequest.attempt prefixCrypto .w64 rlpHeaderDecoder
        (mergeValidator.setHistoricalSummaries S')
        (Outcome.ofExcept (shapellaRequest.fetch (shapellaSource proof).dataSource))
        = .err (.verificationFailed 17034870 reason) := by
  obtain ⟨proof, hserves⟩ := serves_shapellaSource
  have hhonest := shapellaHistory.honest_summariesStore prefixCrypto
  obtain ⟨S, hanswers⟩ := shapellaHistory.answers_summariesStore prefixCrypto 194304 (by decide)
  obtain ⟨S', hanswers'⟩ := shapellaHistory.answers_summariesStore prefixCrypto 194048 (by decide)
  obtain ⟨hfetch, hcovered, -⟩ := refresh_covers prefixCrypto .w64 rlpHeaderDecoder
    (rsMerkle prefixCrypto) mergeValidator shapellaHistory shapellaBeacon (shapellaSource proof)
    1681436759 194304 _ 6209538 shapellaBlock shapellaHeader proof shapellaRequest hhonest
    (by decide) hanswers hserves (by decide) (by decide)
  obtain ⟨hfetch', -, hlate⟩ := refresh_covers prefixCrypto .w64 rlpHeaderDecoder
    (rsMerkle prefixCrypto) mergeValidator shapellaHistory shapellaBeacon (shapellaSource proof)
    1681338479 194048 _ 6209538 shapellaBlock shapellaHeader proof shapellaRequest hhonest
    (by decide) hanswers' hserves (by decide) (by decide)
  exact ⟨proof, S, S', hfetch, hcovered (by decide), hfetch', hlate (by decide)⟩

/-! ## 3. Refreshes in a session -/

namespace Session

variable {s s' : Session} {e : SessionEvent}

/-- A refresh replaces the snapshot of the shared validator. -/
theorem Step.refreshed {i : ℕ} {replaced S : HistoricalSummaries}
    (h : Step c w D s (.shared (.refreshed i replaced S)) s') (hs : s.Sharing)
    {v : HeaderValidator} (hv : s.heap[0]? = some v) :
    replaced = v.historicalSummariesProvider.summaries ∧
      s'.heap[0]? = some (v.setHistoricalSummaries S) := by
  cases h with
  | shared h =>
    cases h with
    | @setHistoricalSummaries i handle v' hi hv' summaries =>
      rw [hs.handles handle (List.mem_of_getElem? hi)] at hv' ⊢
      obtain rfl := Option.some.inj (hv.symm.trans hv')
      exact ⟨rfl, List.getElem?_set_self (List.getElem?_eq_some_iff.mp hv).1⟩

end Session

/-! The same chain, in a session that is refreshed and then asked. -/

namespace Session

end Session

/-! ## 4. A refresh is believed -/

/-- An era in which every slot has that block. -/
def HistoricalBatch.carrying (c : Crypto) (b : BeaconBlock) : HistoricalBatch where
  blockRoots := ⟨List.replicate 8192 (treeHashRoot c b), List.length_replicate⟩
  stateRoots := default

/-- **A refresh is believed.**  For every header from Capella on there are summaries and a proof
such that a verifier refreshed with the summaries, under whatever epoch and with whatever proof of
theirs, verifies the header: the snapshot is as good as the client it comes from. -/
theorem PortalBeaconSidecarSource.refresh_believed (c : Crypto) (w : PointerWidth)
    (D : HeaderDecoder) (v : HeaderValidator) (h : Header) (hshape : h.PrefixShape)
    (hextra : h.extraData.data.length ≤ 900) (hera : h.era.isHistoricalSummaries = true) :
    ∃ (S : HistoricalSummaries) (proof : BlockHeaderProof), ∀ (clock : Option UInt64)
      (epoch : UInt64) (summariesProof : HistoricalSummariesProof)
      (beacon : PortalBeaconSidecarSource) (source : PortalSidecarSource) (request : Request),
      request.asked c h = true →
      beacon.rpc.Has "portal_beaconGetContent"
        (ContentKey.historicalSummariesWithProof (currentHistoricalSummariesEpoch clock)).bytes
        ((sszHistoricalSummariesWithProof : Ssz.Ty Ssz.DecodeError _).enc
          ⟨epoch, S, summariesProof⟩) →
      source.rpc.Has request.contentKey.method request.contentKey.bytes
        (HeaderWithProof.asSszBytes ⟨h, proof⟩) →
      beacon.fetchLatestHistoricalSummaries clock = .ok S ∧
      request.attempt c w D (v.setHistoricalSummaries S)
        (Outcome.ofExcept (request.fetch source.dataSource)) = .ok ⟨h, authPathFor proof⟩ := by
  let b := BeaconBlock.carrying (h.hashSlow c) h.era
  let batch := HistoricalBatch.carrying c b
  let S : HistoricalSummaries := ⟨[⟨treeHashRoot c batch.blockRoots, default⟩], by norm_num⟩
  obtain ⟨hhash, hbera⟩ := BeaconBlock.carrying_eq (h.hashSlow c) hera
  obtain ⟨proof, -, hpera, hpost⟩ :=
    buildPostMergeProof_eq (rsMerkle c) (ε := Error) w 6209536 batch b
  have hleaf : batch.blockRoots.toList[(6209536 : UInt64).toNat % 8192]?
      = some (treeHashRoot c b) :=
    List.getElem?_replicate.trans (if_pos (Nat.mod_lt _ (by norm_num)))
  have hcommit : b.Committed c (v.setHistoricalSummaries S) 6209536 batch := by
    cases hb : b with
    | bellatrix b' =>
      rw [← hbera] at hera
      change b.era.isHistoricalSummaries = true at hera
      rw [hb] at hera
      cases hera
    | _ => exact ⟨le_rfl, _, rfl, rfl⟩
  have hvalid : (v.setHistoricalSummaries S).validateHeaderWithProof c w ⟨h, proof⟩ = .ok () :=
    validateHeaderWithProof_honest w _ hleaf hhash.symm hbera.symm hpera hpost hcommit
  have hread := HeaderWithProof.fromSszBytes_written D hshape hextra (hpera.trans hbera)
  refine ⟨S, proof, fun clock epoch summariesProof beacon source request hasked hbeacon hhas =>
    ⟨fetchLatestHistoricalSummaries_eq_ok.mpr ⟨epoch, summariesProof, hbeacon⟩, ?_⟩⟩
  rw [request.fetch_dataSource, PortalRpc.getContent_eq_ok.mpr hhas]
  exact Request.attempt_eq_ok.mpr ⟨_, _, rfl, hread, hasked, hvalid, rfl⟩

/-- These summaries, for every epoch. -/
def HistoricalSummaries.store (S : HistoricalSummaries) : ContentKey → Option PortalRpc.Content
  | .historicalSummariesWithProof epoch =>
    some ⟨_, HistoricalSummariesWithProof.length_enc_lt ⟨epoch, S, default⟩⟩
  | _ => none

/-- The header of the chain, which need not be on one. -/
theorem PortalBeaconSidecarSource.refresh_believed_shapella :
    ∃ (S : HistoricalSummaries) (proof : BlockHeaderProof),
      (mk (.ofStore S.store)).fetchLatestHistoricalSummaries (some 1681338479) = .ok S ∧
      shapellaRequest.attempt prefixCrypto .w64 rlpHeaderDecoder
        (mergeValidator.setHistoricalSummaries S)
        (Outcome.ofExcept (shapellaRequest.fetch (shapellaSource proof).dataSource))
        = .ok ⟨shapellaHeader, authPathFor proof⟩ := by
  obtain ⟨S, proof, hbelieved⟩ := refresh_believed prefixCrypto .w64 rlpHeaderDecoder
    mergeValidator shapellaHeader (by decide) (by decide) (by decide)
  have hhas := (@PortalRpc.has_ofStore S.store (.historicalSummariesWithProof
    (currentHistoricalSummariesEpoch (some 1681338479))) _).mpr ⟨_, rfl, rfl⟩
  exact ⟨S, proof, hbelieved (some 1681338479) _ default (mk (.ofStore S.store))
    (shapellaSource proof) shapellaRequest rfl hhas
    (HeaderWithProof.has_store ⟨shapellaHeader, proof⟩ shapellaRequest rfl)⟩

end EthHistorian
