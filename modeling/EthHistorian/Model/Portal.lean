/-
# Portal clients

`src/sources/portal.rs` and `portal_beacon.rs`: two sources that ask a Portal client, over
JSON-RPC, for a content by its key.  The first is asked for headers with their proofs; the second
for the summaries of the latest rollover, and what it decodes goes into the verifier as it came:
the proof that comes with the summaries is not looked at.

The client is the environment: its answer to each method and key is a field, and so is the clock.
-/
import EthHistorian.Model.Accumulators
import EthHistorian.Model.Api

namespace EthHistorian

/-! ## 1. Contents by their keys -/

structure GetContentResult where
  content : Str

/-- What a client answers to a method with one parameter, or the HTTP client's own error as it is
displayed. -/
structure PortalRpc where
  post : String → List UInt8 → Except String (JsonRpcResponse GetContentResult)

/-- `format!("0x{}", hex::encode(content_key))`. -/
def contentKeyHex (contentKey : List UInt8) : List UInt8 := Hex.mark (Hex.encode contentKey)

/-- A text of ASCII bytes. -/
def asciiText (bytes : List UInt8) : String := String.ofList (bytes.map fun c => Char.ofNat c.toNat)

/-- The two sources have a `get_content` each.  They differ in the method, and in how their errors
call the client. -/
def PortalRpc.getContent (rpc : PortalRpc) (method name : String) (contentKey : List UInt8) :
    Except Error (List UInt8) := do
  let keyHex := contentKeyHex contentKey
  let parsed ← (rpc.post method keyHex).mapError .http
  match parsed.error with
  | some err => .error (.dataSource s!"{name} RPC error {err.code}: {err.message}")
  | none =>
    match parsed.result with
    | some result => hexDecode (Hex.trimMarkers result.content.bytes)
    | none => .error (.dataSource s!"{name} returned no result for {asciiText keyHex}")

/-! ## 2. Headers -/

structure PortalSidecarSource where
  rpc : PortalRpc

namespace PortalSidecarSource

def selectorBlockHeaderByHash : UInt8 := 0x00
def selectorBlockHeaderByNumber : UInt8 := 0x03

variable (source : PortalSidecarSource)

def getContent : List UInt8 → Except Error (List UInt8) :=
  source.rpc.getContent "portal_legacyHistoryGetContent" "Portal"

def fetchHeaderWithProofByNumber (blockNumber : UInt64) : Except Error (List UInt8) :=
  source.getContent (selectorBlockHeaderByNumber :: u64ToLeBytes blockNumber)

def fetchHeaderWithProofByHash (blockHash : B256) : Except Error (List UInt8) :=
  source.getContent (selectorBlockHeaderByHash :: blockHash.bytes)

def dataSource : DataSource :=
  ⟨source.fetchHeaderWithProofByNumber, source.fetchHeaderWithProofByHash⟩

end PortalSidecarSource

/-! ## 3. Summaries -/

structure PortalBeaconSidecarSource where
  rpc : PortalRpc

def secondsPerSlot : UInt64 := 12

/-- The clock is the number of whole seconds since 1970, or none before that. -/
def currentBeaconEpoch (clock : Option UInt64) : UInt64 :=
  let now := clock.getD mainnetBeaconGenesisTimestamp
  let elapsed :=
    if now < mainnetBeaconGenesisTimestamp then 0 else now - mainnetBeaconGenesisTimestamp
  let slot := elapsed / secondsPerSlot
  slot / slotsPerEpoch

def currentHistoricalSummariesEpoch (clock : Option UInt64) : UInt64 :=
  currentBeaconEpoch clock / 256 * 256

namespace PortalBeaconSidecarSource

def selectorHistoricalSummariesWithProof : UInt8 := 0x14

variable (source : PortalBeaconSidecarSource)

def getContent : List UInt8 → Except Error (List UInt8) :=
  source.rpc.getContent "portal_beaconGetContent" "Portal beacon"

/-- The epoch of the answer may be another one, and its proof may be any. -/
def fetchHistoricalSummariesWithProof (epoch : UInt64) :
    Outcome Error HistoricalSummariesWithProof := do
  let bytes ← Outcome.ofExcept
    (source.getContent (selectorHistoricalSummariesWithProof :: u64ToLeBytes epoch))
  (sszHistoricalSummariesWithProof.dec bytes).mapErr fun e : Ssz.DecodeError =>
    .sszDecode 0 s!"HistoricalSummariesWithProof at epoch {epoch}: {e.debug}"

def fetchLatestHistoricalSummaries (clock : Option UInt64) :
    Outcome Error HistoricalSummaries := do
  let epoch := currentHistoricalSummariesEpoch clock
  let withProof ← source.fetchHistoricalSummariesWithProof epoch
  return withProof.historicalSummaries

end PortalBeaconSidecarSource

/-! ## 4. What a client has -/

/-- The client answers the key with a text of the content. -/
def PortalRpc.Has (rpc : PortalRpc) (method : String) (contentKey content : List UInt8) : Prop :=
  ∃ text : Str, rpc.post method (contentKeyHex contentKey) = .ok ⟨some ⟨text⟩, none⟩ ∧
    Hex.decode (Hex.trimMarkers text.bytes) = .ok content

/-- **A content is fetched** from a client that has it. -/
theorem PortalRpc.getContent_eq_ok {rpc : PortalRpc} {method name : String}
    {contentKey content : List UInt8} :
    rpc.getContent method name contentKey = .ok content ↔ rpc.Has method contentKey content := by
  rw [getContent, Except.bind_eq_ok]
  simp only [Except.mapError_eq_ok]
  constructor
  · rintro ⟨⟨result, error⟩, hpost, hcontent⟩
    cases error with
    | some err => cases hcontent
    | none =>
      cases result with
      | none => cases hcontent
      | some result => exact ⟨result.content, hpost, hexDecode_eq_ok.mp hcontent⟩
  · rintro ⟨text, hpost, hdecode⟩
    exact ⟨_, hpost, hexDecode_eq_ok.mpr hdecode⟩

/-- Twelve bytes and the proof, and the summaries behind them. -/
theorem length_enc_historicalSummariesWithProof (x : HistoricalSummariesWithProof) :
    ((sszHistoricalSummariesWithProof : Ssz.Ty Ssz.DecodeError _).enc x).length
      = 204 + x.historicalSummaries.toList.length * 64 := by
  let F : Ssz.Fields Ssz.DecodeError HistoricalSummariesWithProof :=
    (Ssz.Fields.cons sszU64 <| .cons sszHistoricalSummaries <|
      .cons (sszVector 6 32 sszHash slot_sszHash) .nil).map
      HistoricalSummariesWithProof.fields
  have hlen := Ssz.length_encode (F.admits_parts x)
  have hhead : Ssz.fixedWidth F.slots = 204 := by decide
  have hbody : (Ssz.bodyBytes F.slots (F.parts x)).length
      = x.historicalSummaries.toList.length * 64 := by
    have hlist := Ssz.length_flatten_map_enc (T := sszHistoricalSummary (ε := Ssz.DecodeError))
      rfl x.historicalSummaries.toList
    change (_ ++ []).length = _
    rw [List.append_nil]
    exact hlist
  change (Ssz.encode _ _).length = _
  rw [hlen, hhead, hbody]

/-- So they always fit their container. -/
theorem valid_sszHistoricalSummariesWithProof (x : HistoricalSummariesWithProof) :
    (sszHistoricalSummariesWithProof : Ssz.Ty Ssz.DecodeError _).Valid x := by
  have hle := x.historicalSummaries.length_le
  have hpow : (256 : ℕ) ^ 4 = 2 ^ 32 := by norm_num
  refine Ssz.Ty.valid_of_length_lt _ x ?_
  rw [length_enc_historicalSummariesWithProof]
  omega

namespace PortalBeaconSidecarSource

variable {source : PortalBeaconSidecarSource}

/-- **Summaries are fetched** from a client that has them, under whatever epoch and with whatever
proof. -/
theorem fetchLatestHistoricalSummaries_eq_ok {clock : Option UInt64} {S : HistoricalSummaries} :
    source.fetchLatestHistoricalSummaries clock = .ok S ↔ ∃ epoch proof,
      source.rpc.Has "portal_beaconGetContent"
        (selectorHistoricalSummariesWithProof ::
          u64ToLeBytes (currentHistoricalSummariesEpoch clock))
        ((sszHistoricalSummariesWithProof : Ssz.Ty Ssz.DecodeError _).enc ⟨epoch, S, proof⟩) := by
  have hstrict : (sszHistoricalSummariesWithProof : Ssz.Ty Ssz.DecodeError _).Strict :=
    Ssz.Ty.strict_of_dynamic rfl
  simp only [fetchLatestHistoricalSummaries, fetchHistoricalSummariesWithProof, Outcome.bind_eq_ok,
    Outcome.mapErr_eq_ok, Outcome.ofExcept_eq_ok, hstrict.dec_eq_ok, Outcome.pure_eq,
    Outcome.ok.injEq, getContent, PortalRpc.getContent_eq_ok]
  constructor
  · rintro ⟨x, ⟨bytes, hhas, -, rfl⟩, rfl⟩
    exact ⟨x.epoch, x.proof, hhas⟩
  · rintro ⟨epoch, proof, hhas⟩
    exact ⟨_, ⟨_, hhas, valid_sszHistoricalSummariesWithProof _, rfl⟩, rfl⟩

end PortalBeaconSidecarSource

/-! ## 5. The rollover -/

/-- The era of a time. -/
def eraAt (now : UInt64) : ℕ := (now.toNat - 1606824023) / 12 / 8192

/-- **The epoch that is asked for is the first one of the era.** -/
theorem toNat_currentHistoricalSummariesEpoch (now : UInt64) :
    (currentHistoricalSummariesEpoch (some now)).toNat = eraAt now * 256 := by
  have hlt := UInt64.toNat_lt now
  have hgenesis : mainnetBeaconGenesisTimestamp.toNat = 1606824023 := rfl
  have helapsed : (if now < mainnetBeaconGenesisTimestamp then (0 : UInt64)
      else now - mainnetBeaconGenesisTimestamp).toNat = now.toNat - 1606824023 := by
    split
    · rename_i h
      have h' := UInt64.lt_iff_toNat_lt.mp h
      rw [UInt64.toNat_zero]
      omega
    · rename_i h
      rw [UInt64.toNat_sub_of_le _ _ (UInt64.not_lt.mp h), hgenesis]
  have hepoch : (currentBeaconEpoch (some now)).toNat = (now.toNat - 1606824023) / 12 / 32 := by
    rw [currentBeaconEpoch, UInt64.toNat_div, UInt64.toNat_div, Option.getD_some, helapsed]
    rfl
  have h256 : (256 : UInt64).toNat = 256 := rfl
  rw [currentHistoricalSummariesEpoch, UInt64.toNat_mul, UInt64.toNat_div, hepoch, h256, eraAt]
  omega

end EthHistorian
