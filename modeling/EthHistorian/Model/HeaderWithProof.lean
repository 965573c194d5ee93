/-
# Headers with proofs, and their wire form

`src/portal_types/execution/header_with_proof.rs` and `ssz_header.rs`.  A header travels as an
SSZ container of two byte lists: the header's RLP, and a proof in one of four layouts.  The
proof carries no tag, so the reader picks the layout from the header it has just read
(`decodeProof`), first by timestamp and then by block number.

`fromSszBytes_eq_ok` says in one equivalence what the reader accepts.  Every layer is exact
except one: `sszHeader.fromSszBytes` reads a header from the front of its byte list and never
looks at what follows.
-/
import EthHistorian.Lib.Ssz
import EthHistorian.Model.Header
import EthHistorian.Model.NetworkSpec

namespace EthHistorian

/-! ## 1. The four proofs -/

abbrev BlockProofHistoricalHashesAccumulator := FixedVector B256 15

/-- `BlockProofHistorical*`: a path from the execution block hash to a beacon block root, and
one from there to an era commitment, by their lengths. -/
@[ext] structure BlockProof (m n : ℕ) where
  beaconBlockProof : FixedVector B256 m
  beaconBlockRoot : B256
  executionBlockProof : FixedVector B256 n
  slot : UInt64
  deriving DecidableEq

abbrev BlockProofHistoricalRoots := BlockProof 14 11
abbrev BlockProofHistoricalSummariesCapella := BlockProof 13 11
abbrev BlockProofHistoricalSummariesDeneb := BlockProof 13 12

inductive BlockHeaderProof where
  | historicalHashes (proof : BlockProofHistoricalHashesAccumulator)
  | historicalRoots (proof : BlockProofHistoricalRoots)
  | historicalSummariesCapella (proof : BlockProofHistoricalSummariesCapella)
  | historicalSummariesDeneb (proof : BlockProofHistoricalSummariesDeneb)
  deriving DecidableEq

structure HeaderWithProof where
  header : Header
  proof : BlockHeaderProof
  deriving DecidableEq

/-- The eras that tell the four layouts apart. -/
inductive Era where
  | historicalHashes
  | historicalRoots
  | historicalSummariesCapella
  | historicalSummariesDeneb
  deriving DecidableEq, Repr

/-- The era of a layout. -/
def BlockHeaderProof.era : BlockHeaderProof → Era
  | historicalHashes _ => .historicalHashes
  | historicalRoots _ => .historicalRoots
  | historicalSummariesCapella _ => .historicalSummariesCapella
  | historicalSummariesDeneb _ => .historicalSummariesDeneb

/-- The era of a header: the latest fork it has reached. -/
def Header.era (h : Header) : Era :=
  if 1710338135 ≤ h.timestamp.toNat then .historicalSummariesDeneb
  else if 1681338455 ≤ h.timestamp.toNat then .historicalSummariesCapella
  else if 15537394 ≤ h.number.toNat then .historicalRoots
  else .historicalHashes

/-! ## 2. Wire forms of the parts -/

def sszB256 : Ssz.Fixed B256 :=
  .bytes 32 (by norm_num) FixedBytes.bytes FixedBytes.mk FixedBytes.length_eq (fun _ _ => rfl)
    fun _ => rfl

/-- `FixedVector<T, N>`, for a positive `N`. -/
def sszFixedVector {α : Type} (f : Ssz.Fixed α) (n : ℕ) (hn : 0 < n) :
    Ssz.Fixed (FixedVector α n) where
  len := n * f.len
  len_pos := Nat.mul_pos hn f.len_pos
  enc v := v.toList.flatMap f.enc
  dec bs :=
    if bs = [] then .error (.invalidByteLength 0 1)
    else
      let numItems := bs.length / f.len
      if numItems ≠ n then
        .error (.bytesInvalid s!"FixedVector of {numItems} items has {n} items")
      else do
        let items ← Ssz.Fixed.decodeChunks f bs.length bs
        match FixedVector.new n items with
        | some v => .ok v
        | none => .error (.bytesInvalid "Wrong number of FixedVector elements")
  enc_length v := by rw [f.length_flatMap_enc, v.length_eq]
  dec_eq_ok := by
    intro bs v
    constructor
    · intro h
      split at h
      · cases h
      · dsimp only at h
        split at h
        · cases h
        · obtain ⟨items, hitems, h⟩ := Except.bind_eq_ok.mp h
          have hbs := (f.decodeChunks_eq_ok _ bs items le_rfl).mp hitems
          unfold FixedVector.new at h
          split at h
          · rename_i w hw
            split at hw
            · rw [← Except.ok.inj h, ← Option.some.inj hw]
              exact hbs
            · cases hw
          · cases h
    · rintro rfl
      have hlen : (v.toList.flatMap f.enc).length = n * f.len := by
        rw [f.length_flatMap_enc, v.length_eq]
      have hpos : 0 < n * f.len := Nat.mul_pos hn f.len_pos
      have hne : v.toList.flatMap f.enc ≠ [] := by
        intro h
        rw [h, List.length_nil] at hlen
        omega
      have hdiv : (v.toList.flatMap f.enc).length / f.len = n := by
        rw [hlen, Nat.mul_div_cancel n f.len_pos]
      rw [if_neg hne]
      dsimp only
      rw [if_neg (not_not.mpr hdiv), (f.decodeChunks_eq_ok _ _ v.toList le_rfl).mpr rfl]
      simp only [bind, Except.bind, FixedVector.new_eq_some v.length_eq]

/-- The derived codec of a proof container: its four fields, one after the other. -/
def sszBlockProof (m n : ℕ) (hm : 0 < m) (hn : 0 < n) : Ssz.Fixed (BlockProof m n) :=
  ((sszFixedVector sszB256 m hm).seq (sszB256.seq ((sszFixedVector sszB256 n hn).seq .u64))).map
    (fun x => ⟨x.1, x.2.1, x.2.2.1, x.2.2.2⟩)
    (fun p => (p.beaconBlockProof, p.beaconBlockRoot, p.executionBlockProof, p.slot))
    (fun _ => rfl) (fun _ => rfl)

def sszHistoricalHashes : Ssz.Fixed BlockProofHistoricalHashesAccumulator :=
  sszFixedVector sszB256 15 (by norm_num)

def sszHistoricalRoots : Ssz.Fixed BlockProofHistoricalRoots :=
  sszBlockProof 14 11 (by norm_num) (by norm_num)

def sszHistoricalSummariesCapella : Ssz.Fixed BlockProofHistoricalSummariesCapella :=
  sszBlockProof 13 11 (by norm_num) (by norm_num)

def sszHistoricalSummariesDeneb : Ssz.Fixed BlockProofHistoricalSummariesDeneb :=
  sszBlockProof 13 12 (by norm_num) (by norm_num)

/-- `VariableList<u8, N>::from_ssz_bytes`. -/
def byteListFromSszBytes (n : ℕ) (bytes : List UInt8) :
    Except Ssz.DecodeError (VariableList UInt8 n) :=
  if h : bytes.length ≤ n then .ok ⟨bytes, h⟩
  else .error (.bytesInvalid s!"VariableList of {bytes.length} items exceeds maximum of {n}")

/-- `ssz_header::encode::ssz_append`: the header's RLP, cut to what the byte list holds. -/
def sszHeader.sszAppend (header : Header) : List UInt8 :=
  (VariableList.ofList 2048 header.encode).toList

/-- `ssz_header::decode::from_ssz_bytes`.  The rest that the reader leaves is dropped. -/
def sszHeader.fromSszBytes (D : HeaderDecoder) (bytes : List UInt8) :
    Except Ssz.DecodeError Header := do
  let rlpEncodedHeader ← byteListFromSszBytes 2048 bytes
  match D.decode rlpEncodedHeader.toList with
  | .ok (header, _) => .ok header
  | .error _ => .error (.bytesInvalid "Unable to decode bytes into header.")

/-! ## 3. The container -/

/-- `BlockHeaderProof::ssz_append`. -/
def BlockHeaderProof.sszAppend : BlockHeaderProof → List UInt8
  | historicalHashes proof => sszHistoricalHashes.enc proof
  | historicalRoots proof => sszHistoricalRoots.enc proof
  | historicalSummariesCapella proof => sszHistoricalSummariesCapella.enc proof
  | historicalSummariesDeneb proof => sszHistoricalSummariesDeneb.enc proof

/-- The proof in the layout of the header's era. -/
def decodeProof (header : Header) (proof : List UInt8) :
    Except Ssz.DecodeError BlockHeaderProof :=
  if isCancunActiveAtTimestamp header.timestamp then
    (sszHistoricalSummariesDeneb.dec proof).map .historicalSummariesDeneb
  else if isShanghaiActiveAtTimestamp header.timestamp then
    (sszHistoricalSummariesCapella.dec proof).map .historicalSummariesCapella
  else if isParisActiveAtBlock header.number then
    (sszHistoricalRoots.dec proof).map .historicalRoots
  else (sszHistoricalHashes.dec proof).map .historicalHashes

namespace HeaderWithProof

/-- Both fields stand behind an offset. -/
def slots : List Ssz.Slot := [.dynamic, .dynamic]

def asSszBytes (hwp : HeaderWithProof) : List UInt8 :=
  Ssz.encode slots [sszHeader.sszAppend hwp.header, hwp.proof.sszAppend]

def fromSszBytes (D : HeaderDecoder) (bytes : List UInt8) :
    Except Ssz.DecodeError HeaderWithProof := do
  match ← Ssz.decode slots bytes with
  | [headerBytes, proofBytes] =>
    let header ← sszHeader.fromSszBytes D headerBytes
    let proof ← byteListFromSszBytes 1024 proofBytes
    let proof ← decodeProof header proof.toList
    return ⟨header, proof⟩
  | _ => .error (.bytesInvalid "unreachable: two fields were registered")

end HeaderWithProof

/-! ## 4. What the reader accepts -/

theorem byteListFromSszBytes_eq_ok {n : ℕ} {bytes : List UInt8} {l : VariableList UInt8 n} :
    byteListFromSszBytes n bytes = .ok l ↔ l.toList = bytes := by
  unfold byteListFromSszBytes
  split
  · simp only [Except.ok.injEq, VariableList.ext_iff]
    exact eq_comm
  · rename_i h
    constructor
    · intro h
      cases h
    · rintro rfl
      exact absurd l.length_le h

theorem sszHeader.fromSszBytes_eq_ok {D : HeaderDecoder} {bytes : List UInt8} {h : Header} :
    sszHeader.fromSszBytes D bytes = .ok h ↔
      bytes.length ≤ 2048 ∧ ∃ rest, D.decode bytes = .ok (h, rest) := by
  constructor
  · intro hd
    obtain ⟨l, hl, hd⟩ := Except.bind_eq_ok.mp hd
    have hlen := l.length_le
    rw [byteListFromSszBytes_eq_ok.mp hl] at hd hlen
    refine ⟨hlen, ?_⟩
    split at hd
    · rename_i header rest hdec
      exact ⟨rest, by rw [hdec, Except.ok.inj hd]⟩
    · cases hd
  · rintro ⟨hlen, rest, hdec⟩
    have hl : byteListFromSszBytes 2048 bytes = .ok ⟨bytes, hlen⟩ :=
      byteListFromSszBytes_eq_ok.mpr rfl
    rw [sszHeader.fromSszBytes, hl]
    simp only [bind, Except.bind, hdec]

/-- **The layout is picked by era, and read exactly.** -/
theorem decodeProof_eq_ok {h : Header} {bytes : List UInt8} {p : BlockHeaderProof} :
    decodeProof h bytes = .ok p ↔ p.era = h.era ∧ bytes = p.sszAppend := by
  have hc := @isCancunActiveAtTimestamp_iff h.timestamp
  have hs := @isShanghaiActiveAtTimestamp_iff h.timestamp
  have hp := @isParisActiveAtBlock_iff h.number
  unfold decodeProof Header.era
  simp only [hc, hs, hp]
  split
  · cases p <;> simp [Except.map_eq_ok, Ssz.Fixed.dec_eq_ok, BlockHeaderProof.era,
      BlockHeaderProof.sszAppend]
  split
  · cases p <;> simp [Except.map_eq_ok, Ssz.Fixed.dec_eq_ok, BlockHeaderProof.era,
      BlockHeaderProof.sszAppend]
  split
  · cases p <;> simp [Except.map_eq_ok, Ssz.Fixed.dec_eq_ok, BlockHeaderProof.era,
      BlockHeaderProof.sszAppend]
  · cases p <;> simp [Except.map_eq_ok, Ssz.Fixed.dec_eq_ok, BlockHeaderProof.era,
      BlockHeaderProof.sszAppend]

/-- The largest proof takes 840 bytes. -/
theorem BlockHeaderProof.length_sszAppend_le (p : BlockHeaderProof) :
    p.sszAppend.length ≤ 840 := by
  cases p with
  | historicalHashes proof =>
    rw [sszAppend, sszHistoricalHashes.enc_length]
    decide
  | historicalRoots proof =>
    rw [sszAppend, sszHistoricalRoots.enc_length]
    decide
  | historicalSummariesCapella proof =>
    rw [sszAppend, sszHistoricalSummariesCapella.enc_length]
    decide
  | historicalSummariesDeneb proof =>
    rw [sszAppend, sszHistoricalSummariesDeneb.enc_length]
    decide

namespace HeaderWithProof

/-- Two byte lists of these sizes fit the container. -/
theorem fits_slots {a b : List UInt8} (ha : a.length ≤ 2048) : Ssz.Fits 8 slots [a, b] :=
  ⟨by norm_num, by omega, trivial⟩

/-- **What the reader accepts.**  The bytes are those of the container of a header list and a
proof list; the header is what the reader finds at the front of the first. -/
theorem fromSszBytes_eq_ok {D : HeaderDecoder} {bytes : List UInt8} {hwp : HeaderWithProof} :
    fromSszBytes D bytes = .ok hwp ↔
      ∃ headerBytes rest, headerBytes.length ≤ 2048 ∧
        bytes = Ssz.encode slots [headerBytes, hwp.proof.sszAppend] ∧
        D.decode headerBytes = .ok (hwp.header, rest) ∧ hwp.proof.era = hwp.header.era := by
  constructor
  · intro h
    obtain ⟨parts, hparts, h⟩ := Except.bind_eq_ok.mp h
    obtain ⟨-, hbytes⟩ := Ssz.decode_eq_ok.mp hparts
    split at h
    · rename_i headerBytes proofBytes
      obtain ⟨header, hh, h⟩ := Except.bind_eq_ok.mp h
      obtain ⟨l, hl, h⟩ := Except.bind_eq_ok.mp h
      obtain ⟨proof, hp, h⟩ := Except.bind_eq_ok.mp h
      simp only [pure, Except.pure, Except.ok.injEq] at h
      subst h
      obtain ⟨hlen, rest, hdec⟩ := sszHeader.fromSszBytes_eq_ok.mp hh
      rw [byteListFromSszBytes_eq_ok.mp hl] at hp
      obtain ⟨hera, rfl⟩ := decodeProof_eq_ok.mp hp
      exact ⟨headerBytes, rest, hlen, hbytes, hdec, hera⟩
    · cases h
  · rintro ⟨headerBytes, rest, hlen, rfl, hdec, hera⟩
    have hparts : Ssz.decode slots (Ssz.encode slots [headerBytes, hwp.proof.sszAppend])
        = .ok [headerBytes, hwp.proof.sszAppend] :=
      Ssz.decode_eq_ok.mpr ⟨fits_slots hlen, rfl⟩
    have hproof := hwp.proof.length_sszAppend_le
    have hl : byteListFromSszBytes 1024 hwp.proof.sszAppend
        = .ok ⟨hwp.proof.sszAppend, by omega⟩ := byteListFromSszBytes_eq_ok.mpr rfl
    have hh : sszHeader.fromSszBytes D headerBytes = .ok hwp.header :=
      sszHeader.fromSszBytes_eq_ok.mpr ⟨hlen, rest, hdec⟩
    have hp : decodeProof hwp.header hwp.proof.sszAppend = .ok hwp.proof :=
      decodeProof_eq_ok.mpr ⟨hera, rfl⟩
    rw [fromSszBytes, hparts]
    simp only [bind, Except.bind, hh, hl, hp]
    rfl

end HeaderWithProof

end EthHistorian
