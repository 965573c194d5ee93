/-
# The wire form of a header with its proof

Two results about `HeaderWithProof::from_ssz_bytes` and `as_ssz_bytes`.

* `fromSszBytes_asSszBytes`: what is written is read back, for every header of ordinary size
  and shape and every proof of the header's era.  The reader has no tag to go by: it is the
  era cascade that makes the round trip work.
* `asSszBytes_fromSszBytes_iff`: what is read is written back EXACTLY WHEN the header's byte
  list holds one RLP item and nothing else.  The container, the two byte lists and the four
  proofs leave no slack; the header's decoder stops at the end of its item, and nothing checks
  that this is the end of the list.
-/
import EthHistorian.Model.HeaderWithProof

namespace EthHistorian

open ByteString

namespace HeaderWithProof

/-! ## 1. Writing and reading back -/

/-- A header that fits its byte list is written whole. -/
theorem asSszBytes_eq {hwp : HeaderWithProof} (hlen : hwp.header.encode.length ≤ 2048) :
    hwp.asSszBytes = Ssz.encode slots [hwp.header.encode, hwp.proof.sszAppend] := by
  have hcut : sszHeader.sszAppend hwp.header = hwp.header.encode := List.take_of_length_le hlen
  rw [asSszBytes, hcut]

/-- **The round trip.** -/
theorem fromSszBytes_asSszBytes (D : HeaderDecoder) (hwp : HeaderWithProof)
    (hlen : hwp.header.encode.length ≤ 2048) (hshape : hwp.header.PrefixShape)
    (hera : hwp.proof.era = hwp.header.era) :
    fromSszBytes D hwp.asSszBytes = .ok hwp := by
  have hdec : D.decode hwp.header.encode = .ok (hwp.header, []) := by
    have h := D.roundTrip [] hshape hlen
    rwa [List.append_nil] at h
  exact fromSszBytes_eq_ok.mpr ⟨hwp.header.encode, [], hlen, asSszBytes_eq hlen, hdec, hera⟩

/-! A Cancun header with its five optional fields, and a proof in its era. -/

def cancunHeader : Header :=
  { (default : Header) with
    number := 19426587, gasLimit := 30000000, timestamp := 1710338135
    extraData := ⟨[114, 101, 116, 104], by norm_num⟩
    baseFeePerGas := some 45289364041, withdrawalsRoot := some (U256.toLeBytes 1)
    blobGasUsed := some 0, excessBlobGas := some 393216
    parentBeaconBlockRoot := some (U256.toLeBytes 2) }

def cancunProof : BlockProofHistoricalSummariesDeneb where
  beaconBlockProof := default
  beaconBlockRoot := U256.toLeBytes 3
  executionBlockProof := ⟨U256.toLeBytes 4 :: List.replicate 11 default, by rfl⟩
  slot := 8626176

theorem fromSszBytes_asSszBytes_cancun :
    fromSszBytes rlpHeaderDecoder
        (⟨cancunHeader, .historicalSummariesDeneb cancunProof⟩ : HeaderWithProof).asSszBytes
      = .ok ⟨cancunHeader, .historicalSummariesDeneb cancunProof⟩ :=
  fromSszBytes_asSszBytes rlpHeaderDecoder _ (cancunHeader.length_encode_le (by decide))
    (by decide) (by decide)

/-! ## 2. Reading and writing back -/

/-- The byte list of the header: from the end of the head to the second offset. -/
def headerSpan (bytes : List UInt8) : List UInt8 :=
  (bytes.take (ofLE ((bytes.drop 4).take 4))).drop 8

/-- The header's byte list holds one RLP item, as its first bytes declare it, and no more. -/
def HeaderItemExact (bytes : List UInt8) : Prop :=
  Rlp.itemLength (headerSpan bytes) = some (headerSpan bytes).length

instance (bytes : List UInt8) : Decidable (HeaderItemExact bytes) :=
  inferInstanceAs (Decidable (_ = _))

/-- In a container of two lists, that is the first one. -/
theorem headerSpan_encode {a b : List UInt8} (ha : a.length ≤ 2048) :
    headerSpan (Ssz.encode slots [a, b]) = a := by
  have henc : Ssz.encode slots [a, b] = toLE 4 8 ++ (toLE 4 (8 + a.length) ++ (a ++ b)) := by
    simp [Ssz.encode, slots, Ssz.headBytes, Ssz.bodyBytes, Ssz.fixedWidth, Ssz.Slot.width]
  have hoff : ofLE (((Ssz.encode slots [a, b]).drop 4).take 4) = 8 + a.length := by
    rw [henc, List.drop_left' (toLE_length 4 8), List.take_left' (toLE_length 4 _), ofLE_toLE,
      Nat.mod_eq_of_lt (by omega)]
  have hhead : (toLE 4 8 ++ toLE 4 (8 + a.length)).length = 8 := by simp
  rw [headerSpan, hoff, henc, ← List.append_assoc, ← List.append_assoc,
    List.take_left' (by rw [List.length_append, hhead]), List.drop_left' hhead]

/-- The item fills its list exactly when the list is the header's encoding. -/
theorem headerItemExact_iff {D : HeaderDecoder} {headerBytes proofBytes rest : List UInt8}
    {h : Header} (hlen : headerBytes.length ≤ 2048) (hdec : D.decode headerBytes = .ok (h, rest)) :
    HeaderItemExact (Ssz.encode slots [headerBytes, proofBytes]) ↔ h.encode = headerBytes := by
  obtain ⟨-, hcanon⟩ := D.canonical hdec
  have hitem : Rlp.itemLength headerBytes = some h.encode.length := by
    rw [hcanon]
    exact h.itemLength_encode rest
  rw [HeaderItemExact, headerSpan_encode hlen, hitem, Option.some.injEq]
  constructor
  · intro heq
    have hnil : rest = [] := by
      rw [hcanon, List.length_append] at heq
      exact List.length_eq_zero_iff.mp (by omega)
    rw [hcanon, hnil, List.append_nil]
  · exact fun heq => congrArg List.length heq

/-- **Reading then writing gives the bytes back exactly when the header's item fills its
list.** -/
theorem asSszBytes_fromSszBytes_iff (D : HeaderDecoder) (bytes : List UInt8)
    (hwp : HeaderWithProof) (h : fromSszBytes D bytes = .ok hwp) :
    hwp.asSszBytes = bytes ↔ HeaderItemExact bytes := by
  obtain ⟨headerBytes, rest, hlen, rfl, hdec, -⟩ := fromSszBytes_eq_ok.mp h
  have hle : hwp.header.encode.length ≤ 2048 := by
    rw [(D.canonical hdec).2, List.length_append] at hlen
    omega
  rw [headerItemExact_iff hlen hdec, asSszBytes_eq hle]
  constructor
  · intro heq
    have hspan := congrArg headerSpan heq
    rwa [headerSpan_encode hle, headerSpan_encode hlen] at hspan
  · intro heq
    rw [heq]

/-- Among payloads whose header item fills its list, decoding is injective. -/
theorem eq_of_fromSszBytes_eq {D : HeaderDecoder} {a b : List UInt8} {hwp : HeaderWithProof}
    (ha : fromSszBytes D a = .ok hwp) (hb : fromSszBytes D b = .ok hwp)
    (hea : HeaderItemExact a) (heb : HeaderItemExact b) : a = b := by
  obtain ⟨headerA, restA, hlenA, rfl, hdecA, -⟩ := fromSszBytes_eq_ok.mp ha
  obtain ⟨headerB, restB, hlenB, rfl, hdecB, -⟩ := fromSszBytes_eq_ok.mp hb
  rw [← (headerItemExact_iff hlenA hdecA).mp hea, (headerItemExact_iff hlenB hdecB).mp heb]

/-! The header all of whose fields are zero, and a pre-merge proof of zeros. -/

def zeroHeader : Header := default

def zeroHeaderWithProof : HeaderWithProof := ⟨zeroHeader, .historicalHashes default⟩

theorem length_encode_zeroHeader : zeroHeader.encode.length ≤ 2048 :=
  zeroHeader.length_encode_le (by decide)

/-- The payload of the zero header with one more byte in the header's list. -/
def slackPayload : List UInt8 :=
  Ssz.encode slots [zeroHeader.encode ++ [0], zeroHeaderWithProof.proof.sszAppend]

theorem length_slack : (zeroHeader.encode ++ [0]).length ≤ 2048 := by
  have hle := zeroHeader.length_payload_le
  have hlist := Rlp.length_encodeList_le zeroHeader.length_payload_lt
  have hextra : zeroHeader.extraData.data.length = 0 := rfl
  rw [List.length_append, Header.encode, List.length_singleton]
  omega

/-- The extra byte is read over. -/
theorem fromSszBytes_slackPayload :
    fromSszBytes rlpHeaderDecoder slackPayload = .ok zeroHeaderWithProof :=
  fromSszBytes_eq_ok.mpr ⟨zeroHeader.encode ++ [0], [0], length_slack, rfl,
    rlpHeaderDecoder.roundTrip [0] (by decide) length_encode_zeroHeader, by decide⟩

theorem asSszBytes_fromSszBytes_iff_slack :
    zeroHeaderWithProof.asSszBytes = slackPayload ↔ HeaderItemExact slackPayload :=
  asSszBytes_fromSszBytes_iff rlpHeaderDecoder slackPayload zeroHeaderWithProof
    fromSszBytes_slackPayload

/-- A payload that decodes to a value whose own bytes are others: the two payloads decode to
the same value. -/
theorem slackPayload_not_canonical :
    ¬ ∀ (bytes : List UInt8) (hwp : HeaderWithProof),
      fromSszBytes rlpHeaderDecoder bytes = .ok hwp → hwp.asSszBytes = bytes := by
  intro hcanon
  have heq := hcanon slackPayload zeroHeaderWithProof fromSszBytes_slackPayload
  have hbytes : zeroHeaderWithProof.asSszBytes
      = Ssz.encode slots [zeroHeader.encode, zeroHeaderWithProof.proof.sszAppend] :=
    asSszBytes_eq length_encode_zeroHeader
  have hspan := congrArg headerSpan (hbytes.symm.trans heq)
  rw [slackPayload, headerSpan_encode length_encode_zeroHeader,
    headerSpan_encode length_slack] at hspan
  have hl := congrArg List.length hspan
  rw [List.length_append, List.length_singleton] at hl
  omega

end HeaderWithProof

end EthHistorian
