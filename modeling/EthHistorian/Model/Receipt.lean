/-
# Receipts and their RLP

The receipt types of `alloy` that `src/inclusion.rs` works with, and how they are written: a
receipt is the RLP list of its status, gas, bloom and logs; an envelope of a typed receipt puts
its type byte in front of that list.

`ReceiptDecoders` packs the functions of `alloy` that the decoder calls; each returns a value and
the unread rest of the buffer.  Section 3 says what can be assumed of them, in three parts: what is
written is read back (`RoundTrips`), a field's reader takes one item (`ReadsItems`), and only some
of them insist on one spelling of a value (`Lawful`).  A status is read off any item of no byte, one
byte or 32, and a log off any item with the right payload, lists or not.
-/
import EthHistorian.Model.AlloyRlp

namespace EthHistorian

/-! ## 1. The types -/

inductive Eip658Value where
  | eip658 (success : Bool)
  | postState (root : B256)
  deriving DecidableEq, Inhabited

structure Log where
  address : Address
  topics : List B256
  data : Bytes
  deriving DecidableEq

structure Receipt where
  status : Eip658Value
  cumulativeGasUsed : UInt64
  logs : List Log
  deriving DecidableEq, Inhabited

structure ReceiptWithBloom where
  receipt : Receipt
  logsBloom : Bloom
  deriving DecidableEq, Inhabited

inductive ReceiptEnvelope where
  | legacy (receipt : ReceiptWithBloom)
  | eip2930 (receipt : ReceiptWithBloom)
  | eip1559 (receipt : ReceiptWithBloom)
  | eip4844 (receipt : ReceiptWithBloom)
  | eip7702 (receipt : ReceiptWithBloom)
  deriving DecidableEq

namespace ReceiptEnvelope

def txType : ReceiptEnvelope → UInt8
  | legacy _ => 0
  | eip2930 _ => 1
  | eip1559 _ => 2
  | eip4844 _ => 3
  | eip7702 _ => 4

def receipt : ReceiptEnvelope → ReceiptWithBloom
  | legacy r | eip2930 r | eip1559 r | eip4844 r | eip7702 r => r

/-- The typed envelope of a type byte. -/
def ofType (ty : UInt8) (r : ReceiptWithBloom) : Option ReceiptEnvelope :=
  match ty with
  | 1 => some (eip2930 r)
  | 2 => some (eip1559 r)
  | 3 => some (eip4844 r)
  | 4 => some (eip7702 r)
  | _ => none

end ReceiptEnvelope

/-! ## 2. RLP -/

/-- A status is a flag, or the state root of a receipt before Byzantium. -/
def Eip658Value.bytes : Eip658Value → List UInt8
  | eip658 false => []
  | eip658 true => [1]
  | postState root => root.bytes

def Eip658Value.ofBytes (bs : List UInt8) : Except Rlp.Error Eip658Value :=
  if bs = [] then .ok (.eip658 false)
  else if bs = [1] then .ok (.eip658 true)
  else if h : bs.length = 32 then .ok (.postState ⟨bs, h⟩)
  else .error .unexpectedLength

theorem Eip658Value.ofBytes_eq_ok (bs : List UInt8) (x : Eip658Value) :
    Eip658Value.ofBytes bs = .ok x ↔ bs = x.bytes := by
  unfold Eip658Value.ofBytes
  constructor
  · intro h
    split at h
    · obtain rfl := Except.ok.inj h
      assumption
    split at h
    · obtain rfl := Except.ok.inj h
      assumption
    split at h
    · obtain rfl := Except.ok.inj h
      rfl
    · cases h
  · rintro rfl
    match x with
    | .eip658 false => rfl
    | .eip658 true => rfl
    | .postState root =>
      have hlen := root.length_eq
      have hnil : root.bytes ≠ [] := by
        intro h
        rw [h] at hlen
        cases hlen
      have hone : root.bytes ≠ [1] := by
        intro h
        rw [h] at hlen
        cases hlen
      rw [Eip658Value.bytes, if_neg hnil, if_neg hone, dif_pos hlen]

def rlpStatus : Codec Rlp.Error Eip658Value :=
  Rlp.str.refine Eip658Value.bytes Eip658Value.ofBytes Eip658Value.ofBytes_eq_ok

def rlpBloom : Codec Rlp.Error Bloom := rlpFixedBytes 256

def rlpLog : Codec Rlp.Error Log :=
  (Rlp.list (.cons (rlpFixedBytes 20) <| .cons (Rlp.list (.many (rlpFixedBytes 32))) <|
    .cons rlpBytes <| .nil .unexpectedLength)).refine
    (fun l => (l.address, l.topics, l.data, ()))
    (fun (address, topics, data, _) => .ok ⟨address, topics, data⟩) (by
      rintro ⟨address, topics, data, -⟩ ⟨address', topics', data'⟩
      simp)

/-- `Vec<Log>`. -/
def rlpLogs : Codec Rlp.Error (List Log) := Rlp.list (.many rlpLog)

/-- `ReceiptWithBloom<Receipt<Log>>`. -/
def rlpReceipt : Codec Rlp.Error ReceiptWithBloom :=
  (Rlp.list (.cons rlpStatus <| .cons rlpU64 <| .cons rlpBloom <| .cons rlpLogs <|
    .nil .unexpectedLength)).refine
    (fun r => (r.receipt.status, r.receipt.cumulativeGasUsed, r.logsBloom, r.receipt.logs, ()))
    (fun (status, cumulativeGasUsed, logsBloom, logs, _) =>
      .ok ⟨⟨status, cumulativeGasUsed, logs⟩, logsBloom⟩) (by
      rintro ⟨status, gas, bloom, logs, -⟩ ⟨⟨status', gas', logs'⟩, bloom'⟩
      simp
      tauto)

/-- The payload of a receipt's list. -/
def ReceiptWithBloom.payload (r : ReceiptWithBloom) : List UInt8 :=
  rlpStatus.enc r.receipt.status ++ (rlpU64.enc r.receipt.cumulativeGasUsed ++
    (rlpBloom.enc r.logsBloom ++ rlpLogs.enc r.receipt.logs))

theorem rlpReceipt_enc (r : ReceiptWithBloom) :
    rlpReceipt.enc r = Rlp.encodeList r.payload := by
  simp [rlpReceipt, Codec.refine, Rlp.list, Payload.cons, Payload.nil, ReceiptWithBloom.payload]

theorem rlpReceipt_valid {r : ReceiptWithBloom} (h : rlpReceipt.Valid r) :
    r.payload.length < 256 ^ 8 := by
  have hlen := h.2
  simpa [Payload.cons, Payload.nil, ReceiptWithBloom.payload] using hlen

/-- The payload of a log's list. -/
def Log.payload (l : Log) : List UInt8 :=
  (rlpFixedBytes 20).enc l.address ++
    ((Rlp.list (.many (rlpFixedBytes 32))).enc l.topics ++ rlpBytes.enc l.data)

theorem rlpLog_enc (l : Log) : rlpLog.enc l = Rlp.encodeList l.payload := by
  simp [rlpLog, Codec.refine, Rlp.list, Payload.cons, Payload.nil, Log.payload]

theorem rlpLogs_enc (logs : List Log) :
    rlpLogs.enc logs = Rlp.encodeList (logs.map rlpLog.enc).flatten := rfl

/-! A receipt that fits the format's lengths as a whole fits them in every part. -/

theorem rlpStatus_carries : rlpStatus.Carries (256 ^ 8) := Rlp.carries_str.refine

theorem rlpBloom_carries : rlpBloom.Carries (256 ^ 8) := rlpFixedBytes_carries 256

theorem rlpLog_carries : rlpLog.Carries (256 ^ 8) := by
  have htopics : (Rlp.list (.many (rlpFixedBytes 32))).Carries (256 ^ 8) :=
    Rlp.carries_list (rlpFixedBytes_carries 32).many
  exact (Rlp.carries_list ((rlpFixedBytes_carries 20).cons
    (htopics.cons (rlpBytes_carries.cons Payload.carries_nil)))).refine

theorem rlpLogs_carries : rlpLogs.Carries (256 ^ 8) := Rlp.carries_list rlpLog_carries.many

theorem rlpReceipt_carries : rlpReceipt.Carries (256 ^ 8) :=
  (Rlp.carries_list (rlpStatus_carries.cons (rlpU64_carries.cons
    (rlpBloom_carries.cons (rlpLogs_carries.cons Payload.carries_nil))))).refine

theorem Eip658Value.length_bytes_le (x : Eip658Value) : x.bytes.length ≤ 32 := by
  match x with
  | .eip658 false => exact Nat.zero_le _
  | .eip658 true => exact Nat.le_of_ble_eq_true rfl
  | .postState root => exact root.length_eq.le

theorem rlpStatus_enc_root (root : B256) :
    rlpStatus.enc (.postState root) = 0xa0 :: root.bytes := by
  have hlen := root.length_eq
  have hnot : ¬ Rlp.Single root.bytes := by
    rintro ⟨b, hb, -⟩
    rw [hb] at hlen
    cases hlen
  change Rlp.encodeString root.bytes = _
  rw [Rlp.encodeString, if_neg hnot, hlen]
  rfl

theorem rlpStatus_valid (x : Eip658Value) : rlpStatus.Valid x :=
  x.length_bytes_le.trans_lt (by norm_num)

theorem rlpBloom_valid (x : Bloom) : rlpBloom.Valid x := rlpFixedBytes_valid (by norm_num) x

theorem rlpLogs_valid {r : ReceiptWithBloom} (h : r.payload.length < 256 ^ 8) :
    rlpLogs.Valid r.receipt.logs := by
  simp only [ReceiptWithBloom.payload, List.length_append] at h
  exact rlpLogs_carries _ (by omega)

/-- A receipt's list is the only length in it that can be too long. -/
theorem rlpReceipt_valid_iff {r : ReceiptWithBloom} :
    rlpReceipt.Valid r ↔ r.payload.length < 256 ^ 8 := by
  refine ⟨rlpReceipt_valid, fun h => ?_⟩
  refine ⟨⟨rlpStatus_valid _, rlpU64_valid _, rlpBloom_valid _, rlpLogs_valid h, trivial⟩, ?_⟩
  simpa [Payload.cons, Payload.nil, ReceiptWithBloom.payload] using h

/-! So are the fields of a receipt. -/

theorem rlpStatus_items : Rlp.Items rlpStatus := Rlp.items_str.refine

theorem rlpBloom_items : Rlp.Items rlpBloom := rlpFixedBytes_items 256

theorem rlpLogs_items : Rlp.Items rlpLogs := Rlp.items_list _

/-- `Encodable2718::encoded_2718`. -/
def ReceiptEnvelope.encoded2718 : ReceiptEnvelope → List UInt8
  | .legacy r => rlpReceipt.enc r
  | e => e.txType :: rlpReceipt.enc e.receipt

theorem ReceiptEnvelope.encoded2718_typed {e : ReceiptEnvelope} (h : e.txType ≠ 0) :
    e.encoded2718 = e.txType :: rlpReceipt.enc e.receipt := by
  cases e with
  | legacy r => exact absurd rfl h
  | _ => rfl

theorem ReceiptEnvelope.eq_legacy {e : ReceiptEnvelope} (h : e.txType = 0) :
    ∃ r, e = .legacy r := by
  cases e with
  | legacy r => exact ⟨r, rfl⟩
  | _ => cases h

theorem ReceiptEnvelope.encoded2718_legacy {e : ReceiptEnvelope} (h : e.txType = 0) :
    e.encoded2718 = rlpReceipt.enc e.receipt := by
  cases e with
  | legacy r => rfl
  | _ => cases h

theorem ReceiptEnvelope.txType_le (e : ReceiptEnvelope) : e.txType.toNat ≤ 4 := by
  cases e <;> simp [txType]

/-! ## 3. The readers -/

/-- The readers of `alloy`, with the texts of their errors. -/
structure ReceiptDecoders where
  /-- `alloy_rlp::Header::decode`. -/
  header : List UInt8 → Except String (Rlp.Header × List UInt8)
  status : List UInt8 → Except String (Eip658Value × List UInt8)
  u64 : List UInt8 → Except String (UInt64 × List UInt8)
  bloom : List UInt8 → Except String (Bloom × List UInt8)
  logs : List UInt8 → Except String (List Log × List UInt8)
  receipt : List UInt8 → Except String (ReceiptWithBloom × List UInt8)
  /-- `<ReceiptEnvelope as Decodable>::decode`, the network form. -/
  envelope : List UInt8 → Except String (ReceiptEnvelope × List UInt8)
  /-- `<ReceiptEnvelope as Decodable2718>::decode_2718`. -/
  decode2718 : List UInt8 → Except String (ReceiptEnvelope × List UInt8)

namespace ReceiptDecoders

/-- **What is written is read back**, and nothing after it is touched. -/
structure RoundTrips (D : ReceiptDecoders) : Prop where
  header : ∀ payload rest : List UInt8, payload.length < 256 ^ 8 →
    D.header (Rlp.encodeList payload ++ rest) = .ok (⟨true, payload.length⟩, payload ++ rest)
  status : ∀ x rest, D.status (rlpStatus.enc x ++ rest) = .ok (x, rest)
  u64 : ∀ x rest, D.u64 (rlpU64.enc x ++ rest) = .ok (x, rest)
  bloom : ∀ x rest, D.bloom (rlpBloom.enc x ++ rest) = .ok (x, rest)
  logs : ∀ x rest, rlpLogs.Valid x → D.logs (rlpLogs.enc x ++ rest) = .ok (x, rest)
  receipt : ∀ r rest, rlpReceipt.Valid r → D.receipt (rlpReceipt.enc r ++ rest) = .ok (r, rest)
  envelope : ∀ r rest, rlpReceipt.Valid r →
    D.envelope (rlpReceipt.enc r ++ rest) = .ok (.legacy r, rest)
  decode2718 : ∀ e rest, e.txType ≠ 0 → rlpReceipt.Valid e.receipt →
    D.decode2718 (e.encoded2718 ++ rest) = .ok (e, rest)

/-- **A field's reader takes exactly one item, or fails**, and a header's reader wants the whole
payload to be there. -/
structure ReadsItems (D : ReceiptDecoders) : Prop where
  header : ∀ bs h rest, D.header bs = .ok (h, rest) ↔ Rlp.Header.decode bs = .ok (h, rest)
  status : Rlp.ReadsItem D.status
  u64 : Rlp.ReadsItem D.u64
  bloom : Rlp.ReadsItem D.bloom
  logs : Rlp.ReadsItem D.logs

/-- The four fields of a receipt, each of them all that its reader finds. -/
structure ReadsFields (D : ReceiptDecoders) (r : ReceiptWithBloom) (s g b l : List UInt8) :
    Prop where
  status : D.status s = .ok (r.receipt.status, [])
  cumulativeGasUsed : D.u64 g = .ok (r.receipt.cumulativeGasUsed, [])
  logsBloom : D.bloom b = .ok (r.logsBloom, [])
  logs : D.logs l = .ok (r.receipt.logs, [])

variable {D : ReceiptDecoders} {r : ReceiptWithBloom}

/-- Four fields that are read one after the other are four items. -/
theorem ReadsItems.readsFields (hD : D.ReadsItems) {p p₁ p₂ p₃ rest : List UInt8}
    (hs : D.status p = .ok (r.receipt.status, p₁))
    (hg : D.u64 p₁ = .ok (r.receipt.cumulativeGasUsed, p₂))
    (hb : D.bloom p₂ = .ok (r.logsBloom, p₃)) (hl : D.logs p₃ = .ok (r.receipt.logs, rest)) :
    ∃ s g b l, p = s ++ (g ++ (b ++ (l ++ rest))) ∧ D.ReadsFields r s g b l := by
  obtain ⟨s, -, rfl, hs'⟩ := (hD.status _ _ _).mp hs
  obtain ⟨g, -, rfl, hg'⟩ := (hD.u64 _ _ _).mp hg
  obtain ⟨b, -, rfl, hb'⟩ := (hD.bloom _ _ _).mp hb
  obtain ⟨l, -, rfl, hl'⟩ := (hD.logs _ _ _).mp hl
  exact ⟨s, g, b, l, rfl, hs', hg', hb', hl'⟩

/-- And four items are read so, in front of anything. -/
theorem ReadsFields.append (hD : D.ReadsItems) {s g b l : List UInt8}
    (h : D.ReadsFields r s g b l) (tail : List UInt8) :
    D.status (s ++ (g ++ (b ++ (l ++ tail)))) = .ok (r.receipt.status, g ++ (b ++ (l ++ tail))) ∧
      D.u64 (g ++ (b ++ (l ++ tail))) = .ok (r.receipt.cumulativeGasUsed, b ++ (l ++ tail)) ∧
      D.bloom (b ++ (l ++ tail)) = .ok (r.logsBloom, l ++ tail) ∧
      D.logs (l ++ tail) = .ok (r.receipt.logs, tail) :=
  ⟨hD.status.append h.status _, hD.u64.append h.cumulativeGasUsed _,
    hD.bloom.append h.logsBloom _, hD.logs.append h.logs tail⟩

/-- **What the readers are strict about.**  A number and a bloom have one spelling; logs have one
where each of them is a list; a receipt is a list of its fields, and an envelope a receipt behind
a type byte, or a bare one, or the former in a string. -/
structure Lawful (D : ReceiptDecoders) : Prop where
  roundTrips : D.RoundTrips
  readsItems : D.ReadsItems
  u64_reads : rlpU64.Reads D.u64
  bloom_reads : rlpBloom.Reads D.bloom
  logs_lists : ∀ (items : List (List UInt8)) l logs, Rlp.IsList l items.flatten →
    (∀ x ∈ items, ∃ payload, Rlp.IsList x payload) → D.logs l = .ok (logs, []) →
      l = rlpLogs.enc logs
  receipt_fields : ∀ bs r rest, D.receipt bs = .ok (r, rest) →
    ∃ s g b l, (s ++ (g ++ (b ++ l))).length < 256 ^ 8 ∧
      bs = Rlp.encodeList (s ++ (g ++ (b ++ l))) ++ rest ∧ D.ReadsFields r s g b l
  /-- What is read can be written. -/
  receipt_valid : ∀ bs r rest, D.receipt bs = .ok (r, rest) → rlpReceipt.Valid r
  /-- In front of a list the network form is the legacy receipt. -/
  envelope_list : ∀ (b : UInt8) (body rest : List UInt8) (e : ReceiptEnvelope),
    0xc0 ≤ b.toNat → (D.envelope (b :: body) = .ok (e, rest) ↔
      e.txType = 0 ∧ D.receipt (b :: body) = .ok (e.receipt, rest))
  /-- In front of a string it is what the string wraps, a typed receipt. -/
  envelope_string : ∀ (b : UInt8) (body rest : List UInt8) (e : ReceiptEnvelope),
    b.toNat < 0xc0 → D.envelope (b :: body) = .ok (e, rest) → e.txType ≠ 0
  /-- A type byte is followed by the receipt, and `0x00` is no typed receipt. -/
  decode2718_typed : ∀ (b : UInt8) (body rest : List UInt8) (e : ReceiptEnvelope),
    b.toNat < 0x80 → (D.decode2718 (b :: body) = .ok (e, rest) ↔
      e.txType = b ∧ b ≠ 0 ∧ D.receipt body = .ok (e.receipt, rest))

end ReceiptDecoders

end EthHistorian
