/-
# The readers of receipts

Functions that accept what `alloy`'s readers accept, the leniences among them: a status is read
off any item of no byte, one byte or 32, a log does not look whether its header is a list's, and
the network form of a typed receipt does not look whether the string around it is used up.
`lawful_receiptDecoders` says they are as `Receipt.lean` assumes readers to be.
-/
import EthHistorian.Model.Receipt

namespace EthHistorian

/-! ## 1. Fields -/

/-- The reader of a codec, with its errors as texts. -/
def readRlp {α : Type} (c : Codec Rlp.Error α) (bs : List UInt8) :
    Except String (α × List UInt8) :=
  (c.dec bs).mapError rlpErrorText

theorem reads_readRlp {α : Type} (c : Codec Rlp.Error α) : c.Reads (readRlp c) :=
  fun _ _ _ => Except.mapError_eq_ok.trans c.dec_eq_ok

/-- What a status says, by the length of its payload; a byte other than zero is a success. -/
def Eip658Value.ofPayload (bs : List UInt8) : Except String Eip658Value :=
  if bs = [] then .ok (.eip658 false)
  else if bs.length = 1 then .ok (.eip658 (bs ≠ [0]))
  else if h : bs.length = 32 then .ok (.postState ⟨bs, h⟩)
  else .error "unexpected length"

/-- `<Eip658Value as Decodable>::decode`, for strings and lists alike. -/
def decodeStatus : List UInt8 → Except String (Eip658Value × List UInt8) :=
  Rlp.readItem rlpErrorText fun _ => Eip658Value.ofPayload

theorem Eip658Value.ofPayload_bytes (x : Eip658Value) : ofPayload x.bytes = .ok x := by
  match x with
  | .eip658 false => rfl
  | .eip658 true => rfl
  | .postState root =>
    have hlen := root.length_eq
    have hnil : root.bytes ≠ [] := by
      intro h
      rw [h] at hlen
      cases hlen
    rw [bytes, ofPayload, if_neg hnil, if_neg (by omega), dif_pos hlen]

theorem decodeStatus_enc (x : Eip658Value) (rest : List UInt8) :
    decodeStatus (rlpStatus.enc x ++ rest) = .ok (x, rest) := by
  have hread : Rlp.decodeString (rlpStatus.enc x ++ rest) = .ok (x.bytes, rest) :=
    Rlp.decodeString_encodeString (rlpStatus_valid x)
  obtain ⟨⟨h, buf⟩, hd, hread⟩ := Except.bind_eq_ok.mp hread
  dsimp only at hread
  split at hread
  · cases hread
  · obtain ⟨hpayload, rfl⟩ := Prod.mk.inj (Except.ok.inj hread)
    exact Rlp.readItem_eq_ok.mpr ⟨h, buf, hd, hpayload ▸ x.ofPayload_bytes, rfl⟩

/-- A status never takes more bytes to write than it took to read. -/
theorem length_rlpStatus_le {s : List UInt8} {x : Eip658Value}
    (h : decodeStatus s = .ok (x, [])) : (rlpStatus.enc x).length ≤ s.length := by
  obtain ⟨hd, buf, hdec, hx, -⟩ := Rlp.readItem_eq_ok.mp h
  have hpos : 1 ≤ s.length := by
    cases s with
    | nil => cases hdec
    | cons b s => simp
  match x with
  | .eip658 false => exact hpos
  | .eip658 true => exact hpos
  | .postState root =>
    have hlen : (buf.take hd.payloadLength).length = 32 := by
      unfold Eip658Value.ofPayload at hx
      split at hx
      · cases hx
      split at hx
      · cases hx
      split at hx
      · assumption
      · cases hx
    rw [List.length_take] at hlen
    have hroot := root.length_eq
    rcases Rlp.Header.decode_eq_ok.mp hdec with ⟨⟨rfl, -⟩, -⟩ | ⟨-, -, rfl⟩
    · dsimp only at hlen
      omega
    · have hhead : 1 ≤ hd.encode.length := by
        unfold Rlp.Header.encode
        split <;> simp
      rw [rlpStatus_enc_root, List.length_cons, hroot, List.length_append]
      omega

/-- `<Log as Decodable>::decode`: the header's length is checked, and not what kind it is. -/
def decodeLog (bs : List UInt8) : Except String (Log × List UInt8) := do
  let (h, buf) ← (Rlp.Header.decode bs).mapError rlpErrorText
  let (address, p) ← readRlp (rlpFixedBytes 20) buf
  let (topics, p) ← readRlp (Rlp.list (.many (rlpFixedBytes 32))) p
  let (data, p) ← readRlp rlpBytes p
  if h.payloadLength ≠ buf.length - p.length then .error "did not consume exact payload"
  else .ok (⟨address, topics, data⟩, p)

/-- A log behind the header of a list, or of a string. -/
def Log.Spelled (l : Log) (x : List UInt8) : Prop :=
  l.payload.length < 256 ^ 8 ∧
    ∃ list, x = (Rlp.Header.mk list l.payload.length).encode ++ l.payload

/-- The address alone takes more than a byte. -/
theorem Log.length_payload (l : Log) : 20 ≤ l.payload.length := by
  have haddress : l.address.bytes.length ≤ ((rlpFixedBytes 20).enc l.address).length :=
    Rlp.length_le_encodeString _
  rw [l.address.length_eq] at haddress
  rw [Log.payload, List.length_append]
  omega

/-- The parts of a log that fits fit. -/
theorem Log.valid_payload {l : Log} (h : l.payload.length < 256 ^ 8) :
    (Rlp.list (.many (rlpFixedBytes 32))).Valid l.topics := by
  have htopics : (Rlp.list (.many (rlpFixedBytes 32))).Carries (256 ^ 8) :=
    Rlp.carries_list (rlpFixedBytes_carries 32).many
  rw [Log.payload, List.length_append, List.length_append] at h
  exact htopics _ (by omega)

theorem Log.Spelled.decode {l : Log} {x : List UInt8} (h : l.Spelled x) (rest : List UInt8) :
    ∃ list, Rlp.Header.decode (x ++ rest)
      = .ok (⟨list, l.payload.length⟩, l.payload ++ rest) := by
  obtain ⟨hcap, list, rfl⟩ := h
  have hlen := l.length_payload
  refine ⟨list, ?_⟩
  rw [List.append_assoc]
  refine Rlp.Header.decode_encode ?_ ⟨by simp, hcap⟩
  rintro ⟨hone, -⟩
  have hone' := congrArg Rlp.Header.payloadLength hone
  dsimp only at hone'
  omega

/-- **A log's reader**, in one equivalence. -/
theorem decodeLog_eq_ok {bs rest : List UInt8} {l : Log} :
    decodeLog bs = .ok (l, rest) ↔ ∃ x, l.Spelled x ∧ bs = x ++ rest := by
  constructor
  · intro h
    obtain ⟨⟨hd, buf⟩, hdec, h⟩ := Except.bind_eq_ok.mp h
    obtain ⟨⟨address, p1⟩, haddress, h⟩ := Except.bind_eq_ok.mp h
    obtain ⟨⟨topics, p2⟩, htopics, h⟩ := Except.bind_eq_ok.mp h
    obtain ⟨⟨data, p3⟩, hdata, h⟩ := Except.bind_eq_ok.mp h
    obtain ⟨-, h1⟩ := (reads_readRlp _ _ _ _).mp haddress
    obtain ⟨-, h2⟩ := (reads_readRlp _ _ _ _).mp htopics
    obtain ⟨-, h3⟩ := (reads_readRlp _ _ _ _).mp hdata
    dsimp only at h
    split at h
    · cases h
    · rename_i hexact
      obtain ⟨rfl, rfl⟩ := Prod.mk.inj (Except.ok.inj h)
      have hbuf : buf = Log.payload ⟨address, topics, data⟩ ++ p3 := by
        rw [h1, h2, h3, Log.payload, List.append_assoc, List.append_assoc]
      have hlen : hd.payloadLength = (Log.payload ⟨address, topics, data⟩).length := by
        rw [not_not.mp hexact, hbuf, List.length_append, Nat.add_sub_cancel]
      have hpos := Log.length_payload ⟨address, topics, data⟩
      rcases Rlp.Header.decode_eq_ok.mp (Except.mapError_eq_ok.mp hdec) with
        ⟨⟨rfl, -⟩, -⟩ | ⟨-, ⟨-, hcap⟩, rfl⟩
      · dsimp only at hlen
        omega
      · refine ⟨_, ⟨hlen ▸ hcap, hd.list, rfl⟩, ?_⟩
        rw [← hlen, hbuf, List.append_assoc]
  · rintro ⟨x, hx, rfl⟩
    obtain ⟨list, hdec⟩ := hx.decode rest
    have haddress := (reads_readRlp (rlpFixedBytes 20)).enc_append
      (rlpFixedBytes_valid (by norm_num) l.address)
      ((Rlp.list (.many (rlpFixedBytes 32))).enc l.topics ++ (rlpBytes.enc l.data ++ rest))
    have htopics := (reads_readRlp _).enc_append (Log.valid_payload hx.1)
      (rlpBytes.enc l.data ++ rest)
    have hdata := (reads_readRlp _).enc_append (rlpBytes_valid l.data) rest
    have hbuf : l.payload ++ rest = (rlpFixedBytes 20).enc l.address ++
        ((Rlp.list (.many (rlpFixedBytes 32))).enc l.topics ++ (rlpBytes.enc l.data ++ rest)) := by
      rw [Log.payload, List.append_assoc, List.append_assoc]
    refine Except.bind_eq_ok.mpr ⟨_, Except.mapError_eq_ok.mpr hdec, ?_⟩
    refine Except.bind_eq_ok.mpr ⟨_, hbuf ▸ haddress, ?_⟩
    refine Except.bind_eq_ok.mpr ⟨_, htopics, ?_⟩
    refine Except.bind_eq_ok.mpr ⟨_, hdata, ?_⟩
    exact if_neg (not_not.mpr (by rw [List.length_append, Nat.add_sub_cancel]))

/-- `Vec<Log>`. -/
def decodeLogs : List UInt8 → Except String (List Log × List UInt8) :=
  Rlp.readItem rlpErrorText fun list payload =>
    if list then Payload.readMany decodeLog payload.length payload
    else .error "unexpected string"

theorem Log.Spelled.isItem {l : Log} {x : List UInt8} (h : l.Spelled x) : Rlp.IsItem x := by
  obtain ⟨list, hdec⟩ := h.decode []
  rw [List.append_nil, List.append_nil] at hdec
  have hle := Rlp.length_rest_le hdec
  rw [Rlp.IsItem, Rlp.itemLength, hdec, Option.some.injEq]
  dsimp only
  omega

theorem Log.Spelled.length {l : Log} {x : List UInt8} (h : l.Spelled x) :
    x.length = (rlpLog.enc l).length := by
  obtain ⟨-, list, rfl⟩ := h
  have hhead := Nat.le_antisymm
    (@Rlp.Header.length_encode_le list true _ _ (le_refl l.payload.length))
    (@Rlp.Header.length_encode_le true list _ _ (le_refl l.payload.length))
  rw [rlpLog_enc, Rlp.encodeList, List.length_append, List.length_append, hhead]

/-- Where the header is a list's, it is the log's own encoding. -/
theorem Log.Spelled.eq_enc {l : Log} {x payload : List UInt8} (h : l.Spelled x)
    (hlist : Rlp.IsList x payload) : x = rlpLog.enc l := by
  obtain ⟨list, hdec⟩ := h.decode []
  have hheader := @Rlp.Header.decode_encodeList payload [] hlist.length_lt
  rw [← hlist.body_eq, hdec] at hheader
  obtain ⟨hhead, hpayload⟩ := Prod.mk.inj (Except.ok.inj hheader)
  rw [List.append_nil, List.append_nil] at hpayload
  rw [hlist.body_eq, ← hpayload, rlpLog_enc]

/-- **The logs that are read**, one spelling after the other. -/
theorem decodeLogs_eq_ok {l rest : List UInt8} {logs : List Log}
    (h : decodeLogs l = .ok (logs, rest)) :
    ∃ xs, List.Forall₂ Log.Spelled logs xs ∧ xs.flatten.length < 256 ^ 8 ∧
      l = Rlp.encodeList xs.flatten ++ rest := by
  obtain ⟨hd, buf, hdec, hlogs, rfl⟩ := Rlp.readItem_eq_ok.mp h
  split at hlogs
  · rename_i hlist
    obtain ⟨xs, hxs, hflat⟩ := Payload.readMany_eq_ok (fun l x hx => hx.isItem.ne_nil)
      (fun bs l rest hread => decodeLog_eq_ok.mp hread) _ _ _ le_rfl hlogs
    refine ⟨xs, hxs, ?_⟩
    rw [← hflat]
    refine Rlp.eq_encodeList ?_
    rw [Rlp.decodeList, hdec]
    exact if_pos hlist
  · cases hlogs

theorem decodeLogs_enc {logs : List Log} (h : rlpLogs.Valid logs) (rest : List UInt8) :
    decodeLogs (rlpLogs.enc logs ++ rest) = .ok (logs, rest) := by
  have hlen : ((Payload.many rlpLog).enc logs).length < 256 ^ 8 := h.2
  refine Rlp.readItem_eq_ok.mpr ⟨_, _, Rlp.Header.decode_encodeList hlen, ?_, ?_⟩
  · rw [if_pos rfl, List.take_left]
    refine Payload.readMany_flatMap rlpLog.enc_ne_nil logs _ le_rfl fun log hlog rest => ?_
    refine decodeLog_eq_ok.mpr ⟨_, ⟨?_, true, ?_⟩, rfl⟩
    · have hvalid := (h.1 log hlog).2
      simpa [Payload.cons, Payload.nil, Log.payload] using hvalid
    · rw [rlpLog_enc, Rlp.encodeList]
  · rw [List.drop_left]

/-- Logs never take more bytes to write than they took to read. -/
theorem length_rlpLogs_le {l : List UInt8} {logs : List Log}
    (h : decodeLogs l = .ok (logs, [])) : (rlpLogs.enc logs).length ≤ l.length := by
  obtain ⟨xs, hxs, -, rfl⟩ := decodeLogs_eq_ok h
  have hflat : (logs.map rlpLog.enc).flatten.length = xs.flatten.length := by
    clear h
    induction hxs with
    | nil => rfl
    | cons hx _ ih => simp [ih, hx.length]
  have hhead := @Rlp.Header.length_encode_le true true _ _ hflat.le
  rw [rlpLogs_enc, List.append_nil, Rlp.encodeList, Rlp.encodeList, List.length_append,
    List.length_append]
  omega

theorem isItem_of_spelled {logs : List Log} {xs : List (List UInt8)}
    (h : List.Forall₂ Log.Spelled logs xs) : ∀ x ∈ xs, Rlp.IsItem x := by
  induction h with
  | nil => exact fun _ hx => absurd hx List.not_mem_nil
  | cons hx _ ih => exact List.forall_mem_cons.mpr ⟨hx.isItem, ih⟩

/-- Logs that are all lists are written as they were read. -/
theorem decodeLogs_lists {items : List (List UInt8)} {l : List UInt8} {logs : List Log}
    (hlist : Rlp.IsList l items.flatten) (hitems : ∀ x ∈ items, ∃ payload, Rlp.IsList x payload)
    (h : decodeLogs l = .ok (logs, [])) : l = rlpLogs.enc logs := by
  obtain ⟨xs, hxs, hcap, hl⟩ := decodeLogs_eq_ok h
  rw [List.append_nil] at hl
  have hitem : ∀ x ∈ items, Rlp.IsItem x := fun x hx => (hitems x hx).choose_spec.isItem
  obtain rfl := Rlp.items_unique hitem (isItem_of_spelled hxs)
    (hlist.payload_unique ⟨hcap, hl⟩)
  have hflat : items.flatten = (logs.map rlpLog.enc).flatten := by
    clear h hl hlist hcap hitem
    induction hxs with
    | nil => rfl
    | cons hx _ ih =>
      obtain ⟨⟨payload, hpayload⟩, hrest⟩ := List.forall_mem_cons.mp hitems
      rw [List.flatten_cons, List.map_cons, List.flatten_cons, hx.eq_enc hpayload, ih hrest]
  rw [hl, hflat, rlpLogs_enc]

/-! ## 2. Receipts -/

/-- `<ReceiptWithBloom<Receipt> as Decodable>::decode`. -/
def decodeReceiptWithBloom (bs : List UInt8) : Except String (ReceiptWithBloom × List UInt8) := do
  let (h, buf) ← (Rlp.Header.decode bs).mapError rlpErrorText
  if h.list = false then .error "unexpected string"
  else do
    let (status, p) ← decodeStatus buf
    let (cumulativeGasUsed, p) ← readRlp rlpU64 p
    let (logsBloom, p) ← readRlp rlpBloom p
    let (logs, p) ← decodeLogs p
    if p.length + h.payloadLength ≠ buf.length then .error "unexpected length"
    else .ok (⟨⟨status, cumulativeGasUsed, logs⟩, logsBloom⟩, p)

/-- `typed_decode`, from the type byte on. -/
def typedDecode : List UInt8 → Except String (ReceiptEnvelope × List UInt8)
  | [] => .error "input too short"
  | ty :: body => do
    let (receipt, rest) ← decodeReceiptWithBloom body
    match ReceiptEnvelope.ofType ty receipt with
    | some envelope => .ok (envelope, rest)
    | none => .error "Unexpected type"

/-- `fallback_decode`. -/
def fallbackDecode (bs : List UInt8) : Except String (ReceiptEnvelope × List UInt8) :=
  (decodeReceiptWithBloom bs).map fun (receipt, rest) => (.legacy receipt, rest)

/-- `network_decode`: a list is a legacy receipt, a string wraps a typed one.  The length of the
string is compared with what is read only where the type byte is above `0x80`, which no receipt's
is. -/
def networkDecode (bs : List UInt8) : Except String (ReceiptEnvelope × List UInt8) := do
  let (h, buf) ← (Rlp.Header.decode bs).mapError rlpErrorText
  if h.list then fallbackDecode bs
  else if buf = [] ∨ buf.length < h.payloadLength then .error "input too short"
  else do
    let (envelope, rest) ← typedDecode buf
    if buf.length - rest.length ≠ h.payloadLength ∧ 0x80 < (buf.headD 0).toNat then
      .error "unexpected length"
    else .ok (envelope, rest)

def decode2718 : List UInt8 → Except String (ReceiptEnvelope × List UInt8)
  | [] => .error "input too short"
  | ty :: body => if ty.toNat < 0x80 then typedDecode (ty :: body) else fallbackDecode (ty :: body)

def receiptDecoders : ReceiptDecoders where
  header bs := (Rlp.Header.decode bs).mapError rlpErrorText
  status := decodeStatus
  u64 := readRlp rlpU64
  bloom := readRlp rlpBloom
  logs := decodeLogs
  receipt := decodeReceiptWithBloom
  envelope := networkDecode
  decode2718 := decode2718

theorem readsItem_decodeStatus : Rlp.ReadsItem decodeStatus := Rlp.readsItem_readItem _ _

theorem readsItem_decodeLogs : Rlp.ReadsItem decodeLogs := Rlp.readsItem_readItem _ _

theorem readsItems_receiptDecoders : receiptDecoders.ReadsItems where
  header _ _ _ := Except.mapError_eq_ok
  status := readsItem_decodeStatus
  u64 := Rlp.readsItem_of_reads (reads_readRlp _) rlpU64_items
  bloom := Rlp.readsItem_of_reads (reads_readRlp _) rlpBloom_items
  logs := readsItem_decodeLogs

/-- **A receipt's reader**, in one equivalence: a list, whose payload is the four fields. -/
theorem decodeReceiptWithBloom_eq_ok {bs rest : List UInt8} {r : ReceiptWithBloom} :
    decodeReceiptWithBloom bs = .ok (r, rest) ↔
      ∃ s g b l, (s ++ (g ++ (b ++ l))).length < 256 ^ 8 ∧
        bs = Rlp.encodeList (s ++ (g ++ (b ++ l))) ++ rest ∧
        receiptDecoders.ReadsFields r s g b l := by
  constructor
  · intro h
    obtain ⟨⟨hd, buf⟩, hdec, h⟩ := Except.bind_eq_ok.mp h
    dsimp only at h
    split at h
    · cases h
    rename_i hlist
    obtain ⟨⟨status, p1⟩, hstatus, h⟩ := Except.bind_eq_ok.mp h
    obtain ⟨⟨gas, p2⟩, hgas, h⟩ := Except.bind_eq_ok.mp h
    obtain ⟨⟨bloom, p3⟩, hbloom, h⟩ := Except.bind_eq_ok.mp h
    obtain ⟨⟨logs, p4⟩, hlogs, h⟩ := Except.bind_eq_ok.mp h
    dsimp only at h
    split at h
    · cases h
    rename_i hlen
    obtain ⟨rfl, rfl⟩ := Prod.mk.inj (Except.ok.inj h)
    obtain ⟨s, g, b, l, rfl, hfields⟩ := @ReceiptDecoders.ReadsItems.readsFields receiptDecoders
      ⟨⟨status, gas, logs⟩, bloom⟩ readsItems_receiptDecoders _ _ _ _ _ hstatus hgas hbloom hlogs
    have hpayload : hd.payloadLength = (s ++ (g ++ (b ++ l))).length := by
      have hlen' := not_not.mp hlen
      simp only [List.length_append] at hlen' ⊢
      omega
    have hread : Rlp.decodeList bs = .ok (s ++ (g ++ (b ++ l)), p4) := by
      have hbuf : s ++ (g ++ (b ++ (l ++ p4))) = s ++ (g ++ (b ++ l)) ++ p4 := by
        simp only [List.append_assoc]
      refine Except.bind_eq_ok.mpr ⟨_, Except.mapError_eq_ok.mp hdec, ?_⟩
      dsimp only
      rw [if_pos (by simpa using hlist), hpayload, hbuf, List.take_left, List.drop_left]
    obtain ⟨hcap, rfl⟩ := Rlp.eq_encodeList hread
    exact ⟨s, g, b, l, hcap, rfl, hfields⟩
  · rintro ⟨s, g, b, l, hcap, rfl, hfields⟩
    have hdec := @Rlp.Header.decode_encodeList _ rest hcap
    obtain ⟨hs, hg, hb, hl⟩ := hfields.append readsItems_receiptDecoders rest
    have hstatus : decodeStatus (s ++ (g ++ (b ++ (l ++ rest))))
        = .ok (r.receipt.status, g ++ (b ++ (l ++ rest))) := hs
    refine Except.bind_eq_ok.mpr ⟨_, Except.mapError_eq_ok.mpr hdec, ?_⟩
    refine (if_neg fun hlist => Bool.false_ne_true hlist.symm).trans ?_
    refine Except.bind_eq_ok.mpr ⟨(r.receipt.status, g ++ (b ++ (l ++ rest))), ?_, ?_⟩
    · simpa only [List.append_assoc] using hstatus
    refine Except.bind_eq_ok.mpr ⟨_, hg, ?_⟩
    refine Except.bind_eq_ok.mpr ⟨_, hb, ?_⟩
    refine Except.bind_eq_ok.mpr ⟨_, hl, ?_⟩
    exact if_neg (not_not.mpr (by simp only [List.length_append]; omega))

/-- What is read takes no more bytes to write, so it can be written. -/
theorem valid_of_decodeReceiptWithBloom {bs rest : List UInt8} {r : ReceiptWithBloom}
    (h : decodeReceiptWithBloom bs = .ok (r, rest)) : rlpReceipt.Valid r := by
  obtain ⟨s, g, b, l, hcap, -, hfields⟩ := decodeReceiptWithBloom_eq_ok.mp h
  have hs : (rlpStatus.enc r.receipt.status).length ≤ s.length := length_rlpStatus_le hfields.status
  have hl : (rlpLogs.enc r.receipt.logs).length ≤ l.length := length_rlpLogs_le hfields.logs
  have hg : g = rlpU64.enc r.receipt.cumulativeGasUsed :=
    (reads_readRlp _).eq_enc hfields.cumulativeGasUsed
  have hb : b = rlpBloom.enc r.logsBloom := (reads_readRlp _).eq_enc hfields.logsBloom
  refine rlpReceipt_valid_iff.mpr ?_
  rw [hg, hb] at hcap
  simp only [ReceiptWithBloom.payload, List.length_append] at hcap ⊢
  omega

theorem decodeReceiptWithBloom_enc {r : ReceiptWithBloom} (h : rlpReceipt.Valid r)
    (rest : List UInt8) : decodeReceiptWithBloom (rlpReceipt.enc r ++ rest) = .ok (r, rest) := by
  have hlen := rlpReceipt_valid h
  refine decodeReceiptWithBloom_eq_ok.mpr ⟨_, _, _, _, hlen, by rw [rlpReceipt_enc]; rfl, ?_⟩
  have hstatus := decodeStatus_enc r.receipt.status []
  have hlogs := decodeLogs_enc (rlpLogs_valid hlen) []
  rw [List.append_nil] at hstatus hlogs
  refine ⟨hstatus, ?_, ?_, hlogs⟩
  · exact (reads_readRlp _ _ _ _).mpr ⟨rlpU64_valid _, (List.append_nil _).symm⟩
  · exact (reads_readRlp _ _ _ _).mpr ⟨rlpBloom_valid _, (List.append_nil _).symm⟩

/-! ## 3. Envelopes -/

theorem ReceiptEnvelope.ofType_eq_some {ty : UInt8} {r : ReceiptWithBloom}
    {e : ReceiptEnvelope} :
    ofType ty r = some e ↔ e.txType = ty ∧ ty ≠ 0 ∧ e.receipt = r := by
  constructor
  · intro h
    unfold ofType at h
    split at h <;> cases h <;> exact ⟨rfl, by decide, rfl⟩
  · rintro ⟨rfl, hne, rfl⟩
    cases e with
    | legacy r => exact absurd rfl hne
    | _ => rfl

theorem typedDecode_eq_ok {ty : UInt8} {body rest : List UInt8} {e : ReceiptEnvelope} :
    typedDecode (ty :: body) = .ok (e, rest) ↔
      e.txType = ty ∧ ty ≠ 0 ∧ decodeReceiptWithBloom body = .ok (e.receipt, rest) := by
  constructor
  · intro h
    obtain ⟨⟨receipt, rest'⟩, hreceipt, h⟩ := Except.bind_eq_ok.mp h
    dsimp only at h
    split at h
    · rename_i envelope hsome
      obtain ⟨rfl, rfl⟩ := Prod.mk.inj (Except.ok.inj h)
      obtain ⟨htype, hne, rfl⟩ := ReceiptEnvelope.ofType_eq_some.mp hsome
      exact ⟨htype, hne, hreceipt⟩
    · cases h
  · rintro ⟨htype, hne, hreceipt⟩
    have hsome := ReceiptEnvelope.ofType_eq_some.mpr ⟨htype, hne, rfl⟩
    refine Except.bind_eq_ok.mpr ⟨(e.receipt, rest), hreceipt, ?_⟩
    dsimp only
    rw [hsome]

theorem fallbackDecode_eq_ok {bs rest : List UInt8} {e : ReceiptEnvelope} :
    fallbackDecode bs = .ok (e, rest) ↔
      e.txType = 0 ∧ decodeReceiptWithBloom bs = .ok (e.receipt, rest) := by
  rw [fallbackDecode, Except.map_eq_ok]
  constructor
  · rintro ⟨⟨receipt, rest'⟩, hreceipt, heq⟩
    obtain ⟨rfl, rfl⟩ := Prod.mk.inj heq
    exact ⟨rfl, hreceipt⟩
  · rintro ⟨htype, hreceipt⟩
    cases e with
    | legacy r => exact ⟨(r, rest), hreceipt, rfl⟩
    | _ => cases htype

theorem networkDecode_list {b : UInt8} {body rest : List UInt8} {e : ReceiptEnvelope}
    (hb : 0xc0 ≤ b.toNat) :
    networkDecode (b :: body) = .ok (e, rest) ↔
      e.txType = 0 ∧ decodeReceiptWithBloom (b :: body) = .ok (e.receipt, rest) := by
  rw [← fallbackDecode_eq_ok]
  constructor
  · intro h
    obtain ⟨⟨hd, buf⟩, hdec, h⟩ := Except.bind_eq_ok.mp h
    have hlist := (Rlp.Header.list_of_decode (Except.mapError_eq_ok.mp hdec)).mpr hb
    exact (if_pos hlist).symm.trans h
  · intro h
    obtain ⟨-, hreceipt⟩ := fallbackDecode_eq_ok.mp h
    obtain ⟨s, g, b', l, hcap, hbytes, -⟩ := decodeReceiptWithBloom_eq_ok.mp hreceipt
    have hheader := @Rlp.Header.decode_encodeList _ rest hcap
    rw [← hbytes] at hheader
    exact Except.bind_eq_ok.mpr ⟨_, Except.mapError_eq_ok.mpr hheader, h⟩

theorem networkDecode_string {b : UInt8} {body rest : List UInt8} {e : ReceiptEnvelope}
    (hb : b.toNat < 0xc0) (h : networkDecode (b :: body) = .ok (e, rest)) : e.txType ≠ 0 := by
  obtain ⟨⟨hd, buf⟩, hdec, h⟩ := Except.bind_eq_ok.mp h
  have hlist : ¬ hd.list = true := fun hl => by
    have hge := (Rlp.Header.list_of_decode (Except.mapError_eq_ok.mp hdec)).mp hl
    omega
  have hwrapped := (if_neg hlist).symm.trans h
  split at hwrapped
  · cases hwrapped
  obtain ⟨⟨e', rest'⟩, htyped, hend⟩ := Except.bind_eq_ok.mp hwrapped
  dsimp only at hend
  split at hend
  · cases hend
  · obtain ⟨rfl, rfl⟩ := Prod.mk.inj (Except.ok.inj hend)
    cases buf with
    | nil => cases htyped
    | cons ty buf =>
      obtain ⟨htype, hne, -⟩ := typedDecode_eq_ok.mp htyped
      rw [htype]
      exact hne

theorem decode2718_eq_ok {b : UInt8} {body rest : List UInt8} {e : ReceiptEnvelope}
    (hb : b.toNat < 0x80) :
    decode2718 (b :: body) = .ok (e, rest) ↔
      e.txType = b ∧ b ≠ 0 ∧ decodeReceiptWithBloom body = .ok (e.receipt, rest) := by
  rw [← typedDecode_eq_ok, decode2718, if_pos hb]

/-! ## 4. The laws -/

theorem roundTrips_receiptDecoders : receiptDecoders.RoundTrips where
  header _ _ hcap := Except.mapError_eq_ok.mpr (Rlp.Header.decode_encodeList hcap)
  status := decodeStatus_enc
  u64 x rest := (reads_readRlp _).enc_append (rlpU64_valid x) rest
  bloom x rest := (reads_readRlp _).enc_append (rlpBloom_valid x) rest
  logs _ rest hv := decodeLogs_enc hv rest
  receipt _ rest hv := decodeReceiptWithBloom_enc hv rest
  envelope r rest hv := by
    obtain ⟨b, body, hcons⟩ := List.exists_cons_of_ne_nil
      (List.append_ne_nil_of_left_ne_nil (rlpReceipt.enc_ne_nil r) rest)
    have hread := decodeReceiptWithBloom_enc hv rest
    have hheader := @Rlp.Header.decode_encodeList _ rest (rlpReceipt_valid hv)
    rw [← rlpReceipt_enc, hcons] at hheader
    rw [hcons] at hread ⊢
    exact (networkDecode_list ((Rlp.Header.list_of_decode hheader).mp rfl)).mpr ⟨rfl, hread⟩
  decode2718 e rest htype hv := by
    have hle := e.txType_le
    rw [ReceiptEnvelope.encoded2718_typed htype, List.cons_append]
    exact (decode2718_eq_ok (by omega)).mpr ⟨rfl, htype, decodeReceiptWithBloom_enc hv rest⟩

theorem lawful_receiptDecoders : receiptDecoders.Lawful where
  roundTrips := roundTrips_receiptDecoders
  readsItems := readsItems_receiptDecoders
  u64_reads := reads_readRlp _
  bloom_reads := reads_readRlp _
  logs_lists _ _ _ hlist hitems h := decodeLogs_lists hlist hitems h
  receipt_fields _ _ _ h := decodeReceiptWithBloom_eq_ok.mp h
  receipt_valid _ _ _ h := valid_of_decodeReceiptWithBloom h
  envelope_list _ _ _ _ hb := networkDecode_list hb
  envelope_string _ _ _ _ hb h := networkDecode_string hb h
  decode2718_typed _ _ _ _ hb := decode2718_eq_ok hb

end EthHistorian
