/-
# The language of receipts

What `to_wire_bytes` writes, `decode_receipt` reads back (`decodeReceipt_toWireBytes`): the type
bytes of the seven kinds of receipt fall into different arms, and each arm uses up what was
written.  All that is asked of the readers is that they read back what is written for them.

The deposit arm is a parser of its own, with a length, a cursor and an optional tail that are
checked apart.  It accepts one language (`decodeOpDeposit_grammar`): a list of four items, or of
the four and two numbers, and nothing else -- no other number of items, no part of such a list,
and nothing behind it.  Here a field's reader may be as lenient as it likes with its item, as long
as it takes exactly one.
-/
import EthHistorian.Model.Inclusion
import EthHistorian.Model.ReceiptReaders

namespace EthHistorian

/-! ## 1. The arms -/

theorem le_iff_toNat {a b : UInt8} : a ≤ b ↔ a.toNat ≤ b.toNat := UInt8.le_iff_toNat_le

/-- The arm of the first byte, in numbers. -/
theorem decodeReceiptArm_eq (D : ReceiptDecoders) (b : UInt8) (body : List UInt8) :
    decodeReceiptArm D b body =
      if 0x80 ≤ b.toNat then
        (D.envelope (b :: body)).map fun (envelope, _) => .ethereum envelope
      else if 0x64 ≤ b.toNat ∧ b.toNat ≤ 0x6A then do
        let (receipt, rest) ← (D.receipt body).mapError fun e =>
          s!"arbitrum type 0x{hexByte b}: {e}"
        refuse (rest ≠ []) (s!"arbitrum type 0x{hexByte b}: {rest.length} trailing bytes " ++
          "after the receipt body")
        return .arbitrum b receipt
      else if b = opDepositTxType then decodeOpDeposit D body
      else if b.toNat ≤ 0x04 then
        (D.decode2718 (b :: body)).map fun (envelope, _) => .ethereum envelope
      else
        .error (s!"unsupported EIP-2718 receipt type 0x{hexByte b} " ++
          "(admitted: 0x00-0x04 Ethereum, 0x64-0x6a Arbitrum, 0x7e OP-stack deposit)") := by
  have h80 : (0x80 : UInt8).toNat = 0x80 := rfl
  have h64 : arbitrumTxTypeMin.toNat = 0x64 := rfl
  have h6a : arbitrumTxTypeMax.toNat = 0x6A := rfl
  have h4 : (0x04 : UInt8).toNat = 0x04 := rfl
  simp only [decodeReceiptArm, le_iff_toNat, h80, h64, h6a, h4]

/-! ## 2. Written receipts are read back -/

/-- The receipts there are: the Arbitrum family's types, and deposits with both trailing fields or
neither. -/
def DecodedReceipt.WellFormed : DecodedReceipt → Prop
  | ethereum _ => True
  | arbitrum txType _ => arbitrumTxTypeMin ≤ txType ∧ txType ≤ arbitrumTxTypeMax
  | opDeposit _ depositNonce depositReceiptVersion =>
    depositNonce.isSome = depositReceiptVersion.isSome

variable {D : ReceiptDecoders}

/-- The tail is read back as it was written. -/
theorem decodeOpDepositTail_opDepositTail (hD : D.RoundTrips) {n v : Option UInt64}
    (h : n.isSome = v.isSome) :
    decodeOpDepositTail D (DecodedReceipt.opDepositTail n v) = .ok (n, v, []) := by
  cases n with
  | none =>
    cases v with
    | none => rfl
    | some v => cases h
  | some n =>
    cases v with
    | none => cases h
    | some v =>
      have hne : rlpU64.enc n ++ rlpU64.enc v ≠ [] :=
        List.append_ne_nil_of_left_ne_nil (rlpU64.enc_ne_nil n) _
      have hn := hD.u64 n (rlpU64.enc v)
      have hv := hD.u64 v []
      rw [List.append_nil] at hv
      rw [DecodedReceipt.opDepositTail, decodeOpDepositTail, if_neg hne, hn]
      change ((D.u64 (rlpU64.enc v)).mapError _ >>= _) = _
      rw [hv]
      rfl

/-- **The deposit arm reads what is written for a deposit.** -/
theorem decodeOpDeposit_encodeList (hD : D.RoundTrips) {r : ReceiptWithBloom} {n v : Option UInt64}
    (htail : n.isSome = v.isSome)
    (hlen : (r.payload ++ DecodedReceipt.opDepositTail n v).length < 256 ^ 8) :
    decodeOpDeposit D (Rlp.encodeList (r.payload ++ DecodedReceipt.opDepositTail n v))
      = .ok (.opDeposit r n v) := by
  have hfits : r.payload.length < 256 ^ 8 := by
    rw [List.length_append] at hlen
    omega
  have hheader := hD.header _ [] hlen
  rw [List.append_nil, List.append_nil] at hheader
  -- the cursor after each field
  generalize ht : DecodedReceipt.opDepositTail n v = tail at hheader ⊢
  have h1 := hD.status r.receipt.status (rlpU64.enc r.receipt.cumulativeGasUsed ++
    (rlpBloom.enc r.logsBloom ++ (rlpLogs.enc r.receipt.logs ++ tail)))
  have h2 := hD.u64 r.receipt.cumulativeGasUsed
    (rlpBloom.enc r.logsBloom ++ (rlpLogs.enc r.receipt.logs ++ tail))
  have h3 := hD.bloom r.logsBloom (rlpLogs.enc r.receipt.logs ++ tail)
  have h4 := hD.logs r.receipt.logs tail (rlpLogs_valid hfits)
  have h5 : decodeOpDepositTail D tail = .ok (n, v, []) := by
    rw [← ht]
    exact decodeOpDepositTail_opDepositTail hD htail
  have hpayload : r.payload ++ tail = rlpStatus.enc r.receipt.status ++
      (rlpU64.enc r.receipt.cumulativeGasUsed ++ (rlpBloom.enc r.logsBloom ++
        (rlpLogs.enc r.receipt.logs ++ tail))) := by
    simp only [ReceiptWithBloom.payload, List.append_assoc]
  rw [← hpayload] at h1
  simp only [decodeOpDeposit, hheader, h1, h2, h3, h4, h5, Except.mapError, bind, Except.bind,
    refuse, pure, Except.pure]
  simp

/-- The network form of a legacy receipt. -/
theorem decodeReceiptArm_legacy (hD : D.RoundTrips) {r : ReceiptWithBloom}
    (hv : rlpReceipt.Valid r) {b : UInt8} {body : List UInt8} {rest : List UInt8}
    (hbytes : rlpReceipt.enc r ++ rest = b :: body) :
    decodeReceiptArm D b body = .ok (.ethereum (.legacy r)) := by
  have hheader := @Rlp.Header.decode_encodeList _ rest (rlpReceipt_valid hv)
  rw [← rlpReceipt_enc, hbytes] at hheader
  have hfirst := (Rlp.Header.list_of_decode hheader).mp rfl
  have henvelope := hD.envelope r rest hv
  rw [hbytes] at henvelope
  rw [decodeReceiptArm_eq, if_pos (by omega), henvelope]
  rfl

theorem decodeReceiptArm_typed (hD : D.RoundTrips) {e : ReceiptEnvelope} (htype : e.txType ≠ 0)
    (hv : rlpReceipt.Valid e.receipt) :
    decodeReceiptArm D e.txType (rlpReceipt.enc e.receipt) = .ok (.ethereum e) := by
  have hle := e.txType_le
  have hdeposit : e.txType ≠ opDepositTxType := fun h => by
    rw [h] at hle
    exact absurd hle (by decide)
  have htyped := hD.decode2718 e [] htype hv
  rw [List.append_nil, ReceiptEnvelope.encoded2718_typed htype] at htyped
  rw [decodeReceiptArm_eq, if_neg (by omega), if_neg (by omega), if_neg hdeposit, if_pos hle,
    htyped]
  rfl

theorem decodeReceiptArm_arbitrum (hD : D.RoundTrips) {ty : UInt8} (hmin : arbitrumTxTypeMin ≤ ty)
    (hmax : ty ≤ arbitrumTxTypeMax) {r : ReceiptWithBloom} (hv : rlpReceipt.Valid r) :
    decodeReceiptArm D ty (rlpReceipt.enc r) = .ok (.arbitrum ty r) := by
  have h64 : 0x64 ≤ ty.toNat := le_iff_toNat.mp hmin
  have h6a : ty.toNat ≤ 0x6A := le_iff_toNat.mp hmax
  have hreceipt := hD.receipt r [] hv
  rw [List.append_nil] at hreceipt
  rw [decodeReceiptArm_eq, if_neg (by omega), if_pos ⟨h64, h6a⟩, hreceipt]
  rfl

/-- What fits a buffer is read back. -/
theorem decodeReceipt_of_length_lt (hD : D.RoundTrips) (receiptIndex : UInt64)
    {r : DecodedReceipt} (hwf : r.WellFormed) (hlen : r.toWireBytes.length < 2 ^ 63) :
    decodeReceipt D receiptIndex r.toWireBytes = .ok r := by
  have harm : ∃ b body, r.toWireBytes = b :: body ∧ decodeReceiptArm D b body = .ok r := by
    cases r with
    | ethereum e =>
      by_cases htype : e.txType = 0
      · obtain ⟨r, rfl⟩ := ReceiptEnvelope.eq_legacy htype
        obtain ⟨b, body, hbytes⟩ := List.exists_cons_of_ne_nil (rlpReceipt.enc_ne_nil r)
        have hv : rlpReceipt.Valid r := rlpReceipt_carries r (hlen.trans (by norm_num))
        have happend : rlpReceipt.enc r ++ [] = b :: body := by rw [List.append_nil, hbytes]
        exact ⟨b, body, hbytes, decodeReceiptArm_legacy hD hv happend⟩
      · have hwire : (DecodedReceipt.ethereum e).toWireBytes
            = e.txType :: rlpReceipt.enc e.receipt := ReceiptEnvelope.encoded2718_typed htype
        rw [hwire, List.length_cons] at hlen
        exact ⟨_, _, hwire, decodeReceiptArm_typed hD htype (rlpReceipt_carries _ (by omega))⟩
    | arbitrum ty receipt =>
      rw [DecodedReceipt.toWireBytes, List.length_cons] at hlen
      exact ⟨_, _, rfl,
        decodeReceiptArm_arbitrum hD hwf.1 hwf.2 (rlpReceipt_carries _ (by omega))⟩
    | opDeposit receipt n v =>
      have hpayload := Rlp.length_le_encodeList (receipt.payload ++
        DecodedReceipt.opDepositTail n v)
      rw [DecodedReceipt.toWireBytes, List.length_cons] at hlen
      change (Rlp.encodeList (receipt.payload ++ DecodedReceipt.opDepositTail n v)).length + 1
        < 2 ^ 63 at hlen
      refine ⟨_, _, rfl, ?_⟩
      rw [decodeReceiptArm_eq, if_neg (by decide), if_neg (by decide), if_pos rfl]
      exact decodeOpDeposit_encodeList hD hwf (by omega)
  obtain ⟨b, body, hbytes, harm⟩ := harm
  rw [hbytes, decodeReceipt, harm]
  rfl

/-- **Every well-formed receipt survives re-encoding**, whatever buffer it is written to. -/
theorem decodeReceipt_toWireBytes (D : ReceiptDecoders) (hD : D.RoundTrips)
    (receiptIndex : UInt64) (r : DecodedReceipt) (hwf : r.WellFormed) (raw : Bytes)
    (hraw : raw.data = r.toWireBytes) : decodeReceipt D receiptIndex raw.data = .ok r := by
  have hlen := raw.length_lt
  rw [hraw] at hlen ⊢
  exact decodeReceipt_of_length_lt hD receiptIndex hwf hlen

/-- A receipt without logs is small. -/
theorem length_payload_of_logs_eq_nil {r : ReceiptWithBloom} (h : r.receipt.logs = []) :
    r.payload.length ≤ 332 := by
  have hbloomLen := r.logsBloom.length_eq
  have hgasLen : (ByteString.toBE r.receipt.cumulativeGasUsed.toNat).length ≤ 8 :=
    ByteString.toBE_length_le.mpr (UInt64.toNat_lt _)
  have hstatusLen := r.receipt.status.length_bytes_le
  have hstatus := Rlp.length_encodeString_le r.receipt.status.bytes (by omega)
  have hgas := Rlp.length_encodeString_le
    (ByteString.toBE r.receipt.cumulativeGasUsed.toNat) (by omega)
  have hbloom := Rlp.length_encodeString_le r.logsBloom.bytes (by omega)
  have hlogs : (Rlp.encodeList []).length ≤ 9 := by
    have hle := @Rlp.length_encodeList_le [] (by norm_num)
    simpa using hle
  rw [ReceiptWithBloom.payload, h]
  change (Rlp.encodeString r.receipt.status.bytes ++ (Rlp.encodeString
    (ByteString.toBE r.receipt.cumulativeGasUsed.toNat) ++ (Rlp.encodeString r.logsBloom.bytes ++
      Rlp.encodeList []))).length ≤ _
  simp only [List.length_append]
  omega

theorem valid_of_logs_eq_nil {r : ReceiptWithBloom} (h : r.receipt.logs = []) :
    rlpReceipt.Valid r := by
  have hpayload := length_payload_of_logs_eq_nil h
  have hlist := @Rlp.length_encodeList_le r.payload (by omega)
  refine rlpReceipt_carries r ?_
  rw [rlpReceipt_enc]
  omega

/-- A failed receipt without logs. -/
def emptyReceipt : ReceiptWithBloom := default

/-! A deposit without logs. -/

def plainDeposit : DecodedReceipt := .opDeposit emptyReceipt (some 1) (some 1)

theorem length_rlpU64_enc_le (x : UInt64) : (rlpU64.enc x).length ≤ 17 := by
  have hlen : (ByteString.toBE x.toNat).length ≤ 8 :=
    ByteString.toBE_length_le.mpr (UInt64.toNat_lt x)
  have hle := Rlp.length_encodeString_le (ByteString.toBE x.toNat) (by omega)
  rw [rlpU64_enc]
  omega

theorem length_plainDeposit : plainDeposit.toWireBytes.length < 2 ^ 63 := by
  have hnumber := length_rlpU64_enc_le 1
  have hreceipt := length_payload_of_logs_eq_nil (show emptyReceipt.receipt.logs = [] from rfl)
  have hpayload : (emptyReceipt.payload ++ (rlpU64.enc 1 ++ rlpU64.enc 1)).length ≤ 400 := by
    simp only [List.length_append]
    omega
  have hlist := Rlp.length_encodeList_le
    (show (emptyReceipt.payload ++ (rlpU64.enc 1 ++ rlpU64.enc 1)).length < 256 ^ 8 by omega)
  change (Rlp.encodeList (emptyReceipt.payload ++ (rlpU64.enc 1 ++ rlpU64.enc 1))).length + 1 < _
  omega

theorem decodeReceipt_toWireBytes_plainDeposit :
    decodeReceipt receiptDecoders 0 plainDeposit.toWireBytes = .ok plainDeposit :=
  decodeReceipt_toWireBytes receiptDecoders roundTrips_receiptDecoders 0 plainDeposit rfl
    ⟨plainDeposit.toWireBytes, length_plainDeposit⟩ rfl

/-! ## 3. What the deposit arm accepts -/

/-- The items of a deposit receipt, each of them all that its reader finds: four, or the four and
two numbers. -/
inductive OpDepositItems (D : ReceiptDecoders) : List (List UInt8) → DecodedReceipt → Prop
  | four {s g b l : List UInt8} {status : Eip658Value} {gas : UInt64} {bloom : Bloom}
      {logs : List Log} (hstatus : D.status s = .ok (status, [])) (hgas : D.u64 g = .ok (gas, []))
      (hbloom : D.bloom b = .ok (bloom, [])) (hlogs : D.logs l = .ok (logs, [])) :
      OpDepositItems D [s, g, b, l] (.opDeposit ⟨⟨status, gas, logs⟩, bloom⟩ none none)
  | six {s g b l m u : List UInt8} {status : Eip658Value} {gas : UInt64} {bloom : Bloom}
      {logs : List Log} {n v : UInt64} (hstatus : D.status s = .ok (status, []))
      (hgas : D.u64 g = .ok (gas, [])) (hbloom : D.bloom b = .ok (bloom, []))
      (hlogs : D.logs l = .ok (logs, [])) (hnonce : D.u64 m = .ok (n, []))
      (hversion : D.u64 u = .ok (v, [])) :
      OpDepositItems D [s, g, b, l, m, u]
        (.opDeposit ⟨⟨status, gas, logs⟩, bloom⟩ (some n) (some v))

/-- One list, whose payload is those items. -/
def OpDepositGrammar (D : ReceiptDecoders) (body : List UInt8) (r : DecodedReceipt) : Prop :=
  ∃ items, Rlp.IsList body items.flatten ∧ OpDepositItems D items r

/-- The tail is read in one of two ways. -/
theorem decodeOpDepositTail_eq_ok (hD : D.ReadsItems) {p rest : List UInt8}
    {n v : Option UInt64} :
    decodeOpDepositTail D p = .ok (n, v, rest) ↔
      (p = [] ∧ n = none ∧ v = none ∧ rest = []) ∨
        ∃ m u n' v', p = m ++ (u ++ rest) ∧ D.u64 m = .ok (n', []) ∧ D.u64 u = .ok (v', []) ∧
          n = some n' ∧ v = some v' := by
  constructor
  · intro h
    unfold decodeOpDepositTail at h
    split at h
    · rename_i hp
      simp only [Except.ok.injEq, Prod.mk.injEq] at h
      obtain ⟨rfl, rfl, rfl⟩ := h
      exact Or.inl ⟨hp, rfl, rfl, hp⟩
    · obtain ⟨⟨n', p1⟩, hn, h⟩ := Except.bind_eq_ok.mp h
      obtain ⟨⟨v', p2⟩, hv, h⟩ := Except.bind_eq_ok.mp h
      simp only [pure, Except.pure, Except.ok.injEq, Prod.mk.injEq] at h
      obtain ⟨rfl, rfl, rfl⟩ := h
      obtain ⟨m, -, rfl, hm⟩ := (hD.u64 _ _ _).mp (Except.mapError_eq_ok.mp hn)
      obtain ⟨u, -, rfl, hu⟩ := (hD.u64 _ _ _).mp (Except.mapError_eq_ok.mp hv)
      exact Or.inr ⟨m, u, n', v', rfl, hm, hu, rfl, rfl⟩
  · rintro (⟨rfl, rfl, rfl, rfl⟩ | ⟨m, u, n', v', rfl, hm, hu, rfl, rfl⟩)
    · rfl
    · have hne : m ++ (u ++ rest) ≠ [] :=
        List.append_ne_nil_of_left_ne_nil (hD.u64.isItem hm).ne_nil _
      rw [decodeOpDepositTail, if_neg hne, hD.u64.append hm]
      change ((D.u64 (u ++ rest)).mapError _ >>= _) = _
      rw [hD.u64.append hu]
      rfl

/-- **The deposit arm, field by field.** -/
theorem decodeOpDeposit_eq_ok (hD : D.ReadsItems) {body : List UInt8} {r : DecodedReceipt} :
    decodeOpDeposit D body = .ok r ↔
      ∃ receipt n v s g b l tail, r = .opDeposit receipt n v ∧
        Rlp.IsList body (s ++ (g ++ (b ++ (l ++ tail)))) ∧ D.ReadsFields receipt s g b l ∧
        decodeOpDepositTail D tail = .ok (n, v, []) := by
  constructor
  · intro h
    obtain ⟨⟨hd, buf⟩, hh, h⟩ := Except.bind_eq_ok.mp h
    obtain ⟨⟨⟩, hlist, h⟩ := Except.bind_eq_ok.mp h
    obtain ⟨⟨⟩, hlen, h⟩ := Except.bind_eq_ok.mp h
    obtain ⟨⟨status, p1⟩, hstatus, h⟩ := Except.bind_eq_ok.mp h
    obtain ⟨⟨gas, p2⟩, hgas, h⟩ := Except.bind_eq_ok.mp h
    obtain ⟨⟨bloom, p3⟩, hbloom, h⟩ := Except.bind_eq_ok.mp h
    obtain ⟨⟨logs, p4⟩, hlogs, h⟩ := Except.bind_eq_ok.mp h
    obtain ⟨⟨n, v, p5⟩, htail, h⟩ := Except.bind_eq_ok.mp h
    obtain ⟨⟨⟩, hend, h⟩ := Except.bind_eq_ok.mp h
    obtain rfl := Except.ok.inj h
    have hl : hd.list = true := by simpa using refuse_eq_ok.mp hlist
    have hn : buf.length = hd.payloadLength := not_not.mp (refuse_eq_ok.mp hlen)
    obtain rfl : p5 = [] := not_not.mp (refuse_eq_ok.mp hend)
    -- the payload, field by field
    obtain ⟨s, g, b, l, rfl, hfields⟩ := @ReceiptDecoders.ReadsItems.readsFields D
      ⟨⟨status, gas, logs⟩, bloom⟩ hD _ _ _ _ _ (Except.mapError_eq_ok.mp hstatus)
      (Except.mapError_eq_ok.mp hgas) (Except.mapError_eq_ok.mp hbloom)
      (Except.mapError_eq_ok.mp hlogs)
    refine ⟨⟨⟨status, gas, logs⟩, bloom⟩, n, v, s, g, b, l, p4, rfl, ?_, hfields, htail⟩
    have hheader : hd = ⟨true, (s ++ (g ++ (b ++ (l ++ p4)))).length⟩ := by rw [hn, ← hl]
    rw [Rlp.isList_iff, ← hheader]
    exact (hD.header _ _ _).mp (Except.mapError_eq_ok.mp hh)
  · rintro ⟨receipt, n, v, s, g, b, l, tail, rfl, hbody, hfields, htail⟩
    have hh := (hD.header _ _ _).mpr (Rlp.isList_iff.mp hbody)
    obtain ⟨hs, hg, hb, hl⟩ := hfields.append hD tail
    simp only [decodeOpDeposit, hh, hs, hg, hb, hl, htail, Except.mapError, bind, Except.bind,
      refuse, pure, Except.pure]
    simp

/-- **The parser and the grammar agree**, for every byte string. -/
theorem decodeOpDeposit_iff (hD : D.ReadsItems) {body : List UInt8} {r : DecodedReceipt} :
    decodeOpDeposit D body = .ok r ↔ OpDepositGrammar D body r := by
  rw [decodeOpDeposit_eq_ok hD]
  constructor
  · rintro ⟨receipt, n, v, s, g, b, l, tail, rfl, hbody, ⟨hs, hg, hb, hl⟩, htail⟩
    rcases (decodeOpDepositTail_eq_ok hD).mp htail with
      ⟨rfl, rfl, rfl, -⟩ | ⟨m, u, n', v', rfl, hm, hu, rfl, rfl⟩
    · exact ⟨[s, g, b, l], by simpa using hbody, .four hs hg hb hl⟩
    · exact ⟨[s, g, b, l, m, u], by simpa using hbody, .six hs hg hb hl hm hu⟩
  · rintro ⟨items, hbody, hitems⟩
    cases hitems with
    | @four s g b l status gas bloom logs hs hg hb hl =>
      exact ⟨⟨⟨status, gas, logs⟩, bloom⟩, none, none, s, g, b, l, [], rfl, by simpa using hbody,
        ⟨hs, hg, hb, hl⟩, rfl⟩
    | @six s g b l m u status gas bloom logs n v hs hg hb hl hm hu =>
      exact ⟨⟨⟨status, gas, logs⟩, bloom⟩, some n, some v, s, g, b, l, m ++ u, rfl,
        by simpa using hbody, ⟨hs, hg, hb, hl⟩,
        (decodeOpDepositTail_eq_ok hD).mpr
          (Or.inr ⟨m, u, n, v, by rw [List.append_nil], hm, hu, rfl, rfl⟩)⟩

theorem OpDepositItems.isItem (hD : D.ReadsItems) {items : List (List UInt8)} {r : DecodedReceipt}
    (h : OpDepositItems D items r) :
    (∀ x ∈ items, Rlp.IsItem x) ∧ (items.length = 4 ∨ items.length = 6) := by
  cases h with
  | four hs hg hb hl =>
    refine ⟨?_, Or.inl rfl⟩
    simp only [List.forall_mem_cons]
    exact ⟨hD.status.isItem hs, hD.u64.isItem hg, hD.bloom.isItem hb, hD.logs.isItem hl,
      fun _ hx => absurd hx List.not_mem_nil⟩
  | six hs hg hb hl hn hv =>
    refine ⟨?_, Or.inr rfl⟩
    simp only [List.forall_mem_cons]
    exact ⟨hD.status.isItem hs, hD.u64.isItem hg, hD.bloom.isItem hb, hD.logs.isItem hl,
      hD.u64.isItem hn, hD.u64.isItem hv, fun _ hx => absurd hx List.not_mem_nil⟩

/-- What is outside the grammar is refused with an error. -/
theorem decodeOpDeposit_error (hD : D.ReadsItems) {body : List UInt8}
    (h : ∀ r, ¬ OpDepositGrammar D body r) :
    ∃ e, decodeOpDeposit D body = .error e := by
  cases hrun : decodeOpDeposit D body with
  | error e => exact ⟨e, rfl⟩
  | ok r => exact absurd ((decodeOpDeposit_iff hD).mp hrun) (h r)

/-- **The deposit arm accepts exactly the deposit grammar**, through `decode_receipt` as well.  A
list of any other number of items is refused, and so are a payload that is no whole number of
items, a part of a list, and a list with anything behind it. -/
theorem decodeOpDeposit_grammar (D : ReceiptDecoders) (hD : D.ReadsItems) (body : List UInt8) :
    (∀ r, decodeOpDeposit D body = .ok r ↔ OpDepositGrammar D body r) ∧
    (∀ receiptIndex r, decodeReceipt D receiptIndex (opDepositTxType :: body) = .ok r ↔
      OpDepositGrammar D body r) ∧
    (∀ items : List (List UInt8), Rlp.IsList body items.flatten →
      (∀ x ∈ items, Rlp.IsItem x) → items.length ≠ 4 → items.length ≠ 6 →
        ∃ e, decodeOpDeposit D body = .error e) ∧
    (∀ payload, Rlp.IsList body payload →
      (∀ items : List (List UInt8), (∀ x ∈ items, Rlp.IsItem x) → payload ≠ items.flatten) →
        ∃ e, decodeOpDeposit D body = .error e) ∧
    ∀ whole payload extra, Rlp.IsList whole payload → extra ≠ [] →
      (whole = body ++ extra ∨ body = whole ++ extra) →
        ∃ e, decodeOpDeposit D body = .error e := by
  refine ⟨fun r => decodeOpDeposit_iff hD, fun receiptIndex r => ?_, ?_, ?_, ?_⟩
  · rw [← decodeOpDeposit_iff hD, decodeReceipt, Except.mapError_eq_ok, decodeReceiptArm_eq,
      if_neg (by decide), if_neg (by decide), if_pos rfl]
  · intro items hlist hitems hfour hsix
    refine decodeOpDeposit_error hD ?_
    rintro r ⟨items', hlist', hitems'⟩
    obtain ⟨hall, hlen⟩ := hitems'.isItem hD
    obtain rfl := Rlp.items_unique hitems hall (hlist.payload_unique hlist')
    rcases hlen with hlen | hlen
    · exact hfour hlen
    · exact hsix hlen
  · intro payload hlist hnone
    refine decodeOpDeposit_error hD ?_
    rintro r ⟨items', hlist', hitems'⟩
    exact hnone items' (hitems'.isItem hD).1 (hlist.payload_unique hlist')
  · intro whole payload extra hlist hextra hpart
    refine decodeOpDeposit_error hD ?_
    rintro r ⟨items', hlist', -⟩
    rcases hpart with rfl | rfl
    · exact hextra (hlist'.isItem.append_eq_nil hlist.isItem)
    · exact hextra (hlist.isItem.append_eq_nil hlist'.isItem)

/-- A deposit with a nonce and no version. -/
def fiveItems : List (List UInt8) :=
  [rlpStatus.enc emptyReceipt.receipt.status, rlpU64.enc emptyReceipt.receipt.cumulativeGasUsed,
    rlpBloom.enc emptyReceipt.logsBloom, rlpLogs.enc emptyReceipt.receipt.logs, rlpU64.enc 1]

theorem isList_fiveItems : Rlp.IsList (Rlp.encodeList fiveItems.flatten) fiveItems.flatten := by
  refine ⟨?_, rfl⟩
  have hreceipt := length_payload_of_logs_eq_nil (show emptyReceipt.receipt.logs = [] from rfl)
  have hflatten : fiveItems.flatten = emptyReceipt.payload ++ rlpU64.enc 1 := by
    simp [fiveItems, ReceiptWithBloom.payload]
  have hnumber := length_rlpU64_enc_le 1
  rw [hflatten, List.length_append]
  omega

theorem decodeOpDeposit_grammar_fiveItems :
    ∃ e, decodeOpDeposit receiptDecoders (Rlp.encodeList fiveItems.flatten) = .error e := by
  have hvalid := valid_of_logs_eq_nil (show emptyReceipt.receipt.logs = [] from rfl)
  refine (decodeOpDeposit_grammar receiptDecoders readsItems_receiptDecoders _).2.2.1 fiveItems
    isList_fiveItems ?_ (by decide) (by decide)
  simp only [fiveItems, List.forall_mem_cons]
  exact ⟨rlpStatus_items _ (rlpStatus_valid _), rlpU64_items _ (rlpU64_valid _),
    rlpBloom_items _ (rlpBloom_valid _),
    rlpLogs_items _ (rlpLogs_valid (rlpReceipt_valid hvalid)),
    rlpU64_items _ (rlpU64_valid _), fun _ hx => absurd hx List.not_mem_nil⟩

end EthHistorian
