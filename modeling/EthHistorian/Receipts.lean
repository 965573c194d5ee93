/-
# Receipts, byte for byte

`decode_receipt` and `to_wire_bytes` are meant to be inverse on every admitted receipt.  Two things
are in the way.  The two arms that hand over to `alloy` drop what its reader leaves unread, and the
network form unwraps a string that the trie never stores.  And in all four arms the readers of a
status and of logs accept more than one spelling of a value.

`toWireBytes_decodeReceipt_iff` says which accepted inputs are written back as they were, and have
the type their first byte says: those that are, behind the type byte, one list to the end, in which
the status is a flag or a root and each log is a list.
-/
import EthHistorian.ReceiptGrammar

namespace EthHistorian

/-! ## 1. The one spelling of a receipt -/

/-- A flag, as the empty string or one, or a root. -/
def SpelledStatus (s : List UInt8) : Prop :=
  s = [0x80] ∨ s = [0x01] ∨ ∃ root : B256, s = 0xa0 :: root.bytes

/-- A list of lists. -/
def SpelledLogs (l : List UInt8) : Prop :=
  ∃ items : List (List UInt8), Rlp.IsList l items.flatten ∧
    ∀ x ∈ items, ∃ payload, Rlp.IsList x payload

/-- Three items and the logs, and whatever follows them. -/
def SpelledFields (payload : List UInt8) : Prop :=
  ∃ s g b l tail, Rlp.IsItem s ∧ Rlp.IsItem g ∧ Rlp.IsItem b ∧ SpelledStatus s ∧ SpelledLogs l ∧
    payload = s ++ (g ++ (b ++ (l ++ tail)))

/-- One list to the end. -/
def SpelledList (bs : List UInt8) : Prop := ∃ payload, Rlp.IsList bs payload ∧ SpelledFields payload

/-- Such a list behind a type byte, or from the start; a string that wraps a receipt never is. -/
def SpelledOnce : List UInt8 → Prop
  | [] => False
  | b :: body =>
    if b.toNat < 0x80 then SpelledList body
    else if b.toNat < 0xc0 then False
    else SpelledList (b :: body)

theorem SpelledLogs.isItem {l : List UInt8} (h : SpelledLogs l) : Rlp.IsItem l := by
  obtain ⟨items, hlist, -⟩ := h
  exact hlist.isItem

theorem spelledStatus_iff {s : List UInt8} : SpelledStatus s ↔ ∃ x, s = rlpStatus.enc x := by
  constructor
  · rintro (rfl | rfl | ⟨root, rfl⟩)
    · exact ⟨.eip658 false, rfl⟩
    · exact ⟨.eip658 true, rfl⟩
    · exact ⟨.postState root, (rlpStatus_enc_root root).symm⟩
  · rintro ⟨x, rfl⟩
    match x with
    | .eip658 false => exact Or.inl rfl
    | .eip658 true => exact Or.inr (Or.inl rfl)
    | .postState root => exact Or.inr (Or.inr ⟨root, rlpStatus_enc_root root⟩)

theorem spelledLogs_enc {logs : List Log} (h : rlpLogs.Valid logs) :
    SpelledLogs (rlpLogs.enc logs) := by
  refine ⟨logs.map rlpLog.enc, ⟨h.2, rlpLogs_enc logs⟩, ?_⟩
  intro x hx
  obtain ⟨log, hlog, rfl⟩ := List.mem_map.mp hx
  exact ⟨_, (h.1 log hlog).2, rfl⟩

theorem spelledList_of_isList {bs payload : List UInt8} (h : Rlp.IsList bs payload) :
    SpelledList bs ↔ SpelledFields payload := by
  constructor
  · rintro ⟨payload', h', hspell⟩
    rwa [h.payload_unique h']
  · exact fun hspell => ⟨payload, h, hspell⟩

/-! ## 2. Fields -/

variable {D : ReceiptDecoders} {r : ReceiptWithBloom}

/-- **The fields that were read are those that are written** when they are spelled in the one
way. -/
theorem spelledFields_iff (hD : D.Lawful) {s g b l : List UInt8} (h : D.ReadsFields r s g b l)
    (hlen : (s ++ (g ++ (b ++ l))).length < 256 ^ 8) (tail : List UInt8) :
    SpelledFields (s ++ (g ++ (b ++ (l ++ tail)))) ↔ r.payload = s ++ (g ++ (b ++ l)) := by
  have hs := hD.readsItems.status.isItem h.status
  have hg := hD.readsItems.u64.isItem h.cumulativeGasUsed
  have hb := hD.readsItems.bloom.isItem h.logsBloom
  have hl := hD.readsItems.logs.isItem h.logs
  have hgas := hD.u64_reads.eq_enc h.cumulativeGasUsed
  have hbloom := hD.bloom_reads.eq_enc h.logsBloom
  constructor
  · rintro ⟨s', g', b', l', tail', hs', hg', hb', hstatus, hlogs, heq⟩
    -- the four items are the same
    obtain ⟨rfl, heqg⟩ := hs.append_inj hs' heq
    obtain ⟨rfl, heqb⟩ := hg.append_inj hg' heqg
    obtain ⟨rfl, heql⟩ := hb.append_inj hb' heqb
    obtain ⟨rfl, -⟩ := hl.append_inj hlogs.isItem heql
    obtain ⟨x, rfl⟩ := spelledStatus_iff.mp hstatus
    have hx := hD.roundTrips.status x []
    rw [List.append_nil, h.status] at hx
    obtain ⟨hx, -⟩ := Prod.mk.inj (Except.ok.inj hx)
    obtain ⟨items, hlist, hitems⟩ := hlogs
    have hl' := hD.logs_lists items l _ hlist hitems h.logs
    rw [ReceiptWithBloom.payload, hx, ← hgas, ← hbloom, ← hl']
  · intro heq
    have hitem := rlpStatus_items _ (rlpStatus_valid r.receipt.status)
    rw [ReceiptWithBloom.payload, ← hgas, ← hbloom] at heq
    obtain ⟨rfl, hrest⟩ := hitem.append_inj hs heq
    obtain rfl : rlpLogs.enc r.receipt.logs = l :=
      List.append_cancel_left (List.append_cancel_left hrest)
    have hvalid : rlpLogs.Valid r.receipt.logs := by
      simp only [List.length_append] at hlen
      exact rlpLogs_carries _ (by omega)
    exact ⟨_, g, b, _, tail, hs, hg, hb, spelledStatus_iff.mpr ⟨_, rfl⟩, spelledLogs_enc hvalid,
      rfl⟩

/-- **A receipt that was read is written as it was read**, and nothing followed it, when its list
is spelled in the one way. -/
theorem spelledList_iff (hD : D.Lawful) {bs rest : List UInt8}
    (h : D.receipt bs = .ok (r, rest)) : SpelledList bs ↔ rlpReceipt.enc r = bs := by
  obtain ⟨s, g, b, l, hlen, rfl, hfields⟩ := hD.receipt_fields _ _ _ h
  have hlist : Rlp.IsList (Rlp.encodeList (s ++ (g ++ (b ++ l)))) (s ++ (g ++ (b ++ l))) :=
    ⟨hlen, rfl⟩
  have hspelled := spelledFields_iff hD hfields hlen []
  rw [List.append_nil] at hspelled
  rw [rlpReceipt_enc]
  constructor
  · intro hspell
    obtain rfl := hlist.isItem.append_eq_nil hspell.choose_spec.1.isItem
    rw [List.append_nil] at hspell ⊢
    rw [hspelled.mp ((spelledList_of_isList hlist).mp hspell)]
  · intro heq
    have hvalid := rlpReceipt_valid (hD.receipt_valid _ _ _ h)
    have hitem := Rlp.isItem_encodeList hvalid
    rw [heq] at hitem
    obtain rfl := hlist.isItem.append_eq_nil hitem
    rw [List.append_nil] at heq ⊢
    exact (spelledList_of_isList hlist).mpr (hspelled.mpr (Rlp.encodeList_injective heq))

/-! ## 3. Which inputs are written back -/

/-- The wire bytes are the input, and the type is the one its first byte says. -/
def Faithful (r : DecodedReceipt) (raw : List UInt8) : Prop :=
  r.toWireBytes = raw ∧ ∀ b body, raw = b :: body →
    (b.toNat < 0x80 → r.txType = b) ∧ (0xc0 ≤ b.toNat → r.txType = 0)

theorem faithful_cons {r : DecodedReceipt} {b : UInt8} {body : List UInt8} :
    Faithful r (b :: body) ↔ r.toWireBytes = b :: body ∧
      (b.toNat < 0x80 → r.txType = b) ∧ (0xc0 ≤ b.toNat → r.txType = 0) := by
  constructor
  · rintro ⟨hw, ht⟩
    exact ⟨hw, ht b body rfl⟩
  · rintro ⟨hw, ht⟩
    refine ⟨hw, fun b' body' heq => ?_⟩
    obtain ⟨rfl, rfl⟩ := List.cons.inj heq
    exact ht

/-- A receipt with a type byte: its bytes behind that. -/
theorem faithful_typed_iff {r : DecodedReceipt} {b : UInt8} {body wire : List UInt8}
    (hb : b.toNat < 0x80) (htype : r.txType = b) (hwire : r.toWireBytes = b :: wire)
    (hspelled : SpelledList body ↔ wire = body) :
    Faithful r (b :: body) ↔ SpelledOnce (b :: body) := by
  rw [faithful_cons, SpelledOnce, if_pos hb, hspelled, hwire]
  constructor
  · rintro ⟨heq, -⟩
    exact (List.cons.inj heq).2
  · rintro rfl
    exact ⟨rfl, fun _ => htype, fun hge => absurd hge (by omega)⟩

/-- The network form: of a list it is the legacy receipt and what follows, of a string never the
input. -/
theorem faithful_envelope_iff (hD : D.Lawful) {b : UInt8} {body rest : List UInt8}
    {e : ReceiptEnvelope} (hb : 0x80 ≤ b.toNat) (h : D.envelope (b :: body) = .ok (e, rest)) :
    Faithful (.ethereum e) (b :: body) ↔ SpelledOnce (b :: body) := by
  rw [faithful_cons, SpelledOnce, if_neg (by omega)]
  by_cases hc0 : b.toNat < 0xc0
  · rw [if_pos hc0]
    refine iff_of_false ?_ not_false
    rintro ⟨hwire, -⟩
    -- the bytes of a typed receipt start with its type
    have htyped := ReceiptEnvelope.encoded2718_typed (hD.envelope_string _ _ _ _ hc0 h)
    have hfirst := (List.cons.inj (htyped.symm.trans hwire)).1
    have hle := e.txType_le
    rw [hfirst] at hle
    omega
  · obtain ⟨htype, hreceipt⟩ := (hD.envelope_list _ _ _ _ (by omega)).mp h
    have hwire : (DecodedReceipt.ethereum e).toWireBytes = rlpReceipt.enc e.receipt :=
      ReceiptEnvelope.encoded2718_legacy htype
    rw [if_neg hc0, spelledList_iff hD hreceipt, hwire]
    constructor
    · exact fun hfaithful => hfaithful.1
    · exact fun heq => ⟨heq, fun hlt => absurd hlt (by omega), fun _ => htype⟩

theorem faithful_decode2718_iff (hD : D.Lawful) {b : UInt8} {body rest : List UInt8}
    {e : ReceiptEnvelope} (hb : b.toNat < 0x80) (h : D.decode2718 (b :: body) = .ok (e, rest)) :
    Faithful (.ethereum e) (b :: body) ↔ SpelledOnce (b :: body) := by
  obtain ⟨htype, hne, hreceipt⟩ := (hD.decode2718_typed _ _ _ _ hb).mp h
  have hwire : (DecodedReceipt.ethereum e).toWireBytes = b :: rlpReceipt.enc e.receipt := by
    rw [← htype]
    exact ReceiptEnvelope.encoded2718_typed (htype ▸ hne)
  exact faithful_typed_iff hb htype hwire (spelledList_iff hD hreceipt)

/-- The tail of a deposit has one spelling. -/
theorem eq_opDepositTail (hD : D.Lawful) {tail : List UInt8} {n v : Option UInt64}
    (h : decodeOpDepositTail D tail = .ok (n, v, [])) :
    tail = DecodedReceipt.opDepositTail n v := by
  rcases (decodeOpDepositTail_eq_ok hD.readsItems).mp h with
    ⟨rfl, rfl, rfl, -⟩ | ⟨m, u, n', v', rfl, hm, hu, rfl, rfl⟩
  · rfl
  · rw [hD.u64_reads.eq_enc hm, hD.u64_reads.eq_enc hu, List.append_nil]
    rfl

theorem faithful_deposit_iff (hD : D.Lawful) {body : List UInt8} {r : DecodedReceipt}
    (h : decodeOpDeposit D body = .ok r) :
    Faithful r (opDepositTxType :: body) ↔ SpelledOnce (opDepositTxType :: body) := by
  obtain ⟨receipt, n, v, s, g, b, l, tail, rfl, hlist, hfields, htail⟩ :=
    (decodeOpDeposit_eq_ok hD.readsItems).mp h
  obtain rfl := eq_opDepositTail hD htail
  have hlen : (s ++ (g ++ (b ++ l))).length < 256 ^ 8 := by
    have hcap := hlist.length_lt
    simp only [List.length_append] at hcap ⊢
    omega
  have hspelled := spelledFields_iff hD hfields hlen (DecodedReceipt.opDepositTail n v)
  refine faithful_typed_iff (by decide) rfl rfl ?_
  rw [spelledList_of_isList hlist, hspelled, hlist.body_eq]
  change _ ↔ Rlp.encodeList _ = Rlp.encodeList _
  rw [Rlp.encodeList_injective.eq_iff]
  constructor
  · intro heq
    rw [heq]
    simp only [List.append_assoc]
  · intro heq
    refine List.append_cancel_right (heq.trans ?_)
    simp only [List.append_assoc]

/-- **An accepted receipt is written back as it was, and has the type its first byte says,
exactly when it is spelled in the one way the trie spells it.** -/
theorem toWireBytes_decodeReceipt_iff (D : ReceiptDecoders) (hD : D.Lawful)
    (receiptIndex : UInt64) (raw : List UInt8) (r : DecodedReceipt)
    (h : decodeReceipt D receiptIndex raw = .ok r) : Faithful r raw ↔ SpelledOnce raw := by
  cases raw with
  | nil => cases h
  | cons b body =>
    have harm : decodeReceiptArm D b body = .ok r := Except.mapError_eq_ok.mp h
    rw [decodeReceiptArm_eq] at harm
    split at harm
    · rename_i h80
      obtain ⟨⟨e, rest⟩, he, rfl⟩ := Except.map_eq_ok.mp harm
      exact faithful_envelope_iff hD h80 he
    rename_i h80
    split at harm
    · obtain ⟨⟨receipt, rest⟩, hreceipt, harm⟩ := Except.bind_eq_ok.mp harm
      obtain ⟨⟨⟩, hrest, harm⟩ := Except.bind_eq_ok.mp harm
      obtain rfl := Except.ok.inj harm
      exact faithful_typed_iff (by omega) rfl rfl
        (spelledList_iff hD (Except.mapError_eq_ok.mp hreceipt))
    split at harm
    · rename_i hdeposit
      subst hdeposit
      exact faithful_deposit_iff hD harm
    split at harm
    · obtain ⟨⟨e, rest⟩, he, rfl⟩ := Except.map_eq_ok.mp harm
      exact faithful_decode2718_iff hD (by omega) he
    · cases harm

/-! ## 4. What is accepted without being one -/

/-- **A legacy receipt is accepted whatever follows it.** -/
theorem decodeReceipt_legacy {r : ReceiptWithBloom} (hv : rlpReceipt.Valid r)
    (receiptIndex : UInt64) (rest : List UInt8) :
    decodeReceipt receiptDecoders receiptIndex (rlpReceipt.enc r ++ rest)
      = .ok (.ethereum (.legacy r)) := by
  obtain ⟨b, body, hcons⟩ : ∃ b body, rlpReceipt.enc r ++ rest = b :: body :=
    List.exists_cons_of_ne_nil (List.append_ne_nil_of_left_ne_nil (rlpReceipt.enc_ne_nil r) rest)
  have harm := decodeReceiptArm_legacy roundTrips_receiptDecoders hv hcons
  rw [hcons, decodeReceipt, harm]
  rfl

theorem decodeReceipt_trailingByte :
    decodeReceipt receiptDecoders 0 (rlpReceipt.enc emptyReceipt ++ [0])
      = .ok (.ethereum (.legacy emptyReceipt)) :=
  decodeReceipt_legacy (valid_of_logs_eq_nil rfl) 0 [0]

/-- Written back, the byte is gone. -/
theorem toWireBytes_trailingByte :
    (DecodedReceipt.ethereum (.legacy emptyReceipt)).toWireBytes
      ≠ rlpReceipt.enc emptyReceipt ++ [0] := fun h =>
  List.cons_ne_nil 0 [] (List.self_eq_append_right.mp h)

/-- A successful receipt without logs, whose status is written as 2 behind an Arbitrum type. -/
def statusTwo : List UInt8 :=
  [2] ++ (rlpU64.enc 0 ++ (rlpBloom.enc default ++ rlpLogs.enc []))

def successReceipt : ReceiptWithBloom := ⟨⟨.eip658 true, 0, []⟩, default⟩

theorem decodeReceipt_statusTwo :
    decodeReceipt receiptDecoders 0 (0x64 :: Rlp.encodeList statusTwo)
      = .ok (.arbitrum 0x64 successReceipt) := by
  have hlen : statusTwo.length < 256 ^ 8 := by decide +kernel
  have hgas := roundTrips_receiptDecoders.u64 0 []
  have hbloom := roundTrips_receiptDecoders.bloom default []
  have hlogs := roundTrips_receiptDecoders.logs [] [] (rlpLogs_carries [] (by decide))
  rw [List.append_nil] at hgas hbloom hlogs
  have hreceipt : decodeReceiptWithBloom (Rlp.encodeList statusTwo) = .ok (successReceipt, []) :=
    decodeReceiptWithBloom_eq_ok.mpr ⟨[2], _, _, _, hlen, (List.append_nil _).symm,
      by decide, hgas, hbloom, hlogs⟩
  have harm : decodeReceiptArm receiptDecoders 0x64 (Rlp.encodeList statusTwo)
      = .ok (.arbitrum 0x64 successReceipt) := by
    rw [decodeReceiptArm_eq, if_neg (by decide), if_pos (by decide)]
    change ((decodeReceiptWithBloom _).mapError _ >>= _) = _
    rw [hreceipt]
    rfl
  rw [decodeReceipt, harm]
  rfl

/-- Written back, the status is 1. -/
theorem toWireBytes_statusTwo :
    (DecodedReceipt.arbitrum 0x64 successReceipt).toWireBytes
      ≠ 0x64 :: Rlp.encodeList statusTwo := by
  intro h
  have hwire : rlpReceipt.enc successReceipt = Rlp.encodeList statusTwo := (List.cons.inj h).2
  rw [rlpReceipt_enc] at hwire
  have hstatus := congrArg List.head? (Rlp.encodeList_injective hwire)
  exact absurd hstatus (by decide)

theorem toWireBytes_decodeReceipt_iff_trailingByte :
    ¬ SpelledOnce (rlpReceipt.enc emptyReceipt ++ [0]) ∧
      ¬ SpelledOnce (0x64 :: Rlp.encodeList statusTwo) ∧
      SpelledOnce plainDeposit.toWireBytes := by
  have hread : decodeReceipt receiptDecoders 0 plainDeposit.toWireBytes = .ok plainDeposit :=
    decodeReceipt_of_length_lt roundTrips_receiptDecoders 0 rfl length_plainDeposit
  have htrailing := toWireBytes_decodeReceipt_iff receiptDecoders lawful_receiptDecoders 0
    (rlpReceipt.enc emptyReceipt ++ [0]) (.ethereum (.legacy emptyReceipt))
    decodeReceipt_trailingByte
  have hstatus := toWireBytes_decodeReceipt_iff receiptDecoders lawful_receiptDecoders 0
    (0x64 :: Rlp.encodeList statusTwo) (.arbitrum 0x64 successReceipt) decodeReceipt_statusTwo
  have hdeposit := toWireBytes_decodeReceipt_iff receiptDecoders lawful_receiptDecoders 0
    plainDeposit.toWireBytes plainDeposit hread
  have hfaithful : Faithful plainDeposit plainDeposit.toWireBytes :=
    faithful_cons.mpr ⟨rfl, fun _ => rfl, fun hge => absurd hge (by decide)⟩
  exact ⟨htrailing.not.mp fun h => toWireBytes_trailingByte h.1,
    hstatus.not.mp fun h => toWireBytes_statusTwo h.1, by rwa [← hdeposit]⟩

theorem decodeReceipt_not_faithful :
    ¬ ∀ (receiptIndex : UInt64) (raw : List UInt8) (r : DecodedReceipt),
      decodeReceipt receiptDecoders receiptIndex raw = .ok r → Faithful r raw := fun hall =>
  toWireBytes_trailingByte (hall 0 _ _ decodeReceipt_trailingByte).1

end EthHistorian
