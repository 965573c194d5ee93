/-
# Execution headers and their RLP

`alloy::consensus::Header`, its RLP list and its hash.  The list holds the fifteen mandatory
fields and then those of the six optional ones that are present, with nothing to mark the ones
that are not: `Header.encode` follows that layout for every header, also for one whose optional
fields are not a prefix of the fork order (`PrefixShape`).

Reading a header is alloy's business, so the reader is a parameter (`HeaderDecoder`) with the
two properties this crate relies on.  `rlpHeaderDecoder` is a reader that has them.
-/
import EthHistorian.Model.AlloyRlp
import Mathlib.Data.List.ReduceOption

namespace EthHistorian

open ByteString

/-! ## 1. The header -/

@[ext] structure Header where
  parentHash : B256
  ommersHash : B256
  beneficiary : Address
  stateRoot : B256
  transactionsRoot : B256
  receiptsRoot : B256
  logsBloom : Bloom
  difficulty : U256
  number : UInt64
  gasLimit : UInt64
  gasUsed : UInt64
  timestamp : UInt64
  extraData : Bytes
  mixHash : B256
  nonce : B64
  baseFeePerGas : Option UInt64
  withdrawalsRoot : Option B256
  blobGasUsed : Option UInt64
  excessBlobGas : Option UInt64
  parentBeaconBlockRoot : Option B256
  requestsHash : Option B256
  deriving DecidableEq, Inhabited

namespace Header

/-- The byte strings of the mandatory fields, in list order. -/
def mandatoryItems (h : Header) : List (List UInt8) :=
  [h.parentHash.bytes, h.ommersHash.bytes, h.beneficiary.bytes, h.stateRoot.bytes,
    h.transactionsRoot.bytes, h.receiptsRoot.bytes, h.logsBloom.bytes, toBE h.difficulty.toNat,
    toBE h.number.toNat, toBE h.gasLimit.toNat, toBE h.gasUsed.toNat, toBE h.timestamp.toNat,
    h.extraData.data, h.mixHash.bytes, h.nonce.bytes]

/-- The byte strings of the optional fields, present or not, in fork order. -/
def optionalItems (h : Header) : List (Option (List UInt8)) :=
  [h.baseFeePerGas.map fun x => toBE x.toNat, h.withdrawalsRoot.map (·.bytes),
    h.blobGasUsed.map fun x => toBE x.toNat, h.excessBlobGas.map fun x => toBE x.toNat,
    h.parentBeaconBlockRoot.map (·.bytes), h.requestsHash.map (·.bytes)]

/-- What the RLP list holds. -/
def items (h : Header) : List (List UInt8) := h.mandatoryItems ++ h.optionalItems.reduceOption

/-- `alloy_rlp::Encodable` for `Header`. -/
def encode (h : Header) : List UInt8 := Rlp.encodeList (h.items.flatMap Rlp.encodeString)

/-- `Header::hash_slow`. -/
def hashSlow (c : Crypto) (h : Header) : B256 := c.keccak256 h.encode

/-- Which optional fields are present, in fork order. -/
def presence (h : Header) : List Bool :=
  [h.baseFeePerGas.isSome, h.withdrawalsRoot.isSome, h.blobGasUsed.isSome,
    h.excessBlobGas.isSome, h.parentBeaconBlockRoot.isSome, h.requestsHash.isSome]

/-- The optional fields present are a prefix of the fork order: none follows an absent one. -/
def PrefixShape (h : Header) : Prop := h.presence.Pairwise fun a b => b = true → a = true

instance (h : Header) : Decidable h.PrefixShape :=
  inferInstanceAs (Decidable (List.Pairwise _ _))

/-! ## 2. The list fits the format -/

theorem length_items_le {l : List (List UInt8)} {k : ℕ} (hk : k < 256 ^ 8)
    (h : ∀ bs ∈ l, bs.length ≤ k) :
    (l.flatMap Rlp.encodeString).length ≤ l.length * (k + 9) := by
  induction l with
  | nil => simp
  | cons b bs ih =>
    have hb : b.length ≤ k := h b List.mem_cons_self
    have hbe := Rlp.length_encodeString_le b (hb.trans_lt hk)
    have ih := ih fun x hx => h x (List.mem_cons_of_mem b hx)
    rw [List.flatMap_cons, List.length_append, List.length_cons, Nat.add_mul, Nat.one_mul]
    omega

theorem length_toBE_u64 (x : UInt64) : (toBE x.toNat).length ≤ 8 :=
  toBE_length_le.mpr (by have := UInt64.toNat_lt x; norm_num; omega)

theorem length_toBE_u256 (x : U256) : (toBE x.toNat).length ≤ 32 :=
  toBE_length_le.mpr (by have := x.isLt; norm_num; omega)

/-- Only the extra data can be long. -/
theorem length_payload_le (h : Header) :
    (h.items.flatMap Rlp.encodeString).length ≤ h.extraData.data.length + 1053 := by
  have hd := h.extraData.length_lt
  have hextra := Rlp.length_encodeString_le h.extraData.data (by norm_num; omega)
  have hbloom := Rlp.length_encodeString_le h.logsBloom.bytes
    (by rw [h.logsBloom.length_eq]; norm_num)
  rw [h.logsBloom.length_eq] at hbloom
  have h64 : ∀ x : UInt64, (toBE x.toNat).length ≤ 32 := fun x =>
    (length_toBE_u64 x).trans (by norm_num)
  have hfix : ∀ {n : ℕ} (x : FixedBytes n), n ≤ 32 → x.bytes.length ≤ 32 := fun x hn => by
    rw [x.length_eq]
    exact hn
  -- the short items before the bloom, between it and the extra data, and after that
  have hpre := length_items_le (k := 32) (by norm_num) (l := h.mandatoryItems.take 6)
    (by simp [mandatoryItems, hfix])
  have hmid := length_items_le (k := 32) (by norm_num)
    (l := [toBE h.difficulty.toNat, toBE h.number.toNat, toBE h.gasLimit.toNat,
      toBE h.gasUsed.toNat, toBE h.timestamp.toNat]) (by simp [h64, length_toBE_u256])
  have hpost := length_items_le (k := 32) (by norm_num) (l := [h.mixHash.bytes, h.nonce.bytes])
    (by simp [hfix])
  have hopt := length_items_le (k := 32) (by norm_num) (l := h.optionalItems.reduceOption) (by
    intro bs hbs
    rw [List.reduceOption_mem_iff] at hbs
    simp only [optionalItems, List.mem_cons, Option.map_eq_some_iff, List.not_mem_nil, or_false,
      eq_comm (a := some bs)] at hbs
    rcases hbs with
      ⟨x, -, rfl⟩ | ⟨x, -, rfl⟩ | ⟨x, -, rfl⟩ | ⟨x, -, rfl⟩ | ⟨x, -, rfl⟩ | ⟨x, -, rfl⟩
    all_goals first | exact h64 x | exact hfix x (by norm_num))
  have hoptlen : h.optionalItems.reduceOption.length ≤ 6 := List.reduceOption_length_le _
  have hsplit : h.items = h.mandatoryItems.take 6 ++ ([h.logsBloom.bytes] ++
      ([toBE h.difficulty.toNat, toBE h.number.toNat, toBE h.gasLimit.toNat,
        toBE h.gasUsed.toNat, toBE h.timestamp.toNat] ++ ([h.extraData.data] ++
      ([h.mixHash.bytes, h.nonce.bytes] ++ h.optionalItems.reduceOption)))) := rfl
  have htake : (h.mandatoryItems.take 6).length = 6 := rfl
  rw [htake] at hpre
  simp only [List.length_cons, List.length_nil] at hmid hpost
  rw [hsplit, List.flatMap_append, List.flatMap_append, List.flatMap_append, List.flatMap_append,
    List.flatMap_append, List.flatMap_singleton, List.flatMap_singleton]
  simp only [List.length_append]
  omega

theorem length_payload_lt (h : Header) :
    (h.items.flatMap Rlp.encodeString).length < 256 ^ 8 := by
  have hle := length_payload_le h
  have hd := h.extraData.length_lt
  norm_num at *
  omega

/-- A header whose extra data is of ordinary size fits the byte list it travels in. -/
theorem length_encode_le (h : Header) (hd : h.extraData.data.length ≤ 900) :
    h.encode.length ≤ 2048 := by
  have hle := length_payload_le h
  have hlist := Rlp.length_encodeList_le (length_payload_lt h)
  unfold encode
  omega

/-- A header's list, and how far it reaches. -/
theorem itemLength_encode (h : Header) (rest : List UInt8) :
    Rlp.itemLength (h.encode ++ rest) = some h.encode.length :=
  Rlp.itemLength_encodeList (length_payload_lt h)

/-! ## 3. What the encoding determines -/

/-- Lists with gaps at the same places are determined by what they hold. -/
theorem eq_of_reduceOption_eq {α : Type} {l l' : List (Option α)}
    (h : l.map Option.isSome = l'.map Option.isSome)
    (hr : l.reduceOption = l'.reduceOption) : l = l' := by
  induction l generalizing l' with
  | nil => exact (List.map_eq_nil_iff.mp h.symm).symm
  | cons x l ih =>
    cases l' with
    | nil => simp at h
    | cons y l' =>
      obtain ⟨hxy, hl⟩ := List.cons.inj h
      cases x with
      | none =>
        obtain rfl : y = none := by simpa using hxy.symm
        rw [ih hl (by simpa using hr)]
      | some a =>
        obtain ⟨b, rfl⟩ := Option.isSome_iff_exists.mp hxy.symm
        simp only [List.reduceOption_cons_of_some, List.cons.injEq] at hr
        rw [hr.1, ih hl hr.2]

theorem map_isSome_optionalItems (h : Header) :
    h.optionalItems.map Option.isSome = h.presence := by
  simp [optionalItems, presence]

theorem toBE_u64_injective : Function.Injective fun x : UInt64 => toBE x.toNat := fun _ _ h =>
  UInt64.toNat_inj.mp (toBE_inj h)

theorem bytes_injective (n : ℕ) : Function.Injective (FixedBytes.bytes (n := n)) := fun _ _ h =>
  FixedBytes.ext h

/-- The byte strings of all the fields are the fields. -/
theorem eq_of_allItems {h h' : Header} (hm : h.mandatoryItems = h'.mandatoryItems)
    (ho : h.optionalItems = h'.optionalItems) : h = h' := by
  simp only [mandatoryItems, List.cons.injEq, and_true] at hm
  simp only [optionalItems, List.cons.injEq, and_true] at ho
  obtain ⟨h1, h2, h3, h4, h5, h6, h7, h8, h9, h10, h11, h12, h13, h14, h15⟩ := hm
  obtain ⟨o1, o2, o3, o4, o5, o6⟩ := ho
  have hnum := Option.map_injective toBE_u64_injective
  have hroot := Option.map_injective (bytes_injective 32)
  exact Header.ext (FixedBytes.ext h1) (FixedBytes.ext h2) (FixedBytes.ext h3) (FixedBytes.ext h4)
    (FixedBytes.ext h5) (FixedBytes.ext h6) (FixedBytes.ext h7) (BitVec.toNat_inj.mp (toBE_inj h8))
    (toBE_u64_injective h9) (toBE_u64_injective h10) (toBE_u64_injective h11)
    (toBE_u64_injective h12) (Bytes.ext h13) (FixedBytes.ext h14) (FixedBytes.ext h15) (hnum o1)
    (hroot o2) (hnum o3) (hnum o4) (hroot o5) (hroot o6)

/-- Equal encodings hold equal items. -/
theorem items_eq_of_encode_eq {h h' : Header} (he : h.encode = h'.encode) :
    h.items = h'.items := by
  have hvalid : ∀ h : Header, (Rlp.list (.many Rlp.str)).Valid h.items := fun h => by
    have hlt := length_payload_lt h
    refine ⟨fun bs hbs => ?_, hlt⟩
    have hle : bs.length ≤ (h.items.flatMap Rlp.encodeString).length :=
      (Rlp.length_le_encodeString bs).trans
        (List.Sublist.length_le (List.sublist_flatten_of_mem (List.mem_map_of_mem hbs)))
    exact hle.trans_lt hlt
  have happ : (Rlp.list (.many Rlp.str)).enc h.items ++ []
      = (Rlp.list (.many Rlp.str)).enc h'.items ++ [] := by
    rw [List.append_nil, List.append_nil]
    exact he
  exact ((Rlp.list (.many Rlp.str)).enc_append_inj (hvalid h) (hvalid h') happ).1

/-- **The encoding and the places of the gaps determine the header.** -/
theorem eq_of_encode_eq {h h' : Header} (he : h.encode = h'.encode)
    (hp : h.presence = h'.presence) : h = h' := by
  have hitems := items_eq_of_encode_eq he
  obtain ⟨hm, hr⟩ := List.append_inj hitems rfl
  refine eq_of_allItems hm (eq_of_reduceOption_eq ?_ hr)
  rw [map_isSome_optionalItems, map_isSome_optionalItems, hp]

end Header

/-! ## 4. Reading a header -/

/-- `<Header as alloy_rlp::Decodable>::decode`: the header, and the unread rest of the buffer. -/
structure HeaderDecoder where
  decode : List UInt8 → Except Rlp.Error (Header × List UInt8)
  /-- It reads the optional fields one after the other, and accepts canonical RLP only. -/
  canonical : ∀ {bs rest : List UInt8} {h : Header}, decode bs = .ok (h, rest) →
    h.PrefixShape ∧ bs = h.encode ++ rest
  /-- It reads back a header of ordinary size. -/
  roundTrip : ∀ {h : Header} (rest : List UInt8), h.PrefixShape → h.encode.length ≤ 2048 →
    decode (h.encode ++ rest) = .ok (h, rest)

/-! A reader with these properties, from the library's items. -/

/-- The optional fields, each behind the one before it. -/
abbrev OptionalFields :=
  Option (UInt64 × Option (B256 × Option (UInt64 × Option (UInt64 × Option (B256 ×
    Option (B256 × Unit))))))

abbrev HeaderFields :=
  B256 × B256 × Address × B256 × B256 × B256 × Bloom × U256 × UInt64 × UInt64 × UInt64 × UInt64 ×
    Bytes × B256 × B64 × OptionalFields

def optionalPayload : Payload Rlp.Error OptionalFields :=
  .opt rlpU64 (.opt (rlpFixedBytes 32) (.opt rlpU64 (.opt rlpU64 (.opt (rlpFixedBytes 32)
    (.opt (rlpFixedBytes 32) (.nil .unexpectedLength))))))

def headerPayload : Payload Rlp.Error HeaderFields :=
  .cons (rlpFixedBytes 32) <| .cons (rlpFixedBytes 32) <| .cons (rlpFixedBytes 20) <|
  .cons (rlpFixedBytes 32) <| .cons (rlpFixedBytes 32) <| .cons (rlpFixedBytes 32) <|
  .cons (rlpFixedBytes 256) <| .cons rlpU256 <| .cons rlpU64 <| .cons rlpU64 <| .cons rlpU64 <|
  .cons rlpU64 <| .cons rlpBytes <| .cons (rlpFixedBytes 32) <| .cons (rlpFixedBytes 8) <|
  optionalPayload

/-- The fields of a header, the optional ones up to the first that is absent. -/
def Header.toFields (h : Header) : HeaderFields :=
  (h.parentHash, h.ommersHash, h.beneficiary, h.stateRoot, h.transactionsRoot, h.receiptsRoot,
    h.logsBloom, h.difficulty, h.number, h.gasLimit, h.gasUsed, h.timestamp, h.extraData,
    h.mixHash, h.nonce,
    h.baseFeePerGas.map fun a => (a, h.withdrawalsRoot.map fun b => (b,
      h.blobGasUsed.map fun c => (c, h.excessBlobGas.map fun d => (d,
        h.parentBeaconBlockRoot.map fun e => (e, h.requestsHash.map fun f => (f, ())))))))

def Header.ofFields : HeaderFields → Header
  | (x1, x2, x3, x4, x5, x6, x7, x8, x9, x10, x11, x12, x13, x14, x15, o1) =>
    let o2 := o1.bind (·.2)
    let o3 := o2.bind (·.2)
    let o4 := o3.bind (·.2)
    let o5 := o4.bind (·.2)
    let o6 := o5.bind (·.2)
    ⟨x1, x2, x3, x4, x5, x6, x7, x8, x9, x10, x11, x12, x13, x14, x15, o1.map (·.1),
      o2.map (·.1), o3.map (·.1), o4.map (·.1), o5.map (·.1), o6.map (·.1)⟩

theorem Header.prefixShape_ofFields (t : HeaderFields) : (Header.ofFields t).PrefixShape := by
  obtain ⟨-, -, -, -, -, -, -, -, -, -, -, -, -, -, -, o1⟩ := t
  rcases o1 with _ | ⟨a, _ | ⟨b, _ | ⟨c, _ | ⟨d, _ | ⟨e, _ | ⟨f, _⟩⟩⟩⟩⟩⟩ <;>
    simp [Header.PrefixShape, Header.presence, Header.ofFields]

/-- Nothing is lost when no optional field follows an absent one. -/
theorem Header.ofFields_toFields {h : Header} (hp : h.PrefixShape) :
    Header.ofFields h.toFields = h := by
  obtain ⟨x1, x2, x3, x4, x5, x6, x7, x8, x9, x10, x11, x12, x13, x14, x15, o1, o2, o3, o4, o5,
    o6⟩ := h
  -- after the first absent field, the shape leaves no choice for the rest
  rcases o1 with _ | a
  · simp [PrefixShape, presence] at hp
    obtain ⟨⟨rfl, rfl, rfl, rfl, rfl⟩, -⟩ := hp
    rfl
  rcases o2 with _ | b
  · simp [PrefixShape, presence] at hp
    obtain ⟨⟨rfl, rfl, rfl, rfl⟩, -⟩ := hp
    rfl
  rcases o3 with _ | c
  · simp [PrefixShape, presence] at hp
    obtain ⟨⟨rfl, rfl, rfl⟩, -⟩ := hp
    rfl
  rcases o4 with _ | d
  · simp [PrefixShape, presence] at hp
    obtain ⟨⟨rfl, rfl⟩, -⟩ := hp
    rfl
  rcases o5 with _ | e
  · simp [PrefixShape, presence] at hp
    obtain rfl := hp
    rfl
  rcases o6 with _ | f <;> rfl

theorem optionalPayload_enc (t : HeaderFields) :
    optionalPayload.enc t.2.2.2.2.2.2.2.2.2.2.2.2.2.2.2
      = (Header.ofFields t).optionalItems.reduceOption.flatMap Rlp.encodeString := by
  obtain ⟨-, -, -, -, -, -, -, -, -, -, -, -, -, -, -, o1⟩ := t
  simp only [Header.ofFields, Header.optionalItems, optionalPayload, Payload.opt, Payload.cons,
    Payload.nil, rlpU64_enc, rlpFixedBytes_enc]
  rcases o1 with _ | ⟨a, _ | ⟨b, _ | ⟨c, _ | ⟨d, _ | ⟨e, _ | ⟨f, _⟩⟩⟩⟩⟩⟩ <;>
    simp only [Option.map_none, Option.map_some, Option.bind_none, Option.bind_some,
      List.reduceOption_cons_of_none, List.reduceOption_cons_of_some, List.reduceOption_nil,
      List.flatMap_cons, List.flatMap_nil, List.append_nil]

theorem headerPayload_enc (t : HeaderFields) :
    headerPayload.enc t = (Header.ofFields t).items.flatMap Rlp.encodeString := by
  rw [Header.items, List.flatMap_append, ← optionalPayload_enc]
  simp only [headerPayload, Payload.cons, Header.ofFields, Header.mandatoryItems, rlpU64_enc,
    rlpFixedBytes_enc, rlpU256_enc, rlpBytes_enc, List.flatMap_cons, List.flatMap_nil,
    List.append_assoc, List.nil_append]

theorem headerPayload_valid (t : HeaderFields) : headerPayload.Valid t := by
  have h32 : ∀ x, (rlpFixedBytes 32).Valid x := rlpFixedBytes_valid (by norm_num)
  have h20 : ∀ x, (rlpFixedBytes 20).Valid x := rlpFixedBytes_valid (by norm_num)
  have h256 : ∀ x, (rlpFixedBytes 256).Valid x := rlpFixedBytes_valid (by norm_num)
  have h8 : ∀ x, (rlpFixedBytes 8).Valid x := rlpFixedBytes_valid (by norm_num)
  obtain ⟨x1, x2, x3, x4, x5, x6, x7, x8, x9, x10, x11, x12, x13, x14, x15, o1⟩ := t
  have ho : optionalPayload.Valid o1 := fun _ _ => ⟨rlpU64_valid _, fun _ _ => ⟨h32 _, fun _ _ =>
    ⟨rlpU64_valid _, fun _ _ => ⟨rlpU64_valid _, fun _ _ => ⟨h32 _, fun _ _ => ⟨h32 _, trivial⟩⟩⟩⟩⟩⟩
  exact ⟨h32 _, h32 _, h20 _, h32 _, h32 _, h32 _, h256 _, rlpU256_valid _, rlpU64_valid _,
    rlpU64_valid _, rlpU64_valid _, rlpU64_valid _, rlpBytes_valid _, h32 _, h8 _, ho⟩

/-- The list of the fields, as a header. -/
def rlpHeader : Codec Rlp.Error HeaderFields := Rlp.list headerPayload

theorem rlpHeader_enc (t : HeaderFields) : rlpHeader.enc t = (Header.ofFields t).encode := by
  rw [Header.encode, ← headerPayload_enc]
  rfl

theorem rlpHeader_valid (t : HeaderFields) : rlpHeader.Valid t := by
  refine ⟨headerPayload_valid t, ?_⟩
  rw [headerPayload_enc]
  exact Header.length_payload_lt _

def rlpHeaderDecoder : HeaderDecoder where
  decode bs := (rlpHeader.dec bs).map fun (t, rest) => (Header.ofFields t, rest)
  canonical := by
    intro bs rest h hd
    obtain ⟨⟨t, r⟩, ht, heq⟩ := Except.map_eq_ok.mp hd
    obtain ⟨rfl, rfl⟩ := Prod.mk.inj heq
    refine ⟨Header.prefixShape_ofFields t, ?_⟩
    rw [← rlpHeader_enc]
    exact (rlpHeader.dec_eq_ok.mp ht).2
  roundTrip := by
    intro h rest hp _
    have henc : rlpHeader.enc h.toFields = h.encode := by
      rw [rlpHeader_enc, Header.ofFields_toFields hp]
    have hd : rlpHeader.dec (h.encode ++ rest) = .ok (h.toFields, rest) := by
      rw [← henc]
      exact rlpHeader.dec_enc _ rest (rlpHeader_valid _)
    rw [hd]
    exact congrArg (fun x => Except.ok (x, rest)) (Header.ofFields_toFields hp)

end EthHistorian
