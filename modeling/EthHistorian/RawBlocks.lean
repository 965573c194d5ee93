/-
# What a node's block becomes

The node that serves blocks is not trusted, so its answer has to be read without an accident,
and an honest answer without a loss.

* `rawBlockToAlloyHeader_clean_iff`: whatever strings come, a header comes out or an error, and an
  error when a field is not of its width or its type, unless the difficulty is more than 64
  digits long and the seven fields in front of it are fine.  Then the parser aborts.
* `rawBlockToAlloyHeader_honest_iff`: the header of an honest answer comes back, unless it has a
  requests hash.  `RawBlock` has no such field, so a Prague header loses it and with it its hash.
-/
import EthHistorian.Model.RawBlock
import EthHistorian.Model.TreeHash

namespace EthHistorian

open ByteString

/-! ## 1. What the strings have to be -/

/-- The text decodes to so many bytes. -/
def Str.HasWidth (s : Str) (n : ℕ) : Prop :=
  ∃ raw, Hex.decode (Hex.trimMarkers s.bytes) = .ok raw ∧ raw.length = n

/-- The text is the numeral of a 64-bit number. -/
def Str.FitsU64 (s : Str) : Prop :=
  ∃ n < 2 ^ 64, Hex.numeral (Hex.trimMarkers s.bytes) = some n

/-- The text is the numeral of a 256-bit number; the empty one stands for zero. -/
def Str.FitsU256 (s : Str) : Prop :=
  ∃ n < 2 ^ 256, Hex.readFrom 0 (Hex.trimMarkers s.bytes) = some n

namespace RawBlock

/-- The fields that are read before the difficulty, with their widths. -/
def beforeDifficulty (raw : RawBlock) : List (Str × ℕ) :=
  [(raw.parentHash, 32), (raw.unclesHash, 32), (raw.miner, 20), (raw.stateRoot, 32),
    (raw.transactionsRoot, 32), (raw.receiptsRoot, 32), (raw.logsBloom, 256)]

/-- The fields of a fixed width that are present and read; the source keeps `hash` unread. -/
def fixedWidth (raw : RawBlock) : List (Str × ℕ) :=
  raw.beforeDifficulty ++ [(raw.mixHash, 32), (raw.nonce, 8)] ++
    ([raw.withdrawalsRoot, raw.parentBeaconBlockRoot].reduceOption.map fun s => (s, 32))

/-- The quantities of 64 bits that are present. -/
def quantities64 (raw : RawBlock) : List Str :=
  [raw.number, raw.gasLimit, raw.gasUsed, raw.timestamp] ++
    [raw.baseFeePerGas, raw.blobGasUsed, raw.excessBlobGas].reduceOption

/-- Every field of a fixed width has it, and every quantity fits its type. -/
structure WellFormed (raw : RawBlock) : Prop where
  fixedWidth : ∀ p ∈ raw.fixedWidth, p.1.HasWidth p.2
  quantities64 : ∀ s ∈ raw.quantities64, s.FitsU64
  difficulty : raw.difficulty.FitsU256

/-- The difficulty is reached, and has more digits than 256 bits have. -/
structure DifficultyTooLong (raw : RawBlock) : Prop where
  reached : ∀ p ∈ raw.beforeDifficulty, p.1.HasWidth p.2
  digits : ∃ n, Hex.readFrom 0 (Hex.trimMarkers raw.difficulty.bytes) = some n
  tooLong : 64 < (Hex.trimMarkers raw.difficulty.bytes).length

end RawBlock

theorem exists_parseFixed_iff {n : ℕ} {s : Str} (name : String) :
    (∃ x, parseFixed n name s = .ok x) ↔ s.HasWidth n := by
  simp only [parseFixed_eq_ok]
  constructor
  · rintro ⟨x, hx⟩
    exact ⟨x.bytes, hx, x.length_eq⟩
  · rintro ⟨raw, hraw, hlen⟩
    exact ⟨⟨raw, hlen⟩, hraw⟩

theorem fitsU64_of_parseU64 {s : Str} {field : String} {x : UInt64}
    (h : parseU64 s field = .ok x) : s.FitsU64 :=
  ⟨x.toNat, UInt64.toNat_lt x, parseU64_eq_ok.mp h⟩

theorem fitsU256_of_parseU256 {overflowChecks : Bool} {w : PointerWidth} {s : Str} {x : U256}
    (h : parseU256 overflowChecks w s = .ok x) : s.FitsU256 :=
  ⟨x.toNat, x.isLt, (parseU256_eq_ok.mp h).1⟩

/-- What an optional field has to be, when it is present. -/
theorem of_parseOptional {α : Type} {parse : Str → Except Error α} {s : Option Str} {t : Str}
    {x : Option α} {P : Prop} (h : parseOptional parse s = .ok x) (hs : s = some t)
    (hP : ∀ a, parse t = .ok a → P) : P := by
  rcases parseOptional_eq_ok.mp h with ⟨hnone, -⟩ | ⟨u, a, hsome, -, hu⟩
  · rw [hs] at hnone
    cases hnone
  · obtain rfl := Option.some.inj (hs.symm.trans hsome)
    exact hP a hu

/-! ## 2. What the code does with them -/

/-- **What is accepted is well-formed.** -/
theorem wellFormed_of_rawBlockToAlloyHeader {overflowChecks : Bool} {w : PointerWidth}
    {raw : RawBlock} {h : Header} (hok : rawBlockToAlloyHeader overflowChecks w raw = .ok h) :
    raw.WellFormed := by
  unfold rawBlockToAlloyHeader at hok
  simp only [Outcome.bind_eq_ok, Outcome.ofExcept_eq_ok, Outcome.pure_eq] at hok
  obtain ⟨_, h1, _, h2, _, h3, _, h4, _, h5, _, h6, _, h7, _, h8, _, h9, _, h10, _, h11, _, h12,
    _, -, _, h14, _, h15, _, h16, _, h17, _, h18, _, h19, _, h20, -⟩ := hok
  constructor
  · simp only [RawBlock.fixedWidth, RawBlock.beforeDifficulty, List.forall_mem_append,
      List.forall_mem_cons, List.forall_mem_map]
    refine ⟨⟨⟨(exists_parseFixed_iff _).mp ⟨_, h1⟩, (exists_parseFixed_iff _).mp ⟨_, h2⟩,
      (exists_parseFixed_iff _).mp ⟨_, h3⟩, (exists_parseFixed_iff _).mp ⟨_, h4⟩,
      (exists_parseFixed_iff _).mp ⟨_, h5⟩, (exists_parseFixed_iff _).mp ⟨_, h6⟩,
      (exists_parseFixed_iff _).mp ⟨_, h7⟩, fun _ h => absurd h List.not_mem_nil⟩,
      (exists_parseFixed_iff _).mp ⟨_, h14⟩, (exists_parseFixed_iff _).mp ⟨_, h15⟩,
      fun _ h => absurd h List.not_mem_nil⟩, fun s hs => ?_⟩
    simp only [List.reduceOption_mem_iff, List.mem_cons, List.not_mem_nil, or_false] at hs
    rcases hs with hs | hs
    · exact of_parseOptional h17 hs.symm fun _ h => (exists_parseFixed_iff _).mp ⟨_, h⟩
    · exact of_parseOptional h20 hs.symm fun _ h => (exists_parseFixed_iff _).mp ⟨_, h⟩
  · simp only [RawBlock.quantities64, List.forall_mem_append, List.forall_mem_cons]
    refine ⟨⟨fitsU64_of_parseU64 h9, fitsU64_of_parseU64 h10, fitsU64_of_parseU64 h11,
      fitsU64_of_parseU64 h12, fun _ h => absurd h List.not_mem_nil⟩, fun s hs => ?_⟩
    simp only [List.reduceOption_mem_iff, List.mem_cons, List.not_mem_nil, or_false] at hs
    rcases hs with hs | hs | hs
    · exact of_parseOptional h16 hs.symm fun _ h => fitsU64_of_parseU64 h
    · exact of_parseOptional h18 hs.symm fun _ h => fitsU64_of_parseU64 h
    · exact of_parseOptional h19 hs.symm fun _ h => fitsU64_of_parseU64 h
  · exact fitsU256_of_parseU256 h8

/-- **It aborts on an overlong difficulty, and on nothing else.** -/
theorem rawBlockToAlloyHeader_panic {overflowChecks : Bool} {w : PointerWidth} {raw : RawBlock} :
    (∃ msg, rawBlockToAlloyHeader overflowChecks w raw = .panic msg) ↔ raw.DifficultyTooLong := by
  unfold rawBlockToAlloyHeader
  simp only [Outcome.bind_eq_panic, Outcome.ofExcept_eq_ok, Outcome.pure_eq,
    Outcome.ofExcept_ne_panic, false_or, reduceCtorEq, and_false, exists_false, or_false]
  constructor
  · rintro ⟨msg, _, h1, _, h2, _, h3, _, h4, _, h5, _, h6, _, h7, h8⟩
    obtain ⟨hdigits, hlong⟩ := parseU256_panic.mp ⟨msg, h8⟩
    refine ⟨?_, hdigits, hlong⟩
    simp only [RawBlock.beforeDifficulty, List.forall_mem_cons]
    exact ⟨(exists_parseFixed_iff _).mp ⟨_, h1⟩, (exists_parseFixed_iff _).mp ⟨_, h2⟩,
      (exists_parseFixed_iff _).mp ⟨_, h3⟩, (exists_parseFixed_iff _).mp ⟨_, h4⟩,
      (exists_parseFixed_iff _).mp ⟨_, h5⟩, (exists_parseFixed_iff _).mp ⟨_, h6⟩,
      (exists_parseFixed_iff _).mp ⟨_, h7⟩, fun _ h => absurd h List.not_mem_nil⟩
  · rintro ⟨hreached, hdigits, hlong⟩
    simp only [RawBlock.beforeDifficulty, List.forall_mem_cons] at hreached
    obtain ⟨h1, h2, h3, h4, h5, h6, h7, -⟩ := hreached
    obtain ⟨x1, h1⟩ := (exists_parseFixed_iff "parent_hash").mpr h1
    obtain ⟨x2, h2⟩ := (exists_parseFixed_iff "uncles_hash").mpr h2
    obtain ⟨x3, h3⟩ := (exists_parseFixed_iff "address").mpr h3
    obtain ⟨x4, h4⟩ := (exists_parseFixed_iff "state_root").mpr h4
    obtain ⟨x5, h5⟩ := (exists_parseFixed_iff "transactions_root").mpr h5
    obtain ⟨x6, h6⟩ := (exists_parseFixed_iff "receipts_root").mpr h6
    obtain ⟨x7, h7⟩ := (exists_parseFixed_iff "logs_bloom").mpr h7
    obtain ⟨msg, h8⟩ := parseU256_panic.mpr ⟨hdigits, hlong⟩
    exact ⟨msg, x1, h1, x2, h2, x3, h3, x4, h4, x5, h5, x6, h6, x7, h7, h8⟩

/-- **A lying node gets an error**, for every answer but one kind. -/
theorem rawBlockToAlloyHeader_clean_iff (overflowChecks : Bool) (w : PointerWidth)
    (raw : RawBlock) :
    ((rawBlockToAlloyHeader overflowChecks w raw).Returns ∧
        (¬ raw.WellFormed → ∃ e, rawBlockToAlloyHeader overflowChecks w raw = .err e)) ↔
      ¬ raw.DifficultyTooLong := by
  rw [Outcome.returns_iff_not_panic, rawBlockToAlloyHeader_panic]
  refine ⟨And.left, fun hnot => ⟨hnot, fun hill => ?_⟩⟩
  have hreturns : (rawBlockToAlloyHeader overflowChecks w raw).Returns := by
    rwa [Outcome.returns_iff_not_panic, rawBlockToAlloyHeader_panic]
  rcases Outcome.returns_iff.mp hreturns with ⟨h, hok⟩ | herr
  · exact absurd (wellFormed_of_rawBlockToAlloyHeader hok) hill
  · exact herr

theorem length_mark_zeros {digits : ℕ} (h : digits < 2 ^ 32) :
    (Hex.mark (List.replicate digits 48)).length < 2 ^ 63 := by
  rw [Hex.mark, List.length_cons, List.length_cons, List.length_replicate]
  omega

/-- An answer of zeros, with a difficulty of 33 bytes. -/
def zeroText (digits : ℕ) (h : digits < 2 ^ 32) : Str :=
  ⟨Hex.mark (List.replicate digits 48), length_mark_zeros h⟩

def lyingBlock : RawBlock where
  number := zeroText 1 (by norm_num)
  hash := zeroText 64 (by norm_num)
  parentHash := zeroText 64 (by norm_num)
  unclesHash := zeroText 64 (by norm_num)
  miner := zeroText 40 (by norm_num)
  stateRoot := zeroText 64 (by norm_num)
  transactionsRoot := zeroText 64 (by norm_num)
  receiptsRoot := zeroText 64 (by norm_num)
  logsBloom := zeroText 512 (by norm_num)
  difficulty := zeroText 66 (by norm_num)
  gasLimit := zeroText 1 (by norm_num)
  gasUsed := zeroText 1 (by norm_num)
  timestamp := zeroText 1 (by norm_num)
  extraData := zeroText 0 (by norm_num)
  mixHash := zeroText 64 (by norm_num)
  nonce := zeroText 16 (by norm_num)
  baseFeePerGas := none
  withdrawalsRoot := none
  blobGasUsed := none
  excessBlobGas := none
  parentBeaconBlockRoot := none

theorem trimMarkers_zeroText {digits : ℕ} (h : digits < 2 ^ 32) :
    Hex.trimMarkers (zeroText digits h).bytes = List.replicate digits 48 :=
  Hex.trimMarkers_mark fun hmem => by
    have heq := List.eq_of_mem_replicate hmem
    cases heq

theorem readFrom_zeros (digits : ℕ) : Hex.readFrom 0 (List.replicate digits 48) = some 0 := by
  induction digits with
  | zero => rfl
  | succ digits ih => exact ih

/-- A text of zeros has the width of half its digits. -/
theorem hasWidth_zeroText {n : ℕ} (h : 2 * n < 2 ^ 32) : (zeroText (2 * n) h).HasWidth n := by
  have heven : (List.replicate (2 * n) (48 : UInt8)).length % 2 = 0 := by
    rw [List.length_replicate]
    omega
  obtain ⟨raw, hraw, -⟩ := Hex.exists_decode heven (readFrom_zeros _)
  refine ⟨raw, by rw [trimMarkers_zeroText, hraw], ?_⟩
  have hlen := (Hex.decode_eq_ok.mp hraw).1
  rw [List.length_replicate] at hlen
  omega

theorem difficultyTooLong_lyingBlock : lyingBlock.DifficultyTooLong := by
  constructor
  · simp only [RawBlock.beforeDifficulty, List.forall_mem_cons]
    have h32 : (zeroText 64 (by norm_num)).HasWidth 32 := hasWidth_zeroText (n := 32) (by norm_num)
    have h20 : (zeroText 40 (by norm_num)).HasWidth 20 := hasWidth_zeroText (n := 20) (by norm_num)
    have h256 : (zeroText 512 (by norm_num)).HasWidth 256 :=
      hasWidth_zeroText (n := 256) (by norm_num)
    exact ⟨h32, h32, h20, h32, h32, h32, h256, fun _ h => absurd h List.not_mem_nil⟩
  · exact ⟨0, by rw [lyingBlock, trimMarkers_zeroText, readFrom_zeros]⟩
  · rw [lyingBlock, trimMarkers_zeroText, List.length_replicate]
    norm_num

theorem rawBlockToAlloyHeader_not_clean :
    ¬ ∀ (overflowChecks : Bool) (w : PointerWidth) (raw : RawBlock),
      (rawBlockToAlloyHeader overflowChecks w raw).Returns ∧
        (¬ raw.WellFormed → ∃ e, rawBlockToAlloyHeader overflowChecks w raw = .err e) := by
  intro hall
  obtain ⟨msg, hpanic⟩ : ∃ msg, rawBlockToAlloyHeader false .w64 lyingBlock = .panic msg :=
    rawBlockToAlloyHeader_panic.mpr difficultyTooLong_lyingBlock
  exact (hall false .w64 lyingBlock).1 msg hpanic

/-! ## 3. An honest answer -/

/-- Data at full width, and a quantity without leading zeros. -/
def hexData (bs : List UInt8) : List UInt8 := Hex.mark (Hex.encode bs)
def hexQuantity (n : ℕ) : List UInt8 := Hex.mark (Hex.digits n)

/-- The members of the object of a header, with their texts.  An absent field has none. -/
def Header.blockTexts (c : Crypto) (h : Header) : List (String × Option (List UInt8)) :=
  [("number", some (hexQuantity h.number.toNat)),
    ("hash", some (hexData (h.hashSlow c).bytes)),
    ("parentHash", some (hexData h.parentHash.bytes)),
    ("sha3Uncles", some (hexData h.ommersHash.bytes)),
    ("miner", some (hexData h.beneficiary.bytes)),
    ("stateRoot", some (hexData h.stateRoot.bytes)),
    ("transactionsRoot", some (hexData h.transactionsRoot.bytes)),
    ("receiptsRoot", some (hexData h.receiptsRoot.bytes)),
    ("logsBloom", some (hexData h.logsBloom.bytes)),
    ("difficulty", some (hexQuantity h.difficulty.toNat)),
    ("gasLimit", some (hexQuantity h.gasLimit.toNat)),
    ("gasUsed", some (hexQuantity h.gasUsed.toNat)),
    ("timestamp", some (hexQuantity h.timestamp.toNat)),
    ("extraData", some (hexData h.extraData.data)),
    ("mixHash", some (hexData h.mixHash.bytes)),
    ("nonce", some (hexData h.nonce.bytes)),
    ("baseFeePerGas", h.baseFeePerGas.map fun x => hexQuantity x.toNat),
    ("withdrawalsRoot", h.withdrawalsRoot.map fun x => hexData x.bytes),
    ("blobGasUsed", h.blobGasUsed.map fun x => hexQuantity x.toNat),
    ("excessBlobGas", h.excessBlobGas.map fun x => hexQuantity x.toNat),
    ("parentBeaconBlockRoot", h.parentBeaconBlockRoot.map fun x => hexData x.bytes),
    ("requestsHash", h.requestsHash.map fun x => hexData x.bytes)]

/-- The member of that name, once, and with that text; or no such member. -/
def HasText (members : List (String × Json)) (name : String) : Option (List UInt8) → Prop
  | some text => ∃ s : Str, s.bytes = text ∧ Json.member members name = some (some (.string s))
  | none => Json.member members name = some none

/-- An object for a header: its members in any order, among any others. -/
def Header.IsBlockObject (c : Crypto) (h : Header) (members : List (String × Json)) : Prop :=
  ∀ p ∈ h.blockTexts c, HasText members p.1 p.2

theorem requiredString_of_hasText {members : List (String × Json)} {name : String}
    {text : List UInt8} (h : HasText members name (some text)) :
    ∃ s, Json.requiredString members name = some s ∧ s.bytes = text := by
  obtain ⟨s, hs, hmember⟩ := h
  exact ⟨s, by rw [Json.requiredString, hmember], hs⟩

theorem optionalString_of_hasText {members : List (String × Json)} {name : String}
    {text : Option (List UInt8)} (h : HasText members name text) :
    ∃ s, Json.optionalString members name = some s ∧ s.map Str.bytes = text := by
  cases text with
  | none =>
    have hmember : Json.member members name = some none := h
    exact ⟨none, by rw [Json.optionalString, hmember], rfl⟩
  | some text =>
    obtain ⟨s, hs, hmember⟩ := h
    exact ⟨some s, by rw [Json.optionalString, hmember], congrArg some hs⟩

theorem parseFixed_of_hexData {n : ℕ} {s : Str} {x : FixedBytes n} (name : String)
    (h : s.bytes = hexData x.bytes) : parseFixed n name s = .ok x := by
  rw [parseFixed_eq_ok, h, hexData, Hex.trimMarkers_mark (Hex.not_mem_encode _),
    Hex.decode_encode]

theorem parseBytes_of_hexData {s : Str} {x : Bytes} (h : s.bytes = hexData x.data) :
    parseBytes s = .ok x := by
  rw [parseBytes_eq_ok, h, hexData, Hex.trimMarkers_mark (Hex.not_mem_encode _),
    Hex.decode_encode]

theorem parseU64_of_hexQuantity {s : Str} {x : UInt64} (field : String)
    (h : s.bytes = hexQuantity x.toNat) : parseU64 s field = .ok x := by
  rw [parseU64_eq_ok, h, hexQuantity, Hex.trimMarkers_mark (Hex.not_mem_digits _),
    Hex.numeral_digits]

theorem parseU256_of_hexQuantity {overflowChecks : Bool} {w : PointerWidth} {s : Str} {x : U256}
    (h : s.bytes = hexQuantity x.toNat) : parseU256 overflowChecks w s = .ok x := by
  rw [parseU256_eq_ok, h, hexQuantity, Hex.trimMarkers_mark (Hex.not_mem_digits _)]
  exact ⟨Hex.readFrom_digits _, Hex.length_digits_le (by norm_num) (by simpa using x.isLt)⟩

theorem parseOptional_of_map {α : Type} {parse : Str → Except Error α} {text : α → List UInt8}
    (hparse : ∀ s a, s.bytes = text a → parse s = .ok a) {s : Option Str} {x : Option α}
    (h : s.map Str.bytes = x.map text) : parseOptional parse s = .ok x := by
  cases s with
  | none =>
    cases x with
    | none => rfl
    | some a => cases h
  | some s =>
    cases x with
    | none => cases h
    | some a => rw [parseOptional, hparse s a (Option.some.inj h), Except.map]

/-- The strings of a header's block, of which `hash` is not read and `requestsHash` not kept. -/
structure RawBlock.TextsOf (h : Header) (raw : RawBlock) : Prop where
  number : raw.number.bytes = hexQuantity h.number.toNat
  parentHash : raw.parentHash.bytes = hexData h.parentHash.bytes
  unclesHash : raw.unclesHash.bytes = hexData h.ommersHash.bytes
  miner : raw.miner.bytes = hexData h.beneficiary.bytes
  stateRoot : raw.stateRoot.bytes = hexData h.stateRoot.bytes
  transactionsRoot : raw.transactionsRoot.bytes = hexData h.transactionsRoot.bytes
  receiptsRoot : raw.receiptsRoot.bytes = hexData h.receiptsRoot.bytes
  logsBloom : raw.logsBloom.bytes = hexData h.logsBloom.bytes
  difficulty : raw.difficulty.bytes = hexQuantity h.difficulty.toNat
  gasLimit : raw.gasLimit.bytes = hexQuantity h.gasLimit.toNat
  gasUsed : raw.gasUsed.bytes = hexQuantity h.gasUsed.toNat
  timestamp : raw.timestamp.bytes = hexQuantity h.timestamp.toNat
  extraData : raw.extraData.bytes = hexData h.extraData.data
  mixHash : raw.mixHash.bytes = hexData h.mixHash.bytes
  nonce : raw.nonce.bytes = hexData h.nonce.bytes
  baseFeePerGas :
    raw.baseFeePerGas.map Str.bytes = h.baseFeePerGas.map fun x => hexQuantity x.toNat
  withdrawalsRoot :
    raw.withdrawalsRoot.map Str.bytes = h.withdrawalsRoot.map fun x => hexData x.bytes
  blobGasUsed : raw.blobGasUsed.map Str.bytes = h.blobGasUsed.map fun x => hexQuantity x.toNat
  excessBlobGas :
    raw.excessBlobGas.map Str.bytes = h.excessBlobGas.map fun x => hexQuantity x.toNat
  parentBeaconBlockRoot :
    raw.parentBeaconBlockRoot.map Str.bytes = h.parentBeaconBlockRoot.map fun x => hexData x.bytes

/-- The object deserialises, and the strings are those of the header. -/
theorem RawBlock.fromJson_of_isBlockObject {c : Crypto} {h : Header}
    {members : List (String × Json)} (hjson : h.IsBlockObject c members) :
    ∃ raw, RawBlock.fromJson (.object members) = some raw ∧ raw.TextsOf h := by
  simp only [Header.IsBlockObject, Header.blockTexts, List.forall_mem_cons] at hjson
  obtain ⟨t1, t2, t3, t4, t5, t6, t7, t8, t9, t10, t11, t12, t13, t14, t15, t16, t17, t18, t19,
    t20, t21, -⟩ := hjson
  obtain ⟨s1, r1, e1⟩ := requiredString_of_hasText t1
  obtain ⟨s2, r2, -⟩ := requiredString_of_hasText t2
  obtain ⟨s3, r3, e3⟩ := requiredString_of_hasText t3
  obtain ⟨s4, r4, e4⟩ := requiredString_of_hasText t4
  obtain ⟨s5, r5, e5⟩ := requiredString_of_hasText t5
  obtain ⟨s6, r6, e6⟩ := requiredString_of_hasText t6
  obtain ⟨s7, r7, e7⟩ := requiredString_of_hasText t7
  obtain ⟨s8, r8, e8⟩ := requiredString_of_hasText t8
  obtain ⟨s9, r9, e9⟩ := requiredString_of_hasText t9
  obtain ⟨s10, r10, e10⟩ := requiredString_of_hasText t10
  obtain ⟨s11, r11, e11⟩ := requiredString_of_hasText t11
  obtain ⟨s12, r12, e12⟩ := requiredString_of_hasText t12
  obtain ⟨s13, r13, e13⟩ := requiredString_of_hasText t13
  obtain ⟨s14, r14, e14⟩ := requiredString_of_hasText t14
  obtain ⟨s15, r15, e15⟩ := requiredString_of_hasText t15
  obtain ⟨s16, r16, e16⟩ := requiredString_of_hasText t16
  obtain ⟨s17, r17, e17⟩ := optionalString_of_hasText t17
  obtain ⟨s18, r18, e18⟩ := optionalString_of_hasText t18
  obtain ⟨s19, r19, e19⟩ := optionalString_of_hasText t19
  obtain ⟨s20, r20, e20⟩ := optionalString_of_hasText t20
  obtain ⟨s21, r21, e21⟩ := optionalString_of_hasText t21
  refine ⟨⟨s1, s2, s3, s4, s5, s6, s7, s8, s9, s10, s11, s12, s13, s14, s15, s16, s17, s18, s19,
    s20, s21⟩, ?_, ⟨e1, e3, e4, e5, e6, e7, e8, e9, e10, e11, e12, e13, e14, e15, e16, e17, e18,
    e19, e20, e21⟩⟩
  simp only [RawBlock.fromJson, RawBlock.fromMembers, r1, r2, r3, r4, r5, r6, r7, r8, r9, r10,
    r11, r12, r13, r14, r15, r16, r17, r18, r19, r20, r21]
  rfl

/-- Each parser reads its field back, and nothing reads the requests hash. -/
theorem RawBlock.TextsOf.toAlloyHeader {h : Header} {raw : RawBlock} (t : raw.TextsOf h)
    (overflowChecks : Bool) (w : PointerWidth) :
    rawBlockToAlloyHeader overflowChecks w raw = .ok { h with requestsHash := none } := by
  have hu64 : ∀ field s (a : UInt64), s.bytes = hexQuantity a.toNat → parseU64 s field = .ok a :=
    fun field _ _ => parseU64_of_hexQuantity field
  have hb256 : ∀ field s (a : B256), s.bytes = hexData a.bytes → parseB256 s field = .ok a :=
    fun field _ _ => parseFixed_of_hexData field
  simp only [rawBlockToAlloyHeader, parseAddr, parseBloom, parseB64, hb256 _ _ _ t.parentHash,
    hb256 _ _ _ t.unclesHash, parseFixed_of_hexData _ t.miner, hb256 _ _ _ t.stateRoot,
    hb256 _ _ _ t.transactionsRoot, hb256 _ _ _ t.receiptsRoot,
    parseFixed_of_hexData _ t.logsBloom, parseU256_of_hexQuantity t.difficulty,
    hu64 _ _ _ t.number, hu64 _ _ _ t.gasLimit, hu64 _ _ _ t.gasUsed, hu64 _ _ _ t.timestamp,
    parseBytes_of_hexData t.extraData, hb256 _ _ _ t.mixHash, parseFixed_of_hexData _ t.nonce,
    parseOptional_of_map (hu64 _) t.baseFeePerGas,
    parseOptional_of_map (hb256 _) t.withdrawalsRoot,
    parseOptional_of_map (hu64 _) t.blobGasUsed, parseOptional_of_map (hu64 _) t.excessBlobGas,
    parseOptional_of_map (hb256 _) t.parentBeaconBlockRoot, Outcome.ofExcept_ok,
    Outcome.ok_bind, Outcome.pure_eq]
  rfl

/-- **What an honest answer becomes**: the header, without its requests hash. -/
theorem rawBlockToAlloyHeader_honest (c : Crypto) (overflowChecks : Bool) (w : PointerWidth)
    {h : Header} {members : List (String × Json)} (hjson : h.IsBlockObject c members) :
    ∃ raw, RawBlock.fromJson (.object members) = some raw ∧
      rawBlockToAlloyHeader overflowChecks w raw = .ok { h with requestsHash := none } := by
  obtain ⟨raw, hraw, htexts⟩ := RawBlock.fromJson_of_isBlockObject hjson
  exact ⟨raw, hraw, htexts.toAlloyHeader overflowChecks w⟩

/-- **An honest answer is read without loss** exactly when there is no requests hash. -/
theorem rawBlockToAlloyHeader_honest_iff (c : Crypto) (overflowChecks : Bool) (w : PointerWidth)
    (h : Header) (members : List (String × Json)) (hjson : h.IsBlockObject c members) :
    (∃ raw, RawBlock.fromJson (.object members) = some raw ∧
        rawBlockToAlloyHeader overflowChecks w raw = .ok h) ↔
      h.requestsHash = none := by
  obtain ⟨raw, hraw, hheader⟩ := rawBlockToAlloyHeader_honest c overflowChecks w hjson
  constructor
  · rintro ⟨raw', hraw', hheader'⟩
    obtain rfl := Option.some.inj (hraw.symm.trans hraw')
    have heq := Outcome.ok.inj (hheader.symm.trans hheader')
    exact (congrArg Header.requestsHash heq).symm
  · intro hnone
    have heq : { h with requestsHash := none } = h := by
      rw [← hnone]
    exact ⟨raw, hraw, heq ▸ hheader⟩

/-! The object of a header, in the order of its fields. -/

def Str.ofBytes (bs : List UInt8) : Str := if h : bs.length < 2 ^ 63 then ⟨bs, h⟩ else default

/-- Texts as members; an absent one makes none. -/
def textMembers (l : List (String × Option (List UInt8))) : List (String × Json) :=
  l.filterMap fun p => p.2.map fun text => (p.1, .string (Str.ofBytes text))

def Header.blockMembers (c : Crypto) (h : Header) : List (String × Json) :=
  textMembers (h.blockTexts c)

theorem textMembers_cons (p : String × Option (List UInt8))
    (l : List (String × Option (List UInt8))) :
    textMembers (p :: l)
      = (p.2.map fun text => (p.1, Json.string (Str.ofBytes text))).toList ++ textMembers l := by
  unfold textMembers
  cases htext : p.2 with
  | none => simp [htext]
  | some text => simp [htext]

/-- A name that is not in the list is none of its members'. -/
theorem filter_textMembers_of_not_mem {name : String}
    {l : List (String × Option (List UInt8))} (h : name ∉ l.map (·.1)) :
    (textMembers l).filter (fun m => m.1 == name) = [] := by
  induction l with
  | nil => rfl
  | cons p l ih =>
    obtain ⟨hp, hl⟩ := not_or.mp fun h' => h (List.mem_cons.mpr h')
    rw [textMembers_cons, List.filter_append, ih hl]
    cases p.2 with
    | none => rfl
    | some text => simpa using fun h' => hp h'.symm

/-- Among members with different names, one is found by its own. -/
theorem filter_textMembers {p : String × Option (List UInt8)}
    {l : List (String × Option (List UInt8))} (hnodup : (l.map (·.1)).Nodup) (hp : p ∈ l) :
    (textMembers l).filter (fun m => m.1 == p.1)
      = (p.2.map fun text => (p.1, Json.string (Str.ofBytes text))).toList := by
  induction l with
  | nil => exact absurd hp List.not_mem_nil
  | cons q l ih =>
    obtain ⟨hq, hl⟩ := List.nodup_cons.mp hnodup
    rw [textMembers_cons, List.filter_append]
    rcases List.mem_cons.mp hp with rfl | hp
    · rw [filter_textMembers_of_not_mem hq, List.append_nil]
      cases p.2 with
      | none => rfl
      | some text => simp
    · have hne : q.1 ≠ p.1 := fun heq => hq (List.mem_map.mpr ⟨p, hp, heq.symm⟩)
      rw [ih hl hp]
      cases q.2 with
      | none => rfl
      | some text => simpa using hne

theorem hasText_textMembers {l : List (String × Option (List UInt8))}
    (hnodup : (l.map (·.1)).Nodup) {p : String × Option (List UInt8)} (hp : p ∈ l)
    (hlen : ∀ text, p.2 = some text → text.length < 2 ^ 63) :
    HasText (textMembers l) p.1 p.2 := by
  have hfilter := filter_textMembers hnodup hp
  cases htext : p.2 with
  | none =>
    rw [htext] at hfilter
    simp only [HasText, Json.member, hfilter, Option.map_none, Option.toList_none]
  | some text =>
    rw [htext] at hfilter
    refine ⟨Str.ofBytes text, by rw [Str.ofBytes, dif_pos (hlen text htext)], ?_⟩
    simp only [Json.member, hfilter, Option.map_some, Option.toList_some]

theorem isBlockObject_blockMembers (c : Crypto) {h : Header}
    (hextra : h.extraData.data.length < 2 ^ 61) : h.IsBlockObject c (h.blockMembers c) := by
  have hquantity : ∀ {n : ℕ}, n < 2 ^ 256 → (hexQuantity n).length < 2 ^ 63 := fun {n} hn => by
    have hle : (Hex.digits n).length ≤ 64 := Hex.length_digits_le (by norm_num) (by simpa using hn)
    rw [hexQuantity, Hex.mark, List.length_cons, List.length_cons]
    omega
  have hu64 : ∀ x : UInt64, (hexQuantity x.toNat).length < 2 ^ 63 := fun x =>
    hquantity ((UInt64.toNat_lt x).trans (by norm_num))
  have hdata : ∀ {bs : List UInt8}, bs.length < 2 ^ 61 → (hexData bs).length < 2 ^ 63 :=
    fun {bs} hbs => by
      rw [hexData, Hex.mark, List.length_cons, List.length_cons, Hex.length_encode]
      omega
  have hfixed : ∀ {n : ℕ} (x : FixedBytes n), n ≤ 256 → (hexData x.bytes).length < 2 ^ 63 :=
    fun x hn => hdata (by rw [x.length_eq]; omega)
  have hlen : ∀ p ∈ h.blockTexts c, ∀ text, p.2 = some text → text.length < 2 ^ 63 := by
    simp only [Header.blockTexts, List.forall_mem_cons, Option.some.injEq, forall_eq',
      Option.map_eq_some_iff, forall_exists_index, and_imp, forall_apply_eq_imp_iff₂]
    have h32 : ∀ x : B256, (hexData x.bytes).length < 2 ^ 63 := fun x => hfixed x (by norm_num)
    exact ⟨hu64 _, h32 _, h32 _, h32 _, hfixed _ (by norm_num), h32 _, h32 _, h32 _,
      hfixed _ le_rfl, hquantity h.difficulty.isLt, hu64 _, hu64 _, hu64 _, hdata hextra, h32 _,
      hfixed _ (by norm_num), fun x _ => hu64 x, fun x _ => h32 x, fun x _ => hu64 x,
      fun x _ => hu64 x, fun x _ => h32 x, fun x _ => h32 x,
      fun _ hmem => absurd hmem List.not_mem_nil⟩
  intro p hp
  exact hasText_textMembers (by simp [Header.blockTexts]) hp (hlen p hp)

/-- A Prague header. -/
def pragueHeader : Header :=
  { (default : Header) with
    number := 22431084, timestamp := 1746612311, baseFeePerGas := some 7
    withdrawalsRoot := some default, blobGasUsed := some 0, excessBlobGas := some 0
    parentBeaconBlockRoot := some default, requestsHash := some default }

theorem rawBlockToAlloyHeader_honest_iff_prague :
    ¬ ∃ raw, RawBlock.fromJson (.object (pragueHeader.blockMembers prefixCrypto)) = some raw ∧
      rawBlockToAlloyHeader false .w64 raw = .ok pragueHeader := fun h => by
  have hnone := (rawBlockToAlloyHeader_honest_iff prefixCrypto false .w64 pragueHeader _
    (isBlockObject_blockMembers prefixCrypto (by decide))).mp h
  cases hnone

theorem rawBlockToAlloyHeader_not_honest :
    ¬ ∀ (c : Crypto) (overflowChecks : Bool) (w : PointerWidth) (h : Header)
      (members : List (String × Json)), h.PrefixShape → h.IsBlockObject c members →
        ∃ raw, RawBlock.fromJson (.object members) = some raw ∧
          rawBlockToAlloyHeader overflowChecks w raw = .ok h := by
  intro hall
  have hjson : pragueHeader.IsBlockObject prefixCrypto _ :=
    isBlockObject_blockMembers prefixCrypto (by decide)
  obtain ⟨raw, hraw, hheader⟩ := hall prefixCrypto false .w64 pragueHeader _ (by decide) hjson
  obtain ⟨raw', hraw', hheader'⟩ := rawBlockToAlloyHeader_honest prefixCrypto false .w64 hjson
  obtain rfl := Option.some.inj (hraw.symm.trans hraw')
  have heq := Outcome.ok.inj (hheader.symm.trans hheader')
  exact absurd (congrArg Header.requestsHash heq) (by decide)

end EthHistorian
