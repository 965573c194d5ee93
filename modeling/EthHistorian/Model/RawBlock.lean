/-
# Blocks as a JSON-RPC node sends them

`src/sources/archive_rpc.rs`, from `RawBlock` to `raw_block_to_alloy_header`: the answer to
`eth_getBlockByNumber` is an object of strings, and the header is put together from them by one
hand-written parser for each shape of field.

The node is not trusted, so a string may be anything, and each parser checks what it reads.  All
but one of them return: `parse_u256` subtracts the number of bytes from 32.
-/
import EthHistorian.Lib.Hex
import EthHistorian.Model.Errors
import EthHistorian.Model.Header

namespace EthHistorian

/-! ## 1. JSON -/

/-- A `String`, by its bytes.  An allocation is at most `isize::MAX` bytes long. -/
@[ext] structure Str where
  bytes : List UInt8
  length_lt : bytes.length < 2 ^ 63

theorem Str.length_empty : ([] : List UInt8).length < 2 ^ 63 := by norm_num

instance : Inhabited Str := ⟨⟨[], Str.length_empty⟩⟩

/-- `serde_json::Value`.  A number with a fraction or an exponent is kept as its text. -/
inductive Json where
  | null
  | bool (b : Bool)
  | int (n : ℤ)
  | float (text : String)
  | string (s : Str)
  | array (items : List Json)
  | object (members : List (String × Json))

namespace Json

/-- The member of a name.  A name that comes twice is an error, as for any derived reader. -/
def member (members : List (String × Json)) (name : String) : Option (Option Json) :=
  match members.filter fun m => m.1 == name with
  | [] => some none
  | [m] => some (some m.2)
  | _ => none

/-- A field of type `String`. -/
def requiredString (members : List (String × Json)) (name : String) : Option Str :=
  match member members name with
  | some (some (.string s)) => some s
  | _ => none

/-- A field of type `Option<String>`, which may be absent or null. -/
def optionalString (members : List (String × Json)) (name : String) : Option (Option Str) :=
  match member members name with
  | some none => some none
  | some (some .null) => some none
  | some (some (.string s)) => some (some s)
  | _ => none

end Json

/-! ## 2. The raw block -/

structure RawBlock where
  number : Str
  hash : Str
  parentHash : Str
  unclesHash : Str
  miner : Str
  stateRoot : Str
  transactionsRoot : Str
  receiptsRoot : Str
  logsBloom : Str
  difficulty : Str
  gasLimit : Str
  gasUsed : Str
  timestamp : Str
  extraData : Str
  mixHash : Str
  nonce : Str
  baseFeePerGas : Option Str
  withdrawalsRoot : Option Str
  blobGasUsed : Option Str
  excessBlobGas : Option Str
  parentBeaconBlockRoot : Option Str
  deriving Inhabited

/-- The derived reader.  Members of other names are skipped.  `none` is a refusal: its text does
not reach the caller, who is only told that the body could not be decoded. -/
def RawBlock.fromMembers (members : List (String × Json)) : Option RawBlock := do
  let number ← Json.requiredString members "number"
  let hash ← Json.requiredString members "hash"
  let parentHash ← Json.requiredString members "parentHash"
  let unclesHash ← Json.requiredString members "sha3Uncles"
  let miner ← Json.requiredString members "miner"
  let stateRoot ← Json.requiredString members "stateRoot"
  let transactionsRoot ← Json.requiredString members "transactionsRoot"
  let receiptsRoot ← Json.requiredString members "receiptsRoot"
  let logsBloom ← Json.requiredString members "logsBloom"
  let difficulty ← Json.requiredString members "difficulty"
  let gasLimit ← Json.requiredString members "gasLimit"
  let gasUsed ← Json.requiredString members "gasUsed"
  let timestamp ← Json.requiredString members "timestamp"
  let extraData ← Json.requiredString members "extraData"
  let mixHash ← Json.requiredString members "mixHash"
  let nonce ← Json.requiredString members "nonce"
  let baseFeePerGas ← Json.optionalString members "baseFeePerGas"
  let withdrawalsRoot ← Json.optionalString members "withdrawalsRoot"
  let blobGasUsed ← Json.optionalString members "blobGasUsed"
  let excessBlobGas ← Json.optionalString members "excessBlobGas"
  let parentBeaconBlockRoot ← Json.optionalString members "parentBeaconBlockRoot"
  return ⟨number, hash, parentHash, unclesHash, miner, stateRoot, transactionsRoot, receiptsRoot,
    logsBloom, difficulty, gasLimit, gasUsed, timestamp, extraData, mixHash, nonce, baseFeePerGas,
    withdrawalsRoot, blobGasUsed, excessBlobGas, parentBeaconBlockRoot⟩

/-- The names of the members, in the order of declaration. -/
def RawBlock.names : List String :=
  ["number", "hash", "parentHash", "sha3Uncles", "miner", "stateRoot", "transactionsRoot",
    "receiptsRoot", "logsBloom", "difficulty", "gasLimit", "gasUsed", "timestamp", "extraData",
    "mixHash", "nonce", "baseFeePerGas", "withdrawalsRoot", "blobGasUsed", "excessBlobGas",
    "parentBeaconBlockRoot"]

/-- A derived reader also takes the fields as an array, in the order of declaration. -/
def RawBlock.fromJson : Json → Option RawBlock
  | .object members => fromMembers members
  | .array items =>
    if items.length ≤ names.length then fromMembers (names.zip items) else none
  | _ => none

/-! ## 3. Parsers -/

/-- `{:?}` of a character below 256. -/
def charDebug (c : UInt8) : String :=
  let n := c.toNat
  let body :=
    if n = 0 then "\\0"
    else if n = 9 then "\\t"
    else if n = 10 then "\\n"
    else if n = 13 then "\\r"
    else if n = 39 then "\\'"
    else if n = 92 then "\\\\"
    else if n < 32 ∨ (127 ≤ n ∧ n ≤ 160) ∨ n = 173 then
      "\\u\x7b" ++ String.ofList ((Hex.digits n).map fun d => Char.ofNat d.toNat) ++ "\x7d"
    else String.singleton (Char.ofNat n)
  "'" ++ body ++ "'"

/-- `hex::FromHexError` as it is displayed. -/
def hexErrorText : Hex.DecodeError → String
  | .oddLength => "Odd number of digits"
  | .invalidCharacter c index => s!"Invalid character {charDebug c} at position {index}"

/-- `std::num::ParseIntError` as it is displayed. -/
def parseIntErrorText : Hex.ParseError → String
  | .empty => "cannot parse integer from empty string"
  | .invalidDigit => "invalid digit found in string"
  | .posOverflow => "number too large to fit in target type"

/-- `hex::decode`, with `?`. -/
def hexDecode (bytes : List UInt8) : Except Error (List UInt8) :=
  (Hex.decode bytes).mapError fun e => .hex (hexErrorText e)

/-- The parsers of a fixed width are one function of the width and what their message names. -/
def parseFixed (n : ℕ) (name : String) (s : Str) : Except Error (FixedBytes n) := do
  let raw ← hexDecode (Hex.trimMarkers s.bytes)
  if h : raw.length = n then return ⟨raw, h⟩
  else .error (.dataSource s!"expected {n}-byte hex for {name}, got {raw.length} bytes")

def parseB256 (s : Str) (field : String) : Except Error B256 := parseFixed 32 field s

def parseAddr (s : Str) : Except Error Address := parseFixed 20 "address" s

def parseBloom (s : Str) : Except Error Bloom := parseFixed 256 "logs_bloom" s

def parseB64 (s : Str) : Except Error B64 := parseFixed 8 "nonce" s

/-- `u64::from_str_radix`, after the markers. -/
def parseU64 (s : Str) (field : String) : Except Error UInt64 :=
  match Hex.parse (2 ^ 64) (Hex.trimMarkers s.bytes) with
  | .ok n => .ok (UInt64.ofNat n)
  | .error e => .error (.dataSource s!"parsing u64 for {field}: {parseIntErrorText e}")

/-- The decoded bytes are no longer than the text. -/
def parseBytes (s : Str) : Except Error Bytes :=
  match h : Hex.decode (Hex.trimMarkers s.bytes) with
  | .ok raw => .ok ⟨raw, by
      have hlen := (Hex.decode_eq_ok.mp h).1
      have hle := Hex.length_trimMarkers_le s.bytes
      have hlt := s.length_lt
      omega⟩
  | .error e => .error (.hex (hexErrorText e))

/-- `a - b` on `usize`. -/
def subUsize {ε : Type} (overflowChecks : Bool) (w : PointerWidth) (a b : ℕ) : Outcome ε ℕ :=
  if b ≤ a then .ok (a - b)
  else if overflowChecks then .panic "attempt to subtract with overflow"
  else .ok (2 ^ w.bits + a - b)

/-- `dst[offset..].copy_from_slice(src)`. -/
def copyToTail {ε : Type} (dst : List UInt8) (offset : ℕ) (src : List UInt8) :
    Outcome ε (List UInt8) :=
  if dst.length < offset then
    .panic s!"range start index {offset} out of range for slice of length {dst.length}"
  else if src.length ≠ dst.length - offset then
    .panic "copy_from_slice: source slice length does not match destination slice length"
  else .ok (dst.take offset ++ src)

/-- The end of `parse_u256`: the bytes are copied to the end of 32 zeros.  Nothing has checked
that there are at most 32. -/
def u256FromTail {ε : Type} (overflowChecks : Bool) (w : PointerWidth) (raw : List UInt8) :
    Outcome ε U256 := do
  let offset ← subUsize overflowChecks w 32 raw.length
  let bytes ← copyToTail (List.replicate 32 0) offset raw
  if bytes.length = 32 then .ok (BitVec.ofNat 256 (ByteString.ofBE bytes))
  else .panic "bytes is len 32"

def parseU256 (overflowChecks : Bool) (w : PointerWidth) (s : Str) : Outcome Error U256 :=
  let trimmed := Hex.trimMarkers s.bytes
  if trimmed = [] then .ok 0
  else do
    let padded := if trimmed.length % 2 = 1 then 48 :: trimmed else trimmed
    let raw ← Outcome.ofExcept (hexDecode padded)
    u256FromTail overflowChecks w raw

/-- `opt.as_deref().map(parse).transpose()`. -/
def parseOptional {α : Type} (parse : Str → Except Error α) (s : Option Str) :
    Except Error (Option α) :=
  match s with
  | none => .ok none
  | some s => (parse s).map some

/-! ## 4. The header -/

/-- What the literal does not name comes from `..Default::default()`. -/
def rawBlockToAlloyHeader (overflowChecks : Bool) (w : PointerWidth) (raw : RawBlock) :
    Outcome Error Header := do
  let parentHash ← .ofExcept (parseB256 raw.parentHash "parent_hash")
  let ommersHash ← .ofExcept (parseB256 raw.unclesHash "uncles_hash")
  let beneficiary ← .ofExcept (parseAddr raw.miner)
  let stateRoot ← .ofExcept (parseB256 raw.stateRoot "state_root")
  let transactionsRoot ← .ofExcept (parseB256 raw.transactionsRoot "transactions_root")
  let receiptsRoot ← .ofExcept (parseB256 raw.receiptsRoot "receipts_root")
  let logsBloom ← .ofExcept (parseBloom raw.logsBloom)
  let difficulty ← parseU256 overflowChecks w raw.difficulty
  let number ← .ofExcept (parseU64 raw.number "number")
  let gasLimit ← .ofExcept (parseU64 raw.gasLimit "gas_limit")
  let gasUsed ← .ofExcept (parseU64 raw.gasUsed "gas_used")
  let timestamp ← .ofExcept (parseU64 raw.timestamp "timestamp")
  let extraData ← .ofExcept (parseBytes raw.extraData)
  let mixHash ← .ofExcept (parseB256 raw.mixHash "mix_hash")
  let nonce ← .ofExcept (parseB64 raw.nonce)
  let baseFeePerGas ← .ofExcept
    (parseOptional (parseU64 · "base_fee_per_gas") raw.baseFeePerGas)
  let withdrawalsRoot ← .ofExcept
    (parseOptional (parseB256 · "withdrawals_root") raw.withdrawalsRoot)
  let blobGasUsed ← .ofExcept (parseOptional (parseU64 · "blob_gas_used") raw.blobGasUsed)
  let excessBlobGas ← .ofExcept
    (parseOptional (parseU64 · "excess_blob_gas") raw.excessBlobGas)
  let parentBeaconBlockRoot ← .ofExcept
    (parseOptional (parseB256 · "parent_beacon_block_root") raw.parentBeaconBlockRoot)
  return { (default : Header) with
    parentHash, ommersHash, beneficiary, stateRoot, transactionsRoot, receiptsRoot, logsBloom,
    difficulty, number, gasLimit, gasUsed, timestamp, extraData, mixHash, nonce, baseFeePerGas,
    withdrawalsRoot, blobGasUsed, excessBlobGas, parentBeaconBlockRoot }

/-! ## 5. What each parser accepts -/

theorem hexDecode_eq_ok {bs raw : List UInt8} : hexDecode bs = .ok raw ↔ Hex.decode bs = .ok raw :=
  Except.mapError_eq_ok

theorem parseFixed_eq_ok {n : ℕ} {name : String} {s : Str} {x : FixedBytes n} :
    parseFixed n name s = .ok x ↔ Hex.decode (Hex.trimMarkers s.bytes) = .ok x.bytes := by
  constructor
  · intro h
    obtain ⟨raw, hraw, h⟩ := Except.bind_eq_ok.mp h
    split at h
    · obtain rfl := Except.ok.inj h
      exact hexDecode_eq_ok.mp hraw
    · cases h
  · intro h
    refine Except.bind_eq_ok.mpr ⟨x.bytes, hexDecode_eq_ok.mpr h, ?_⟩
    exact dif_pos x.length_eq

theorem parseU64_eq_ok {s : Str} {field : String} {x : UInt64} :
    parseU64 s field = .ok x ↔ Hex.numeral (Hex.trimMarkers s.bytes) = some x.toNat := by
  have hparse : ∀ n, Hex.parse (2 ^ 64) (Hex.trimMarkers s.bytes) = .ok n ↔
      Hex.numeral (Hex.trimMarkers s.bytes) = some n ∧ n < 2 ^ 64 := fun n =>
    Hex.parse_eq_ok (by norm_num)
  constructor
  · intro h
    unfold parseU64 at h
    split at h
    · rename_i n hn
      obtain ⟨hnum, hlt⟩ := (hparse n).mp hn
      obtain rfl := Except.ok.inj h
      rw [hnum, UInt64.toNat_ofNat', Nat.mod_eq_of_lt hlt]
    · cases h
  · intro h
    have hok := (hparse x.toNat).mpr ⟨h, UInt64.toNat_lt x⟩
    simp only [parseU64, hok, UInt64.ofNat_toNat]

theorem parseBytes_eq_ok {s : Str} {x : Bytes} :
    parseBytes s = .ok x ↔ Hex.decode (Hex.trimMarkers s.bytes) = .ok x.data := by
  unfold parseBytes
  split
  · rename_i raw hraw
    simp only [hraw, Except.ok.injEq, Bytes.ext_iff]
  · rename_i e he
    simp [he]

theorem parseOptional_eq_ok {α : Type} {parse : Str → Except Error α} {s : Option Str}
    {x : Option α} : parseOptional parse s = .ok x ↔
      (s = none ∧ x = none) ∨ ∃ t a, s = some t ∧ x = some a ∧ parse t = .ok a := by
  cases s with
  | none => simp [parseOptional, eq_comm]
  | some t =>
    have hmap : (parse t).map some = .ok x ↔ ∃ a, parse t = .ok a ∧ some a = x :=
      Except.map_eq_ok
    rw [parseOptional, hmap]
    simp [eq_comm, and_comm]

/-- Padding a numeral to an even number of digits. -/
theorem decode_padded {cs raw : List UInt8} :
    Hex.decode (if cs.length % 2 = 1 then 48 :: cs else cs) = .ok raw ↔
      raw.length = (cs.length + 1) / 2 ∧ Hex.readFrom 0 cs = some (ByteString.ofBE raw) := by
  rw [Hex.decode_eq_ok]
  split
  · have hzero : Hex.readFrom 0 (48 :: cs) = Hex.readFrom 0 cs := rfl
    rw [hzero, List.length_cons]
    exact and_congr_left fun _ => by omega
  · exact and_congr_left fun _ => by omega

/-- At most 32 bytes are the number they spell. -/
theorem u256FromTail_of_le {ε : Type} (overflowChecks : Bool) (w : PointerWidth)
    {raw : List UInt8} (h : raw.length ≤ 32) :
    (u256FromTail overflowChecks w raw : Outcome ε U256)
      = .ok (BitVec.ofNat 256 (ByteString.ofBE raw)) := by
  have hsub : (subUsize overflowChecks w 32 raw.length : Outcome ε ℕ) = .ok (32 - raw.length) :=
    if_pos h
  have hcopy : (copyToTail (List.replicate 32 0) (32 - raw.length) raw : Outcome ε _)
      = .ok (List.replicate (32 - raw.length) 0 ++ raw) := by
    rw [copyToTail, List.length_replicate, if_neg (by omega), if_neg (by omega),
      List.take_replicate, Nat.min_eq_left (by omega)]
  have hlen : (List.replicate (32 - raw.length) 0 ++ raw).length = 32 := by
    rw [List.length_append, List.length_replicate]
    omega
  rw [u256FromTail, hsub, Outcome.ok_bind, hcopy, Outcome.ok_bind, if_pos hlen,
    ByteString.ofBE_replicate_append]

/-- More than 32 abort, on every target and in every build: where the subtraction wraps, the
slice or the copy does not. -/
theorem u256FromTail_of_gt {ε : Type} (overflowChecks : Bool) (w : PointerWidth)
    {raw : List UInt8} (h : 32 < raw.length) :
    ∃ msg, (u256FromTail overflowChecks w raw : Outcome ε U256) = .panic msg := by
  cases overflowChecks with
  | true =>
    have hsub : (subUsize true w 32 raw.length : Outcome ε ℕ)
        = .panic "attempt to subtract with overflow" := by
      rw [subUsize, if_neg (by omega), if_pos rfl]
    exact ⟨_, by rw [u256FromTail, hsub, Outcome.panic_bind]⟩
  | false =>
    have hsub : (subUsize false w 32 raw.length : Outcome ε ℕ)
        = .ok (2 ^ w.bits + 32 - raw.length) := by
      rw [subUsize, if_neg (by omega), if_neg Bool.false_ne_true]
    rw [u256FromTail, hsub, Outcome.ok_bind, copyToTail]
    split
    · exact ⟨_, rfl⟩
    split
    · exact ⟨_, rfl⟩
    · rename_i hlen
      rw [List.length_replicate] at hlen
      omega

theorem parseU256_eq {overflowChecks : Bool} {w : PointerWidth} {s : Str}
    (hne : Hex.trimMarkers s.bytes ≠ []) :
    parseU256 overflowChecks w s
      = Outcome.ofExcept (hexDecode (if (Hex.trimMarkers s.bytes).length % 2 = 1
          then 48 :: Hex.trimMarkers s.bytes else Hex.trimMarkers s.bytes)) >>=
        u256FromTail overflowChecks w := if_neg hne

/-- Every numeral decodes once it is padded. -/
theorem exists_decode_padded {cs : List UInt8} {n : ℕ} (h : Hex.readFrom 0 cs = some n) :
    ∃ raw, Hex.decode (if cs.length % 2 = 1 then 48 :: cs else cs) = .ok raw ∧
      raw.length = (cs.length + 1) / 2 ∧ ByteString.ofBE raw = n := by
  have heven : (if cs.length % 2 = 1 then 48 :: cs else cs).length % 2 = 0 := by
    split
    · rw [List.length_cons]
      omega
    · omega
  have hread : Hex.readFrom 0 (if cs.length % 2 = 1 then 48 :: cs else cs) = some n := by
    split
    · exact h
    · exact h
  obtain ⟨raw, hraw, hvalue⟩ := Hex.exists_decode heven hread
  exact ⟨raw, hraw, (decode_padded.mp hraw).1, hvalue⟩

/-- **A quantity of 256 bits** is read when it is a numeral of at most 64 digits. -/
theorem parseU256_eq_ok {overflowChecks : Bool} {w : PointerWidth} {s : Str} {x : U256} :
    parseU256 overflowChecks w s = .ok x ↔
      Hex.readFrom 0 (Hex.trimMarkers s.bytes) = some x.toNat ∧
        (Hex.trimMarkers s.bytes).length ≤ 64 := by
  by_cases hne : Hex.trimMarkers s.bytes = []
  · rw [parseU256, hne]
    simp [Hex.readFrom, BitVec.toNat_eq]
  · rw [parseU256_eq hne, Outcome.bind_eq_ok]
    simp only [Outcome.ofExcept_eq_ok, hexDecode_eq_ok]
    constructor
    · rintro ⟨raw, hraw, h⟩
      obtain ⟨hlen, hread⟩ := decode_padded.mp hraw
      have hle : raw.length ≤ 32 := by
        by_contra hgt
        obtain ⟨msg, hpanic⟩ := u256FromTail_of_gt (ε := Error) overflowChecks w (not_le.mp hgt)
        rw [hpanic] at h
        cases h
      rw [u256FromTail_of_le _ _ hle] at h
      obtain rfl := Outcome.ok.inj h
      have hlt := ByteString.ofBE_lt hle
      refine ⟨?_, by omega⟩
      rw [hread, BitVec.toNat_ofNat, Nat.mod_eq_of_lt (by simpa using hlt)]
    · rintro ⟨hread, hlen⟩
      obtain ⟨raw, hraw, hrawlen, hvalue⟩ := exists_decode_padded hread
      refine ⟨raw, hraw, ?_⟩
      rw [u256FromTail_of_le _ _ (by omega), hvalue, BitVec.ofNat_toNat, BitVec.setWidth_eq]

/-- **It aborts on a longer one**, whatever number it spells. -/
theorem parseU256_panic {overflowChecks : Bool} {w : PointerWidth} {s : Str} :
    (∃ msg, parseU256 overflowChecks w s = .panic msg) ↔
      (∃ n, Hex.readFrom 0 (Hex.trimMarkers s.bytes) = some n) ∧
        64 < (Hex.trimMarkers s.bytes).length := by
  by_cases hne : Hex.trimMarkers s.bytes = []
  · rw [parseU256, hne]
    simp
  · rw [parseU256_eq hne]
    simp only [Outcome.bind_eq_panic, Outcome.ofExcept_ne_panic, false_or, Outcome.ofExcept_eq_ok,
      hexDecode_eq_ok]
    constructor
    · rintro ⟨msg, raw, hraw, h⟩
      obtain ⟨hlen, hread⟩ := decode_padded.mp hraw
      refine ⟨⟨_, hread⟩, ?_⟩
      by_contra hle
      rw [u256FromTail_of_le _ _ (by omega)] at h
      cases h
    · rintro ⟨⟨n, hread⟩, hlen⟩
      obtain ⟨raw, hraw, hrawlen, -⟩ := exists_decode_padded hread
      have hgt : 32 < raw.length := by omega
      obtain ⟨msg, h⟩ := u256FromTail_of_gt (ε := Error) overflowChecks w hgt
      exact ⟨msg, raw, hraw, h⟩

end EthHistorian
