/-
# Recursive length prefix (RLP)

An RLP item is a byte string or a list of items; a header says which, and how long the payload
is.  A single byte below `0x80` is its own header.  Lengths below 56 stand in the first byte,
longer ones in one to eight big-endian bytes after it.

`Header.encode` and `Header.decode` follow the published format, with the canonicality checks
of a strict reader: no header on a byte that needs none, no long form for a short payload, no
leading zero in a length.  `Header.decode_eq_ok` states the reader's answer in one
equivalence, and the item codecs (`str`, `fixed`, `uint`, `list`) are `Codec`s, so each of them
is canonical by construction.
-/
import EthHistorian.Lib.Codec
import EthHistorian.Lib.Bytes

namespace Rlp

open ByteString

/-- Why a strict reader refuses. -/
inductive Error where
  | overflow
  | leadingZero
  | inputTooShort
  | nonCanonicalSingleByte
  | nonCanonicalSize
  | unexpectedLength
  | unexpectedString
  | unexpectedList
  deriving DecidableEq, Repr

/-- What an item's first bytes say. -/
structure Header where
  list : Bool
  payloadLength : ℕ
  deriving DecidableEq, Repr

/-! ## 1. Writing -/

/-- The first byte of an empty payload. -/
def Header.base (h : Header) : ℕ := if h.list then 0xc0 else 0x80

@[simp] theorem Header.base_string (n : ℕ) : Header.base ⟨false, n⟩ = 0x80 := rfl
@[simp] theorem Header.base_list (n : ℕ) : Header.base ⟨true, n⟩ = 0xc0 := rfl

/-- The header's bytes. -/
def Header.encode (h : Header) : List UInt8 :=
  if h.payloadLength < 56 then [UInt8.ofNat (h.base + h.payloadLength)]
  else UInt8.ofNat (h.base + 55 + (toBE h.payloadLength).length) :: toBE h.payloadLength

/-- A byte that is its own item. -/
def Single (bs : List UInt8) : Prop := ∃ b : UInt8, bs = [b] ∧ b.toNat < 0x80

instance (bs : List UInt8) : Decidable (Single bs) :=
  match bs with
  | [b] => decidable_of_iff (b.toNat < 0x80) (by simp [Single])
  | [] => isFalse (by simp [Single])
  | _ :: _ :: _ => isFalse (by simp [Single])

/-- A byte string as an item. -/
def encodeString (bs : List UInt8) : List UInt8 :=
  if Single bs then bs else (Header.mk false bs.length).encode ++ bs

/-- A payload as a list item. -/
def encodeList (payload : List UInt8) : List UInt8 :=
  (Header.mk true payload.length).encode ++ payload

/-! ## 2. Reading -/

/-- The payload must be there. -/
def Header.check (h : Header) (rest : List UInt8) : Except Error (Header × List UInt8) :=
  if rest.length < h.payloadLength then .error .inputTooShort else .ok (h, rest)

/-- The long form: `k` bytes of length. -/
def Header.decodeLong (list : Bool) (k : ℕ) (rest : List UInt8) :
    Except Error (Header × List UInt8) :=
  if rest.length < k then .error .inputTooShort
  else if ¬ Minimal (rest.take k) then .error .leadingZero
  else if ofBE (rest.take k) < 56 then .error .nonCanonicalSize
  else Header.check ⟨list, ofBE (rest.take k)⟩ (rest.drop k)

/-- Read a header.  A single byte below `0x80` is left in the buffer: it is the payload. -/
def Header.decode : List UInt8 → Except Error (Header × List UInt8)
  | [] => .error .inputTooShort
  | b :: rest =>
    if b.toNat < 0x80 then .ok (⟨false, 1⟩, b :: rest)
    else if b.toNat < 0xb8 then
      if b.toNat = 0x81 ∧ rest = [] then .error .inputTooShort
      else if b.toNat = 0x81 ∧ Single (rest.take 1) then .error .nonCanonicalSingleByte
      else Header.check ⟨false, b.toNat - 0x80⟩ rest
    else if b.toNat < 0xc0 then Header.decodeLong false (b.toNat - 0xb7) rest
    else if b.toNat < 0xf8 then Header.check ⟨true, b.toNat - 0xc0⟩ rest
    else Header.decodeLong true (b.toNat - 0xf7) rest

/-! ## 3. The reader's answer in one equivalence -/

/-- The header and the buffer of an item whose first byte is its own payload. -/
def Header.Implicit (h : Header) (rest : List UInt8) : Prop :=
  h = ⟨false, 1⟩ ∧ Single (rest.take 1)

/-- A header the format can write, in front of a payload that is there. -/
def Header.Fits (h : Header) (rest : List UInt8) : Prop :=
  h.payloadLength ≤ rest.length ∧ h.payloadLength < 256 ^ 8

theorem Header.check_eq_ok {h h' : Header} {rest rest' : List UInt8} :
    h.check rest = .ok (h', rest') ↔ h.payloadLength ≤ rest.length ∧ h' = h ∧ rest' = rest := by
  unfold Header.check
  split
  · simp
    omega
  · simp only [Except.ok.injEq, Prod.mk.injEq]
    constructor
    · rintro ⟨rfl, rfl⟩
      exact ⟨by omega, rfl, rfl⟩
    · rintro ⟨-, rfl, rfl⟩
      exact ⟨rfl, rfl⟩

/-- The first byte of a written header, and the range it falls in. -/
theorem Header.encode_short {h : Header} (hl : h.payloadLength < 56) :
    h.encode = [UInt8.ofNat (h.base + h.payloadLength)] := if_pos hl

theorem Header.encode_long {h : Header} (hl : ¬ h.payloadLength < 56) :
    h.encode = UInt8.ofNat (h.base + 55 + (toBE h.payloadLength).length) ::
      toBE h.payloadLength := if_neg hl

/-- A long length takes one to eight bytes. -/
theorem toBE_length_long {n : ℕ} (hl : ¬ n < 56) (hu : n < 256 ^ 8) :
    1 ≤ (toBE n).length ∧ (toBE n).length ≤ 8 := by
  refine ⟨?_, toBE_length_le.mpr hu⟩
  rcases Nat.eq_zero_or_pos (toBE n).length with h0 | h0
  · have := toBE_eq_nil.mp (List.length_eq_zero_iff.mp h0)
    omega
  · exact h0

theorem Header.decodeLong_encode {list : Bool} {n : ℕ} {rest : List UInt8} (hl : ¬ n < 56)
    (hfit : n ≤ rest.length) :
    Header.decodeLong list (toBE n).length (toBE n ++ rest) = .ok (⟨list, n⟩, rest) := by
  have hmin := toBE_minimal n
  simp [Header.decodeLong, hmin, hl, Header.check_eq_ok, hfit]

theorem Header.decodeLong_eq_ok {list : Bool} {k : ℕ} {bs rest : List UInt8} {h : Header}
    (hk : k ≤ 8) (hd : Header.decodeLong list k bs = .ok (h, rest)) :
    h.list = list ∧ ¬ h.payloadLength < 56 ∧ h.Fits rest ∧
      (toBE h.payloadLength).length = k ∧ bs = toBE h.payloadLength ++ rest := by
  unfold Header.decodeLong at hd
  split at hd
  · simp at hd
  · rename_i hlen
    split at hd
    · simp at hd
    · rename_i hmin
      split at hd
      · simp at hd
      · rename_i hsize
        obtain ⟨hfit, rfl, rfl⟩ := Header.check_eq_ok.mp hd
        have hbe : toBE (ofBE (bs.take k)) = bs.take k := toBE_ofBE (not_not.mp hmin)
        have htake : (bs.take k).length = k := by rw [List.length_take]; omega
        refine ⟨rfl, hsize, ⟨hfit, ofBE_lt (by omega)⟩, by rw [hbe, htake], ?_⟩
        rw [hbe, List.take_append_drop]

/-- A written header and the byte that starts it. -/
theorem Header.encode_of_first {h : Header} {b : UInt8} (hl : h.payloadLength < 56)
    (hb : b.toNat = h.base + h.payloadLength) : h.encode = [b] := by
  rw [Header.encode_short hl, ← hb, UInt8.ofNat_toNat]

theorem Header.encode_of_first_long {h : Header} {b : UInt8} (hl : ¬ h.payloadLength < 56)
    (hb : b.toNat = h.base + 55 + (toBE h.payloadLength).length) :
    h.encode = b :: toBE h.payloadLength := by
  rw [Header.encode_long hl, ← hb, UInt8.ofNat_toNat]

/-- A short payload is within the format's capacity. -/
theorem Header.fits_of_short {h : Header} {rest : List UInt8} (hs : h.payloadLength < 56)
    (hfit : h.payloadLength ≤ rest.length) : h.Fits rest := ⟨hfit, hs.trans (by norm_num)⟩

/-- A length in the first byte is read off it. -/
theorem Header.decode_short {b : UInt8} {t : List UInt8} {h : Header}
    (hn : h.payloadLength < 56) (hval : b.toNat = h.base + h.payloadLength)
    (hfit : h.payloadLength ≤ t.length) (himp : ¬ h.Implicit t) :
    Header.decode (b :: t) = .ok (h, t) := by
  obtain ⟨list, n⟩ := h
  dsimp only at hn hval hfit
  rw [Header.decode]
  cases list with
  | false =>
    rw [Header.base_string] at hval
    have hempty : ¬ (b.toNat = 0x81 ∧ t = []) := by
      rintro ⟨hb1, rfl⟩
      rw [List.length_nil] at hfit
      omega
    have hsingle : ¬ (b.toNat = 0x81 ∧ Single (t.take 1)) := by
      rintro ⟨hb1, hsing⟩
      obtain rfl : n = 1 := by omega
      exact himp ⟨rfl, hsing⟩
    rw [if_neg (by omega), if_pos (by omega), if_neg hempty, if_neg hsingle, hval,
      Nat.add_sub_cancel_left]
    exact Header.check_eq_ok.mpr ⟨hfit, rfl, rfl⟩
  | true =>
    rw [Header.base_list] at hval
    rw [if_neg (by omega), if_neg (by omega), if_neg (by omega), if_pos (by omega), hval,
      Nat.add_sub_cancel_left]
    exact Header.check_eq_ok.mpr ⟨hfit, rfl, rfl⟩

/-- A length of `k` bytes is read from behind the first. -/
theorem Header.decode_long {b : UInt8} {t rest : List UInt8} {h : Header} {k : ℕ} (hk1 : 1 ≤ k)
    (hk8 : k ≤ 8) (hval : b.toNat = h.base + 55 + k)
    (hlong : Header.decodeLong h.list k t = .ok (h, rest)) :
    Header.decode (b :: t) = .ok (h, rest) := by
  obtain ⟨list, n⟩ := h
  rw [Header.decode]
  cases list with
  | false =>
    rw [Header.base_string] at hval
    have hk : b.toNat - 0xb7 = k := by omega
    rw [if_neg (by omega), if_neg (by omega), if_pos (by omega), hk]
    exact hlong
  | true =>
    rw [Header.base_list] at hval
    have hk : b.toNat - 0xf7 = k := by omega
    rw [if_neg (by omega), if_neg (by omega), if_neg (by omega), if_neg (by omega), hk]
    exact hlong

/-- **The three forms of a header**: a byte that is its own payload, a length in the first byte,
or a length in the bytes behind it. -/
theorem Header.decode_cons_eq_ok {b : UInt8} {t rest : List UInt8} {h : Header} :
    Header.decode (b :: t) = .ok (h, rest) ↔
      (b.toNat < 0x80 ∧ h = ⟨false, 1⟩ ∧ rest = b :: t) ∨
        (h.payloadLength < 56 ∧ b.toNat = h.base + h.payloadLength ∧ h.payloadLength ≤ t.length ∧
          ¬ h.Implicit t ∧ rest = t) ∨
        ∃ k, 1 ≤ k ∧ k ≤ 8 ∧ b.toNat = h.base + 55 + k ∧
          Header.decodeLong h.list k t = .ok (h, rest) := by
  constructor
  · intro hd
    have hb : b.toNat < 256 := UInt8.toNat_lt b
    rw [Header.decode] at hd
    by_cases h80 : b.toNat < 0x80
    · rw [if_pos h80, Except.ok.injEq, Prod.mk.injEq] at hd
      obtain ⟨rfl, rfl⟩ := hd
      exact Or.inl ⟨h80, rfl, rfl⟩
    rw [if_neg h80] at hd
    refine Or.inr ?_
    by_cases hb8 : b.toNat < 0xb8
    · -- a short string: the single-byte check has already passed
      rw [if_pos hb8] at hd
      split at hd
      · cases hd
      split at hd
      · cases hd
      rename_i hns
      obtain ⟨hfit, rfl, rfl⟩ := Header.check_eq_ok.mp hd
      have hval : b.toNat = 0x80 + (b.toNat - 0x80) := by omega
      refine Or.inl ⟨by dsimp only; omega, hval, hfit, ?_, rfl⟩
      rintro ⟨himp, hs⟩
      obtain ⟨-, hlen⟩ := Header.mk.inj himp
      exact hns ⟨by omega, hs⟩
    rw [if_neg hb8] at hd
    by_cases hc0 : b.toNat < 0xc0
    · rw [if_pos hc0] at hd
      obtain ⟨hlist, -⟩ := Header.decodeLong_eq_ok (by omega) hd
      have hbase : h.base = 0x80 := by rw [Header.base, hlist, if_neg Bool.false_ne_true]
      exact Or.inr ⟨b.toNat - 0xb7, by omega, by omega, by omega, hlist.symm ▸ hd⟩
    rw [if_neg hc0] at hd
    by_cases hf8 : b.toNat < 0xf8
    · rw [if_pos hf8] at hd
      obtain ⟨hfit, rfl, rfl⟩ := Header.check_eq_ok.mp hd
      have hval : b.toNat = 0xc0 + (b.toNat - 0xc0) := by omega
      refine Or.inl ⟨by dsimp only; omega, hval, hfit, ?_, rfl⟩
      rintro ⟨himp, -⟩
      cases congrArg Header.list himp
    · rw [if_neg hf8] at hd
      obtain ⟨hlist, -⟩ := Header.decodeLong_eq_ok (by omega) hd
      have hbase : h.base = 0xc0 := by rw [Header.base, hlist, if_pos rfl]
      exact Or.inr ⟨b.toNat - 0xf7, by omega, by omega, by omega, hlist.symm ▸ hd⟩
  · rintro (⟨h80, rfl, rfl⟩ | ⟨hn, hval, hfit, himp, rfl⟩ | ⟨k, hk1, hk8, hval, hlong⟩)
    · rw [Header.decode, if_pos h80]
    · exact Header.decode_short hn hval hfit himp
    · exact Header.decode_long hk1 hk8 hval hlong

/-- **Soundness of the reader.**  What is accepted is an implicit header or a written one. -/
theorem Header.eq_of_decode {bs rest : List UInt8} {h : Header}
    (hd : Header.decode bs = .ok (h, rest)) :
    (h.Implicit rest ∧ bs = rest) ∨
      (¬ h.Implicit rest ∧ h.Fits rest ∧ bs = h.encode ++ rest) := by
  cases bs with
  | nil => cases hd
  | cons b t =>
    rcases Header.decode_cons_eq_ok.mp hd with
      ⟨h80, rfl, rfl⟩ | ⟨hn, hval, hfit, himp, rfl⟩ | ⟨k, -, hk8, hval, hlong⟩
    · exact Or.inl ⟨⟨rfl, b, rfl, h80⟩, rfl⟩
    · refine Or.inr ⟨himp, Header.fits_of_short hn hfit, ?_⟩
      rw [Header.encode_of_first hn hval, List.singleton_append]
    · obtain ⟨-, hsize, hfit, hk, hbs⟩ := Header.decodeLong_eq_ok hk8 hlong
      refine Or.inr ⟨?_, hfit, ?_⟩
      · rintro ⟨rfl, -⟩
        exact hsize (by norm_num)
      · rw [Header.encode_of_first_long hsize (by rw [hk]; exact hval), hbs, List.cons_append]

/-- The first byte of a header, as a number. -/
theorem toNat_first {n : ℕ} (h : n < 256) : (UInt8.ofNat n).toNat = n := by
  simp [Nat.mod_eq_of_lt h]

theorem Header.base_le (h : Header) : h.base ≤ 0xc0 := by
  rw [Header.base]
  split <;> norm_num

/-- A written header is read back, unless its payload is its own header. -/
theorem Header.decode_encode {h : Header} {rest : List UInt8} (himp : ¬ h.Implicit rest)
    (hfits : h.Fits rest) : Header.decode (h.encode ++ rest) = .ok (h, rest) := by
  obtain ⟨hfit, hcap⟩ := hfits
  have hbase := h.base_le
  by_cases hs : h.payloadLength < 56
  · rw [Header.encode_short hs, List.singleton_append]
    have hval := toNat_first (n := h.base + h.payloadLength) (by omega)
    exact Header.decode_cons_eq_ok.mpr (Or.inr (Or.inl ⟨hs, hval, hfit, himp, rfl⟩))
  · obtain ⟨hk1, hk8⟩ := toBE_length_long hs hcap
    rw [Header.encode_long hs, List.cons_append]
    have hval := toNat_first (n := h.base + 55 + (toBE h.payloadLength).length) (by omega)
    exact Header.decode_cons_eq_ok.mpr
      (Or.inr (Or.inr ⟨_, hk1, hk8, hval, Header.decodeLong_encode hs hfit⟩))

/-- **The reader's answer.**  An implicit header, or a written one; both leave the payload at
the front of the rest. -/
theorem Header.decode_eq_ok {bs rest : List UInt8} {h : Header} :
    Header.decode bs = .ok (h, rest) ↔
      (h.Implicit rest ∧ bs = rest) ∨
        (¬ h.Implicit rest ∧ h.Fits rest ∧ bs = h.encode ++ rest) := by
  constructor
  · exact Header.eq_of_decode
  · rintro (⟨⟨rfl, b, hb, hlt⟩, rfl⟩ | ⟨himp, hfits, rfl⟩)
    · obtain ⟨t, rfl⟩ : ∃ t, bs = b :: t := by
        cases bs with
        | nil => cases hb
        | cons c t => exact ⟨t, by rw [List.take_succ_cons] at hb; rw [(List.cons.inj hb).1]⟩
      rw [Header.decode, if_pos hlt]
    · exact Header.decode_encode himp hfits

/-- Lists start at `0xc0`, strings below. -/
theorem Header.list_of_decode {b : UInt8} {bs rest : List UInt8} {h : Header}
    (hd : Header.decode (b :: bs) = .ok (h, rest)) : h.list = true ↔ 0xc0 ≤ b.toNat := by
  obtain ⟨list, n⟩ := h
  rcases Header.decode_cons_eq_ok.mp hd with
    ⟨h80, hh, -⟩ | ⟨hn, hval, -⟩ | ⟨k, hk1, hk8, hval, -⟩
  · obtain ⟨rfl, -⟩ := Header.mk.inj hh
    exact iff_of_false Bool.false_ne_true (by omega)
  · cases list with
    | false =>
      rw [Header.base_string] at hval
      dsimp only at hn hval
      exact iff_of_false Bool.false_ne_true (by omega)
    | true =>
      rw [Header.base_list] at hval
      exact iff_of_true rfl (by omega)
  · cases list with
    | false =>
      rw [Header.base_string] at hval
      exact iff_of_false Bool.false_ne_true (by omega)
    | true =>
      rw [Header.base_list] at hval
      exact iff_of_true rfl (by omega)

/-- The header of a written list. -/
theorem Header.decode_encodeList {payload rest : List UInt8} (hv : payload.length < 256 ^ 8) :
    Header.decode (encodeList payload ++ rest)
      = .ok (⟨true, payload.length⟩, payload ++ rest) := by
  rw [encodeList, List.append_assoc]
  refine Header.decode_encode ?_ ⟨by simp, hv⟩
  rintro ⟨h1, -⟩
  cases congrArg Header.list h1

/-! ## 4. Item codecs

Each is a `Codec`, so it accepts one spelling of each value. -/

/-- Read a byte string item. -/
def decodeString (bs : List UInt8) : Except Error (List UInt8 × List UInt8) := do
  let (h, rest) ← Header.decode bs
  if h.list then .error .unexpectedList
  else .ok (rest.take h.payloadLength, rest.drop h.payloadLength)

/-- Read the payload of a list item. -/
def decodeList (bs : List UInt8) : Except Error (List UInt8 × List UInt8) := do
  let (h, rest) ← Header.decode bs
  if h.list then .ok (rest.take h.payloadLength, rest.drop h.payloadLength)
  else .error .unexpectedString

theorem encodeString_ne_nil (bs : List UInt8) : encodeString bs ≠ [] := by
  unfold encodeString
  split
  · rename_i h
    obtain ⟨b, rfl, -⟩ := h
    simp
  · unfold Header.encode
    split <;> simp

theorem encodeList_ne_nil (payload : List UInt8) : encodeList payload ≠ [] := by
  unfold encodeList Header.encode
  split <;> simp

/-- An item is at least as long as its byte string. -/
theorem length_le_encodeString (bs : List UInt8) : bs.length ≤ (encodeString bs).length := by
  unfold encodeString
  split <;> simp

/-- A list is at most nine bytes longer than its payload. -/
theorem length_encodeList_le {payload : List UInt8} (h : payload.length < 256 ^ 8) :
    (encodeList payload).length ≤ payload.length + 9 := by
  have hlen : (toBE payload.length).length ≤ 8 := toBE_length_le.mpr h
  unfold encodeList Header.encode
  split
  · simp
  · simp
    omega

/-- A string is at most nine bytes longer than what it holds. -/
theorem length_encodeString_le (bs : List UInt8) (h : bs.length < 256 ^ 8) :
    (encodeString bs).length ≤ bs.length + 9 := by
  have hlen : (toBE bs.length).length ≤ 8 := toBE_length_le.mpr h
  unfold encodeString Header.encode
  split
  · omega
  · split
    · simp
    · simp
      omega

theorem decodeString_encodeString {bs rest : List UInt8} (hv : bs.length < 256 ^ 8) :
    decodeString (encodeString bs ++ rest) = .ok (bs, rest) := by
  by_cases hs : Single bs
  · obtain ⟨b, rfl, hb⟩ := hs
    have hd : Header.decode ([b] ++ rest) = .ok (⟨false, 1⟩, [b] ++ rest) :=
      Header.decode_eq_ok.mpr (Or.inl ⟨⟨rfl, b, rfl, hb⟩, rfl⟩)
    have he : encodeString [b] = [b] := if_pos ⟨b, rfl, hb⟩
    rw [decodeString, he, hd]
    rfl
  · have hd : Header.decode ((Header.mk false bs.length).encode ++ (bs ++ rest))
        = .ok (⟨false, bs.length⟩, bs ++ rest) := by
      refine Header.decode_encode ?_ ⟨by simp, hv⟩
      rintro ⟨h1, hsing⟩
      have hlen : bs.length = 1 := congrArg Header.payloadLength h1
      rw [List.take_append_of_le_length (by omega), List.take_of_length_le (by omega)] at hsing
      exact hs hsing
    have he : encodeString bs = (Header.mk false bs.length).encode ++ bs := if_neg hs
    rw [decodeString, he, List.append_assoc, hd]
    simp [bind, Except.bind]

theorem eq_encodeString {bs s rest : List UInt8} (h : decodeString bs = .ok (s, rest)) :
    s.length < 256 ^ 8 ∧ bs = encodeString s ++ rest := by
  obtain ⟨⟨hd, r⟩, hdec, h⟩ := Except.bind_eq_ok.mp h
  dsimp only at h
  split at h
  · cases h
  rename_i hlist
  simp only [Except.ok.injEq, Prod.mk.injEq] at h
  obtain ⟨rfl, rfl⟩ := h
  rcases Header.decode_eq_ok.mp hdec with ⟨⟨rfl, hsing⟩, rfl⟩ | ⟨himp, ⟨hfit, hcap⟩, rfl⟩
  · have hlen : (bs.take 1).length < 256 ^ 8 :=
      (List.length_take_le 1 bs).trans_lt (by norm_num)
    exact ⟨hlen, by rw [encodeString, if_pos hsing, List.take_append_drop]⟩
  · have htake : (r.take hd.payloadLength).length = hd.payloadLength := by
      rw [List.length_take]
      omega
    have heta : (⟨false, hd.payloadLength⟩ : Header) = hd := by
      cases hd
      simpa using hlist
    have hns : ¬ Single (r.take hd.payloadLength) := by
      rintro ⟨b, hb, hlt⟩
      have hn : hd.payloadLength = 1 := by rw [← htake, hb]; rfl
      exact himp ⟨by rw [← heta, hn], ⟨b, by rw [← hn, hb], hlt⟩⟩
    refine ⟨by rw [htake]; exact hcap, ?_⟩
    rw [encodeString, if_neg hns, htake, heta, List.append_assoc, List.take_append_drop]

theorem decodeList_encodeList {payload rest : List UInt8} (hv : payload.length < 256 ^ 8) :
    decodeList (encodeList payload ++ rest) = .ok (payload, rest) := by
  rw [decodeList, Header.decode_encodeList hv]
  simp [bind, Except.bind]

theorem eq_encodeList {bs payload rest : List UInt8} (h : decodeList bs = .ok (payload, rest)) :
    payload.length < 256 ^ 8 ∧ bs = encodeList payload ++ rest := by
  obtain ⟨⟨hd, r⟩, hdec, h⟩ := Except.bind_eq_ok.mp h
  dsimp only at h
  split at h
  · rename_i hlist
    simp only [Except.ok.injEq, Prod.mk.injEq] at h
    obtain ⟨rfl, rfl⟩ := h
    rcases Header.decode_eq_ok.mp hdec with ⟨⟨rfl, -⟩, -⟩ | ⟨-, ⟨hfit, hcap⟩, rfl⟩
    · cases hlist
    · have htake : (r.take hd.payloadLength).length = hd.payloadLength := by
        rw [List.length_take]
        omega
      have heta : (⟨true, hd.payloadLength⟩ : Header) = hd := by
        cases hd
        simpa using hlist.symm
      refine ⟨by rw [htake]; exact hcap, ?_⟩
      rw [encodeList, htake, heta, List.append_assoc, List.take_append_drop]
  · cases h

/-- A byte string. -/
def str : Codec Error (List UInt8) where
  enc := encodeString
  dec := decodeString
  Valid bs := bs.length < 256 ^ 8
  enc_ne_nil := encodeString_ne_nil
  dec_enc _ _ hv := decodeString_encodeString hv
  enc_dec _ _ _ h := eq_encodeString h

/-- A list whose payload is read by `p`. -/
def list {α : Type} (p : Payload Error α) : Codec Error α where
  enc a := encodeList (p.enc a)
  dec bs := do
    let (payload, rest) ← decodeList bs
    let a ← p.dec payload
    return (a, rest)
  Valid a := p.Valid a ∧ (p.enc a).length < 256 ^ 8
  enc_ne_nil a := encodeList_ne_nil (p.enc a)
  dec_enc a rest hv := by
    simp [decodeList_encodeList hv.2, p.dec_enc a hv.1, bind, Except.bind, pure, Except.pure]
  enc_dec bs a rest h := by
    obtain ⟨⟨payload, r⟩, hl, h⟩ := Except.bind_eq_ok.mp h
    obtain ⟨a', ha, h⟩ := Except.bind_eq_ok.mp h
    simp only [pure, Except.pure, Except.ok.injEq, Prod.mk.injEq] at h
    obtain ⟨rfl, rfl⟩ := h
    obtain ⟨hcap, hbs⟩ := eq_encodeList hl
    obtain ⟨hv, rfl⟩ := p.enc_dec payload a' ha
    exact ⟨⟨hv, hcap⟩, hbs⟩

/-- A number below `256 ^ k`, as its shortest big-endian spelling. -/
def uint (k : ℕ) : Codec Error {n : ℕ // n < 256 ^ k} :=
  str.refine (fun n => toBE n)
    (fun bs =>
      if ¬ Minimal bs then .error .leadingZero
      else if h : ofBE bs < 256 ^ k then .ok ⟨ofBE bs, h⟩
      else .error .overflow)
    (by
      rintro bs ⟨n, hn⟩
      constructor
      · intro h
        split at h
        · cases h
        rename_i hmin
        split at h
        · simp only [Except.ok.injEq, Subtype.mk.injEq] at h
          subst h
          exact (toBE_ofBE (not_not.mp hmin)).symm
        · cases h
      · rintro rfl
        simp [toBE_minimal, hn])

/-- A byte string of `k` bytes. -/
def fixed (k : ℕ) : Codec Error {bs : List UInt8 // bs.length = k} :=
  str.refine (fun bs => bs.1)
    (fun bs => if h : bs.length = k then .ok ⟨bs, h⟩ else .error .unexpectedLength)
    (by
      rintro bs ⟨c, hc⟩
      constructor
      · intro h
        split at h
        · simp only [Except.ok.injEq, Subtype.mk.injEq] at h
          exact h
        · cases h
      · rintro rfl
        simp [hc])

/-! ## 5. How far an item reaches -/

/-- The length of the item at the front of the buffer, as its header declares it. -/
def itemLength (bs : List UInt8) : Option ℕ :=
  match Header.decode bs with
  | .ok (h, rest) => some (bs.length - rest.length + h.payloadLength)
  | .error _ => none

/-- A list item in front of any bytes declares its own length. -/
theorem itemLength_encodeList {payload rest : List UInt8} (hv : payload.length < 256 ^ 8) :
    itemLength (encodeList payload ++ rest) = some (encodeList payload).length := by
  rw [itemLength, Header.decode_encodeList hv]
  simp only [encodeList, List.length_append, Option.some.injEq]
  omega

/-! ## 6. What fits the format's eight bytes of length -/

theorem carries_str : str.Carries (256 ^ 8) := fun bs h => (length_le_encodeString bs).trans_lt h

theorem length_le_encodeList (payload : List UInt8) :
    payload.length ≤ (encodeList payload).length := by
  rw [encodeList, List.length_append]
  omega

theorem carries_list {α : Type} {p : Payload Error α} (h : p.Carries (256 ^ 8)) :
    (list p).Carries (256 ^ 8) := by
  intro a ha
  have hlen : (p.enc a).length < 256 ^ 8 := (length_le_encodeList (p.enc a)).trans_lt ha
  exact ⟨h a hlen, hlen⟩

theorem carries_fixed (k : ℕ) : (fixed k).Carries (256 ^ 8) := carries_str.refine

end Rlp
