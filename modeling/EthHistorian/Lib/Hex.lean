/-
# Hexadecimal text

Text is a list of ASCII bytes.  Two readers are used by the formats above: `decode` takes digits
two by two and gives bytes, `parse` takes them one by one and gives a number below a limit.
`readFrom` is the number a run of digits spells, and both readers are described by it: a text of
even length decodes exactly when it spells a number, and then the bytes spell the same number
(`readFrom_of_decode`, `decode_of_readFrom`); it parses exactly when it spells a number below
the limit (`parse_eq_ok`).

`encode` writes bytes two digits each, `digits` writes a number with no leading zero, and each
is read back.
-/
import EthHistorian.Lib.Bytes
import EthHistorian.Lib.Codec

namespace Hex

open ByteString

/-! ## 1. One digit -/

/-- The value of a digit, of either case. -/
def digitValue (c : UInt8) : Option ℕ :=
  if 48 ≤ c.toNat ∧ c.toNat ≤ 57 then some (c.toNat - 48)
  else if 97 ≤ c.toNat ∧ c.toNat ≤ 102 then some (c.toNat - 87)
  else if 65 ≤ c.toNat ∧ c.toNat ≤ 70 then some (c.toNat - 55)
  else none

/-- The digit of a value, in lower case. -/
def digit (n : ℕ) : UInt8 := UInt8.ofNat (if n < 10 then 48 + n else 87 + n)

theorem digitValue_digit {n : ℕ} (h : n < 16) : digitValue (digit n) = some n := by
  have hall : ∀ m : Fin 16, digitValue (digit m) = some m.val := by decide
  exact hall ⟨n, h⟩

theorem digitValue_lt {c : UInt8} {d : ℕ} (h : digitValue c = some d) : d < 16 := by
  unfold digitValue at h
  split at h
  · obtain rfl := Option.some.inj h
    omega
  split at h
  · obtain rfl := Option.some.inj h
    omega
  split at h
  · obtain rfl := Option.some.inj h
    omega
  · cases h

/-- A digit is none of the other characters a numeral may start with. -/
theorem digit_ne {n : ℕ} (h : n < 16) : digit n ≠ 120 ∧ digit n ≠ 43 ∧ digit n ≠ 45 := by
  have hall : ∀ m : Fin 16, digit m ≠ 120 ∧ digit m ≠ 43 ∧ digit m ≠ 45 := by decide
  exact hall ⟨n, h⟩

/-! ## 2. The number a run of digits spells -/

/-- Continue a number with more digits. -/
def readFrom : ℕ → List UInt8 → Option ℕ
  | acc, [] => some acc
  | acc, c :: cs =>
    match digitValue c with
    | some d => readFrom (acc * 16 + d) cs
    | none => none

/-- The first character is a digit, and the number goes on from it. -/
theorem readFrom_cons {acc n : ℕ} {c : UInt8} {cs : List UInt8} :
    readFrom acc (c :: cs) = some n ↔
      ∃ d, digitValue c = some d ∧ readFrom (acc * 16 + d) cs = some n := by
  rw [readFrom]
  cases digitValue c with
  | none => simp
  | some d => simp

/-- Reading on never makes a number smaller. -/
theorem le_of_readFrom {cs : List UInt8} {acc n : ℕ} (h : readFrom acc cs = some n) :
    acc ≤ n := by
  induction cs generalizing acc with
  | nil => exact (Option.some.inj h).le
  | cons c cs ih =>
    obtain ⟨d, -, hrest⟩ := readFrom_cons.mp h
    have hle := ih hrest
    omega

/-- What was read so far stands in front of the rest. -/
theorem readFrom_eq (cs : List UInt8) (acc : ℕ) :
    readFrom acc cs = (readFrom 0 cs).map fun n => acc * 16 ^ cs.length + n := by
  induction cs generalizing acc with
  | nil => simp [readFrom]
  | cons c cs ih =>
    unfold readFrom
    cases digitValue c with
    | none => rfl
    | some d =>
      dsimp only
      rw [ih (acc * 16 + d), ih (0 * 16 + d), Option.map_map, List.length_cons, pow_succ']
      congr 1
      funext n
      rw [Function.comp_apply]
      ring

/-- `k` digits spell a number below `16 ^ k`. -/
theorem readFrom_lt {cs : List UInt8} {acc n : ℕ} (h : readFrom acc cs = some n) :
    n < (acc + 1) * 16 ^ cs.length := by
  induction cs generalizing acc with
  | nil =>
    obtain rfl := Option.some.inj h
    simp
  | cons c cs ih =>
    obtain ⟨d, hd, hrest⟩ := readFrom_cons.mp h
    have hd16 := digitValue_lt hd
    refine (ih hrest).trans_le ?_
    rw [List.length_cons, pow_succ', ← mul_assoc]
    exact Nat.mul_le_mul_right _ (by omega)

/-- Two digits in front count as one byte. -/
theorem readFrom_pair {hi lo : UInt8} {rest : List UInt8} {n : ℕ} :
    readFrom 0 (hi :: lo :: rest) = some n ↔
      ∃ x y m, digitValue hi = some x ∧ digitValue lo = some y ∧ readFrom 0 rest = some m ∧
        (x * 16 + y) * 16 ^ rest.length + m = n := by
  constructor
  · intro h
    obtain ⟨x, hx, h⟩ := readFrom_cons.mp h
    obtain ⟨y, hy, h⟩ := readFrom_cons.mp h
    rw [readFrom_eq, Nat.zero_mul, Nat.zero_add] at h
    obtain ⟨m, hm, h⟩ := Option.map_eq_some_iff.mp h
    exact ⟨x, y, m, hx, hy, hm, h⟩
  · rintro ⟨x, y, m, hx, hy, hm, rfl⟩
    refine readFrom_cons.mpr ⟨x, hx, readFrom_cons.mpr ⟨y, hy, ?_⟩⟩
    rw [readFrom_eq, hm, Nat.zero_mul, Nat.zero_add, Option.map_some]

/-! ## 3. Bytes, two digits each -/

inductive DecodeError where
  | oddLength
  | invalidCharacter (c : UInt8) (index : ℕ)
  deriving DecidableEq, Repr

/-- The value of the digit at a position. -/
def val (c : UInt8) (index : ℕ) : Except DecodeError ℕ :=
  match digitValue c with
  | some d => .ok d
  | none => .error (.invalidCharacter c index)

/-- The pairs from a position on. -/
def decodePairs : ℕ → List UInt8 → Except DecodeError (List UInt8)
  | index, hi :: lo :: rest => do
    let h ← val hi index
    let l ← val lo (index + 1)
    let bytes ← decodePairs (index + 2) rest
    return UInt8.ofNat (h * 16 + l) :: bytes
  | _, _ => .ok []

def decode (cs : List UInt8) : Except DecodeError (List UInt8) :=
  if cs.length % 2 ≠ 0 then .error .oddLength else decodePairs 0 cs

def encode (bs : List UInt8) : List UInt8 :=
  bs.flatMap fun b => [digit (b.toNat / 16), digit (b.toNat % 16)]

theorem val_eq_ok {c : UInt8} {index d : ℕ} : val c index = .ok d ↔ digitValue c = some d := by
  unfold val
  cases digitValue c <;> simp

/-- A quotient and a remainder are determined by what they make. -/
theorem eq_and_eq_of_mul_add_eq {a b m n k : ℕ} (hm : m < k) (hn : n < k)
    (h : a * k + m = b * k + n) : a = b ∧ m = n := by
  have hk : 0 < k := by omega
  have hdiv : ∀ {q r : ℕ}, r < k → (q * k + r) / k = q := fun {q r} hr => by
    rw [Nat.add_comm, Nat.add_mul_div_right r q hk, Nat.div_eq_of_lt hr, Nat.zero_add]
  have hab : a = b := by rw [← hdiv (q := a) hm, h, hdiv hn]
  subst hab
  exact ⟨rfl, Nat.add_left_cancel h⟩

/-- The first pair is a byte, and the rest decodes on its own. -/
theorem decodePairs_pair {hi lo : UInt8} {rest bs : List UInt8} {index : ℕ} :
    decodePairs index (hi :: lo :: rest) = .ok bs ↔
      ∃ x y bytes, digitValue hi = some x ∧ digitValue lo = some y ∧
        decodePairs (index + 2) rest = .ok bytes ∧ UInt8.ofNat (x * 16 + y) :: bytes = bs := by
  constructor
  · intro h
    obtain ⟨x, hx, h⟩ := Except.bind_eq_ok.mp h
    obtain ⟨y, hy, h⟩ := Except.bind_eq_ok.mp h
    obtain ⟨bytes, hbytes, h⟩ := Except.bind_eq_ok.mp h
    exact ⟨x, y, bytes, val_eq_ok.mp hx, val_eq_ok.mp hy, hbytes, Except.ok.inj h⟩
  · rintro ⟨x, y, bytes, hx, hy, hbytes, rfl⟩
    rw [decodePairs, val_eq_ok.mpr hx, val_eq_ok.mpr hy, hbytes]
    rfl

/-- The value of two digits is that of the byte they make. -/
theorem toNat_ofNat_pair {hi lo : UInt8} {x y : ℕ} (hx : digitValue hi = some x)
    (hy : digitValue lo = some y) : (UInt8.ofNat (x * 16 + y)).toNat = x * 16 + y := by
  have hx16 := digitValue_lt hx
  have hy16 := digitValue_lt hy
  rw [UInt8.toNat_ofNat']
  exact Nat.mod_eq_of_lt (by omega)

/-- **What decodes** is a run of pairs of digits, and its bytes spell the same number. -/
theorem decodePairs_eq_ok {cs bs : List UInt8} {index : ℕ} (hpar : cs.length % 2 = 0) :
    decodePairs index cs = .ok bs ↔
      cs.length = 2 * bs.length ∧ readFrom 0 cs = some (ofBE bs) := by
  induction cs using List.twoStepInduction generalizing bs index with
  | nil =>
    constructor
    · intro h
      obtain rfl := Except.ok.inj h
      exact ⟨rfl, rfl⟩
    · rintro ⟨hlen, -⟩
      obtain rfl : bs = [] := List.length_eq_zero_iff.mp (by simpa using hlen.symm)
      rfl
  | singleton c => simp at hpar
  | cons_cons hi lo rest ih _ =>
    have hpar' : rest.length % 2 = 0 := by
      simp only [List.length_cons] at hpar
      omega
    rw [decodePairs_pair, readFrom_pair]
    constructor
    · rintro ⟨x, y, bytes, hx, hy, hbytes, rfl⟩
      obtain ⟨hlen, hvalue⟩ := (ih hpar').mp hbytes
      refine ⟨by simp only [List.length_cons]; omega, x, y, _, hx, hy, hvalue, ?_⟩
      rw [ofBE_cons, toNat_ofNat_pair hx hy, hlen, pow_mul]
      norm_num
    · rintro ⟨hlen, x, y, m, hx, hy, hm, hvalue⟩
      obtain ⟨b, bs, rfl⟩ : ∃ b t, bs = b :: t :=
        List.exists_cons_of_ne_nil fun h => by simp [h] at hlen
      have hrest : rest.length = 2 * bs.length := by
        simp only [List.length_cons] at hlen
        omega
      have hpow : (16 : ℕ) ^ rest.length = 256 ^ bs.length := by
        rw [hrest, pow_mul]
        norm_num
      -- the two digits are the first byte, the rest the other ones
      have hlt := readFrom_lt hm
      have hbs := ofBE_lt (le_refl bs.length)
      rw [ofBE_cons, hpow] at hvalue
      rw [hpow] at hlt
      obtain ⟨hb, rfl⟩ := eq_and_eq_of_mul_add_eq (by omega) hbs hvalue
      refine ⟨x, y, bs, hx, hy, (ih hpar').mpr ⟨hrest, hm⟩, ?_⟩
      rw [hb, UInt8.ofNat_toNat]

/-- **A text decodes** when its digits come in pairs; the bytes spell the number it spells. -/
theorem decode_eq_ok {cs bs : List UInt8} :
    decode cs = .ok bs ↔ cs.length = 2 * bs.length ∧ readFrom 0 cs = some (ofBE bs) := by
  unfold decode
  split
  · rename_i hodd
    constructor
    · intro h
      cases h
    · rintro ⟨hlen, -⟩
      omega
  · rename_i heven
    exact decodePairs_eq_ok (not_not.mp heven)

/-- A text of digits, of even length, decodes. -/
theorem exists_decode {cs : List UInt8} {n : ℕ} (hlen : cs.length % 2 = 0)
    (h : readFrom 0 cs = some n) : ∃ bs, decode cs = .ok bs ∧ ofBE bs = n := by
  have hcs : cs.length = 2 * (cs.length / 2) := by omega
  have hlt : n < 256 ^ (cs.length / 2) := by
    have hlt := readFrom_lt h
    rw [hcs, pow_mul] at hlt
    simpa using hlt
  have hvalue : ofBE (toLE (cs.length / 2) n).reverse = n := by
    rw [ofBE, List.reverse_reverse, ofLE_toLE, Nat.mod_eq_of_lt hlt]
  refine ⟨(toLE (cs.length / 2) n).reverse, decode_eq_ok.mpr ⟨?_, ?_⟩, hvalue⟩
  · rw [List.length_reverse, toLE_length]
    exact hcs
  · rw [hvalue, h]

theorem length_encode (bs : List UInt8) : (encode bs).length = 2 * bs.length := by
  rw [encode, List.length_flatMap]
  simp [mul_comm]

theorem readFrom_encode (bs : List UInt8) : readFrom 0 (encode bs) = some (ofBE bs) := by
  induction bs with
  | nil => rfl
  | cons b bs ih =>
    have hb := UInt8.toNat_lt b
    rw [encode, List.flatMap_cons, List.cons_append, List.cons_append, List.nil_append, ← encode]
    refine readFrom_pair.mpr ⟨b.toNat / 16, b.toNat % 16, ofBE bs, digitValue_digit (by omega),
      digitValue_digit (by omega), ih, ?_⟩
    rw [ofBE_cons, length_encode, pow_mul, Nat.div_add_mod']
    norm_num

/-- **Bytes are read back.** -/
theorem decode_encode (bs : List UInt8) : decode (encode bs) = .ok bs :=
  decode_eq_ok.mpr ⟨length_encode bs, readFrom_encode bs⟩

/-! ## 4. Numbers, one digit after the other -/

inductive ParseError where
  | empty
  | invalidDigit
  | posOverflow
  deriving DecidableEq, Repr

/-- Continue a number that must stay below a limit. -/
def parseFrom (limit : ℕ) : ℕ → List UInt8 → Except ParseError ℕ
  | acc, [] => .ok acc
  | acc, c :: cs =>
    match digitValue c with
    | none => .error .invalidDigit
    | some d => if acc * 16 + d < limit then parseFrom limit (acc * 16 + d) cs
      else .error .posOverflow

/-- A numeral, after at most one plus sign. -/
def parse (limit : ℕ) : List UInt8 → Except ParseError ℕ
  | [] => .error .empty
  | 43 :: [] => .error .invalidDigit
  | 43 :: cs => parseFrom limit 0 cs
  | cs => parseFrom limit 0 cs

/-- The number a numeral spells, of whatever size. -/
def numeral : List UInt8 → Option ℕ
  | [] => none
  | 43 :: [] => none
  | 43 :: cs => readFrom 0 cs
  | cs => readFrom 0 cs

theorem parseFrom_eq_ok {limit : ℕ} {cs : List UInt8} {acc n : ℕ} (hacc : acc < limit) :
    parseFrom limit acc cs = .ok n ↔ readFrom acc cs = some n ∧ n < limit := by
  induction cs generalizing acc with
  | nil =>
    simp only [parseFrom, readFrom, Except.ok.injEq, Option.some.injEq]
    constructor
    · rintro rfl
      exact ⟨rfl, hacc⟩
    · exact And.left
  | cons c cs ih =>
    unfold parseFrom readFrom
    cases digitValue c with
    | none => simp
    | some d =>
      dsimp only
      split
      · rename_i hlt
        exact ih hlt
      · rename_i hge
        constructor
        · intro h
          cases h
        · rintro ⟨h, hn⟩
          have hle := le_of_readFrom h
          omega

/-- **A text parses** when it is the numeral of a number below the limit. -/
theorem parse_eq_ok {limit n : ℕ} {cs : List UInt8} (hlimit : 0 < limit) :
    parse limit cs = .ok n ↔ numeral cs = some n ∧ n < limit := by
  unfold parse numeral
  split
  · simp
  · simp
  · exact parseFrom_eq_ok hlimit
  · exact parseFrom_eq_ok hlimit

/-- The shortest numeral of a number; that of zero is one digit. -/
def digits (n : ℕ) : List UInt8 :=
  if n = 0 then [digit 0] else (Nat.digits 16 n).reverse.map digit

theorem readFrom_map_digit {ds : List ℕ} {acc : ℕ} (h : ∀ d ∈ ds, d < 16) :
    readFrom acc (ds.map digit) = some (ds.foldl (fun a d => a * 16 + d) acc) := by
  induction ds generalizing acc with
  | nil => rfl
  | cons d ds ih =>
    rw [List.map_cons, readFrom, digitValue_digit (h d List.mem_cons_self)]
    exact ih fun x hx => h x (List.mem_cons_of_mem d hx)

theorem readFrom_digits (n : ℕ) : readFrom 0 (digits n) = some n := by
  unfold digits
  split
  · rename_i h
    rw [h]
    rfl
  · have hlt : ∀ d ∈ (Nat.digits 16 n).reverse, d < 16 := fun d hd =>
      Nat.digits_lt_base (by norm_num) (List.mem_reverse.mp hd)
    have hfold : (Nat.digits 16 n).foldr (fun d a => a * 16 + d) 0 = n := by
      refine Eq.trans ?_ (Nat.ofDigits_digits 16 n)
      rw [Nat.ofDigits_eq_foldr]
      congr 1
      funext d a
      rw [Nat.cast_id]
      ring
    rw [readFrom_map_digit hlt, List.foldl_reverse, hfold]

/-- Every character of a numeral is a digit. -/
theorem mem_digits {n : ℕ} {c : UInt8} (h : c ∈ digits n) : ∃ d < 16, c = digit d := by
  unfold digits at h
  split at h
  · exact ⟨0, by norm_num, List.mem_singleton.mp h⟩
  · obtain ⟨d, hd, rfl⟩ := List.mem_map.mp h
    exact ⟨d, Nat.digits_lt_base (by norm_num) (List.mem_reverse.mp hd), rfl⟩

theorem digits_ne_nil (n : ℕ) : digits n ≠ [] := by
  unfold digits
  split
  · exact List.cons_ne_nil _ _
  · rename_i h
    have hne : Nat.digits 16 n ≠ [] := Nat.digits_ne_nil_iff_ne_zero.mpr h
    simpa [Nat.digits_eq_nil_iff_eq_zero] using hne

/-- **A number is read back** from its numeral. -/
theorem numeral_digits (n : ℕ) : numeral (digits n) = some n := by
  have hread := readFrom_digits n
  obtain ⟨c, cs, hcs⟩ := List.exists_cons_of_ne_nil (digits_ne_nil n)
  have hc : c ≠ 43 := by
    obtain ⟨d, hd, rfl⟩ := mem_digits (n := n) (c := c) (by rw [hcs]; exact List.mem_cons_self)
    exact (digit_ne hd).2.1
  rw [hcs] at hread ⊢
  unfold numeral
  split
  · rename_i h
    cases h
  · rename_i h
    exact absurd (List.cons.inj h).1 hc
  · rename_i h
    exact absurd (List.cons.inj h).1 hc
  · exact hread

/-- A number below `16 ^ k` takes at most `k` digits. -/
theorem length_digits_le {n k : ℕ} (hk : 0 < k) (h : n < 16 ^ k) : (digits n).length ≤ k := by
  unfold digits
  split
  · exact hk
  · rw [List.length_map, List.length_reverse]
    exact (Nat.digits_length_le_iff (by norm_num) n).mpr h

/-! ## 5. The marker -/

/-- The text after all leading `0x` markers. -/
def trimMarkers : List UInt8 → List UInt8
  | 48 :: 120 :: cs => trimMarkers cs
  | cs => cs

theorem length_trimMarkers_le (cs : List UInt8) : (trimMarkers cs).length ≤ cs.length := by
  induction cs using trimMarkers.induct with
  | case1 cs ih =>
    rw [trimMarkers, List.length_cons, List.length_cons]
    omega
  | case2 cs hcs => rw [trimMarkers.eq_2 cs hcs]

/-- The marker and the text behind it. -/
def mark (cs : List UInt8) : List UInt8 := 48 :: 120 :: cs

/-- A text without the letter of the marker has none. -/
theorem trimMarkers_of_not_mem {cs : List UInt8} (h : (120 : UInt8) ∉ cs) :
    trimMarkers cs = cs := by
  unfold trimMarkers
  split
  · simp at h
  · rfl

theorem trimMarkers_mark {cs : List UInt8} (h : (120 : UInt8) ∉ cs) :
    trimMarkers (mark cs) = cs := by
  rw [mark, trimMarkers, trimMarkers_of_not_mem h]

theorem not_mem_digits (n : ℕ) : (120 : UInt8) ∉ digits n := fun h => by
  obtain ⟨d, hd, heq⟩ := mem_digits h
  exact (digit_ne hd).1 heq.symm

theorem not_mem_encode (bs : List UInt8) : (120 : UInt8) ∉ encode bs := fun h => by
  obtain ⟨b, -, hb⟩ := List.mem_flatMap.mp h
  have hlt := UInt8.toNat_lt b
  rcases List.mem_pair.mp hb with heq | heq
  · exact (digit_ne (by omega)).1 heq.symm
  · exact (digit_ne (by omega)).1 heq.symm

end Hex
