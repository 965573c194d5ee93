/-
# Bits in bytes

Runs of bits packed into bytes, eight to a byte and the lowest first.  `pack` fills the last byte
with zeros and `unpack` reads them too, so `unpack` after `pack` gives the run and a padding
(`unpack_pack`), and `pack` after `unpack` gives the bytes (`pack_unpack`).

Two ways to say where a run ends.  Its length is known: then the padding must be zero
(`eq_pack_iff`).  It is not: then a set bit stands behind it, and is the highest one
(`highest_append_true`, `eq_append_of_highest`).
-/
import Mathlib.Tactic

namespace Bits

/-! ## 1. A run of bits as a number -/

def ofBits (bits : List Bool) : ℕ := bits.foldr (fun b acc => 2 * acc + b.toNat) 0

/-- The low `k` bits. -/
def toBits : ℕ → ℕ → List Bool
  | 0, _ => []
  | k + 1, n => (n % 2 == 1) :: toBits k (n / 2)

@[simp] theorem ofBits_nil : ofBits [] = 0 := rfl

theorem ofBits_cons (b : Bool) (bits : List Bool) :
    ofBits (b :: bits) = 2 * ofBits bits + b.toNat := rfl

@[simp] theorem length_toBits (k n : ℕ) : (toBits k n).length = k := by
  induction k generalizing n with
  | zero => rfl
  | succ k ih => rw [toBits, List.length_cons, ih]

theorem ofBits_lt (bits : List Bool) : ofBits bits < 2 ^ bits.length := by
  induction bits with
  | nil => simp
  | cons b bits ih =>
    have hb := b.toNat_le
    rw [ofBits_cons, List.length_cons, pow_succ]
    omega

/-- The low bits of a number. -/
theorem ofBits_toBits (k n : ℕ) : ofBits (toBits k n) = n % 2 ^ k := by
  induction k generalizing n with
  | zero => simp [toBits, Nat.mod_one]
  | succ k ih =>
    have hbit : (n % 2 == 1).toNat = n % 2 := by
      rcases Nat.mod_two_eq_zero_or_one n with h | h <;> simp [h]
    rw [toBits, ofBits_cons, ih, hbit, pow_succ', Nat.mod_mul]
    omega

/-- A run of bits and any more on top. -/
theorem toBits_ofBits {k : ℕ} (bits : List Bool) (h : bits.length ≤ k) :
    toBits k (ofBits bits) = bits ++ List.replicate (k - bits.length) false := by
  induction bits generalizing k with
  | nil =>
    induction k with
    | zero => rfl
    | succ k ih =>
      rw [ofBits_nil] at ih ⊢
      rw [toBits, ih (Nat.zero_le k)]
      rfl
  | cons b bits ih =>
    obtain ⟨m, rfl⟩ : ∃ m, k = m + 1 := ⟨k - 1, by rw [List.length_cons] at h; omega⟩
    rw [List.length_cons] at h
    have hb := b.toNat_le
    have hdiv : (2 * ofBits bits + b.toNat) / 2 = ofBits bits := by omega
    have hmod : ((2 * ofBits bits + b.toNat) % 2 == 1) = b := by
      cases b <;> simp
    rw [ofBits_cons, toBits, hdiv, hmod, ih (by omega), List.cons_append, List.length_cons,
      Nat.add_sub_add_right]

/-- Zeros on top do not count. -/
theorem ofBits_append_false (bits : List Bool) (k : ℕ) :
    ofBits (bits ++ List.replicate k false) = ofBits bits := by
  induction bits with
  | nil =>
    induction k with
    | zero => rfl
    | succ k ih =>
      rw [List.nil_append] at ih ⊢
      rw [List.replicate_succ, ofBits_cons, ih]
      rfl
  | cons b bits ih => rw [List.cons_append, ofBits_cons, ih, ofBits_cons]

theorem take_toBits {j k : ℕ} (h : j ≤ k) (n : ℕ) : (toBits k n).take j = toBits j n := by
  induction j generalizing k n with
  | zero => rfl
  | succ j ih =>
    obtain ⟨m, rfl⟩ : ∃ m, k = m + 1 := ⟨k - 1, by omega⟩
    rw [toBits, toBits, List.take_succ_cons, ih (by omega)]

/-! ## 2. Bytes -/

/-- The first eight bits. -/
def byte (bits : List Bool) : UInt8 := UInt8.ofNat (ofBits (bits.take 8))

def pack (bits : List Bool) : List UInt8 :=
  (List.range ((bits.length + 7) / 8)).map fun i => byte (bits.drop (8 * i))

def unpack (bs : List UInt8) : List Bool := bs.flatMap fun b => toBits 8 b.toNat

theorem toNat_byte (bits : List Bool) : (byte bits).toNat = ofBits (bits.take 8) := by
  have hlt := ofBits_lt (bits.take 8)
  have hpow : 2 ^ (bits.take 8).length ≤ 2 ^ 8 :=
    Nat.pow_le_pow_right (by norm_num) (List.length_take_le 8 bits)
  rw [byte, UInt8.toNat_ofNat', Nat.mod_eq_of_lt (hlt.trans_le hpow)]

/-- A byte from its own bits. -/
theorem byte_toBits (b : UInt8) : byte (toBits 8 b.toNat) = b := by
  have hlt := UInt8.toNat_lt b
  apply UInt8.toNat_inj.mp
  rw [toNat_byte, List.take_of_length_le (by rw [length_toBits]), ofBits_toBits,
    Nat.mod_eq_of_lt hlt]

@[simp] theorem length_pack (bits : List Bool) : (pack bits).length = (bits.length + 7) / 8 := by
  rw [pack, List.length_map, List.length_range]

@[simp] theorem length_unpack (bs : List UInt8) : (unpack bs).length = 8 * bs.length := by
  induction bs with
  | nil => rfl
  | cons b bs ih =>
    rw [unpack, List.flatMap_cons, List.length_append, length_toBits, ← unpack, ih,
      List.length_cons]
    omega

/-- One byte at a time. -/
theorem pack_of_ne_nil {bits : List Bool} (h : bits ≠ []) :
    pack bits = byte bits :: pack (bits.drop 8) := by
  have hpos := List.length_pos_of_ne_nil h
  have hcount : (bits.length + 7) / 8 = ((bits.drop 8).length + 7) / 8 + 1 := by
    rw [List.length_drop]
    omega
  rw [pack, hcount, List.range_succ_eq_map, List.map_cons, List.map_map, pack]
  congr 1
  refine List.map_congr_left fun i _ => ?_
  have hplace : 8 * i.succ = 8 + 8 * i := by omega
  rw [Function.comp_apply, List.drop_drop, hplace]

theorem pack_append_byte {bits : List Bool} (h : bits.length = 8) (rest : List Bool) :
    pack (bits ++ rest) = byte bits :: pack rest := by
  have hne : bits ++ rest ≠ [] := by
    intro hnil
    rw [(List.append_eq_nil_iff.mp hnil).1] at h
    cases h
  have hbyte : byte (bits ++ rest) = byte bits := by
    rw [byte, byte, List.take_left' h, List.take_of_length_le (by omega)]
  rw [pack_of_ne_nil hne, hbyte, List.drop_left' h]

theorem pack_unpack_append (bs : List UInt8) (rest : List Bool) :
    pack (unpack bs ++ rest) = bs ++ pack rest := by
  induction bs with
  | nil => rfl
  | cons b bs ih =>
    rw [unpack, List.flatMap_cons, ← unpack, List.append_assoc,
      pack_append_byte (length_toBits 8 _), ih, byte_toBits, List.cons_append]

/-- **Bytes are read back.** -/
theorem pack_unpack (bs : List UInt8) : pack (unpack bs) = bs := by
  have h := pack_unpack_append bs []
  have hnil : pack [] = [] := rfl
  rwa [List.append_nil, hnil, List.append_nil] at h

/-- **A run is read back**, with its padding. -/
theorem unpack_pack (bits : List Bool) :
    unpack (pack bits)
      = bits ++ List.replicate (8 * ((bits.length + 7) / 8) - bits.length) false := by
  induction hn : bits.length using Nat.strong_induction_on generalizing bits with
  | _ n ih =>
    subst hn
    by_cases hnil : bits = []
    · rw [hnil]
      rfl
    have hpos := List.length_pos_of_ne_nil hnil
    have htake := List.take_append_drop 8 bits
    rw [pack_of_ne_nil hnil, unpack, List.flatMap_cons, ← unpack, toNat_byte,
      toBits_ofBits _ (List.length_take_le 8 bits)]
    have hrest := ih (bits.drop 8).length (by rw [List.length_drop]; omega) (bits.drop 8) rfl
    rw [hrest, List.length_take, List.length_drop]
    rcases Nat.lt_or_ge bits.length 8 with hshort | hlong
    · have hdrop : bits.drop 8 = [] := List.drop_eq_nil_of_le (by omega)
      rw [hdrop, List.take_of_length_le (by omega), List.nil_append, List.append_assoc,
        List.replicate_append_replicate]
      congr 2
      omega
    · rw [Nat.min_eq_left hlong, Nat.sub_self, List.replicate_zero, List.append_nil,
        ← List.append_assoc, htake]
      congr 2
      omega

/-- Zeros behind a run make no difference to its bytes. -/
theorem take_pack_append_false (bits : List Bool) (k : ℕ) :
    (pack (bits ++ List.replicate k false)).take ((bits.length + 7) / 8) = pack bits := by
  have hcount : (bits.length + 7) / 8
      ≤ ((bits ++ List.replicate k false).length + 7) / 8 := by
    rw [List.length_append]
    omega
  rw [pack, ← List.map_take, List.take_range, Nat.min_eq_left hcount, pack]
  refine List.map_congr_left fun i hi => ?_
  have hlt := List.mem_range.mp hi
  rw [List.drop_append_of_le_length (by omega), byte, byte, List.take_append,
    List.take_replicate, ofBits_append_false]

/-! ## 3. A run of known length -/

/-- The bits of the last byte that belong to a run of `n`. -/
def lastBits (n : ℕ) : ℕ := if n % 8 = 0 then 8 else n % 8

theorem lastBits_spec {n : ℕ} (hn : 0 < n) :
    0 < lastBits n ∧ lastBits n ≤ 8 ∧ n = 8 * ((n + 7) / 8 - 1) + lastBits n := by
  unfold lastBits
  split <;> omega

/-- The last byte of a run holds no more than its last bits. -/
theorem getLast?_pack {bits : List Bool} (h : bits ≠ []) {b : UInt8}
    (hb : b ∈ (pack bits).getLast?) : b.toNat < 2 ^ lastBits bits.length := by
  have hpos := List.length_pos_of_ne_nil h
  obtain ⟨-, hle, hsplit⟩ := lastBits_spec hpos
  rw [pack, List.getLast?_map, List.getLast?_range, if_neg (by omega), Option.map_some,
    Option.mem_some_iff] at hb
  rw [← hb, toNat_byte]
  refine (ofBits_lt _).trans_le (Nat.pow_le_pow_right (by norm_num) ?_)
  rw [List.length_take, List.length_drop]
  omega

/-- A byte that holds `r` bits is the byte of those. -/
theorem pack_toBits {r : ℕ} (hr : 0 < r) (hr8 : r ≤ 8) {b : UInt8} (hb : b.toNat < 2 ^ r) :
    pack (toBits r b.toNat) = [b] := by
  have hne : toBits r b.toNat ≠ [] := by
    intro h
    have hlen := length_toBits r b.toNat
    rw [h, List.length_nil] at hlen
    omega
  have hdrop : (toBits r b.toNat).drop 8 = [] :=
    List.drop_eq_nil_of_le (by rw [length_toBits]; exact hr8)
  have hbyte : byte (toBits r b.toNat) = b := by
    apply UInt8.toNat_inj.mp
    rw [toNat_byte, List.take_of_length_le (by rw [length_toBits]; exact hr8), ofBits_toBits,
      Nat.mod_eq_of_lt hb]
  rw [pack_of_ne_nil hne, hdrop, hbyte]
  rfl

/-- **The bytes of a run of known length**: as many as it takes, and the padding is zero. -/
theorem eq_pack_iff {n : ℕ} (hn : 0 < n) {bs : List UInt8} {bits : List Bool} :
    (bits.length = n ∧ bs = pack bits) ↔
      bs.length = (n + 7) / 8 ∧ (∀ b ∈ bs.getLast?, b.toNat < 2 ^ lastBits n) ∧
        bits = (unpack bs).take n := by
  constructor
  · rintro ⟨rfl, rfl⟩
    have hne : bits ≠ [] := List.ne_nil_of_length_pos hn
    refine ⟨length_pack bits, fun b hb => getLast?_pack hne hb, ?_⟩
    rw [unpack_pack, List.take_left' rfl]
  · rintro ⟨hlen, hlast, rfl⟩
    obtain ⟨hpos, hle, hsplit⟩ := lastBits_spec hn
    refine ⟨by rw [List.length_take, length_unpack]; omega, ?_⟩
    -- the last byte, and those before it
    obtain ⟨init, b, rfl⟩ : ∃ init b, bs = init ++ [b] := by
      rcases List.eq_nil_or_concat bs with rfl | ⟨init, b, h⟩
      · rw [List.length_nil] at hlen
        omega
      · exact ⟨init, b, by rw [h, List.concat_eq_append]⟩
    have hb := hlast b (by simp)
    have hinit : 8 * init.length + lastBits n = n := by
      rw [List.length_append, List.length_singleton] at hlen
      omega
    have hunpack : unpack (init ++ [b]) = unpack init ++ toBits 8 b.toNat := by
      simp [unpack]
    have htake : (unpack (init ++ [b])).take n = unpack init ++ toBits (lastBits n) b.toNat := by
      rw [hunpack, List.take_append, length_unpack, List.take_of_length_le (by
        rw [length_unpack]
        omega), ← take_toBits hle]
      congr 2
      omega
    rw [htake, pack_unpack_append, pack_toBits hpos hle hb]

/-! ## 4. A run with a delimiter -/

/-- The place of the highest set bit. -/
def highest : List Bool → Option ℕ
  | [] => none
  | b :: bits =>
    match highest bits with
    | some i => some (i + 1)
    | none => if b then some 0 else none

theorem highest_replicate_false (k : ℕ) : highest (List.replicate k false) = none := by
  induction k with
  | zero => rfl
  | succ k ih => rw [List.replicate_succ, highest, ih]; rfl

theorem highest_append_true (bits : List Bool) (k : ℕ) :
    highest (bits ++ true :: List.replicate k false) = some bits.length := by
  induction bits with
  | nil => rw [List.nil_append, highest, highest_replicate_false]; rfl
  | cons b bits ih => rw [List.cons_append, highest, ih, List.length_cons]

theorem eq_replicate_of_highest_eq_none {bits : List Bool} (h : highest bits = none) :
    bits = List.replicate bits.length false := by
  induction bits with
  | nil => rfl
  | cons b bits ih =>
    rw [highest] at h
    cases hrest : highest bits with
    | some i =>
      rw [hrest] at h
      cases h
    | none =>
      rw [hrest] at h
      cases b with
      | true => cases h
      | false => rw [List.length_cons, List.replicate_succ, ← ih hrest]

/-- Everything above the highest set bit is a zero. -/
theorem eq_append_of_highest {bits : List Bool} {i : ℕ} (h : highest bits = some i) :
    ∃ low k, low.length = i ∧ bits = low ++ true :: List.replicate k false := by
  induction bits generalizing i with
  | nil => cases h
  | cons b bits ih =>
    rw [highest] at h
    cases hrest : highest bits with
    | some j =>
      rw [hrest] at h
      obtain ⟨low, k, hlen, rfl⟩ := ih hrest
      refine ⟨b :: low, k, ?_, rfl⟩
      rw [List.length_cons, hlen]
      exact Option.some.inj h
    | none =>
      rw [hrest] at h
      cases b with
      | false => cases h
      | true =>
        obtain rfl := Option.some.inj h
        refine ⟨[], bits.length, rfl, ?_⟩
        rw [List.nil_append, ← eq_replicate_of_highest_eq_none hrest]

end Bits
