/-
# Numbers as byte strings

Two layouts are used by the formats above: `toLE k n`, the `k` low bytes of `n` with the least
significant first, and `toBE n`, the shortest big-endian spelling (empty for zero).  Both are
read back by Mathlib's `Nat.ofDigits` in base 256.
-/
import Mathlib.Tactic
import Mathlib.Data.Nat.Digits.Lemmas

namespace ByteString

/-! ## 1. Little-endian, fixed width -/

/-- The `k` low bytes of `n`, least significant first. -/
def toLE : ℕ → ℕ → List UInt8
  | 0, _ => []
  | k + 1, n => UInt8.ofNat (n % 256) :: toLE k (n / 256)

/-- The number a little-endian byte string spells. -/
def ofLE (bs : List UInt8) : ℕ := Nat.ofDigits 256 (bs.map UInt8.toNat)

@[simp] theorem toLE_length (k n : ℕ) : (toLE k n).length = k := by
  induction k generalizing n with
  | zero => rfl
  | succ k ih => rw [toLE, List.length_cons, ih]

theorem ofLE_cons (b : UInt8) (bs : List UInt8) : ofLE (b :: bs) = b.toNat + 256 * ofLE bs := by
  simp [ofLE, Nat.ofDigits_cons]

/-- Reading back `k` bytes gives the number modulo their capacity. -/
theorem ofLE_toLE (k n : ℕ) : ofLE (toLE k n) = n % 256 ^ k := by
  induction k generalizing n with
  | zero => simp [toLE, ofLE, Nat.mod_one]
  | succ k ih =>
    have hb : (UInt8.ofNat (n % 256)).toNat = n % 256 := by simp
    rw [toLE, ofLE_cons, hb, ih, pow_succ', Nat.mod_mul]

/-- `k` bytes spell a number below `256 ^ k`. -/
theorem ofLE_lt (bs : List UInt8) : ofLE bs < 256 ^ bs.length := by
  induction bs with
  | nil => simp [ofLE]
  | cons b bs ih =>
    have hb : b.toNat < 256 := UInt8.toNat_lt b
    rw [ofLE_cons, List.length_cons, pow_succ']
    omega

/-- Writing back what was read. -/
theorem toLE_ofLE (bs : List UInt8) : toLE bs.length (ofLE bs) = bs := by
  induction bs with
  | nil => rfl
  | cons b bs ih =>
    have hb : b.toNat < 256 := UInt8.toNat_lt b
    have hmod : (b.toNat + 256 * ofLE bs) % 256 = b.toNat := by omega
    have hdiv : (b.toNat + 256 * ofLE bs) / 256 = ofLE bs := by omega
    rw [List.length_cons, toLE, ofLE_cons, hmod, hdiv, ih, UInt8.ofNat_toNat]

/-- Zero is all zero bytes. -/
theorem toLE_zero (k : ℕ) : toLE k 0 = List.replicate k 0 := by
  induction k with
  | zero => rfl
  | succ k ih =>
    rw [toLE, Nat.zero_div, ih]
    rfl

/-- A wider spelling of a number is the narrow one, padded with zero bytes. -/
theorem toLE_add (k j n : ℕ) (h : n < 256 ^ k) :
    toLE (k + j) n = toLE k n ++ List.replicate j 0 := by
  induction k generalizing n with
  | zero =>
    have hn : n = 0 := by simpa using h
    rw [hn, Nat.zero_add, toLE_zero]
    rfl
  | succ k ih =>
    have hlt : n / 256 < 256 ^ k := by
      rw [Nat.div_lt_iff_lt_mul (by norm_num)]
      rwa [pow_succ] at h
    rw [show k + 1 + j = (k + j) + 1 by omega, toLE, ih _ hlt, toLE, List.cons_append]

/-! ## 2. Big-endian, shortest -/

/-- The shortest big-endian spelling of `n`; zero is the empty string. -/
def toBE (n : ℕ) : List UInt8 := ((Nat.digits 256 n).map UInt8.ofNat).reverse

/-- The number a big-endian byte string spells. -/
def ofBE (bs : List UInt8) : ℕ := ofLE bs.reverse

/-- A byte string with no leading zero byte. -/
def Minimal (bs : List UInt8) : Prop := bs.head? ≠ some 0

instance (bs : List UInt8) : Decidable (Minimal bs) := inferInstanceAs (Decidable (_ ≠ _))

theorem map_toNat_ofNat_digits (n : ℕ) :
    ((Nat.digits 256 n).map UInt8.ofNat).map UInt8.toNat = Nat.digits 256 n := by
  rw [List.map_map]
  refine (List.map_congr_left fun d hd => ?_).trans (List.map_id _)
  have hlt : d < 256 := Nat.digits_lt_base (by norm_num) hd
  simp [Nat.mod_eq_of_lt hlt]

/-- Reading back the shortest spelling. -/
@[simp] theorem ofBE_toBE (n : ℕ) : ofBE (toBE n) = n := by
  rw [ofBE, toBE, List.reverse_reverse, ofLE, map_toNat_ofNat_digits, Nat.ofDigits_digits]

/-- The shortest spelling has no leading zero. -/
theorem toBE_minimal (n : ℕ) : Minimal (toBE n) := by
  rcases Nat.eq_zero_or_pos n with rfl | hn
  · simp [Minimal, toBE]
  · have hne : Nat.digits 256 n ≠ [] := Nat.digits_ne_nil_iff_ne_zero.mpr (by omega)
    have hlast := Nat.getLast_digit_ne_zero 256 (m := n) (by omega)
    have hlt : (Nat.digits 256 n).getLast hne < 256 :=
      Nat.digits_lt_base (by norm_num) (List.getLast_mem hne)
    rw [Minimal, toBE, List.head?_reverse, List.getLast?_map,
      List.getLast?_eq_getLast_of_ne_nil hne]
    intro h
    have h0 : UInt8.ofNat ((Nat.digits 256 n).getLast hne) = 0 := by simpa using h
    have h1 := congrArg UInt8.toNat h0
    simp [Nat.mod_eq_of_lt hlt] at h1
    exact hlast h1

/-- A spelling with no leading zero is the shortest one. -/
theorem toBE_ofBE {bs : List UInt8} (h : Minimal bs) : toBE (ofBE bs) = bs := by
  have hdig : Nat.digits 256 (Nat.ofDigits 256 (bs.reverse.map UInt8.toNat))
      = bs.reverse.map UInt8.toNat := by
    refine Nat.digits_ofDigits 256 (by norm_num) _ ?_ ?_
    · intro d hd
      obtain ⟨b, -, rfl⟩ := List.mem_map.mp hd
      exact UInt8.toNat_lt b
    · intro hne h0
      have hne' : bs ≠ [] := by rintro rfl; simp at hne
      obtain ⟨b, t, rfl⟩ := List.exists_cons_of_ne_nil hne'
      simp only [List.reverse_cons, List.map_append, List.map_cons, List.map_nil,
        List.getLast_append_singleton] at h0
      exact h (by simp [UInt8.toNat_inj.mp (h0.trans UInt8.toNat_zero.symm)])
  rw [toBE, ofBE, ofLE, hdig, List.map_map, ← List.map_reverse, List.reverse_reverse]
  exact (List.map_congr_left fun b _ => by simp).trans (List.map_id _)

/-- A number below `256 ^ k` is spelled in at most `k` bytes, and no other is. -/
theorem toBE_length_le {k n : ℕ} : (toBE n).length ≤ k ↔ n < 256 ^ k := by
  rw [toBE, List.length_reverse, List.length_map]
  exact Nat.digits_length_le_iff (by norm_num) n

/-- A byte string of `k` bytes spells a number below `256 ^ k`. -/
theorem ofBE_lt {k : ℕ} {bs : List UInt8} (h : bs.length ≤ k) : ofBE bs < 256 ^ k := by
  have h1 := ofLE_lt bs.reverse
  rw [List.length_reverse] at h1
  exact h1.trans_le (Nat.pow_le_pow_right (by norm_num) h)

/-- The first byte counts most. -/
theorem ofBE_cons (b : UInt8) (bs : List UInt8) :
    ofBE (b :: bs) = b.toNat * 256 ^ bs.length + ofBE bs := by
  rw [ofBE, ofBE, ofLE, ofLE, List.reverse_cons, List.map_append, Nat.ofDigits_append]
  simp only [List.map_cons, List.map_nil, Nat.ofDigits_singleton, List.length_map,
    List.length_reverse]
  ring

/-- Zeros in front count nothing. -/
theorem ofBE_replicate_append (k : ℕ) (bs : List UInt8) :
    ofBE (List.replicate k 0 ++ bs) = ofBE bs := by
  induction k with
  | zero => rfl
  | succ k ih =>
    rw [List.replicate_succ, List.cons_append, ofBE_cons, ih]
    simp

theorem toBE_inj {m n : ℕ} (h : toBE m = toBE n) : m = n := by
  rw [← ofBE_toBE m, h, ofBE_toBE]

/-- Only zero is spelled by no byte at all. -/
theorem toBE_eq_nil {n : ℕ} : toBE n = [] ↔ n = 0 := by
  simp [toBE, Nat.digits_eq_nil_iff_eq_zero]

/-! ## 3. Half bytes -/

abbrev Nibble := Fin 16

/-- The half bytes of a byte string, high half first. -/
def nibbles (bs : List UInt8) : List Nibble :=
  bs.flatMap fun b => [Fin.ofNat 16 (b.toNat / 16), Fin.ofNat 16 b.toNat]

@[simp] theorem nibbles_nil : nibbles [] = [] := rfl
@[simp] theorem nibbles_cons (b : UInt8) (bs : List UInt8) :
    nibbles (b :: bs) = Fin.ofNat 16 (b.toNat / 16) :: Fin.ofNat 16 b.toNat :: nibbles bs := rfl

/-- A byte is its two halves. -/
theorem byte_eq_of_halves {a b : UInt8}
    (hhigh : Fin.ofNat 16 (a.toNat / 16) = Fin.ofNat 16 (b.toNat / 16))
    (hlow : Fin.ofNat 16 a.toNat = Fin.ofNat 16 b.toNat) : a = b := by
  have ha : a.toNat < 256 := UInt8.toNat_lt a
  have hb : b.toNat < 256 := UInt8.toNat_lt b
  have hhigh' : a.toNat / 16 % 16 = b.toNat / 16 % 16 := congrArg Fin.val hhigh
  have hlow' : a.toNat % 16 = b.toNat % 16 := congrArg Fin.val hlow
  exact UInt8.toNat_inj.mp (by omega)

/-- **Half bytes nest only as the bytes do.** -/
theorem prefix_of_nibbles {as bs : List UInt8} (h : nibbles as <+: nibbles bs) : as <+: bs := by
  induction as generalizing bs with
  | nil => exact List.nil_prefix
  | cons a as ih =>
    cases bs with
    | nil => simp at h
    | cons b bs =>
      rw [nibbles_cons, nibbles_cons, List.cons_prefix_cons, List.cons_prefix_cons] at h
      obtain ⟨hhigh, hlow, hrest⟩ := h
      exact List.cons_prefix_cons.mpr ⟨byte_eq_of_halves hhigh hlow, ih hrest⟩

end ByteString
