/-
# RLP of the primitive values

How `alloy_rlp` spells the values of `Primitives.lean`: hashes and addresses as byte strings of
their width, numbers as their shortest big-endian spelling.  Each is a `Codec`, built from the
RLP items of the library, so it reads one spelling of each value.
-/
import EthHistorian.Lib.RlpItems
import EthHistorian.Model.Primitives

namespace EthHistorian

/-- `Display` of an error. -/
def rlpErrorText : Rlp.Error → String
  | .overflow => "overflow"
  | .leadingZero => "leading zero"
  | .inputTooShort => "input too short"
  | .nonCanonicalSingleByte => "non-canonical single byte"
  | .nonCanonicalSize => "non-canonical size"
  | .unexpectedLength => "unexpected length"
  | .unexpectedString => "unexpected string"
  | .unexpectedList => "unexpected list"

/-- `FixedBytes<N>`. -/
def rlpFixedBytes (n : ℕ) : Codec Rlp.Error (FixedBytes n) :=
  (Rlp.fixed n).refine (fun x => ⟨x.bytes, x.length_eq⟩) (fun b => .ok ⟨b.1, b.2⟩) (by
    rintro ⟨b, hb⟩ ⟨x, hx⟩
    simp [FixedBytes.ext_iff, Subtype.ext_iff])

theorem rlpFixedBytes_enc {n : ℕ} (x : FixedBytes n) :
    (rlpFixedBytes n).enc x = Rlp.encodeString x.bytes := rfl

/-- `u64`. -/
def rlpU64 : Codec Rlp.Error UInt64 :=
  (Rlp.uint 8).refine (fun x => ⟨x.toNat, UInt64.toNat_lt x⟩) (fun n => .ok (UInt64.ofNat n.1))
    (by
      rintro ⟨n, hn⟩ x
      have hmod : n % 2 ^ 64 = n := Nat.mod_eq_of_lt hn
      simp only [Except.ok.injEq, Subtype.mk.injEq, ← UInt64.toNat_inj, UInt64.toNat_ofNat', hmod])

theorem rlpU64_enc (x : UInt64) :
    rlpU64.enc x = Rlp.encodeString (ByteString.toBE x.toNat) := rfl

/-- `U256`. -/
def rlpU256 : Codec Rlp.Error U256 :=
  (Rlp.uint 32).refine (fun x => ⟨x.toNat, x.isLt⟩) (fun n => .ok (BitVec.ofNat 256 n.1))
    (by
      rintro ⟨n, hn⟩ x
      have hmod : n % 2 ^ 256 = n := Nat.mod_eq_of_lt hn
      simp only [Except.ok.injEq, Subtype.mk.injEq, ← BitVec.toNat_inj, BitVec.toNat_ofNat, hmod])

theorem rlpU256_enc (x : U256) :
    rlpU256.enc x = Rlp.encodeString (ByteString.toBE x.toNat) := rfl

/-- `Bytes`. -/
def rlpBytes : Codec Rlp.Error Bytes :=
  Rlp.str.refine (fun x => x.data)
    (fun bs => if h : bs.length < 2 ^ 63 then .ok ⟨bs, h⟩ else .error .overflow) (by
      rintro bs ⟨d, hd⟩
      constructor
      · intro h
        split at h
        · simp only [Except.ok.injEq, Bytes.mk.injEq] at h
          exact h
        · cases h
      · rintro rfl
        exact dif_pos hd)

theorem rlpBytes_enc (x : Bytes) : rlpBytes.enc x = Rlp.encodeString x.data := rfl

/-! What these types hold, the format can carry. -/

theorem rlpFixedBytes_valid {n : ℕ} (hn : n < 256 ^ 8) (x : FixedBytes n) :
    (rlpFixedBytes n).Valid x := by
  change x.bytes.length < 256 ^ 8
  rw [x.length_eq]
  exact hn

theorem rlpU64_valid (x : UInt64) : rlpU64.Valid x := by
  change (ByteString.toBE x.toNat).length < 256 ^ 8
  have h : (ByteString.toBE x.toNat).length ≤ 8 :=
    ByteString.toBE_length_le.mpr (UInt64.toNat_lt x)
  omega

theorem rlpU256_valid (x : U256) : rlpU256.Valid x := by
  change (ByteString.toBE x.toNat).length < 256 ^ 8
  have h : (ByteString.toBE x.toNat).length ≤ 32 := ByteString.toBE_length_le.mpr x.isLt
  omega

theorem rlpBytes_valid (x : Bytes) : rlpBytes.Valid x := by
  have h := x.length_lt
  change x.data.length < 256 ^ 8
  omega

/-! And so it can whatever a buffer holds. -/

theorem rlpFixedBytes_carries (n : ℕ) : (rlpFixedBytes n).Carries (256 ^ 8) :=
  (Rlp.carries_fixed n).refine

theorem rlpU64_carries : rlpU64.Carries (256 ^ 8) := fun x _ => rlpU64_valid x

theorem rlpBytes_carries : rlpBytes.Carries (256 ^ 8) := fun x _ => rlpBytes_valid x

/-! Each of them is one item. -/

theorem rlpFixedBytes_items (n : ℕ) : Rlp.Items (rlpFixedBytes n) := (Rlp.items_fixed n).refine

theorem rlpU64_items : Rlp.Items rlpU64 := (Rlp.items_uint 8).refine

end EthHistorian
