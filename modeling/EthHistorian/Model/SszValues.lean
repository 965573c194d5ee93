/-
# Values with SSZ forms

What the consensus containers are made of: integers and byte arrays, whose readers check the
length; bit fields, of known length or with a delimiter; lists and vectors; and the types of
`src/portal_types/consensus/` that have readers written by hand.  Of those the one of a public key
takes any number of bytes, padding or cutting, and the one of a signature aborts unless it gets its
96.  Neither checks, because each is only ever handed a slice of its own width.
-/
import EthHistorian.Lib.Bits
import EthHistorian.Lib.SszLists
import EthHistorian.Model.Consensus
import EthHistorian.Model.Errors

namespace EthHistorian

open ByteString

/-! ## 1. Errors -/

/-- `ssz::DecodeError`, with the one variant that only lists of variable items can give. -/
inductive SszDecodeError where
  | of (e : Ssz.DecodeError)
  | invalidListFixedBytesLen (len : ℕ)
  deriving DecidableEq, Repr

instance : Ssz.ListRefusal SszDecodeError where
  of := .of
  invalidListFixedBytesLen := .invalidListFixedBytesLen

/-- The derived `{:?}`. -/
def SszDecodeError.debug : SszDecodeError → String
  | of e => e.debug
  | invalidListFixedBytesLen len => s!"InvalidListFixedBytesLen({len})"

/-! ## 2. Integers and byte arrays -/

/-- A number of bytes or of items that is not zero.  In `Type`: the proof goes with the number. -/
class Size (n : ℕ) : Type where
  pos : 0 < n

instance (n : ℕ) : Size (n + 1) := ⟨Nat.succ_pos n⟩

theorem singleton_headD {bs : List UInt8} (h : bs.length = 1) : [bs.headD 0] = bs := by
  obtain ⟨b, rfl⟩ := List.length_eq_one_iff.mp h
  rfl

def fixedU8 : Ssz.Fixed UInt8 :=
  .bytes 1 Nat.one_pos (fun x => [x]) (fun bs _ => bs.headD 0) (fun _ => rfl)
    (fun _ h => singleton_headD h) (fun _ => rfl)

def fixedBool : Ssz.Fixed Bool where
  len := 1
  len_pos := Nat.one_pos
  enc b := [if b then 1 else 0]
  dec bs :=
    if bs.length ≠ 1 then .error (.invalidByteLength bs.length 1)
    else
      match bs.headD 0 with
      | 0 => .ok false
      | 1 => .ok true
      | other => .error (.bytesInvalid s!"Out-of-range for boolean: {other}")
  enc_length _ := rfl
  dec_eq_ok := by
    intro bs b
    split
    · rename_i hlen
      refine iff_of_false (fun h => by cases h) ?_
      rintro rfl
      exact hlen rfl
    · rename_i hlen
      obtain ⟨x, rfl⟩ := List.length_eq_one_iff.mp (not_not.mp hlen)
      rw [List.headD_cons]
      split
      · cases b <;> decide
      · cases b <;> decide
      · rename_i hzero hone
        refine iff_of_false (fun h => by cases h) ?_
        intro h
        obtain rfl := (List.cons.inj h).1
        cases b
        · exact hzero rfl
        · exact hone rfl

theorem length_toLE (x : U256) : (toLE 32 x.toNat).length = 32 := toLE_length _ _

theorem ofNat_ofLE (bs : List UInt8) (h : bs.length = 32) :
    toLE 32 (BitVec.ofNat 256 (ofLE bs)).toNat = bs := by
  have hlt := ofLE_lt bs
  rw [h] at hlt
  have hmod : (BitVec.ofNat 256 (ofLE bs)).toNat = ofLE bs := by
    rw [BitVec.toNat_ofNat]
    exact Nat.mod_eq_of_lt (by norm_num at hlt ⊢; exact hlt)
  rw [hmod, ← h, toLE_ofLE]

theorem ofNat_toLE (x : U256) : BitVec.ofNat 256 (ofLE (toLE 32 x.toNat)) = x := by
  have hlt := x.isLt
  rw [ofLE_toLE, Nat.mod_eq_of_lt (by norm_num at hlt ⊢; exact hlt), BitVec.ofNat_toNat]
  exact BitVec.setWidth_eq x

def fixedU256 : Ssz.Fixed U256 :=
  .bytes 32 (Nat.succ_pos _) (fun x => toLE 32 x.toNat) (fun bs _ => BitVec.ofNat 256 (ofLE bs))
    length_toLE ofNat_ofLE ofNat_toLE

/-- `[u8; N]` and `FixedBytes<N>`. -/
def fixedBytes (n : ℕ) [Size n] : Ssz.Fixed (FixedBytes n) :=
  .bytes n Size.pos FixedBytes.bytes FixedBytes.mk FixedBytes.length_eq (fun _ _ => rfl) fun _ => rfl

section

variable {ε : Type} [Ssz.Refusal ε]

def sszU8 : Ssz.Ty ε UInt8 := .ofFixed fixedU8
def sszBool : Ssz.Ty ε Bool := .ofFixed fixedBool
def sszU64 : Ssz.Ty ε UInt64 := .ofFixed .u64
def sszU256 : Ssz.Ty ε U256 := .ofFixed fixedU256
def sszHash : Ssz.Ty ε B256 := .ofFixed (fixedBytes 32)
def sszAddress : Ssz.Ty ε Address := .ofFixed (fixedBytes 20)
def sszVersion : Ssz.Ty ε (FixedBytes 4) := .ofFixed (fixedBytes 4)

theorem slot_sszU8 : (sszU8 : Ssz.Ty ε UInt8).slot = .fixed 1 := rfl
theorem slot_sszU64 : (sszU64 : Ssz.Ty ε UInt64).slot = .fixed 8 := rfl
theorem slot_sszHash : (sszHash : Ssz.Ty ε B256).slot = .fixed 32 := rfl

theorem strict_sszU8 : (sszU8 : Ssz.Ty ε UInt8).Strict := Ssz.Ty.strict_ofFixed _
theorem strict_sszU64 : (sszU64 : Ssz.Ty ε UInt64).Strict := Ssz.Ty.strict_ofFixed _
theorem strict_sszHash : (sszHash : Ssz.Ty ε B256).Strict := Ssz.Ty.strict_ofFixed _

end

/-! ## 3. Types with readers of their own -/

section

variable {ε : Type}

/-- `BlsSignature::from_ssz_bytes`: `copy_from_slice`, whatever the length. -/
def BlsSignature.fromSszBytes (bytes : List UInt8) : Outcome ε BlsSignature :=
  if h : bytes.length = 96 then .ok ⟨⟨bytes, h⟩⟩
  else .panic "copy_from_slice: source slice length does not match destination slice length"

/-- `FixedVector::from`: a short list is filled up, a long one cut. -/
def FixedVector.ofList {α : Type} (n : ℕ) (a : α) (l : List α) : FixedVector α n :=
  ⟨(l ++ List.replicate n a).take n, by
    rw [List.length_take, List.length_append, List.length_replicate]
    omega⟩

theorem FixedVector.toList_ofList {α : Type} {n : ℕ} {a : α} {l : List α} (h : l.length = n) :
    (FixedVector.ofList n a l).toList = l := List.take_left' h

/-- `PubKey::from_ssz_bytes` never refuses. -/
def PubKey.fromSszBytes (bytes : List UInt8) : Outcome ε PubKey :=
  .ok ⟨FixedVector.ofList 48 0 bytes⟩

theorem BlsSignature.fromSszBytes_eq_ok {bytes : List UInt8} (h : bytes.length = 96)
    {x : BlsSignature} :
    (BlsSignature.fromSszBytes bytes : Outcome ε _) = .ok x ↔ True ∧ bytes = x.signature.bytes := by
  rw [fromSszBytes, dif_pos h, Outcome.ok.injEq, true_and]
  constructor
  · rintro rfl
    rfl
  · rintro rfl
    rfl

theorem BlsSignature.fromSszBytes_returns {bytes : List UInt8} (h : bytes.length = 96) :
    (BlsSignature.fromSszBytes bytes : Outcome ε _).Returns := by
  rw [fromSszBytes, dif_pos h]
  exact fun msg h => by cases h

theorem PubKey.fromSszBytes_eq_ok {bytes : List UInt8} (h : bytes.length = 48) {x : PubKey} :
    (PubKey.fromSszBytes bytes : Outcome ε _) = .ok x ↔ True ∧ bytes = x.inner.toList := by
  rw [fromSszBytes, Outcome.ok.injEq, true_and]
  constructor
  · rintro rfl
    exact (FixedVector.toList_ofList h).symm
  · rintro rfl
    obtain ⟨inner⟩ := x
    exact congrArg PubKey.mk (FixedVector.ext (FixedVector.toList_ofList h))

end

theorem BlsSignature.length_bytes (x : BlsSignature) : x.signature.bytes.length = 96 :=
  x.signature.length_eq

section

variable {ε : Type} [Ssz.Refusal ε]

def sszBlsSignature : Ssz.Ty ε BlsSignature where
  slot := .fixed 96
  enc x := x.signature.bytes
  dec := BlsSignature.fromSszBytes
  Valid _ := True
  admits_enc := BlsSignature.length_bytes
  dec_eq_ok := fun hadm => BlsSignature.fromSszBytes_eq_ok hadm
  returns := fun hadm => BlsSignature.fromSszBytes_returns hadm
  valid_of_length_lt _ _ := trivial

def sszPubKey : Ssz.Ty ε PubKey where
  slot := .fixed 48
  enc x := x.inner.toList
  dec := PubKey.fromSszBytes
  Valid _ := True
  admits_enc x := x.inner.length_eq
  dec_eq_ok := fun hadm => PubKey.fromSszBytes_eq_ok hadm
  returns := fun _ _ h => by cases h
  valid_of_length_lt _ _ := trivial

/-- A newtype of its 48 bytes. -/
def sszKzgCommitment : Ssz.Ty ε KzgCommitment :=
  (Ssz.Ty.ofFixed (fixedBytes 48)).map
    ⟨KzgCommitment.bytes, KzgCommitment.mk, fun _ => rfl, fun _ => rfl⟩

/-! ## 4. Lists and vectors -/

/-- A list of at most `N` items of `n` bytes. -/
def sszList {α : Type} (N n : ℕ) [Size n] (T : Ssz.Ty ε α) (hslot : T.slot = .fixed n)
    (hstrict : T.Strict) : Ssz.Ty ε (VariableList α N) :=
  (T.list N hslot Size.pos hstrict).map
    ⟨fun l => ⟨l.toList, l.length_le⟩, fun l => ⟨l.val, l.property⟩, fun _ => rfl, fun _ => rfl⟩

/-- Where the whole list is short, every value can be written. -/
theorem valid_sszList {α : Type} {N n : ℕ} [Size n] {T : Ssz.Ty ε α} {hslot : T.slot = .fixed n}
    {hstrict : T.Strict} (h : N * n < 256 ^ 4) (l : VariableList α N) :
    (sszList N n T hslot hstrict).Valid l := by
  refine Ssz.Ty.valid_of_length_lt _ l ?_
  have hlen : ((sszList N n T hslot hstrict).enc l).length = l.toList.length * n :=
    Ssz.length_flatten_map_enc hslot l.toList
  rw [hlen]
  exact (Nat.mul_le_mul_right n l.length_le).trans_lt h

def sszVector {α : Type} (N n : ℕ) [Size N] [Size n] (T : Ssz.Ty ε α)
    (hslot : T.slot = .fixed n) : Ssz.Ty ε (FixedVector α N) :=
  (T.vector N Size.pos hslot Size.pos).map
    ⟨fun v => ⟨v.toList, v.length_eq⟩, fun v => ⟨v.val, v.property⟩, fun _ => rfl, fun _ => rfl⟩

/-- `ByteList`. -/
def sszByteList (N : ℕ) : Ssz.Ty ε (VariableList UInt8 N) :=
  sszList N 1 sszU8 slot_sszU8 strict_sszU8

end

def sszVariableList {ε : Type} [Ssz.ListRefusal ε] {α : Type} (N : ℕ) (T : Ssz.Ty ε α)
    (hslot : T.slot = .dynamic) : Ssz.Ty ε (VariableList α N) :=
  (T.variableList N hslot).map
    ⟨fun l => ⟨l.toList, l.length_le⟩, fun l => ⟨l.val, l.property⟩, fun _ => rfl, fun _ => rfl⟩

/-! ## 5. Bit fields -/

inductive BitfieldError where
  | outOfBounds (i len : ℕ)
  | missingLengthInformation
  | excessBits
  | invalidByteCount (given expected : ℕ)
  deriving DecidableEq, Repr

/-- The derived `{:?}`. -/
def BitfieldError.debug : BitfieldError → String
  | outOfBounds i len => s!"OutOfBounds \x7b i: {i}, len: {len} \x7d"
  | missingLengthInformation => "MissingLengthInformation"
  | excessBits => "ExcessBits"
  | invalidByteCount given expected =>
    s!"InvalidByteCount \x7b given: {given}, expected: {expected} \x7d"

/-- `bytes_for_bit_len`. -/
def bytesForBitLen (bitLen : ℕ) : ℕ := max 1 ((bitLen + 7) / 8)

/-- The bits of a last byte that a field of this length may use: `u8::MAX`, shifted by what is
left of the byte, modulo eight. -/
def lastByteMask (bitLen : ℕ) : UInt8 := 255 >>> UInt8.ofNat ((8 - bitLen % 8) % 8)

theorem length_take_unpack {bytes : List UInt8} {bitLen : ℕ}
    (h : ¬ bytes.length ≠ bytesForBitLen bitLen) :
    ((Bits.unpack bytes).take bitLen).length = bitLen := by
  have hlen := not_not.mp h
  unfold bytesForBitLen at hlen
  rw [List.length_take, Bits.length_unpack]
  omega

/-- `Bitfield::from_raw_bytes`. -/
def bitfieldFromRawBytes (bytes : List UInt8) (bitLen : ℕ) :
    Except BitfieldError {bits : List Bool // bits.length = bitLen} :=
  if h : bitLen = 0 then
    if bytes = [0] then .ok ⟨[], h.symm⟩ else .error .excessBits
  else if hlen : bytes.length ≠ bytesForBitLen bitLen then
    .error (.invalidByteCount bytes.length (bytesForBitLen bitLen))
  else if bytes.getLast?.getD 0 &&& ~~~ lastByteMask bitLen = 0 then
    .ok ⟨(Bits.unpack bytes).take bitLen, length_take_unpack hlen⟩
  else .error .excessBits

/-- `BitList::from_bytes`: the highest bit that is set says how long the list is. -/
def bitListFromBytes (N : ℕ) (bytes : List UInt8) : Except BitfieldError (BitList N) := do
  let initial ← bitfieldFromRawBytes bytes (bytes.length * 8)
  match Bits.highest initial.val with
  | none => .error .missingLengthInformation
  | some len =>
    if len / 8 + 1 ≠ bytes.length then
      .error (.invalidByteCount bytes.length (len / 8 + 1))
    else if h : len ≤ N then do
      let cleared := packBits (initial.val.set len false)
      let bits ← bitfieldFromRawBytes (cleared.take (bytesForBitLen len)) len
      return ⟨bits.val, bits.property.trans_le h⟩
    else .error (.outOfBounds N N)

theorem packBits_eq (bits : List Bool) : packBits bits = Bits.pack bits := rfl

/-- Nothing of the byte stands outside the mask. -/
theorem and_not_lastByteMask {n : ℕ} {b : UInt8} :
    b &&& ~~~ lastByteMask n = 0 ↔ b.toNat < 2 ^ Bits.lastBits n := by
  have hall : ∀ r : Fin 8, ∀ x : Fin 256,
      UInt8.ofNat x.val &&& ~~~ ((255 : UInt8) >>> UInt8.ofNat ((8 - r.val) % 8)) = 0 ↔
        x.val < 2 ^ (if r.val = 0 then 8 else r.val) := by decide +kernel
  have h := hall ⟨n % 8, Nat.mod_lt n (by norm_num)⟩ ⟨b.toNat, UInt8.toNat_lt b⟩
  rw [UInt8.ofNat_toNat] at h
  exact h

theorem lastByteMask_iff {n : ℕ} {bytes : List UInt8} (h : bytes ≠ []) :
    bytes.getLast?.getD 0 &&& ~~~ lastByteMask n = 0 ↔
      ∀ b ∈ bytes.getLast?, b.toNat < 2 ^ Bits.lastBits n := by
  obtain ⟨b, hb⟩ : ∃ b, bytes.getLast? = some b := ⟨_, List.getLast?_eq_getLast_of_ne_nil h⟩
  rw [hb, Option.getD_some, and_not_lastByteMask]
  simp

/-- **What a field of known length accepts.** -/
theorem bitfieldFromRawBytes_eq_ok {bytes : List UInt8} {n : ℕ} (hn : 0 < n)
    {bits : {bits : List Bool // bits.length = n}} :
    bitfieldFromRawBytes bytes n = .ok bits ↔ bytes = packBits bits.val := by
  have hspec := @Bits.eq_pack_iff n hn bytes bits.val
  rw [and_iff_right bits.property, ← packBits_eq] at hspec
  have hcount : bytesForBitLen n = (n + 7) / 8 := Nat.max_eq_right (by omega)
  rw [hspec, bitfieldFromRawBytes, dif_neg (by omega)]
  split
  · rename_i hlen
    refine iff_of_false (fun h => by cases h) ?_
    rintro ⟨h, -⟩
    exact hlen (h.trans hcount.symm)
  · rename_i hlen
    have hlen' : bytes.length = (n + 7) / 8 := (not_not.mp hlen).trans hcount
    have hne : bytes ≠ [] := List.ne_nil_of_length_pos (by omega)
    split
    · rename_i hmask
      rw [Except.ok.injEq, Subtype.ext_iff]
      constructor
      · intro h
        exact ⟨hlen', (lastByteMask_iff hne).mp hmask, h.symm⟩
      · rintro ⟨-, -, h⟩
        exact h.symm
    · rename_i hmask
      refine iff_of_false (fun h => by cases h) ?_
      rintro ⟨-, h, -⟩
      exact hmask ((lastByteMask_iff hne).mpr h)

/-- The bytes of a list, with its delimiter. -/
def BitList.toBytes {N : ℕ} (l : BitList N) : List UInt8 := packBits (l.bits ++ [true])

/-- The field that is left when the delimiter is cleared. -/
theorem bitfieldFromRawBytes_cleared (low : List Bool) (k : ℕ) :
    bitfieldFromRawBytes
        ((packBits (low ++ List.replicate (k + 1) false)).take (bytesForBitLen low.length))
        low.length
      = .ok ⟨low, rfl⟩ := by
  rcases Nat.eq_zero_or_pos low.length with hzero | hpos
  · obtain rfl : low = [] := List.length_eq_zero_iff.mp hzero
    have hne : List.replicate (k + 1) false ≠ [] := List.cons_ne_nil _ _
    have hbyte : Bits.byte (List.replicate (k + 1) false) = 0 := by
      have hnil := Bits.ofBits_append_false [] (min 8 (k + 1))
      rw [List.nil_append] at hnil
      rw [Bits.byte, List.take_replicate, hnil]
      rfl
    rw [List.nil_append, packBits_eq, Bits.pack_of_ne_nil hne, hbyte]
    rfl
  · have hcount : bytesForBitLen low.length = (low.length + 7) / 8 :=
      Nat.max_eq_right (by omega)
    rw [packBits_eq, hcount, Bits.take_pack_append_false]
    exact (bitfieldFromRawBytes_eq_ok hpos).mpr rfl

/-- A list is read off the bits below its delimiter. -/
theorem bitListFromBytes_eq {N : ℕ} {bytes : List UInt8} {low : List Bool} {k : ℕ}
    (hbits : Bits.unpack bytes = low ++ true :: List.replicate k false)
    (hlen : low.length / 8 + 1 = bytes.length) :
    bitListFromBytes N bytes
      = if h : low.length ≤ N then .ok ⟨low, h⟩ else .error (.outOfBounds N N) := by
  have hraw : bitfieldFromRawBytes bytes (bytes.length * 8)
      = .ok ⟨Bits.unpack bytes, by rw [Bits.length_unpack, Nat.mul_comm]⟩ := by
    refine (bitfieldFromRawBytes_eq_ok (by omega)).mpr ?_
    rw [packBits_eq, Bits.pack_unpack]
  have hhigh : Bits.highest (Bits.unpack bytes) = some low.length := by
    rw [hbits, Bits.highest_append_true]
  have hset : (Bits.unpack bytes).set low.length false
      = low ++ List.replicate (k + 1) false := by
    rw [hbits, List.set_append_right _ _ le_rfl, Nat.sub_self, List.set_cons_zero,
      List.replicate_succ]
  rw [bitListFromBytes, hraw]
  simp only [bind, Except.bind, hhigh, ne_eq, hlen, not_true_eq_false, if_false, hset,
    bitfieldFromRawBytes_cleared]
  rfl

/-- **What a list accepts**: its own bytes. -/
theorem bitListFromBytes_eq_ok {N : ℕ} {bytes : List UInt8} {l : BitList N} :
    bitListFromBytes N bytes = .ok l ↔ bytes = l.toBytes := by
  constructor
  · intro h
    have hne : bytes ≠ [] := by
      rintro rfl
      cases h
    have hpos := List.length_pos_of_ne_nil hne
    have hraw : bitfieldFromRawBytes bytes (bytes.length * 8)
        = .ok ⟨Bits.unpack bytes, by rw [Bits.length_unpack, Nat.mul_comm]⟩ := by
      refine (bitfieldFromRawBytes_eq_ok (by omega)).mpr ?_
      rw [packBits_eq, Bits.pack_unpack]
    cases hhigh : Bits.highest (Bits.unpack bytes) with
    | none =>
      rw [bitListFromBytes, hraw] at h
      simp only [bind, Except.bind, hhigh, reduceCtorEq] at h
    | some i =>
      obtain ⟨low, k, rfl, hbits⟩ := Bits.eq_append_of_highest hhigh
      by_cases hlen : low.length / 8 + 1 = bytes.length
      · rw [bitListFromBytes_eq hbits hlen] at h
        split at h
        · obtain rfl := Except.ok.inj h
          -- the delimiter stands in the last byte, so nothing is behind it
          have hpack := Bits.pack_unpack bytes
          have hsplit : low ++ true :: List.replicate k false
              = (low ++ [true]) ++ List.replicate k false := by
            rw [List.append_assoc]
            rfl
          have htake := Bits.take_pack_append_false (low ++ [true]) k
          rw [hbits, hsplit] at hpack
          rw [hpack, List.take_of_length_le] at htake
          · exact htake
          · rw [List.length_append, List.length_singleton]
            omega
        · cases h
      · rw [bitListFromBytes, hraw] at h
        simp only [bind, Except.bind, hhigh, ne_eq, hlen, not_false_eq_true, if_true,
          reduceCtorEq] at h
  · rintro rfl
    have hbits : Bits.unpack l.toBytes = l.bits ++ true :: List.replicate
        (8 * (((l.bits ++ [true]).length + 7) / 8) - (l.bits ++ [true]).length) false := by
      rw [BitList.toBytes, packBits_eq, Bits.unpack_pack, List.append_assoc]
      rfl
    have hlen : l.bits.length / 8 + 1 = l.toBytes.length := by
      rw [BitList.toBytes, packBits_eq, Bits.length_pack, List.length_append,
        List.length_singleton]
      omega
    rw [bitListFromBytes_eq hbits hlen, dif_pos l.length_le]

section

variable {ε : Type} [Ssz.Refusal ε]

def sszBitVector (n : ℕ) [Size n] : Ssz.Ty ε (BitVector n) where
  slot := .fixed (bytesForBitLen n)
  enc v := packBits v.bits
  dec bs := Ssz.refuse <| (bitfieldFromRawBytes bs n).mapError
    (fun e => .bytesInvalid s!"BitVector failed to decode: {e.debug}") |>.map
      fun bits => ⟨bits.val, bits.property⟩
  Valid _ := True
  admits_enc v := by
    have hn : 0 < n := Size.pos
    have hcount : bytesForBitLen n = (n + 7) / 8 := Nat.max_eq_right (by omega)
    change (Bits.pack v.bits).length = _
    rw [Bits.length_pack, v.length_eq, hcount]
  dec_eq_ok := by
    intro bs v _
    rw [Ssz.refuse_eq_ok, Except.map_eq_ok, true_and]
    constructor
    · rintro ⟨bits, hbits, rfl⟩
      exact (bitfieldFromRawBytes_eq_ok Size.pos).mp (Except.mapError_eq_ok.mp hbits)
    · intro h
      exact ⟨⟨v.bits, v.length_eq⟩,
        Except.mapError_eq_ok.mpr ((bitfieldFromRawBytes_eq_ok Size.pos).mpr h), rfl⟩
  returns := fun _ _ => Ssz.refuse_ne_panic
  valid_of_length_lt _ _ := trivial

def sszBitList (N : ℕ) : Ssz.Ty ε (BitList N) where
  slot := .dynamic
  enc := BitList.toBytes
  dec bs := Ssz.refuse <| (bitListFromBytes N bs).mapError
    fun e => .bytesInvalid s!"BitList failed to decode: {e.debug}"
  Valid _ := True
  admits_enc _ := trivial
  dec_eq_ok := by
    intro bs l _
    rw [Ssz.refuse_eq_ok, Except.mapError_eq_ok, bitListFromBytes_eq_ok, true_and]
  returns := fun _ _ => Ssz.refuse_ne_panic
  valid_of_length_lt _ _ := trivial

end

end EthHistorian
