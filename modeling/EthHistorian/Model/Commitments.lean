/-
# Roots of the consensus types commit to their values

Every root the crate checks is the SSZ root of a value with hundreds of fields, and what a proof
shows of it is one of them.  Here the root is shown to bind all of the value: two values of a type
with one root are equal, or the two computations hashed two different pairs to one value.

`Commits` is that law of a type, with the pairs its root hashes; `CommitsItems` the same for the
items of a list or vector, which share chunks when they are basic.  Both are found by the shape of
the type: containers through `RootFields`, the tuple of their fields (`Containers.lean`).
-/
import EthHistorian.Lib.Bits
import EthHistorian.Lib.Commitment
import EthHistorian.Model.Containers

namespace EthHistorian

open Merkle ByteString

/-! ## 1. The law -/

/-- A type whose roots bind its values. -/
class Commits (α : Type) [TreeHash α] where
  /-- The pairs hashed for a root. -/
  inputs : Crypto → α → List (B256 × B256)
  binds : ∀ (c : Crypto) (x y : α), treeHashRoot c x = treeHashRoot c y →
    x = y ∨ Collision c.hash32Concat (inputs c x) (inputs c y)

/-- A type whose values are bound as the items of a list or vector with room for `n`. -/
class CommitsItems (α : Type) [TreeHash α] where
  inputs : Crypto → ℕ → List α → List (B256 × B256)
  binds : ∀ (c : Crypto) (n : ℕ) (l l' : List α), l.length = l'.length → l.length ≤ n →
    vecRoot c n l = vecRoot c n l' →
      l = l' ∨ Collision c.hash32Concat (inputs c n l) (inputs c n l')

/-- A root that hashes nothing binds by being injective. -/
@[reducible] def Commits.ofInjective {α : Type} [TreeHash α]
    (h : ∀ c : Crypto, Function.Injective (treeHashRoot c : α → B256)) : Commits α where
  inputs _ _ := []
  binds c _ _ heq := Or.inl (h c heq)

/-! ## 2. Bytes in chunks -/

theorem getElem?_chunkOfBytes {bs : List UInt8} {j : ℕ} (hj : j < 32) (hlt : j < bs.length) :
    (chunkOfBytes bs).bytes[j]? = bs[j]? := by
  rw [chunkOfBytes, List.getElem?_take_of_lt hj, List.getElem?_append_left hlt]

theorem chunkOfBytes_injective {bs bs' : List UInt8} (hlen : bs.length = bs'.length)
    (hle : bs.length ≤ 32) (h : chunkOfBytes bs = chunkOfBytes bs') : bs = bs' := by
  refine List.ext_getElem? fun j => ?_
  by_cases hj : j < bs.length
  · have heq := congrArg (fun x : B256 => x.bytes[j]?) h
    simpa only [getElem?_chunkOfBytes (by omega : j < 32) hj,
      getElem?_chunkOfBytes (by omega : j < 32) (hlen ▸ hj)] using heq
  · rw [List.getElem?_eq_none (not_lt.mp hj), List.getElem?_eq_none (by omega)]

@[simp] theorem length_packBytes (bs : List UInt8) :
    (packBytes bs).length = (bs.length + 31) / 32 := by
  rw [packBytes, List.length_map, List.length_range]

/-- The chunks of a byte string determine it, once its length is known. -/
theorem packBytes_injective {bs bs' : List UInt8} (hlen : bs.length = bs'.length)
    (h : packBytes bs = packBytes bs') : bs = bs' := by
  refine List.ext_getElem? fun j => ?_
  by_cases hj : j < bs.length
  · have hi : j / 32 < (bs.length + 31) / 32 := by omega
    have hchunk : chunkOfBytes (bs.drop (32 * (j / 32)))
        = chunkOfBytes (bs'.drop (32 * (j / 32))) := by
      have hget := congrArg (fun l : List B256 => l[j / 32]?) h
      simpa [packBytes, hi, ← hlen] using hget
    have hbyte := congrArg (fun x : B256 => x.bytes[j % 32]?) hchunk
    have hmod : j % 32 < 32 := Nat.mod_lt _ (by norm_num)
    have hsplit : 32 * (j / 32) + j % 32 = j := Nat.div_add_mod j 32
    simpa only [getElem?_chunkOfBytes hmod (by rw [List.length_drop]; omega :
        j % 32 < (bs.drop (32 * (j / 32))).length),
      getElem?_chunkOfBytes hmod (by rw [List.length_drop]; omega :
        j % 32 < (bs'.drop (32 * (j / 32))).length), List.getElem?_drop, hsplit] using hbyte
  · rw [List.getElem?_eq_none (not_lt.mp hj), List.getElem?_eq_none (by omega)]

/-- The pairs hashed for byte strings with room for `limit` chunks. -/
def bytesInputs (c : Crypto) (limit : ℕ) (bs : List UInt8) : List (B256 × B256) :=
  subtreeInputs c.hash32Concat (treeDepth limit) (chunkAt (packBytes bs))

theorem merkleize_packBytes_binds (c : Crypto) {limit : ℕ} {bs bs' : List UInt8}
    (hlen : bs.length = bs'.length) (hle : (bs.length + 31) / 32 ≤ limit)
    (h : merkleize c (packBytes bs) limit = merkleize c (packBytes bs') limit) :
    bs = bs' ∨ Collision c.hash32Concat (bytesInputs c limit bs) (bytesInputs c limit bs') := by
  have hdepth : (packBytes bs).length ≤ 2 ^ treeDepth limit := by
    rw [length_packBytes]
    exact hle.trans (length_le_two_pow_treeDepth limit)
  have hpacked : (packBytes bs).length = (packBytes bs').length := by
    rw [length_packBytes, length_packBytes, hlen]
  rcases leaves_binding hpacked hdepth h with heq | hcol
  · exact Or.inl (packBytes_injective hlen heq)
  · exact Or.inr hcol

theorem bytesRoot_binds (c : Crypto) {n : ℕ} {bs bs' : List UInt8} (hlen : bs.length = n)
    (hlen' : bs'.length = n) (h : bytesRoot c bs = bytesRoot c bs') :
    bs = bs' ∨ Collision c.hash32Concat (bytesInputs c ((n + 31) / 32) bs)
      (bytesInputs c ((n + 31) / 32) bs') := by
  rw [bytesRoot, bytesRoot, hlen, hlen'] at h
  exact merkleize_packBytes_binds c (hlen.trans hlen'.symm) (by rw [hlen]) h

/-! ## 3. Basic values and bytes -/

theorem u64ToLeBytes_injective {x y : UInt64} (h : u64ToLeBytes x = u64ToLeBytes y) : x = y := by
  have hx := UInt64.toNat_lt x
  have hy := UInt64.toNat_lt y
  have heq := congrArg ofLE h
  rw [u64ToLeBytes, u64ToLeBytes, ofLE_toLE, ofLE_toLE] at heq
  rw [Nat.mod_eq_of_lt (by norm_num at hx ⊢; exact hx),
    Nat.mod_eq_of_lt (by norm_num at hy ⊢; exact hy)] at heq
  exact UInt64.toNat_inj.mp heq

theorem U256.toLeBytes_injective {x y : U256} (h : U256.toLeBytes x = U256.toLeBytes y) :
    x = y := by
  have hx := x.isLt
  have hy := y.isLt
  have heq := congrArg (fun b : B256 => ofLE b.bytes) h
  simp only [U256.toLeBytes, ofLE_toLE] at heq
  rw [Nat.mod_eq_of_lt (by norm_num at hx ⊢; exact hx),
    Nat.mod_eq_of_lt (by norm_num at hy ⊢; exact hy)] at heq
  exact BitVec.eq_of_toNat_eq heq

theorem boolByte_injective {a b : Bool}
    (h : ([if a then 1 else 0] : List UInt8) = [if b then 1 else 0]) : a = b := by
  revert h
  cases a <;> cases b <;> decide

/-- A basic type whose values fill a chunk up to `factor` at a time. -/
structure Packs {α : Type} (p : Packed α) (width : ℕ) : Prop where
  length_encoding : ∀ x, (p.encoding x).length = width
  encoding_injective : Function.Injective p.encoding
  factor_mul : p.factor * width = 32

/-- The items fit the chunks that their number leaves room for. -/
theorem Packs.chunks_le {α : Type} {p : Packed α} {width k n : ℕ} (h : Packs p width)
    (hle : k ≤ n) : (k * width + 31) / 32 ≤ (n + p.factor - 1) / p.factor := by
  have hfactor : 0 < p.factor := by
    rcases Nat.eq_zero_or_pos p.factor with hzero | hpos
    · have hmul := h.factor_mul
      rw [hzero, Nat.zero_mul] at hmul
      cases hmul
    · exact hpos
  have hceil : n ≤ p.factor * ((n + p.factor - 1) / p.factor) := by
    have hdiv := Nat.div_add_mod (n + p.factor - 1) p.factor
    have hmod := Nat.mod_lt (n + p.factor - 1) hfactor
    omega
  have hbytes : k * width ≤ 32 * ((n + p.factor - 1) / p.factor) := by
    calc k * width ≤ p.factor * ((n + p.factor - 1) / p.factor) * width :=
          Nat.mul_le_mul_right _ (hle.trans hceil)
      _ = p.factor * width * ((n + p.factor - 1) / p.factor) := Nat.mul_right_comm _ _ _
      _ = 32 * ((n + p.factor - 1) / p.factor) := by rw [h.factor_mul]
  omega

theorem flatMap_injective {α : Type} {f : α → List UInt8} {width : ℕ}
    (hlen : ∀ x, (f x).length = width) (hinj : Function.Injective f) {l l' : List α}
    (heq : l.length = l'.length) (h : l.flatMap f = l'.flatMap f) : l = l' := by
  induction l generalizing l' with
  | nil => exact (List.length_eq_zero_iff.mp heq.symm).symm
  | cons x l ih =>
    obtain ⟨y, l', rfl⟩ := List.exists_cons_of_length_eq_add_one heq.symm
    rw [List.flatMap_cons, List.flatMap_cons] at h
    obtain ⟨hx, hl⟩ := List.append_inj h (by rw [hlen, hlen])
    rw [hinj hx, ih (by simpa using heq) hl]

theorem length_flatMap_encoding {α : Type} {f : α → List UInt8} {width : ℕ}
    (hlen : ∀ x, (f x).length = width) (l : List α) : (l.flatMap f).length = l.length * width := by
  induction l with
  | nil => simp
  | cons x l ih =>
    rw [List.flatMap_cons, List.length_append, hlen, ih, List.length_cons, Nat.succ_mul,
      Nat.add_comm]

/-- The items of a basic type are bound through their chunks. -/
@[reducible] def CommitsItems.ofPacked {α : Type} [TreeHash α] {p : Packed α} {width : ℕ}
    (hp : TreeHash.packed = some p) (h : Packs p width) : CommitsItems α where
  inputs c n l := bytesInputs c ((n + p.factor - 1) / p.factor) (l.flatMap p.encoding)
  binds := by
    intro c n l l' hlen hle heq
    have hroot : ∀ l : List α, vecRoot c n l
        = merkleize c (packBytes (l.flatMap p.encoding)) ((n + p.factor - 1) / p.factor) := by
      intro l
      rw [vecRoot, hp]
    rw [hroot, hroot] at heq
    have hbytes : (l.flatMap p.encoding).length = (l'.flatMap p.encoding).length := by
      rw [length_flatMap_encoding h.length_encoding, length_flatMap_encoding h.length_encoding,
        hlen]
    have hfits : ((l.flatMap p.encoding).length + 31) / 32 ≤ (n + p.factor - 1) / p.factor := by
      rw [length_flatMap_encoding h.length_encoding]
      exact h.chunks_le hle
    rcases merkleize_packBytes_binds c hbytes hfits heq with hb | hcol
    · exact Or.inl (flatMap_injective h.length_encoding h.encoding_injective hlen hb)
    · exact Or.inr hcol

/-- The items of any other type are bound through their roots. -/
@[reducible] def CommitsItems.ofRoots {α : Type} [TreeHash α] [Commits α]
    (hp : TreeHash.packed (α := α) = none) : CommitsItems α where
  inputs c n l :=
    subtreeInputs c.hash32Concat (treeDepth n) (chunkAt (l.map (treeHashRoot c))) ++
      l.flatMap (Commits.inputs c)
  binds := by
    intro c n l l' hlen hle heq
    have hroot : ∀ l : List α, vecRoot c n l = merkleize c (l.map (treeHashRoot c)) n := by
      intro l
      rw [vecRoot, hp]
    rw [hroot, hroot] at heq
    exact items_binding (Commits.binds c) hlen (hle.trans (length_le_two_pow_treeDepth n)) heq

instance : Commits UInt8 := .ofInjective fun _ x y h => by
  have h' : chunkOfBytes [x] = chunkOfBytes [y] := h
  have heq := chunkOfBytes_injective (by rw [List.length_singleton, List.length_singleton])
    (by rw [List.length_singleton]; norm_num) h'
  exact (List.cons.inj heq).1

instance : Commits Bool := .ofInjective fun _ x y h => by
  have h' : chunkOfBytes [if x then 1 else 0] = chunkOfBytes [if y then 1 else 0] := h
  exact boolByte_injective (chunkOfBytes_injective rfl (by simp) h')

instance : Commits UInt64 := .ofInjective fun _ x y h => by
  have h' : chunkOfBytes (u64ToLeBytes x) = chunkOfBytes (u64ToLeBytes y) := h
  exact u64ToLeBytes_injective (chunkOfBytes_injective (by simp [u64ToLeBytes])
    (by simp [u64ToLeBytes]) h')

instance : Commits U256 := .ofInjective fun _ _ _ h => U256.toLeBytes_injective h

instance : Commits B256 := .ofInjective fun _ _ _ h => h

instance : CommitsItems UInt8 := .ofPacked rfl
  ⟨fun _ => rfl, fun _ _ h => (List.cons.inj h).1, rfl⟩

instance : CommitsItems UInt64 := .ofPacked rfl
  ⟨fun _ => toLE_length _ _, fun _ _ h => u64ToLeBytes_injective h, rfl⟩

instance : CommitsItems ParticipationFlags := .ofPacked rfl
  ⟨fun _ => rfl, fun _ _ h => congrArg ParticipationFlags.mk (List.cons.inj h).1, rfl⟩

instance : CommitsItems B256 := .ofRoots rfl

/-- A type whose root is that of its bytes. -/
@[reducible] def Commits.ofBytes {α : Type} [TreeHash α] {n : ℕ} (f : α → List UInt8)
    (hlen : ∀ x, (f x).length = n) (hinj : Function.Injective f)
    (hroot : ∀ c x, treeHashRoot c x = bytesRoot c (f x)) : Commits α where
  inputs c x := bytesInputs c ((n + 31) / 32) (f x)
  binds := by
    intro c x y h
    rw [hroot, hroot] at h
    rcases bytesRoot_binds c (hlen x) (hlen y) h with heq | hcol
    · exact Or.inl (hinj heq)
    · exact Or.inr hcol

instance : Commits Address :=
  .ofBytes FixedBytes.bytes FixedBytes.length_eq (fun _ _ => FixedBytes.ext) fun _ _ => rfl

instance : Commits (FixedBytes 4) :=
  .ofBytes FixedBytes.bytes FixedBytes.length_eq (fun _ _ => FixedBytes.ext) fun _ _ => rfl

instance : Commits BlsSignature :=
  .ofBytes (fun x => x.signature.bytes) (fun x => x.signature.length_eq)
    (fun _ _ h => congrArg BlsSignature.mk (FixedBytes.ext h)) fun _ _ => rfl

instance : Commits KzgCommitment :=
  .ofBytes (fun x => x.bytes.bytes) (fun x => x.bytes.length_eq)
    (fun _ _ h => congrArg KzgCommitment.mk (FixedBytes.ext h)) fun _ _ => rfl

/-! ## 4. Bit fields -/

/-- The bits of a field of known length are those of its bytes. -/
theorem packBits_injective {bits bits' : List Bool} (hlen : bits.length = bits'.length)
    (h : packBits bits = packBits bits') : bits = bits' := by
  have hpack : packBits = Bits.pack := rfl
  have heq := congrArg Bits.unpack h
  rw [hpack, Bits.unpack_pack, Bits.unpack_pack] at heq
  exact (List.append_inj heq hlen).1

theorem bitfieldRoot_binds (c : Crypto) {n : ℕ} {bits bits' : List Bool}
    (hlen : bits.length = bits'.length) (hle : bits.length ≤ n)
    (h : bitfieldRoot c n bits = bitfieldRoot c n bits') :
    bits = bits' ∨ Collision c.hash32Concat
      (bytesInputs c (((n + 7) / 8 + 31) / 32) (packBits bits))
      (bytesInputs c (((n + 7) / 8 + 31) / 32) (packBits bits')) := by
  have hbytes : (packBits bits).length = (packBits bits').length := by
    simp only [packBits, List.length_map, List.length_range, hlen]
  have hfits : ((packBits bits).length + 31) / 32 ≤ ((n + 7) / 8 + 31) / 32 := by
    simp only [packBits, List.length_map, List.length_range]
    omega
  rcases merkleize_packBytes_binds c hbytes hfits h with heq | hcol
  · exact Or.inl (packBits_injective hlen heq)
  · exact Or.inr hcol

instance (n : ℕ) : Commits (BitVector n) where
  inputs c v := bytesInputs c (((n + 7) / 8 + 31) / 32) (packBits v.bits)
  binds := by
    intro c v v' h
    rcases bitfieldRoot_binds c (v.length_eq.trans v'.length_eq.symm) v.length_eq.le h with
      heq | hcol
    · obtain ⟨bits, hbits⟩ := v
      obtain rfl : bits = v'.bits := heq
      exact Or.inl rfl
    · exact Or.inr hcol

/-! ## 5. Lists and vectors -/

instance (α : Type) (n : ℕ) [TreeHash α] [CommitsItems α] : Commits (FixedVector α n) where
  inputs c v := CommitsItems.inputs c n v.toList
  binds := by
    intro c v v' h
    have hlen : v.toList.length = v'.toList.length := v.length_eq.trans v'.length_eq.symm
    rcases CommitsItems.binds c n _ _ hlen v.length_eq.le h with heq | hcol
    · exact Or.inl (FixedVector.ext heq)
    · exact Or.inr hcol

/-- The pair hashed last for a list: the root of its items, and its length. -/
def lengthInput (root : B256) (length : ℕ) : B256 × B256 := (root, chunkOfBytes (toLE 8 length))

/-- A length on top of a root binds both. -/
theorem mixInLength_binds (c : Crypto) {root root' : B256} {k k' : ℕ} (hk : k < 2 ^ 64)
    (hk' : k' < 2 ^ 64) (h : mixInLength c root k = mixInLength c root' k') :
    (root = root' ∧ k = k') ∨
      Collision c.hash32Concat [lengthInput root k] [lengthInput root' k'] := by
  by_cases hp : lengthInput root k = lengthInput root' k'
  · obtain ⟨hroot, hchunk⟩ := Prod.mk.inj hp
    have hlen : toLE 8 k = toLE 8 k' :=
      chunkOfBytes_injective (by simp) (by simp) hchunk
    have heq := congrArg ofLE hlen
    rw [ofLE_toLE, ofLE_toLE] at heq
    rw [Nat.mod_eq_of_lt (by norm_num at hk ⊢; exact hk),
      Nat.mod_eq_of_lt (by norm_num at hk' ⊢; exact hk')] at heq
    exact Or.inl ⟨hroot, heq⟩
  · exact Or.inr ⟨_, List.mem_singleton_self _, _, List.mem_singleton_self _, hp, h⟩

/-- A number below another.  In `Type`: the proof goes with the numbers. -/
class Below (n m : ℕ) : Type where
  lt : n < m

instance (room n : ℕ) : Below n (room + n + 1) := ⟨by omega⟩

/-- A list is bound when its bound fits the length that is mixed in. -/
instance (α : Type) (n : ℕ) [TreeHash α] [CommitsItems α] [hn : Below n (2 ^ 64)] :
    Commits (VariableList α n) where
  inputs c l :=
    lengthInput (vecRoot c n l.toList) l.toList.length :: CommitsItems.inputs c n l.toList
  binds := by
    intro c l l' h
    have hk := l.length_le.trans_lt hn.lt
    have hk' := l'.length_le.trans_lt hn.lt
    rcases mixInLength_binds c hk hk' h with ⟨hroot, hlen⟩ | hcol
    · rcases CommitsItems.binds c n _ _ hlen l.length_le hroot with heq | hcol
      · exact Or.inl (VariableList.ext heq)
      · exact Or.inr (hcol.mono (List.subset_cons_self _ _) (List.subset_cons_self _ _))
    · exact Or.inr (hcol.mono (by simp) (by simp))

instance (n : ℕ) [hn : Below n (2 ^ 64)] : Commits (BitList n) where
  inputs c l :=
    lengthInput (bitfieldRoot c n l.bits) l.bits.length ::
      bytesInputs c (((n + 7) / 8 + 31) / 32) (packBits l.bits)
  binds := by
    intro c l l' h
    have hk := l.length_le.trans_lt hn.lt
    have hk' := l'.length_le.trans_lt hn.lt
    rcases mixInLength_binds c hk hk' h with ⟨hroot, hlen⟩ | hcol
    · rcases bitfieldRoot_binds c hlen l.length_le hroot with heq | hcol
      · obtain ⟨bits, hbits⟩ := l
        obtain rfl : bits = l'.bits := heq
        exact Or.inl rfl
      · exact Or.inr (hcol.mono (List.subset_cons_self _ _) (List.subset_cons_self _ _))
    · exact Or.inr (hcol.mono (by simp) (by simp))

/-! ## 6. Containers -/

/-- Tuples of fields whose roots bind them. -/
class RootFields (γ : Type) where
  roots : Crypto → γ → List B256
  length : ℕ
  inputs : Crypto → γ → List (B256 × B256)
  length_roots : ∀ c x, (roots c x).length = length
  binds : ∀ (c : Crypto) (x y : γ), roots c x = roots c y →
    x = y ∨ Collision c.hash32Concat (inputs c x) (inputs c y)

instance : RootFields Unit where
  roots _ _ := []
  length := 0
  inputs _ _ := []
  length_roots _ _ := rfl
  binds _ _ _ _ := Or.inl rfl

instance (α γ : Type) [TreeHash α] [Commits α] [RootFields γ] : RootFields (α × γ) where
  roots c x := treeHashRoot c x.1 :: RootFields.roots c x.2
  length := RootFields.length γ + 1
  inputs c x := Commits.inputs c x.1 ++ RootFields.inputs c x.2
  length_roots c x := by rw [List.length_cons, RootFields.length_roots]
  binds := by
    rintro c ⟨x, xs⟩ ⟨y, ys⟩ h
    obtain ⟨hhead, htail⟩ := List.cons.inj h
    rcases and_or_collision (Commits.binds c x y hhead) (RootFields.binds c xs ys htail) with
      ⟨rfl, rfl⟩ | hcol
    · exact Or.inl rfl
    · exact Or.inr hcol

/-- A container is bound through the tuple of its fields. -/
@[reducible] def Commits.ofFields {α γ : Type} [TreeHash α] [RootFields γ] (e : α ≃ γ)
    (hroot : ∀ c x, treeHashRoot c x = containerRoot c (RootFields.roots c (e x))) :
    Commits α where
  inputs c x :=
    subtreeInputs c.hash32Concat (treeDepth (RootFields.length γ))
        (chunkAt (RootFields.roots c (e x))) ++ RootFields.inputs c (e x)
  binds := by
    intro c x y h
    have hlen := RootFields.length_roots c (e x)
    have hlen' := RootFields.length_roots c (e y)
    rw [hroot, hroot, containerRoot, containerRoot, hlen, hlen'] at h
    rcases leaves_binding (hlen.trans hlen'.symm)
      (hlen.le.trans (length_le_two_pow_treeDepth _)) h with hroots | hcol
    · rcases RootFields.binds c _ _ hroots with heq | hcol
      · exact Or.inl (e.injective heq)
      · exact Or.inr (hcol.mono (List.subset_append_right _ _) (List.subset_append_right _ _))
    · exact Or.inr (hcol.mono (List.subset_append_left _ _) (List.subset_append_left _ _))

/-! ## 7. Blocks

The types from the leaves up. -/

/-- A key is a container of its bytes. -/
instance : Commits PubKey := .ofFields
  ⟨fun x => (x.inner, ()), fun ⟨inner, _⟩ => ⟨inner⟩, fun _ => rfl, fun _ => rfl⟩ fun _ _ => rfl

instance : Commits Checkpoint := .ofFields Checkpoint.fields fun _ _ => rfl
instance : Commits Eth1Data := .ofFields Eth1Data.fields fun _ _ => rfl
instance : Commits BeaconBlockHeader := .ofFields BeaconBlockHeader.fields fun _ _ => rfl
instance : Commits SignedBeaconBlockHeader :=
  .ofFields SignedBeaconBlockHeader.fields fun _ _ => rfl
instance : Commits ProposerSlashing := .ofFields ProposerSlashing.fields fun _ _ => rfl
instance : Commits AttestationData := .ofFields AttestationData.fields fun _ _ => rfl

instance (n : ℕ) [Below n (2 ^ 64)] : Commits (IndexedAttestation n) :=
  .ofFields (IndexedAttestation.fields n) fun _ _ => rfl

instance (n : ℕ) [Below n (2 ^ 64)] : Commits (AttesterSlashing n) :=
  .ofFields (AttesterSlashing.fields n) fun _ _ => rfl

instance : Commits AttestationBase := .ofFields AttestationBase.fields fun _ _ => rfl
instance : Commits AttestationElectra := .ofFields AttestationElectra.fields fun _ _ => rfl
instance : Commits DepositData := .ofFields DepositData.fields fun _ _ => rfl
instance : Commits Deposit := .ofFields Deposit.fields fun _ _ => rfl
instance : Commits VoluntaryExit := .ofFields VoluntaryExit.fields fun _ _ => rfl
instance : Commits SignedVoluntaryExit := .ofFields SignedVoluntaryExit.fields fun _ _ => rfl
instance : Commits SyncAggregate := .ofFields SyncAggregate.fields fun _ _ => rfl
instance : Commits BLSToExecutionChange := .ofFields BLSToExecutionChange.fields fun _ _ => rfl
instance : Commits SignedBLSToExecutionChange :=
  .ofFields SignedBLSToExecutionChange.fields fun _ _ => rfl
instance : Commits Withdrawal := .ofFields Withdrawal.fields fun _ _ => rfl
instance : Commits DepositRequest := .ofFields DepositRequest.fields fun _ _ => rfl
instance : Commits WithdrawalRequest := .ofFields WithdrawalRequest.fields fun _ _ => rfl
instance : Commits ConsolidationRequest := .ofFields ConsolidationRequest.fields fun _ _ => rfl

instance : CommitsItems ProposerSlashing := .ofRoots rfl
instance : CommitsItems AttestationBase := .ofRoots rfl
instance : CommitsItems AttestationElectra := .ofRoots rfl
instance : CommitsItems Deposit := .ofRoots rfl
instance : CommitsItems SignedVoluntaryExit := .ofRoots rfl
instance : CommitsItems SignedBLSToExecutionChange := .ofRoots rfl
instance : CommitsItems Withdrawal := .ofRoots rfl
instance : CommitsItems DepositRequest := .ofRoots rfl
instance : CommitsItems WithdrawalRequest := .ofRoots rfl
instance : CommitsItems ConsolidationRequest := .ofRoots rfl
instance : CommitsItems KzgCommitment := .ofRoots rfl
instance : CommitsItems ByteList1G := .ofRoots rfl

instance (n : ℕ) [Below n (2 ^ 64)] : CommitsItems (AttesterSlashing n) := .ofRoots rfl

instance : Commits ExecutionRequests := .ofFields ExecutionRequests.fields fun _ _ => rfl

instance : Commits ExecutionPayloadBellatrix := .ofFields
  ((Equiv.prodPUnit _).symm.trans (ExecutionPayloadBellatrix.fieldsWith Unit)) fun _ _ => rfl

instance : Commits ExecutionPayloadCapella := .ofFields
  (ExecutionPayloadCapella.fields.trans (ExecutionPayloadBellatrix.fieldsWith _)) fun _ _ => rfl

instance : Commits ExecutionPayloadDeneb := .ofFields
  (ExecutionPayloadDeneb.fields.trans (ExecutionPayloadBellatrix.fieldsWith _)) fun _ _ => rfl

instance : Commits ExecutionPayloadElectra := .ofFields
  (ExecutionPayloadElectra.fields.trans (ExecutionPayloadBellatrix.fieldsWith _)) fun _ _ => rfl

instance : Commits BeaconBlockBodyBellatrix :=
  .ofFields BeaconBlockBodyBellatrix.fields fun _ _ => rfl
instance : Commits BeaconBlockBodyCapella := .ofFields BeaconBlockBodyCapella.fields fun _ _ => rfl
instance : Commits BeaconBlockBodyDeneb := .ofFields BeaconBlockBodyDeneb.fields fun _ _ => rfl
instance : Commits BeaconBlockBodyElectra := .ofFields BeaconBlockBodyElectra.fields fun _ _ => rfl

instance (Body : Type) [TreeHash Body] [Commits Body] : Commits (BeaconBlockOf Body) :=
  .ofFields (BeaconBlockOf.fields Body) fun _ _ => rfl

/-! ## 8. States -/

instance : Commits Fork := .ofFields Fork.fields fun _ _ => rfl
instance : Commits Validator := .ofFields Validator.fields fun _ _ => rfl
instance : CommitsItems PubKey := .ofRoots rfl
instance : Commits SyncCommittee := .ofFields SyncCommittee.fields fun _ _ => rfl
instance : Commits PendingDeposit := .ofFields PendingDeposit.fields fun _ _ => rfl
instance : Commits PendingPartialWithdrawal :=
  .ofFields PendingPartialWithdrawal.fields fun _ _ => rfl
instance : Commits PendingConsolidation := .ofFields PendingConsolidation.fields fun _ _ => rfl
instance : Commits HistoricalSummary := .ofFields HistoricalSummary.fields fun _ _ => rfl

instance : CommitsItems Eth1Data := .ofRoots rfl
instance : CommitsItems Validator := .ofRoots rfl
instance : CommitsItems PendingDeposit := .ofRoots rfl
instance : CommitsItems PendingPartialWithdrawal := .ofRoots rfl
instance : CommitsItems PendingConsolidation := .ofRoots rfl
instance : CommitsItems HistoricalSummary := .ofRoots rfl

instance : Commits ExecutionPayloadHeaderBellatrix := .ofFields
  ((Equiv.prodPUnit _).symm.trans (ExecutionPayloadHeaderBellatrix.fieldsWith Unit))
  fun _ _ => rfl

instance : Commits ExecutionPayloadHeaderCapella := .ofFields
  (ExecutionPayloadHeaderCapella.fields.trans (ExecutionPayloadHeaderBellatrix.fieldsWith _))
  fun _ _ => rfl

instance : Commits ExecutionPayloadHeaderDeneb := .ofFields
  (ExecutionPayloadHeaderDeneb.fields.trans (ExecutionPayloadHeaderBellatrix.fieldsWith _))
  fun _ _ => rfl

instance : Commits ExecutionPayloadHeaderElectra := .ofFields
  (ExecutionPayloadHeaderElectra.fields.trans (ExecutionPayloadHeaderBellatrix.fieldsWith _))
  fun _ _ => rfl

section

variable (PayloadHeader : Type) [TreeHash PayloadHeader] [Commits PayloadHeader]

instance : Commits (BeaconStateOf PayloadHeader) := .ofFields
  ((Equiv.prodPUnit _).symm.trans (BeaconStateOf.fieldsWith PayloadHeader Unit)) fun _ _ => rfl

instance : Commits (BeaconStateFromCapella PayloadHeader) := .ofFields
  ((Equiv.prodPUnit _).symm.trans ((BeaconStateFromCapella.fieldsWith PayloadHeader Unit).trans
    (BeaconStateOf.fieldsWith PayloadHeader _))) fun _ _ => rfl

end

set_option synthInstance.maxSize 256 in
instance : Commits BeaconStateElectra := .ofFields
  (BeaconStateElectra.fields.trans ((BeaconStateFromCapella.fieldsWith _ _).trans
    (BeaconStateOf.fieldsWith _ _))) fun _ _ => rfl

end EthHistorian
