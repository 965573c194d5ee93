/-
# The values the program passes around

Fixed-width byte strings (`alloy::primitives::FixedBytes`), length-bounded lists (`ssz_types`),
64-bit machine integers (Lean's `UInt64`) and the two hash functions.  A width or a bound is a
field of its structure, so a 31-byte `B256` or an overlong list cannot be built.

The hash functions live in crates outside the repository (`ethereum_hashing`, `alloy`), so they
are the fields of `Crypto`, and nothing at all is assumed of them.  Where a result needs a
property of SHA-256, it is stated about the strings the computation at hand hashes.
-/
import EthHistorian.Lib.Bytes
import EthHistorian.Lib.Merkle
import EthHistorian.Lib.Outcome

namespace EthHistorian

open ByteString

/-! ## 1. Byte strings -/

/-- `FixedBytes<N>`. -/
@[ext] structure FixedBytes (n : ℕ) where
  bytes : List UInt8
  length_eq : bytes.length = n
  deriving DecidableEq

/-- A hash, a root, a tree node. -/
abbrev B256 := FixedBytes 32
abbrev Address := FixedBytes 20
abbrev Bloom := FixedBytes 256
abbrev B64 := FixedBytes 8

/-- All bytes zero: `B256::ZERO` and its kin. -/
def FixedBytes.zero (n : ℕ) : FixedBytes n := ⟨List.replicate n 0, by simp⟩

instance (n : ℕ) : Inhabited (FixedBytes n) := ⟨FixedBytes.zero n⟩

/-- `Bytes`.  An allocation is at most `isize::MAX` bytes long. -/
@[ext] structure Bytes where
  data : List UInt8
  length_lt : data.length < 2 ^ 63
  deriving DecidableEq

instance : Inhabited Bytes := ⟨⟨[], by norm_num⟩⟩

/-- `U256`. -/
abbrev U256 := BitVec 256

/-- `U256::to_le_bytes`, as a chunk. -/
def U256.toLeBytes (x : U256) : B256 := ⟨toLE 32 x.toNat, toLE_length _ _⟩

/-- `u64::to_le_bytes`. -/
def u64ToLeBytes (x : UInt64) : List UInt8 := toLE 8 x.toNat

/-! ## 2. Length-bounded lists -/

/-- `VariableList<T, N>`: at most `N` items. -/
@[ext] structure VariableList (α : Type) (n : ℕ) where
  toList : List α
  length_le : toList.length ≤ n
  deriving DecidableEq

/-- `FixedVector<T, N>`: exactly `N` items. -/
@[ext] structure FixedVector (α : Type) (n : ℕ) where
  toList : List α
  length_eq : toList.length = n
  deriving DecidableEq

instance (α : Type) (n : ℕ) : Inhabited (VariableList α n) := ⟨⟨[], Nat.zero_le n⟩⟩

instance (α : Type) [Inhabited α] (n : ℕ) : Inhabited (FixedVector α n) :=
  ⟨⟨List.replicate n default, List.length_replicate⟩⟩

/-- `FixedVector::new` refuses a list of another length. -/
def FixedVector.new {α : Type} (n : ℕ) (l : List α) : Option (FixedVector α n) :=
  if h : l.length = n then some ⟨l, h⟩ else none

theorem FixedVector.new_eq_some {α : Type} {n : ℕ} {l : List α} (h : l.length = n) :
    FixedVector.new n l = some ⟨l, h⟩ := dif_pos h

/-- `VariableList::from` drops what does not fit. -/
def VariableList.ofList {α : Type} (n : ℕ) (l : List α) : VariableList α n :=
  ⟨l.take n, List.length_take_le n l⟩

/-- `v[i]`, which aborts past the end. -/
def VariableList.index {ε α : Type} {n : ℕ} (v : VariableList α n) (i : ℕ) : Outcome ε α :=
  Outcome.expect v.toList[i]? "index out of bounds"

/-- `v.get(i)`. -/
def VariableList.get? {α : Type} {n : ℕ} (v : VariableList α n) (i : ℕ) : Option α :=
  v.toList[i]?

theorem VariableList.index_eq_ok {ε α : Type} {n : ℕ} {v : VariableList α n} {i : ℕ} {a : α} :
    (v.index i : Outcome ε α) = .ok a ↔ v.toList[i]? = some a := by
  unfold VariableList.index
  cases v.toList[i]? <;> simp [Outcome.expect]

/-- An index aborts exactly past the end. -/
theorem VariableList.index_eq_panic {ε α : Type} {n : ℕ} {v : VariableList α n} {i : ℕ} :
    (∃ msg, (v.index i : Outcome ε α) = .panic msg) ↔ v.toList.length ≤ i := by
  unfold VariableList.index
  rw [← List.getElem?_eq_none_iff]
  cases v.toList[i]? <;> simp [Outcome.expect]

/-! ## 3. Pointer width -/

/-- The two targets the crate is built for: wasm32 and the native ones. -/
inductive PointerWidth where
  | w32
  | w64
  deriving DecidableEq, Repr

def PointerWidth.bits : PointerWidth → ℕ
  | .w32 => 32
  | .w64 => 64

/-- `x as usize` keeps the low bits. -/
def asUsize (w : PointerWidth) (x : UInt64) : ℕ := x.toNat % 2 ^ w.bits

/-- A number below `2 ^ 32` survives the cast on every target. -/
theorem asUsize_of_lt {w : PointerWidth} {x : UInt64} (h : x.toNat < 2 ^ 32) :
    asUsize w x = x.toNat := by
  refine Nat.mod_eq_of_lt (h.trans_le ?_)
  cases w <;> norm_num [PointerWidth.bits]

/-! ## 4. Hash functions -/

/-- The hash functions of the crates underneath: SHA-256 (`ethereum_hashing::hash`, also behind
`hash32_concat` and `rs_merkle`) and Keccak-256 (`alloy`). -/
structure Crypto where
  hash : List UInt8 → B256
  keccak256 : List UInt8 → B256

/-- `hash32_concat`: SHA-256 of the 64 bytes of two chunks. -/
def Crypto.hash32Concat (c : Crypto) (a b : B256) : B256 := c.hash (a.bytes ++ b.bytes)

/-- `ZERO_HASHES[k]`: the root of a tree of depth `k` over zero chunks. -/
def Crypto.zeroHashes (c : Crypto) : ℕ → B256
  | 0 => FixedBytes.zero 32
  | k + 1 => c.hash32Concat (c.zeroHashes k) (c.zeroHashes k)

/-- Some pair of the list hashes to the zero chunk. -/
def Crypto.ZeroPreimage (c : Crypto) (S : List (B256 × B256)) : Prop :=
  ∃ p ∈ S, c.hash32Concat p.1 p.2 = FixedBytes.zero 32

/-- Two chunks fix the 64 bytes that are hashed, so a collision between pairs is a collision of
SHA-256 between two 64-byte strings. -/
theorem Crypto.Collision.bytes {c : Crypto} {S T : List (B256 × B256)}
    (h : Merkle.Collision c.hash32Concat S T) :
    ∃ a b : List UInt8, a.length = 64 ∧ b.length = 64 ∧ a ≠ b ∧ c.hash a = c.hash b := by
  obtain ⟨p, -, q, -, hne, heq⟩ := h
  refine ⟨p.1.bytes ++ p.2.bytes, q.1.bytes ++ q.2.bytes, by simp [FixedBytes.length_eq],
    by simp [FixedBytes.length_eq], ?_, heq⟩
  intro hb
  obtain ⟨h1, h2⟩ := List.append_inj hb (by rw [p.1.length_eq, q.1.length_eq])
  exact hne (Prod.ext (FixedBytes.ext h1) (FixedBytes.ext h2))

end EthHistorian
