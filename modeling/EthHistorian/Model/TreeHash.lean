/-
# Tree hashing

SSZ merkleization, which the crates `tree_hash`, `tree_hash_derive` and `ssz_types` implement:
values are packed into 32-byte chunks, the chunks are the leaves of the perfect tree whose
width is the next power of two, missing leaves are zero chunks, a list's length is hashed in on
top, and a container's chunks are its fields' roots in declaration order.

`TreeHash` is the trait of the same name, reduced to what roots depend on: whether a type is
basic (its values are packed, several to a chunk) and a value's root.
-/
import EthHistorian.Model.MerkleProof
import Mathlib.Data.Nat.Log

namespace EthHistorian

open Merkle ByteString

/-! ## 1. Merkleization -/

/-- One chunk: the first 32 bytes, zero-filled on the right. -/
def chunkOfBytes (bs : List UInt8) : B256 :=
  ⟨(bs ++ List.replicate 32 0).take 32, by simp⟩

/-- Byte strings as chunks. -/
def packBytes (bs : List UInt8) : List B256 :=
  (List.range ((bs.length + 31) / 32)).map fun i => chunkOfBytes (bs.drop (32 * i))

/-- The depth of the tree that holds `limit` chunks. -/
def treeDepth (limit : ℕ) : ℕ := Nat.clog 2 limit

/-- The root over the chunks of a value that can have up to `limit` of them. -/
def merkleize (c : Crypto) (chunks : List B256) (limit : ℕ) : B256 :=
  subtree c.hash32Concat (treeDepth limit) (chunkAt chunks)

/-- `mix_in_length`. -/
def mixInLength (c : Crypto) (root : B256) (length : ℕ) : B256 :=
  c.hash32Concat root (chunkOfBytes (toLE 8 length))

/-- The derived root of a container: its fields' roots in declaration order. -/
def containerRoot (c : Crypto) (fieldRoots : List B256) : B256 :=
  merkleize c fieldRoots fieldRoots.length

/-- `merkle_root`: the root over a byte string's own chunks. -/
def bytesRoot (c : Crypto) (bs : List UInt8) : B256 :=
  merkleize c (packBytes bs) ((bs.length + 31) / 32)

/-! ## 2. The trait -/

/-- The packed form of a basic type: its bytes, and how many values share a chunk. -/
structure Packed (α : Type) where
  encoding : α → List UInt8
  factor : ℕ

class TreeHash (α : Type) where
  /-- `TreeHashType::Basic` and its packing; `none` for containers, lists and vectors. -/
  packed : Option (Packed α)
  treeHashRoot : Crypto → α → B256

export TreeHash (treeHashRoot)

/-- `vec_tree_hash_root`. -/
def vecRoot (c : Crypto) {α : Type} [TreeHash α] (n : ℕ) (items : List α) : B256 :=
  match TreeHash.packed (α := α) with
  | some p =>
    merkleize c (packBytes (items.flatMap p.encoding)) ((n + p.factor - 1) / p.factor)
  | none => merkleize c (items.map (treeHashRoot c)) n

instance (α : Type) (n : ℕ) [TreeHash α] : TreeHash (FixedVector α n) where
  packed := none
  treeHashRoot c v := vecRoot c n v.toList

instance (α : Type) (n : ℕ) [TreeHash α] : TreeHash (VariableList α n) where
  packed := none
  treeHashRoot c v := mixInLength c (vecRoot c n v.toList) v.toList.length

instance : TreeHash UInt8 where
  packed := some ⟨fun x => [x], 32⟩
  treeHashRoot _ x := chunkOfBytes [x]

instance : TreeHash Bool where
  packed := some ⟨fun b => [if b then 1 else 0], 32⟩
  treeHashRoot _ b := chunkOfBytes [if b then 1 else 0]

instance : TreeHash UInt64 where
  packed := some ⟨u64ToLeBytes, 4⟩
  treeHashRoot _ x := chunkOfBytes (u64ToLeBytes x)

instance : TreeHash U256 where
  packed := some ⟨fun x => (U256.toLeBytes x).bytes, 1⟩
  treeHashRoot _ x := U256.toLeBytes x

/-- A chunk is its own root. -/
instance : TreeHash B256 where
  packed := none
  treeHashRoot _ x := x

instance : TreeHash Address where
  packed := none
  treeHashRoot c x := bytesRoot c x.bytes

/-! ## 3. Bit fields -/

/-- `BitVector<N>`. -/
structure BitVector (n : ℕ) where
  bits : List Bool
  length_eq : bits.length = n

/-- `BitList<N>`. -/
structure BitList (n : ℕ) where
  bits : List Bool
  length_le : bits.length ≤ n

instance (n : ℕ) : Inhabited (BitVector n) :=
  ⟨⟨List.replicate n false, List.length_replicate⟩⟩

instance (n : ℕ) : Inhabited (BitList n) := ⟨⟨[], Nat.zero_le n⟩⟩

/-- Eight bits, least significant first, as a byte. -/
def byteOfBits (bits : List Bool) : UInt8 :=
  UInt8.ofNat (((bits.take 8).foldr (fun b acc => 2 * acc + b.toNat) 0))

def packBits (bits : List Bool) : List UInt8 :=
  (List.range ((bits.length + 7) / 8)).map fun i => byteOfBits (bits.drop (8 * i))

/-- `bitfield_bytes_tree_hash_root`. -/
def bitfieldRoot (c : Crypto) (n : ℕ) (bits : List Bool) : B256 :=
  merkleize c (packBytes (packBits bits)) (((n + 7) / 8 + 31) / 32)

instance (n : ℕ) : TreeHash (BitVector n) where
  packed := none
  treeHashRoot c v := bitfieldRoot c n v.bits

instance (n : ℕ) : TreeHash (BitList n) where
  packed := none
  treeHashRoot c v := mixInLength c (bitfieldRoot c n v.bits) v.bits.length

/-! ## 4. Roots the proofs meet -/

/-- A vector of roots has its items as leaves. -/
theorem treeHashRoot_fixedVector_b256 (c : Crypto) {n : ℕ} (v : FixedVector B256 n) :
    treeHashRoot c v = subtree c.hash32Concat (treeDepth n) (chunkAt v.toList) := by
  have hmap : v.toList.map (treeHashRoot c) = v.toList := List.map_id' _
  change merkleize c (v.toList.map (treeHashRoot c)) n = _
  rw [hmap, merkleize]

/-- The depth of a tree of a power of two of leaves. -/
theorem treeDepth_pow (d : ℕ) : treeDepth (2 ^ d) = d := Nat.clog_pow 2 d (by norm_num)

/-- The leaves of a container fit its tree. -/
theorem length_le_two_pow_treeDepth (n : ℕ) : n ≤ 2 ^ treeDepth n :=
  Nat.le_pow_clog (by norm_num) n

/-- The length chunk is the 32-byte little-endian spelling of the length. -/
theorem chunkOfBytes_toLE {n : ℕ} (h : n < 2 ^ 64) :
    chunkOfBytes (toLE 8 n) = ⟨toLE 32 n, toLE_length 32 n⟩ := by
  have hsplit : toLE 32 n = toLE 8 n ++ List.replicate 24 0 :=
    toLE_add 8 24 n (by norm_num; exact h)
  have htake : (toLE 8 n ++ List.replicate 32 0).take 32 = toLE 8 n ++ List.replicate 24 0 := by
    rw [List.take_append, toLE_length, List.take_of_length_le (by simp)]
    simp
  exact FixedBytes.ext (htake.trans hsplit.symm)

/-! ## 5. Hash functions to evaluate with -/

/-- Hash functions that return the first 32 bytes. -/
def prefixCrypto : Crypto := ⟨chunkOfBytes, chunkOfBytes⟩

end EthHistorian
