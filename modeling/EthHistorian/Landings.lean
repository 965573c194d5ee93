/-
# Where the path of an execution hash comes out, in any block

The validator takes the place of the block hash from the HEADER's era, and the block root from
the era of the proof's SLOT; nothing ties the two together.  So the climb may run through a block
of another fork, or one from before there were payloads, which has something else at that place:

* `BeaconBlock.landing_spec`: a block of the same layout has its block hash there; one with a
  deeper payload, the padding of the payload; and one with a shallower payload has, one step
  further up, the number of its execution block;
* `EarlyBlock.landing_spec`: a block without a payload has, above all the steps that were meant for
  the payload, the padding of its body, or the number of its attester slashings.

`Landing.binds` is the binding law for such a place: a proof that arrives at the block's root has
passed there, or the two climbs hashed two pairs to one value.
-/
import EthHistorian.PostMerge

namespace EthHistorian

open Merkle
open ByteString (toLE)

/-! ## 1. Landings -/

theorem Era.executionPlace (e : Era) :
    (e.executionDepth = 11 ∧ e.executionIndex = 3228) ∨
      (e.executionDepth = 12 ∧ e.executionIndex = 6444) := by
  cases e with
  | historicalHashes => exact Or.inl ⟨rfl, rfl⟩
  | historicalRoots => exact Or.inl ⟨rfl, rfl⟩
  | historicalSummariesCapella => exact Or.inl ⟨rfl, rfl⟩
  | historicalSummariesDeneb => exact Or.inr ⟨rfl, rfl⟩

/-- A node that the path of the era's execution hashes passes after some steps, on the way to a
root. -/
structure Landing (c : Crypto) (e : Era) (root : B256) where
  skip : ℕ
  node : B256
  rest : List B256
  length_eq : e.executionDepth = skip + rest.length
  climb_eq : climb c.hash32Concat (e.executionIndex / 2 ^ skip) node rest = root

namespace Landing

variable {c : Crypto} {e : Era} {root : B256}

/-- The pairs hashed from there. -/
def inputs (L : Landing c e root) : List (B256 × B256) :=
  climbInputs c.hash32Concat (e.executionIndex / 2 ^ L.skip) L.node L.rest

/-- **A proof passes there.** -/
theorem binds (L : Landing c e root) {hash : B256} {path : List B256}
    (hlen : path.length = e.executionDepth)
    (h : climb c.hash32Concat e.executionIndex hash path = root) :
    (climb c.hash32Concat e.executionIndex hash (path.take L.skip) = L.node ∧
        path.drop L.skip = L.rest) ∨
      Collision c.hash32Concat (climbInputs c.hash32Concat e.executionIndex hash path) L.inputs :=
  climb_binding_above _ _ _ (hlen.trans L.length_eq) (h.trans L.climb_eq.symm)

end Landing

/-- The chunk of a number. -/
def NumberChunk (x : B256) : Prop := ∃ n : ℕ, x = chunkOfBytes (toLE 8 n)

theorem numberChunk_zero : NumberChunk (FixedBytes.zero 32) := ⟨0, rfl⟩

/-! ## 2. Blocks with a payload -/

namespace ExecutionPath

variable {c : Crypto} (p : ExecutionPath c)

/-- The path of the payload. -/
def upper : List B256 :=
  Merkle.branch c.hash32Concat 4 (chunkAt p.body) 9 ++
    Merkle.branch c.hash32Concat 3 (chunkAt p.block) 4

theorem length_upper : p.upper.length = 7 := by
  simp [upper]

theorem climb_upper : climb c.hash32Concat 73 (containerRoot c p.payload) p.upper = p.root := by
  obtain ⟨hbody, -⟩ := climb_container c p.payload_at
  obtain ⟨hblock, -⟩ := climb_container c p.body_at
  rw [p.body_depth] at hbody
  rw [p.block_depth] at hblock
  have hindex : 73 = 2 ^ 4 * 4 + 9 := by norm_num
  rw [hindex, upper, climb_append_index (branch_length _ _ _) (by norm_num), hbody, hblock, root]

/-- The path of a leaf, of any perfect tree that is the payload's. -/
theorem climb_supply {d j : ℕ} {f : ℕ → B256}
    (hf : subtree c.hash32Concat d f = containerRoot c p.payload) (hj : j < 2 ^ d) :
    climb c.hash32Concat (2 ^ d * 73 + j) (f j) (Merkle.branch c.hash32Concat d f j ++ p.upper)
      = p.root := by
  rw [climb_append_index (branch_length _ _ _) hj, climb_branch _ _ _ hj, hf, p.climb_upper]

theorem subtree_payload :
    subtree c.hash32Concat p.payloadDepth (chunkAt p.payload) = containerRoot c p.payload := by
  rw [← p.payload_depth]
  rfl

/-- The leading bit of a generalized index is not read. -/
theorem climb_supply_gindex {d j k : ℕ} {f : ℕ → B256}
    (hf : subtree c.hash32Concat d f = containerRoot c p.payload) (hj : j < 2 ^ d)
    (hk : k = 2 ^ (d + 7) + (2 ^ d * 73 + j)) :
    climb c.hash32Concat k (f j) (Merkle.branch c.hash32Concat d f j ++ p.upper) = p.root := by
  have hlen : (Merkle.branch c.hash32Concat d f j ++ p.upper).length = d + 7 := by
    rw [List.length_append, branch_length, length_upper]
  rw [hk, climb_gindex hlen, p.climb_supply hf hj]

variable {e : Era}

/-- The layout that the index is made for. -/
def aligned (h : p.payloadDepth + 7 = e.executionDepth)
    (hindex : e.executionIndex = 2 ^ (p.payloadDepth + 7) + (2 ^ p.payloadDepth * 73 + 12))
    (hlt : 12 < 2 ^ p.payloadDepth) : Landing c e p.root where
  skip := 0
  node := chunkAt p.payload 12
  rest := Merkle.branch c.hash32Concat p.payloadDepth (chunkAt p.payload) 12 ++ p.upper
  length_eq := by rw [List.length_append, branch_length, length_upper, ← h, Nat.zero_add]
  climb_eq := by
    rw [pow_zero, Nat.div_one]
    exact p.climb_supply_gindex p.subtree_payload hlt hindex

/-- A deeper payload: the place is one level above the leaves. -/
def deeper (h : p.payloadDepth = 5) (hd : e.executionDepth = 11)
    (hindex : e.executionIndex = 3228) : Landing c e p.root where
  skip := 0
  node := pairSupply c.hash32Concat (chunkAt p.payload) 12
  rest := Merkle.branch c.hash32Concat 4 (pairSupply c.hash32Concat (chunkAt p.payload)) 12
    ++ p.upper
  length_eq := by rw [List.length_append, branch_length, length_upper, hd]
  climb_eq := by
    have hsubtree := p.subtree_payload
    rw [h, subtree_succ] at hsubtree
    rw [pow_zero, Nat.div_one]
    exact p.climb_supply_gindex hsubtree (by norm_num) (hindex.trans (by norm_num))

/-- A shallower payload: the place is one level below a leaf, the sixth. -/
def shallower (h : p.payloadDepth = 4) (hd : e.executionDepth = 12)
    (hindex : e.executionIndex = 6444) : Landing c e p.root where
  skip := 1
  node := chunkAt p.payload 6
  rest := Merkle.branch c.hash32Concat 4 (chunkAt p.payload) 6 ++ p.upper
  length_eq := by rw [List.length_append, branch_length, length_upper, hd]
  climb_eq := by
    have hsubtree := p.subtree_payload
    rw [h] at hsubtree
    have hhalf : e.executionIndex / 2 ^ 1 = 2 ^ (4 + 7) + (2 ^ 4 * 73 + 6) := by
      rw [hindex]
      norm_num
    exact p.climb_supply_gindex hsubtree (by norm_num) hhalf

end ExecutionPath

namespace BeaconBlock

variable {c : Crypto}

theorem payloadDepth_path (c : Crypto) (b : BeaconBlock) :
    ((b.path c).payloadDepth = 4 ∧ b.era.executionDepth = 11) ∨
      ((b.path c).payloadDepth = 5 ∧ b.era.executionDepth = 12) := by
  cases b with
  | bellatrix b => exact Or.inl ⟨rfl, rfl⟩
  | capella b => exact Or.inl ⟨rfl, rfl⟩
  | deneb b => exact Or.inr ⟨rfl, rfl⟩
  | electra b => exact Or.inr ⟨rfl, rfl⟩

theorem aligned_of_depth {e : Era} {b : BeaconBlock}
    (h : (b.path c).payloadDepth + 7 = e.executionDepth) :
    e.executionIndex
        = 2 ^ ((b.path c).payloadDepth + 7) + (2 ^ (b.path c).payloadDepth * 73 + 12) ∧
      12 < 2 ^ (b.path c).payloadDepth := by
  rcases b.payloadDepth_path c with ⟨hd, -⟩ | ⟨hd, -⟩
  · rcases e.executionPlace with ⟨he, hindex⟩ | ⟨he, -⟩
    · rw [hd, hindex]
      norm_num
    · omega
  · rcases e.executionPlace with ⟨he, -⟩ | ⟨he, hindex⟩
    · omega
    · rw [hd, hindex]
      norm_num

theorem deeper_of_depth {e : Era} {b : BeaconBlock}
    (h : (b.path c).payloadDepth + 7 ≠ e.executionDepth) (hd : (b.path c).payloadDepth = 5) :
    e.executionDepth = 11 ∧ e.executionIndex = 3228 := by
  rcases e.executionPlace with he | ⟨he, -⟩
  · exact he
  · omega

theorem shallower_of_depth {e : Era} {b : BeaconBlock}
    (h : (b.path c).payloadDepth + 7 ≠ e.executionDepth) (hd : (b.path c).payloadDepth ≠ 5) :
    (b.path c).payloadDepth = 4 ∧ e.executionDepth = 12 ∧ e.executionIndex = 6444 := by
  rcases b.payloadDepth_path c with ⟨hfour, -⟩ | ⟨hfive, -⟩
  · rcases e.executionPlace with ⟨he, -⟩ | he
    · omega
    · exact ⟨hfour, he⟩
  · exact absurd hfive hd

/-- Where the path of an era's execution hashes comes out in a block. -/
def landing (c : Crypto) (e : Era) (b : BeaconBlock) : Landing c e (b.path c).root :=
  if h : (b.path c).payloadDepth + 7 = e.executionDepth then
    (b.path c).aligned h (aligned_of_depth h).1 (aligned_of_depth h).2
  else if hd : (b.path c).payloadDepth = 5 then
    (b.path c).deeper hd (deeper_of_depth h hd).1 (deeper_of_depth h hd).2
  else
    (b.path c).shallower (shallower_of_depth h hd).1 (shallower_of_depth h hd).2.1
      (shallower_of_depth h hd).2.2

/-- The payload's tree at the three places. -/
theorem chunkAt_payload (c : Crypto) (b : BeaconBlock) :
    chunkAt (b.path c).payload 12 = b.blockHash ∧
    NumberChunk (chunkAt (b.path c).payload 6) ∧
    pairSupply c.hash32Concat (chunkAt (b.path c).payload) 12
      = c.hash32Concat (FixedBytes.zero 32) (FixedBytes.zero 32) := by
  refine ⟨?_, ?_, ?_⟩
  · rw [chunkAt_of_getElem? (b.path c).blockHash_at, b.path_blockHash c]
  · cases b with
    | bellatrix b => exact ⟨b.body.executionPayload.blockNumber.toNat, rfl⟩
    | capella b => exact ⟨b.body.executionPayload.blockNumber.toNat, rfl⟩
    | deneb b => exact ⟨b.body.executionPayload.blockNumber.toNat, rfl⟩
    | electra b => exact ⟨b.body.executionPayload.blockNumber.toNat, rfl⟩
  · cases b with
    | bellatrix b => rfl
    | capella b => rfl
    | deneb b => rfl
    | electra b => rfl

/-- **What a block has at the place**: its block hash, the padding of its payload, or its number,
one step further up. -/
theorem landing_spec (c : Crypto) (e : Era) (b : BeaconBlock) :
    ((b.landing c e).skip = 0 ∧ ((b.landing c e).node = b.blockHash ∨
      (b.landing c e).node = c.hash32Concat (FixedBytes.zero 32) (FixedBytes.zero 32))) ∨
    (0 < (b.landing c e).skip ∧ NumberChunk (b.landing c e).node) := by
  obtain ⟨hhash, hnumber, hpadding⟩ := b.chunkAt_payload c
  unfold landing
  split
  · exact Or.inl ⟨rfl, Or.inl hhash⟩
  · split
    · exact Or.inl ⟨rfl, Or.inr hpadding⟩
    · exact Or.inr ⟨Nat.one_pos, hnumber⟩

end BeaconBlock

/-! ## 3. Blocks without a payload -/

/-- The body of a block from before Bellatrix, as far as its tree goes: eight fields, the fifth of
which is the list of attester slashings, or nine. -/
inductive EarlyBody where
  | phase0 (first : FixedVector B256 4) (attesterSlashings : B256) (count : ℕ)
      (last : FixedVector B256 3)
  | altair (fields : FixedVector B256 9)

/-- A block from before Bellatrix: the roots of its slot, proposer, parent and state, and its
body. -/
structure EarlyBlock where
  head : FixedVector B256 4
  body : EarlyBody

namespace EarlyBody

variable (c : Crypto)

def fieldRoots : EarlyBody → List B256
  | phase0 first attesterSlashings count last =>
    first.toList ++ mixInLength c attesterSlashings count :: last.toList
  | altair fields => fields.toList

/-- What the body has at the place of a payload. -/
def atPayload : EarlyBody → B256
  | phase0 _ _ count _ => chunkOfBytes (toLE 8 count)
  | altair _ => FixedBytes.zero 32

/-- The path from there to the body's root. -/
def branch : EarlyBody → List B256
  | phase0 first attesterSlashings count last =>
    attesterSlashings :: Merkle.branch c.hash32Concat 3
      (chunkAt ((phase0 first attesterSlashings count last).fieldRoots c)) 4
  | altair fields => Merkle.branch c.hash32Concat 4 (chunkAt fields.toList) 9

theorem numberChunk_atPayload (body : EarlyBody) : NumberChunk body.atPayload := by
  cases body with
  | phase0 first attesterSlashings count last => exact ⟨count, rfl⟩
  | altair fields => exact numberChunk_zero

theorem length_branch (body : EarlyBody) : (body.branch c).length = 4 := by
  cases body with
  | phase0 first attesterSlashings count last => simp [branch]
  | altair fields => simp [branch]

theorem length_fieldRoots_phase0 (first : FixedVector B256 4) (attesterSlashings : B256)
    (count : ℕ) (last : FixedVector B256 3) :
    ((phase0 first attesterSlashings count last).fieldRoots c).length = 8 := by
  rw [fieldRoots, List.length_append, List.length_cons, first.length_eq, last.length_eq]

theorem attesterSlashings_at (first : FixedVector B256 4) (attesterSlashings : B256) (count : ℕ)
    (last : FixedVector B256 3) :
    ((phase0 first attesterSlashings count last).fieldRoots c)[4]?
      = some (mixInLength c attesterSlashings count) := by
  rw [fieldRoots, List.getElem?_append_right first.length_eq.le, first.length_eq]
  rfl

/-- A body that is shallower by a level has the length of a list there, a deeper one padding. -/
theorem climb_branch (body : EarlyBody) :
    climb c.hash32Concat 9 body.atPayload (body.branch c)
      = containerRoot c (body.fieldRoots c) := by
  cases body with
  | phase0 first attesterSlashings count last =>
    obtain ⟨hroot, -⟩ :=
      ExecutionPath.climb_container c (attesterSlashings_at c first attesterSlashings count last)
    rw [treeDepth_of_length (length_fieldRoots_phase0 c first attesterSlashings count last)
      (by decide : treeDepth 8 = 3)] at hroot
    exact hroot
  | altair fields =>
    have hdepth : treeDepth 9 = 4 := by decide
    have hpadding : chunkAt fields.toList 9 = FixedBytes.zero 32 :=
      leafAt_of_ge fields.length_eq.le
    have hroot := Merkle.climb_branch (H := c.hash32Concat) 4 (chunkAt fields.toList) 9
      (by norm_num)
    rw [hpadding] at hroot
    rw [fieldRoots, containerRoot, merkleize, fields.length_eq, hdepth, ← hroot]
    rfl

end EarlyBody

namespace EarlyBlock

variable (c : Crypto) (b : EarlyBlock)

def fieldRoots : List B256 := b.head.toList ++ [containerRoot c (b.body.fieldRoots c)]

def root : B256 := containerRoot c (b.fieldRoots c)

/-- The path of what stands in the place of a payload. -/
def branch : List B256 :=
  b.body.branch c ++ Merkle.branch c.hash32Concat 3 (chunkAt (b.fieldRoots c)) 4

theorem length_fieldRoots : (b.fieldRoots c).length = 5 := by
  rw [fieldRoots, List.length_append, b.head.length_eq]
  rfl

theorem body_at : (b.fieldRoots c)[4]? = some (containerRoot c (b.body.fieldRoots c)) := by
  rw [fieldRoots, List.getElem?_append_right b.head.length_eq.le, b.head.length_eq]
  rfl

theorem climb_branch : climb c.hash32Concat 201 b.body.atPayload (b.branch c) = b.root c := by
  obtain ⟨hblock, -⟩ := ExecutionPath.climb_container c (b.body_at c)
  rw [treeDepth_of_length (b.length_fieldRoots c) (by decide : treeDepth 5 = 3)] at hblock
  have hindex : 201 = 2 ^ 4 * 12 + 9 := by norm_num
  -- three steps read three bits of the index
  have hbits : climb c.hash32Concat 12 (containerRoot c (b.body.fieldRoots c))
      (Merkle.branch c.hash32Concat 3 (chunkAt (b.fieldRoots c)) 4)
        = climb c.hash32Concat 4 (containerRoot c (b.body.fieldRoots c))
          (Merkle.branch c.hash32Concat 3 (chunkAt (b.fieldRoots c)) 4) := by
    refine climb_congr _ ?_
    rw [branch_length]
    norm_num
  rw [hindex, branch, climb_append_index (b.body.length_branch c) (by norm_num),
    b.body.climb_branch c, hbits, hblock, root]

theorem landing_length {e : Era} :
    e.executionDepth = (e.executionDepth - 7) + (b.branch c).length := by
  rw [branch, List.length_append, b.body.length_branch c, branch_length]
  rcases e.executionPlace with ⟨he, -⟩ | ⟨he, -⟩
  · rw [he]
  · rw [he]

theorem landing_index {e : Era} : e.executionIndex / 2 ^ (e.executionDepth - 7) = 201 := by
  rcases e.executionPlace with ⟨he, hindex⟩ | ⟨he, hindex⟩
  · rw [he, hindex]
    norm_num
  · rw [he, hindex]
    norm_num

/-- **Where the path comes out**: above the steps of the payload. -/
def landing (e : Era) : Landing c e (b.root c) where
  skip := e.executionDepth - 7
  node := b.body.atPayload
  rest := b.branch c
  length_eq := b.landing_length c
  climb_eq := by rw [landing_index, b.climb_branch c]

theorem landing_spec (e : Era) :
    0 < (b.landing c e).skip ∧ NumberChunk (b.landing c e).node := by
  refine ⟨?_, b.body.numberChunk_atPayload⟩
  change 0 < e.executionDepth - 7
  rcases e.executionPlace with ⟨he, -⟩ | ⟨he, -⟩
  · omega
  · omega

end EarlyBlock

end EthHistorian
