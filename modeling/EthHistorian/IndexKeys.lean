/-
# The keys of a block's tries

The transactions and the receipts of a block are kept in tries under the RLP of their positions.
Such keys have different lengths, so it is not enough that they differ: a key that began another
one would end at an inner node of the trie, on the way to the other's slot.

* `indexPath_prefixFree`: it does not happen, for any two positions of 64 bits, and so what the
  inclusion checks accept for a position was checked at that position's slot and at no node on
  the way to another one;
* `descend_itemTrie`: in the trie of a block's items every item is a leaf of its own;
* `verifyMptInclusion_item`: what is accepted against the root of that trie is the item.
-/
import EthHistorian.Lib.Trie
import EthHistorian.Model.Inclusion

namespace EthHistorian

open ByteString

/-! ## 1. Keys and paths -/

/-- **The three spellings of a key**: none for zero, one byte, or a length and the number. -/
theorem rlpEncodeIndex_eq (index : UInt64) :
    rlpEncodeIndex index
      = if index.toNat = 0 then [0x80]
        else if index.toNat < 0x80 then [UInt8.ofNat index.toNat]
        else UInt8.ofNat (0x80 + (toBE index.toNat).length) :: toBE index.toNat := by
  rw [rlpEncodeIndex, rlpU64_enc]
  split
  · rename_i hzero
    rw [hzero]
    rfl
  split
  · rename_i hpos hsmall
    have hdigits : toBE index.toNat = [UInt8.ofNat index.toNat] := by
      rw [toBE, Nat.digits_of_lt 256 _ hpos (by omega)]
      rfl
    have hbyte : (UInt8.ofNat index.toNat).toNat < 0x80 := by
      rw [UInt8.toNat_ofNat']
      omega
    rw [hdigits, Rlp.encodeString, if_pos ⟨_, rfl, hbyte⟩]
  · rename_i hpos hlarge
    have hlen : (toBE index.toNat).length ≤ 8 := toBE_length_le.mpr (UInt64.toNat_lt index)
    have hsingle : ¬ Rlp.Single (toBE index.toNat) := by
      rintro ⟨b, hb, hlt⟩
      have hvalue : index.toNat = b.toNat := by
        rw [← ofBE_toBE index.toNat, hb, ofBE_cons]
        simp [ofBE, ofLE]
      omega
    rw [Rlp.encodeString, if_neg hsingle, Rlp.Header.encode_short (by dsimp only; omega),
      Rlp.Header.base_string, List.singleton_append]

/-- A key is short enough for a path. -/
theorem length_rlpEncodeIndex_le (index : UInt64) : (rlpEncodeIndex index).length ≤ 32 := by
  have hlen : (toBE index.toNat).length ≤ 8 := toBE_length_le.mpr (UInt64.toNat_lt index)
  have hle := Rlp.length_encodeString_le (toBE index.toNat) (by omega)
  rw [rlpEncodeIndex, rlpU64_enc]
  omega

/-- The values that the source tests. -/
example : [0, 1, 127, 128].map rlpEncodeIndex = [[0x80], [0x01], [0x7f], [0x81, 0x80]] := by
  simp [rlpEncodeIndex_eq, toBE]

/-- Where a position's slot is. -/
def indexPath (index : UInt64) : List Nibble := nibbles (rlpEncodeIndex index)

theorem unpack_rlpEncodeIndex (T : AlloyTrie) (index : UInt64) :
    T.unpack (rlpEncodeIndex index) = .ok (indexPath index) :=
  T.unpack_eq _ (length_rlpEncodeIndex_le index)

/-- The path of a position begins no other position's. -/
theorem not_prefix_indexPath {i j : UInt64} (hne : i ≠ j) : ¬ indexPath i <+: indexPath j := by
  intro hpath
  have hkey : rlpEncodeIndex i <+: rlpEncodeIndex j := prefix_of_nibbles hpath
  exact rlpU64.not_prefix_enc (rlpU64_valid i) (rlpU64_valid j) hne hkey

theorem indexPath_injective {i j : UInt64} (h : indexPath i = indexPath j) : i = j := by
  by_contra hne
  exact not_prefix_indexPath hne (h ▸ List.prefix_rfl)

/-! ## 2. What is checked, and where -/

/-- An inclusion check is the trie's own, at the position's path. -/
theorem verifyMptInclusion_eq_ok {T : AlloyTrie} {root : B256} {index : UInt64}
    {value : List UInt8} {proofNodes : List (List UInt8)} :
    verifyMptInclusion T root (rlpEncodeIndex index) value proofNodes = .ok () ↔
      proofNodes ≠ [] ∧ T.verifyProof root (indexPath index) (some value) proofNodes = .ok () := by
  unfold verifyMptInclusion
  by_cases hempty : proofNodes = []
  · simp [hempty]
  · rw [if_neg hempty, unpack_rlpEncodeIndex, Outcome.ok_bind, Outcome.mapErr_eq_ok,
      Outcome.ofExcept_eq_ok]
    exact (and_iff_right hempty).symm

/-- **No two positions collide or nest.**  What is accepted for one of them, in either trie, was
checked at its own path, which is none of the places on the way to the other's slot, the slot
itself included. -/
theorem indexPath_prefixFree (T : AlloyTrie) (i j : UInt64) (hne : i ≠ j) :
    ∃ p q, T.unpack (rlpEncodeIndex i) = .ok p ∧ T.unpack (rlpEncodeIndex j) = .ok q ∧
      p ≠ q ∧ ¬ p <+: q ∧
      ∀ (root : B256) (raw : List UInt8) (proofNodes : List (List UInt8)),
        (verifyTransactionInclusion T root i raw proofNodes = .ok () ∨
          verifyReceiptInclusion T root i raw proofNodes = .ok ()) →
        T.verifyProof root p (some raw) proofNodes = .ok () ∧ ∀ n, q.take n ≠ p := by
  refine ⟨indexPath i, indexPath j, unpack_rlpEncodeIndex T i, unpack_rlpEncodeIndex T j,
    fun h => hne (indexPath_injective h), not_prefix_indexPath hne, ?_⟩
  intro root raw proofNodes haccepted
  have hcheck : verifyMptInclusion T root (rlpEncodeIndex i) raw proofNodes = .ok () :=
    haccepted.elim id id
  refine ⟨(verifyMptInclusion_eq_ok.mp hcheck).2, ?_⟩
  intro n hn
  exact not_prefix_indexPath hne (hn ▸ List.take_prefix n (indexPath j))

/-- A crate for one trie, whose proofs open what the trie holds. -/
def AlloyTrie.ofTrie (t : Trie Nibble (List UInt8)) : AlloyTrie where
  unpack key :=
    if key.length ≤ 32 then .ok (nibbles key)
    else .panic "assertion failed: data.as_ref().len() <= U256::BYTES"
  unpack_eq _ hkey := if_pos hkey
  verifyProof _ path value _ :=
    if t.lookup path = value then .ok () else .error "value mismatch"

theorem AlloyTrie.ofTrie_verifyProof {t : Trie Nibble (List UInt8)} {root : B256}
    {path : List Nibble} {value : Option (List UInt8)} {proofNodes : List (List UInt8)} :
    (AlloyTrie.ofTrie t).verifyProof root path value proofNodes = .ok () ↔
      t.lookup path = value := by
  simp [AlloyTrie.ofTrie]

/-- The trie of one item, in the first position. -/
def firstItem : Trie Nibble (List UInt8) := .ofEntries [(indexPath 0, [0x01])]

/-- The empty string's header, and a longer string's: the item is accepted in the first position,
at a path that is on no way to the other. -/
theorem indexPath_prefixFree_first :
    ∃ p q, (AlloyTrie.ofTrie firstItem).unpack (rlpEncodeIndex 0) = .ok p ∧
      (AlloyTrie.ofTrie firstItem).unpack (rlpEncodeIndex 128) = .ok q ∧ p ≠ q ∧ ¬ p <+: q ∧
      (AlloyTrie.ofTrie firstItem).verifyProof default p (some [0x01]) [[0xc0]] = .ok () ∧
      ∀ n, q.take n ≠ p := by
  obtain ⟨p, q, hp, hq, hne, hpre, haccepted⟩ :=
    indexPath_prefixFree (.ofTrie firstItem) 0 128 (by decide)
  have hfree : Trie.PrefixFree ([(indexPath 0, [(0x01 : UInt8)])].map Prod.fst) :=
    List.pairwise_singleton _ _
  have hlookup : firstItem.lookup (indexPath 0) = some [0x01] :=
    (Trie.lookup_ofEntries hfree).mpr List.mem_cons_self
  have hincluded : verifyReceiptInclusion (.ofTrie firstItem) default 0 [0x01] [[0xc0]] = .ok () :=
    verifyMptInclusion_eq_ok.mpr ⟨by decide, AlloyTrie.ofTrie_verifyProof.mpr hlookup⟩
  exact ⟨p, q, hp, hq, hne, hpre, haccepted default [0x01] [[0xc0]] (Or.inr hincluded)⟩

/-! ## 3. The trie of a block's items -/

/-- The items of a block, each under the key of its position. -/
def itemEntries (items : List (List UInt8)) : List (List Nibble × List UInt8) :=
  items.zipIdx.map fun (item, k) => (indexPath (UInt64.ofNat k), item)

def itemTrie (items : List (List UInt8)) : Trie Nibble (List UInt8) :=
  .ofEntries (itemEntries items)

theorem map_fst_itemEntries (items : List (List UInt8)) :
    (itemEntries items).map Prod.fst
      = (List.range' 0 items.length).map fun k => indexPath (UInt64.ofNat k) := by
  rw [itemEntries, List.map_map, ← List.zipIdx_map_snd, List.map_map]
  rfl

/-- Positions of 64 bits have prefix-free keys. -/
theorem prefixFree_itemEntries {items : List (List UInt8)} (hlen : items.length ≤ 2 ^ 64) :
    Trie.PrefixFree ((itemEntries items).map Prod.fst) := by
  rw [map_fst_itemEntries, Trie.PrefixFree, List.pairwise_map]
  refine (List.pairwise_lt_range' 1).imp_of_mem ?_
  intro k l hk hl hlt
  rw [List.mem_range'_1] at hk hl
  have hne : UInt64.ofNat k ≠ UInt64.ofNat l := by
    intro h
    rw [UInt64.ofNat_eq_iff_mod_eq_toNat, UInt64.toNat_ofNat'] at h
    omega
  exact ⟨not_prefix_indexPath hne, not_prefix_indexPath hne.symm⟩

theorem mem_itemEntries {items : List (List UInt8)} (hlen : items.length ≤ 2 ^ 64) {i : UInt64}
    {item : List UInt8} :
    (indexPath i, item) ∈ itemEntries items ↔ items[i.toNat]? = some item := by
  simp only [itemEntries, List.mem_map, Prod.exists, Prod.mk.injEq, List.mem_zipIdx_iff_getElem?]
  constructor
  · rintro ⟨item', k, hk, hpath, rfl⟩
    have hlt : k < 2 ^ 64 := ((List.getElem?_eq_some_iff.mp hk).1).trans_le hlen
    rw [← indexPath_injective hpath, UInt64.toNat_ofNat', Nat.mod_eq_of_lt hlt]
    exact hk
  · intro hitem
    exact ⟨item, i.toNat, hitem, by rw [UInt64.ofNat_toNat], rfl⟩

/-- **Every item is a leaf of its own.** -/
theorem descend_itemTrie {items : List (List UInt8)} (hlen : items.length ≤ 2 ^ 64) {i : UInt64}
    {item : List UInt8} (hitem : items[i.toNat]? = some item) :
    (itemTrie items).descend (indexPath i) = .leaf item :=
  Trie.descend_ofEntries (prefixFree_itemEntries hlen) ((mem_itemEntries hlen).mpr hitem)

/-- A position holds its item, and nothing where there is none. -/
theorem lookup_itemTrie {items : List (List UInt8)} (hlen : items.length ≤ 2 ^ 64) (i : UInt64) :
    (itemTrie items).lookup (indexPath i) = items[i.toNat]? := by
  refine Option.ext fun item => ?_
  rw [← mem_itemEntries hlen]
  exact Trie.lookup_ofEntries (prefixFree_itemEntries hlen)

/-- The root commits to the trie: no proof opens it at a path to what is not held there. -/
def AlloyTrie.Commits (T : AlloyTrie) (root : B256) (t : Trie Nibble (List UInt8)) : Prop :=
  ∀ (path : List Nibble) (value : List UInt8) (proofNodes : List (List UInt8)),
    T.verifyProof root path (some value) proofNodes = .ok () → t.lookup path = some value

theorem AlloyTrie.ofTrie_commits (t : Trie Nibble (List UInt8)) (root : B256) :
    (AlloyTrie.ofTrie t).Commits root t :=
  fun _ _ _ h => AlloyTrie.ofTrie_verifyProof.mp h

variable {T : AlloyTrie} {root : B256} {items : List (List UInt8)} {i : UInt64}
  {raw : List UInt8} {proofNodes : List (List UInt8)}

/-- **What is accepted is the item at the position.** -/
theorem verifyMptInclusion_item (hroot : T.Commits root (itemTrie items))
    (hlen : items.length ≤ 2 ^ 64)
    (h : verifyMptInclusion T root (rlpEncodeIndex i) raw proofNodes = .ok ()) :
    items[i.toNat]? = some raw := by
  have hproof := (verifyMptInclusion_eq_ok.mp h).2
  rw [← lookup_itemTrie hlen]
  exact hroot _ _ _ hproof

namespace VerifiedBlock

variable {b : VerifiedBlock}

/-- A transaction that a verified block accepts is its own, at that position. -/
theorem verifyTransactionInclusion_item
    (hroot : T.Commits b.header.transactionsRoot (itemTrie items))
    (hlen : items.length ≤ 2 ^ 64)
    (h : b.verifyTransactionInclusion T i raw proofNodes = .ok ()) :
    items[i.toNat]? = some raw :=
  verifyMptInclusion_item hroot hlen h

/-- A receipt that it returns is the decoding of its own, at that position. -/
theorem verifyAndDecodeReceipt_item {D : ReceiptDecoders} {r : DecodedReceipt}
    (hroot : T.Commits b.header.receiptsRoot (itemTrie items)) (hlen : items.length ≤ 2 ^ 64)
    (h : b.verifyAndDecodeReceipt T D i raw proofNodes = .ok r) :
    items[i.toNat]? = some raw ∧ decodeReceipt D i raw = .ok r := by
  obtain ⟨⟨⟩, hincluded, hdecoded⟩ := Outcome.bind_eq_ok.mp h
  exact ⟨verifyMptInclusion_item hroot hlen hincluded, Outcome.ofExcept_eq_ok.mp hdecoded⟩

end VerifiedBlock

end EthHistorian
