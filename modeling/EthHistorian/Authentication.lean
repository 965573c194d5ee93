/-
# What the block hash authenticates

A proof commits to the hash of a header's RLP list; the caller of `verify` receives the header
as a value.  The list has the fields that are present and no trace of which they are, so two
headers that hold the same items in DIFFERENT fields have one encoding, one hash, and one set of
proofs: a London header with its base fee moved into `blob_gas_used` is accepted wherever the
London header is (`verify_moveBaseFee`).  Nothing in `verify` or the validator looks at the
shape.

`verify_authenticates_iff` says that this is the only way to fail: two accepted headers of one
hash are equal in every field, or exhibit a collision of Keccak-256, unless they hold the same
items in different fields.  Headers that came from bytes are safe: a decoder fills the optional
fields in order (`not_sameItemsElsewhere_of_prefixShape`).
-/
import EthHistorian.Model.Api

namespace EthHistorian

/-! ## 1. The same items in other fields -/

namespace Header

/-- Two headers with the same items, in different fields. -/
def SameItemsElsewhere (h h' : Header) : Prop := h.items = h'.items ∧ h.presence ≠ h'.presence

/-- Flags that are set up to some place and no further are determined by how many are set. -/
theorem eq_of_pairwise_of_count {l l' : List Bool}
    (hl : l.Pairwise fun a b => b = true → a = true)
    (hl' : l'.Pairwise fun a b => b = true → a = true)
    (hlen : l.length = l'.length) (hcount : l.count true = l'.count true) : l = l' := by
  induction l generalizing l' with
  | nil => exact (List.length_eq_zero_iff.mp hlen.symm).symm
  | cons a l ih =>
    obtain ⟨b, l', rfl⟩ := List.exists_cons_of_length_eq_add_one hlen.symm
    obtain ⟨ha, ht⟩ := List.pairwise_cons.mp hl
    obtain ⟨hb, ht'⟩ := List.pairwise_cons.mp hl'
    have htail : l.length = l'.length := by simpa using hlen
    -- after an unset flag none is set
    have hzero : ∀ {m : List Bool}, (∀ y ∈ m, y = true → false = true) → m.count true = 0 :=
      fun hm => List.count_eq_zero.mpr fun hmem => Bool.false_ne_true (hm true hmem rfl)
    cases a with
    | true =>
      cases b with
      | true => rw [ih ht ht' htail (by simpa using hcount)]
      | false => simp [hzero hb] at hcount
    | false =>
      cases b with
      | true => simp [hzero ha] at hcount
      | false => rw [ih ht ht' htail (by simpa using hcount)]

theorem length_reduceOption_optionalItems (h : Header) :
    h.optionalItems.reduceOption.length = h.presence.count true := by
  rw [← map_isSome_optionalItems, List.reduceOption_length_eq, List.count_eq_countP,
    List.countP_map, List.countP_eq_length_filter]
  congr 1
  refine List.filter_congr fun x _ => ?_
  cases x <;> rfl

/-- Headers as decoders return them cannot hold the same items in different fields. -/
theorem not_sameItemsElsewhere_of_prefixShape {h h' : Header} (hp : h.PrefixShape)
    (hp' : h'.PrefixShape) : ¬ h.SameItemsElsewhere h' := by
  rintro ⟨hitems, hne⟩
  obtain ⟨-, hopt⟩ := List.append_inj hitems rfl
  refine hne (eq_of_pairwise_of_count hp hp' rfl ?_)
  rw [← length_reduceOption_optionalItems, ← length_reduceOption_optionalItems, hopt]

/-- The encoding is the items'. -/
theorem encode_eq_iff {h h' : Header} : h.encode = h'.encode ↔ h.items = h'.items := by
  refine ⟨items_eq_of_encode_eq, fun hitems => ?_⟩
  rw [encode, encode, hitems]

/-- The base fee in the place of the blob gas. -/
def moveBaseFee (h : Header) : Header :=
  { h with baseFeePerGas := none, blobGasUsed := h.baseFeePerGas }

/-- Before Shanghai there is nothing in between. -/
theorem items_moveBaseFee {h : Header} (hw : h.withdrawalsRoot = none)
    (hb : h.blobGasUsed = none) : h.moveBaseFee.items = h.items := by
  have hopt : h.moveBaseFee.optionalItems.reduceOption = h.optionalItems.reduceOption := by
    simp only [optionalItems, moveBaseFee, hw, hb, Option.map_none]
    cases h.baseFeePerGas <;> rfl
  rw [items, hopt]
  rfl

end Header

/-! ## 2. What acceptance depends on -/

/-- The validator sees a header's number, timestamp and hash. -/
theorem HeaderValidator.validateHeaderWithProof_congr (c : Crypto) (w : PointerWidth)
    (v : HeaderValidator) {h h' : Header} (hn : h.number = h'.number)
    (ht : h.timestamp = h'.timestamp) (hh : h.hashSlow c = h'.hashSlow c)
    (proof : BlockHeaderProof) :
    v.validateHeaderWithProof c w ⟨h, proof⟩ = v.validateHeaderWithProof c w ⟨h', proof⟩ := by
  cases proof <;>
    simp only [validateHeaderWithProof, verifyPreMergeHeader,
      PreMergeAccumulator.getEpochIndexOfHeader, hn, ht, hh]

namespace Verifier

/-- **The moved header passes wherever the header does.** -/
theorem verify_moveBaseFee (c : Crypto) (w : PointerWidth) (v : Verifier) {h : Header}
    {proof : BlockHeaderProof} {b : VerifiedBlock} (hw : h.withdrawalsRoot = none)
    (hb : h.blobGasUsed = none) (hok : v.verify c w ⟨h, proof⟩ = .ok b) :
    v.verify c w ⟨h.moveBaseFee, proof⟩ = .ok ⟨h.moveBaseFee, b.authPath⟩ := by
  obtain ⟨hvalid, rfl⟩ := (v.verify_eq_ok c w).mp hok
  have hnumber : h.moveBaseFee.number = h.number := rfl
  have htimestamp : h.moveBaseFee.timestamp = h.timestamp := rfl
  have hhash : h.moveBaseFee.hashSlow c = h.hashSlow c := by
    rw [Header.hashSlow, Header.encode_eq_iff.mpr (Header.items_moveBaseFee hw hb)]
    rfl
  have hmoved :=
    (v.validator.validateHeaderWithProof_congr c w hnumber htimestamp hhash proof).trans hvalid
  exact (v.verify_eq_ok c w).mpr ⟨hmoved, rfl⟩

/-! ## 3. When the returned header is authenticated -/

/-- **Two accepted headers of one hash** are equal in every field, or exhibit a collision,
exactly when they do not hold the same items in different fields. -/
theorem verify_authenticates_iff (c : Crypto) (w : PointerWidth) (v : Verifier)
    (a b : HeaderWithProof) (x y : VerifiedBlock) (hx : v.verify c w a = .ok x)
    (hy : v.verify c w b = .ok y) (hhash : a.header.hashSlow c = b.header.hashSlow c) :
    (x.header = y.header ∨
        x.header.encode ≠ y.header.encode ∧
          c.keccak256 x.header.encode = c.keccak256 y.header.encode) ↔
      ¬ a.header.SameItemsElsewhere b.header := by
  obtain ⟨-, rfl⟩ := (v.verify_eq_ok c w).mp hx
  obtain ⟨-, rfl⟩ := (v.verify_eq_ok c w).mp hy
  constructor
  · rintro (heq | ⟨hne, -⟩) ⟨hitems, hpresence⟩
    · exact hpresence (congrArg Header.presence heq)
    · exact hne (Header.encode_eq_iff.mpr hitems)
  · intro hnot
    by_cases henc : a.header.encode = b.header.encode
    · refine Or.inl (Header.eq_of_encode_eq henc ?_)
      by_contra hne
      exact hnot ⟨Header.encode_eq_iff.mp henc, hne⟩
    · exact Or.inr ⟨henc, hhash⟩

/-! A London header and its moved form, against an epoch root that its proof climbs to. -/

def londonHeader : Header :=
  { (default : Header) with
    number := 12965000, timestamp := 1628166822, baseFeePerGas := some 1000000000 }

def londonProof : BlockProofHistoricalHashesAccumulator := default

def londonRoot : B256 :=
  Merkle.climb prefixCrypto.hash32Concat (32768 + londonHeader.number.toNat % 8192 * 2)
    (londonHeader.hashSlow prefixCrypto) londonProof.toList

def londonVerifier : Verifier where
  validator :=
    { preMergeAcc := ⟨⟨List.replicate 1897 londonRoot, by
        rw [List.length_replicate]
        norm_num⟩⟩
      historicalRootsAcc := ⟨default⟩
      historicalSummariesProvider := ⟨default⟩ }
  dataSources := []

theorem verify_londonHeader :
    londonVerifier.verify prefixCrypto .w64 ⟨londonHeader, .historicalHashes londonProof⟩
      = .ok ⟨londonHeader, .historicalHashes⟩ := by
  have hlt : londonHeader.number.toNat / 8192 < 1897 := by decide
  have hroot : londonVerifier.validator.preMergeAcc.historicalEpochs.toList[
      londonHeader.number.toNat / 8192]? = some londonRoot := by
    rw [londonVerifier, List.getElem?_replicate, if_pos hlt]
  exact (londonVerifier.verify_eq_ok prefixCrypto .w64).mpr
    ⟨(londonVerifier.validator.verifyPreMergeHeader_eq_ok prefixCrypto .w64).mpr
      ⟨by decide, londonRoot, hroot, rfl⟩, rfl⟩

theorem verify_movedLondonHeader :
    londonVerifier.verify prefixCrypto .w64
        ⟨londonHeader.moveBaseFee, .historicalHashes londonProof⟩
      = .ok ⟨londonHeader.moveBaseFee, .historicalHashes⟩ :=
  londonVerifier.verify_moveBaseFee prefixCrypto .w64 rfl rfl verify_londonHeader

theorem encode_movedLondonHeader : londonHeader.encode = londonHeader.moveBaseFee.encode :=
  (Header.encode_eq_iff.mpr (Header.items_moveBaseFee rfl rfl)).symm

theorem verify_authenticates_iff_london :
    ¬ (londonHeader = londonHeader.moveBaseFee ∨
      londonHeader.encode ≠ londonHeader.moveBaseFee.encode ∧
        prefixCrypto.keccak256 londonHeader.encode
          = prefixCrypto.keccak256 londonHeader.moveBaseFee.encode) := fun h =>
  (verify_authenticates_iff prefixCrypto .w64 londonVerifier _ _ _ _ verify_londonHeader
    verify_movedLondonHeader (congrArg prefixCrypto.keccak256 encode_movedLondonHeader)).mp h
    ⟨Header.encode_eq_iff.mp encode_movedLondonHeader, by decide⟩

theorem verify_not_authenticates :
    ¬ ∀ (c : Crypto) (w : PointerWidth) (v : Verifier) (a b : HeaderWithProof)
      (x y : VerifiedBlock), v.verify c w a = .ok x → v.verify c w b = .ok y →
      a.header.hashSlow c = b.header.hashSlow c →
        x.header = y.header ∨
          x.header.encode ≠ y.header.encode ∧
            c.keccak256 x.header.encode = c.keccak256 y.header.encode := by
  intro hall
  rcases hall prefixCrypto .w64 londonVerifier _ _ _ _ verify_londonHeader
    verify_movedLondonHeader (congrArg prefixCrypto.keccak256 encode_movedLondonHeader) with
    heq | ⟨hne, -⟩
  · exact absurd (congrArg Header.presence heq) (by decide)
  · exact hne encode_movedLondonHeader

end Verifier

end EthHistorian
