/-
# RLP items, one after the other

An item says itself where it ends, so a sequence of items is taken apart in one way
(`items_unique`), and no item begins another one (`IsItem.append_eq_nil`).

A reader of a value need not be as strict as the codecs of `Rlp.lean` are.  `ReadsItem` is what is
left: it takes exactly one item, or it fails.
-/
import EthHistorian.Lib.Rlp

namespace Rlp

open ByteString

/-! ## 1. Sequences of items -/

/-- One item, to the end. -/
def IsItem (x : List UInt8) : Prop := itemLength x = some x.length

/-- A header does not look past the payload it declares. -/
theorem Header.decode_append {bs rest : List UInt8} {h : Header}
    (hd : Header.decode bs = .ok (h, rest)) (t : List UInt8) :
    Header.decode (bs ++ t) = .ok (h, rest ++ t) := by
  rcases Header.decode_eq_ok.mp hd with ⟨⟨rfl, b, hb, hlt⟩, rfl⟩ | ⟨himp, ⟨hfit, hcap⟩, rfl⟩
  · have htake : (bs ++ t).take 1 = [b] := by
      rw [List.take_append_of_le_length, hb]
      have hlen := congrArg List.length hb
      rw [List.length_take, List.length_singleton] at hlen
      omega
    exact Header.decode_eq_ok.mpr (Or.inl ⟨⟨rfl, b, htake, hlt⟩, rfl⟩)
  · rw [List.append_assoc]
    refine Header.decode_encode ?_ ⟨by rw [List.length_append]; omega, hcap⟩
    rintro ⟨rfl, hsingle⟩
    rw [List.take_append_of_le_length hfit] at hsingle
    exact himp ⟨rfl, hsingle⟩

theorem length_rest_le {bs rest : List UInt8} {h : Header}
    (hd : Header.decode bs = .ok (h, rest)) : rest.length ≤ bs.length := by
  rcases Header.decode_eq_ok.mp hd with ⟨-, rfl⟩ | ⟨-, -, rfl⟩
  · exact le_rfl
  · rw [List.length_append]
    omega

/-- **An item says itself where it ends**, whatever follows. -/
theorem itemLength_append {bs : List UInt8} {n : ℕ} (h : itemLength bs = some n)
    (t : List UInt8) : itemLength (bs ++ t) = some n := by
  unfold itemLength at h ⊢
  split at h
  · rename_i hd rest hdec
    have hle := length_rest_le hdec
    rw [Header.decode_append hdec t]
    rw [Option.some.injEq] at h ⊢
    rw [List.length_append, List.length_append]
    omega
  · cases h

theorem IsItem.ne_nil {x : List UInt8} (h : IsItem x) : x ≠ [] := by
  rintro rfl
  cases h

/-- **A sequence of items is taken apart in one way.** -/
theorem items_unique {xs ys : List (List UInt8)} (hxs : ∀ x ∈ xs, IsItem x)
    (hys : ∀ y ∈ ys, IsItem y) (h : xs.flatten = ys.flatten) : xs = ys := by
  induction xs generalizing ys with
  | nil =>
    cases ys with
    | nil => rfl
    | cons y ys =>
      have hnil := (List.append_eq_nil_iff.mp h.symm).1
      exact absurd hnil (hys y List.mem_cons_self).ne_nil
  | cons x xs ih =>
    cases ys with
    | nil =>
      have hnil := (List.append_eq_nil_iff.mp h).1
      exact absurd hnil (hxs x List.mem_cons_self).ne_nil
    | cons y ys =>
      rw [List.flatten_cons, List.flatten_cons] at h
      -- both first items end where the header at the front says
      have hx := itemLength_append (hxs x List.mem_cons_self) xs.flatten
      have hy := itemLength_append (hys y List.mem_cons_self) ys.flatten
      rw [h, hy, Option.some.injEq] at hx
      obtain ⟨rfl, htail⟩ := List.append_inj h hx.symm
      have hrest : xs = ys := ih (fun z hz => hxs z (List.mem_cons_of_mem _ hz))
        (fun z hz => hys z (List.mem_cons_of_mem _ hz)) htail
      rw [hrest]

theorem isItem_encodeList {payload : List UInt8} (h : payload.length < 256 ^ 8) :
    IsItem (encodeList payload) := by
  have hlen : itemLength (encodeList payload ++ []) = some (encodeList payload).length :=
    itemLength_encodeList h
  rwa [List.append_nil] at hlen

theorem isItem_encodeString {bs : List UInt8} (h : bs.length < 256 ^ 8) :
    IsItem (encodeString bs) := by
  by_cases hs : Single bs
  · obtain ⟨b, rfl, hb⟩ := hs
    have hd : Header.decode [b] = .ok (⟨false, 1⟩, [b]) :=
      Header.decode_eq_ok.mpr (Or.inl ⟨⟨rfl, b, rfl, hb⟩, rfl⟩)
    rw [IsItem, encodeString, if_pos ⟨b, rfl, hb⟩, itemLength, hd]
    rfl
  · have hd : Header.decode ((Header.mk false bs.length).encode ++ bs)
        = .ok (⟨false, bs.length⟩, bs) := by
      refine Header.decode_encode ?_ ⟨le_rfl, h⟩
      rintro ⟨h1, hsing⟩
      have hlen : bs.length = 1 := congrArg Header.payloadLength h1
      rw [List.take_of_length_le hlen.le] at hsing
      exact hs hsing
    rw [IsItem, encodeString, if_neg hs, itemLength, hd]
    simp

/-- The encodings of a codec are items. -/
def Items {α : Type} (c : Codec Error α) : Prop := ∀ a, c.Valid a → IsItem (c.enc a)

theorem items_str : Items str := fun _ h => isItem_encodeString h

theorem items_list {α : Type} (p : Payload Error α) : Items (list p) :=
  fun _ h => isItem_encodeList h.2

theorem Items.refine {α β : Type} {c : Codec Error β} (h : Items c) {f : α → β}
    {g : β → Except Error α} {hfg : ∀ b a, g b = .ok a ↔ b = f a} : Items (c.refine f g hfg) :=
  fun a ha => h (f a) ha

theorem items_uint (k : ℕ) : Items (uint k) := items_str.refine

theorem items_fixed (k : ℕ) : Items (fixed k) := items_str.refine

/-- A body that is one list, with nothing after it. -/
structure IsList (body payload : List UInt8) : Prop where
  length_lt : payload.length < 256 ^ 8
  body_eq : body = encodeList payload

theorem IsList.isItem {body payload : List UInt8} (h : IsList body payload) : IsItem body := by
  rw [h.body_eq]
  exact isItem_encodeList h.length_lt

/-- The header of such a body is that of all the rest. -/
theorem isList_iff {body payload : List UInt8} :
    IsList body payload ↔ Header.decode body = .ok (⟨true, payload.length⟩, payload) := by
  constructor
  · rintro ⟨hlen, rfl⟩
    have hdec := @Header.decode_encodeList payload [] hlen
    rwa [List.append_nil, List.append_nil] at hdec
  · intro hdec
    have hread : decodeList body = .ok (payload, []) := by
      refine Except.bind_eq_ok.mpr ⟨_, hdec, ?_⟩
      simp
    obtain ⟨hlen, hbody⟩ := eq_encodeList hread
    exact ⟨hlen, by rw [hbody, List.append_nil]⟩

theorem IsList.payload_unique {body payload payload' : List UInt8} (h : IsList body payload)
    (h' : IsList body payload') : payload = payload' := by
  have hread : decodeList (encodeList payload ++ []) = .ok (payload, []) :=
    decodeList_encodeList h.length_lt
  rw [← h.body_eq, h'.body_eq, decodeList_encodeList h'.length_lt] at hread
  exact (Prod.mk.inj (Except.ok.inj hread)).1.symm

/-- **No item is part of another one's bytes**: it neither starts nor continues one. -/
theorem IsItem.append_eq_nil {x t : List UInt8} (h : IsItem x) (h' : IsItem (x ++ t)) : t = [] := by
  have hlen := itemLength_append h t
  rw [h'] at hlen
  rw [Option.some.injEq, List.length_append] at hlen
  exact List.length_eq_zero_iff.mp (by omega)

/-- Two items at the front of one byte string are one. -/
theorem IsItem.append_inj {x y r s : List UInt8} (hx : IsItem x) (hy : IsItem y)
    (h : x ++ r = y ++ s) : x = y ∧ r = s := by
  have hxr := itemLength_append hx r
  have hys := itemLength_append hy s
  rw [h, hys, Option.some.injEq] at hxr
  exact List.append_inj h hxr.symm

/-- The header of a longer payload is not shorter. -/
theorem Header.length_encode_le {list list' : Bool} {m n : ℕ} (h : m ≤ n) :
    (Header.mk list m).encode.length ≤ (Header.mk list' n).encode.length := by
  have hlen : (toBE m).length ≤ (toBE n).length :=
    toBE_length_le.mpr (h.trans_lt (toBE_length_le.mp le_rfl))
  unfold Header.encode
  split
  · split <;> simp
  · rw [if_neg (by dsimp only at *; omega)]
    simpa using hlen

/-- A list's bytes determine its payload, whatever its length. -/
theorem encodeList_injective : Function.Injective encodeList := by
  intro p q h
  have hlen : p.length = q.length := by
    have htotal := congrArg List.length h
    simp only [encodeList, List.length_append] at htotal
    rcases Nat.le_total p.length q.length with hle | hle
    · have hhead := @Header.length_encode_le true true _ _ hle
      omega
    · have hhead := @Header.length_encode_le true true _ _ hle
      omega
  exact (List.append_inj' h hlen).2

/-! ## 2. Readers of one item

A reader may accept more than one spelling of a value and still know where its item ends. -/

section

variable {ε α : Type}

/-- A reader that takes exactly one item, or fails. -/
def ReadsItem (read : List UInt8 → Except ε (α × List UInt8)) : Prop :=
  ∀ bs a rest, read bs = .ok (a, rest) ↔
    ∃ x, IsItem x ∧ bs = x ++ rest ∧ read x = .ok (a, [])

variable {read : List UInt8 → Except ε (α × List UInt8)}

/-- What it takes whole is one item. -/
theorem ReadsItem.isItem (h : ReadsItem read) {x : List UInt8} {a : α}
    (hx : read x = .ok (a, [])) : IsItem x := by
  obtain ⟨y, hy, rfl, -⟩ := (h _ _ _).mp hx
  rwa [List.append_nil]

/-- What it takes whole it takes in front of anything. -/
theorem ReadsItem.append (h : ReadsItem read) {x : List UInt8} {a : α} (hx : read x = .ok (a, []))
    (rest : List UInt8) : read (x ++ rest) = .ok (a, rest) :=
  (h _ _ _).mpr ⟨x, h.isItem hx, rfl, hx⟩

theorem readsItem_of_reads {c : Codec Error α} (hread : c.Reads read) (hitems : Items c) :
    ReadsItem read := by
  intro bs a rest
  constructor
  · intro h
    obtain ⟨hv, rfl⟩ := (hread _ _ _).mp h
    exact ⟨c.enc a, hitems a hv, rfl, (hread _ _ _).mpr ⟨hv, (List.append_nil _).symm⟩⟩
  · rintro ⟨x, -, rfl, hx⟩
    obtain ⟨hv, rfl⟩ := (hread _ _ _).mp hx
    exact (hread _ _ _).mpr ⟨hv, by rw [List.append_nil]⟩

/-- Read a header, and then the payload it declares; the payload's reader is told what the header
says it is. -/
def readItem (text : Error → ε) (payload : Bool → List UInt8 → Except ε α) (bs : List UInt8) :
    Except ε (α × List UInt8) := do
  let (h, buf) ← (Header.decode bs).mapError text
  let a ← payload h.list (buf.take h.payloadLength)
  return (a, buf.drop h.payloadLength)

/-- A header and its payload, to the end of the item. -/
theorem Header.decode_item {bs buf : List UInt8} {h : Header}
    (hd : Header.decode bs = .ok (h, buf)) :
    ∃ x, IsItem x ∧ bs = x ++ buf.drop h.payloadLength ∧
      Header.decode x = .ok (h, buf.take h.payloadLength) := by
  rcases Header.decode_eq_ok.mp hd with ⟨⟨rfl, hsingle⟩, rfl⟩ | ⟨himp, ⟨hfit, hcap⟩, rfl⟩
  · obtain ⟨b, hb, hlt⟩ := hsingle
    have hx : Header.decode (bs.take 1) = .ok (⟨false, 1⟩, bs.take 1) := by
      rw [hb]
      exact Header.decode_eq_ok.mpr (Or.inl ⟨⟨rfl, b, rfl, hlt⟩, rfl⟩)
    refine ⟨bs.take 1, ?_, (List.take_append_drop 1 bs).symm, hx⟩
    rw [IsItem, itemLength, hx, hb]
    rfl
  · have hlen : (buf.take h.payloadLength).length = h.payloadLength := by
      rw [List.length_take]
      omega
    have hx : Header.decode (h.encode ++ buf.take h.payloadLength)
        = .ok (h, buf.take h.payloadLength) := by
      refine Header.decode_encode ?_ ⟨hlen.ge, hcap⟩
      rintro ⟨hh, hsingle⟩
      rw [hh, List.take_take, Nat.min_self] at hsingle
      exact himp ⟨hh, hsingle⟩
    refine ⟨_, ?_, ?_, hx⟩
    · rw [IsItem, itemLength, hx]
      simp only [List.length_append, Option.some.injEq]
      omega
    · rw [List.append_assoc, List.take_append_drop]

theorem readItem_eq_ok {text : Error → ε} {payload : Bool → List UInt8 → Except ε α}
    {bs rest : List UInt8} {a : α} :
    readItem text payload bs = .ok (a, rest) ↔
      ∃ h buf, Header.decode bs = .ok (h, buf) ∧
        payload h.list (buf.take h.payloadLength) = .ok a ∧ rest = buf.drop h.payloadLength := by
  rw [readItem, Except.bind_eq_ok]
  constructor
  · rintro ⟨⟨h, buf⟩, hd, hread⟩
    obtain ⟨a', ha, hread⟩ := Except.bind_eq_ok.mp hread
    obtain ⟨rfl, rfl⟩ := Prod.mk.inj (Except.ok.inj hread)
    exact ⟨h, buf, Except.mapError_eq_ok.mp hd, ha, rfl⟩
  · rintro ⟨h, buf, hd, ha, rfl⟩
    exact ⟨(h, buf), Except.mapError_eq_ok.mpr hd, Except.bind_eq_ok.mpr ⟨a, ha, rfl⟩⟩

theorem readsItem_readItem (text : Error → ε) (payload : Bool → List UInt8 → Except ε α) :
    ReadsItem (readItem text payload) := by
  intro bs a rest
  constructor
  · intro hread
    obtain ⟨h, buf, hd, ha, rfl⟩ := readItem_eq_ok.mp hread
    obtain ⟨x, hx, hbs, hdx⟩ := Header.decode_item hd
    refine ⟨x, hx, hbs, readItem_eq_ok.mpr ⟨h, _, hdx, ?_, ?_⟩⟩
    · rwa [List.take_take, Nat.min_self]
    · rw [List.drop_take_self]
  · rintro ⟨x, hx, rfl, hread⟩
    obtain ⟨h, buf, hd, ha, hnil⟩ := readItem_eq_ok.mp hread
    have hle : buf.length ≤ h.payloadLength := List.drop_eq_nil_iff.mp hnil.symm
    have hfit : h.payloadLength ≤ buf.length := by
      rw [IsItem, itemLength, hd] at hx
      have hrest := length_rest_le hd
      simp only [Option.some.injEq] at hx
      omega
    refine readItem_eq_ok.mpr ⟨h, buf ++ rest, Header.decode_append hd rest, ?_, ?_⟩
    · rwa [List.take_append_of_le_length hfit]
    · rw [List.drop_append_of_le_length hfit, List.drop_of_length_le hle, List.nil_append]

end

end Rlp
