/-
# Simple serialize (SSZ)

A container is laid out as a head and a body.  A field of fixed width stands in the head; a
field of variable width stands in the body, and the head holds its offset, four little-endian
bytes.  `encode` writes that layout; `decode` is the strict reader of the published
implementation: it registers the fields from left to right (`register`), checks that offsets
neither decrease nor leave the buffer, that the first one points just past the head, and then
cuts the body at the offsets (`fill`).

`decode_eq_ok` states the reader's answer in one equivalence, from which it follows that the
layout is canonical: there is no slack between, before or after the fields.
-/
import EthHistorian.Lib.Codec
import EthHistorian.Lib.Bytes

namespace Ssz

open ByteString

/-- Why a reader refuses. -/
inductive DecodeError where
  | invalidByteLength (len expected : ℕ)
  | invalidLengthPrefix (len expected : ℕ)
  | offsetIntoFixedPortion (i : ℕ)
  | offsetSkipsVariableBytes (i : ℕ)
  | offsetsAreDecreasing (i : ℕ)
  | offsetOutOfBounds (i : ℕ)
  | bytesInvalid (reason : String)
  deriving DecidableEq, Repr

/-- A field's place in a container. -/
inductive Slot where
  | fixed (len : ℕ)
  | dynamic
  deriving DecidableEq, Repr

/-- The bytes a field takes in the head. -/
def Slot.width : Slot → ℕ
  | fixed n => n
  | dynamic => 4

def fixedWidth (slots : List Slot) : ℕ := (slots.map Slot.width).sum

@[simp] theorem fixedWidth_nil : fixedWidth [] = 0 := rfl
@[simp] theorem fixedWidth_cons (s : Slot) (ss : List Slot) :
    fixedWidth (s :: ss) = s.width + fixedWidth ss := rfl

/-! ## 1. Writing -/

/-- The head, when the next variable field goes to offset `o`. -/
def headBytes : ℕ → List Slot → List (List UInt8) → List UInt8
  | o, .fixed _ :: ss, p :: ps => p ++ headBytes o ss ps
  | o, .dynamic :: ss, p :: ps => toLE 4 o ++ headBytes (o + p.length) ss ps
  | _, _, _ => []

def bodyBytes : List Slot → List (List UInt8) → List UInt8
  | .fixed _ :: ss, _ :: ps => bodyBytes ss ps
  | .dynamic :: ss, p :: ps => p ++ bodyBytes ss ps
  | _, _ => []

def encode (slots : List Slot) (parts : List (List UInt8)) : List UInt8 :=
  headBytes (fixedWidth slots) slots parts ++ bodyBytes slots parts

/-- The parts fit their slots, and every offset fits its four bytes. -/
def Fits : ℕ → List Slot → List (List UInt8) → Prop
  | _, [], [] => True
  | o, .fixed n :: ss, p :: ps => p.length = n ∧ Fits o ss ps
  | o, .dynamic :: ss, p :: ps => o < 256 ^ 4 ∧ Fits (o + p.length) ss ps
  | _, _, _ => False

/-- Induction along parts that fit. -/
theorem Fits.induction {motive : (o : ℕ) → (slots : List Slot) → (parts : List (List UInt8)) →
      Fits o slots parts → Prop}
    (nil : ∀ o, motive o [] [] trivial)
    (fixed : ∀ n o slots p ps (hn : p.length = n) (hfit : Fits o slots ps),
      motive o slots ps hfit → motive o (.fixed n :: slots) (p :: ps) ⟨hn, hfit⟩)
    (dynamic : ∀ o slots p ps (ho : o < 256 ^ 4) (hfit : Fits (o + p.length) slots ps),
      motive (o + p.length) slots ps hfit → motive o (.dynamic :: slots) (p :: ps) ⟨ho, hfit⟩)
    {o : ℕ} {slots : List Slot} {parts : List (List UInt8)} (hfit : Fits o slots parts) :
    motive o slots parts hfit := by
  induction slots generalizing o parts with
  | nil =>
    cases parts with
    | nil => exact nil o
    | cons p ps => exact hfit.elim
  | cons slot slots ih =>
    cases parts with
    | nil => cases slot <;> exact hfit.elim
    | cons p ps =>
      cases slot with
      | fixed n => exact fixed n o slots p ps hfit.1 hfit.2 (ih hfit.2)
      | dynamic => exact dynamic o slots p ps hfit.1 hfit.2 (ih hfit.2)

/-! ## 2. Reading -/

def readOffset (bytes : List UInt8) : Except DecodeError ℕ :=
  if bytes.length < 4 then .error (.invalidLengthPrefix bytes.length 4)
  else .ok (ofLE (bytes.take 4))

/-- An offset may neither leave the buffer nor step back. -/
def sanitizeOffset (offset : ℕ) (previousOffset : Option ℕ) (numBytes : ℕ) :
    Except DecodeError ℕ :=
  if offset > numBytes then .error (.offsetOutOfBounds offset)
  else if offset < previousOffset.getD 0 then .error (.offsetsAreDecreasing offset)
  else .ok offset

/-- What is known of a field once the head has been read. -/
inductive Item where
  | slice (bytes : List UInt8)
  | offset (o : ℕ)
  deriving DecidableEq, Repr

/-- Read the head, from `itemsIndex` on. -/
def register (bytes : List UInt8) : List Slot → ℕ → Option ℕ → Except DecodeError (List Item)
  | [], _, _ => .ok []
  | .fixed n :: slots, itemsIndex, previousOffset =>
    if bytes.length < itemsIndex + n then
      .error (.invalidByteLength bytes.length (itemsIndex + n))
    else do
      let items ← register bytes slots (itemsIndex + n) previousOffset
      return .slice ((bytes.drop itemsIndex).take n) :: items
  | .dynamic :: slots, itemsIndex, previousOffset => do
    let raw ← readOffset (bytes.drop itemsIndex)
    let offset ← sanitizeOffset raw previousOffset bytes.length
    let items ← register bytes slots (itemsIndex + 4) (some offset)
    return .offset offset :: items

def firstOffset : List Item → Option ℕ
  | [] => none
  | .slice _ :: items => firstOffset items
  | .offset o :: _ => some o

/-- Where the variable field before these items ends. -/
def nextOffset (bytes : List UInt8) (items : List Item) : ℕ :=
  (firstOffset items).getD bytes.length

/-- Cut the body at the offsets. -/
def fill (bytes : List UInt8) : List Item → List (List UInt8)
  | [] => []
  | .slice s :: items => s :: fill bytes items
  | .offset o :: items => (bytes.drop o).take (nextOffset bytes items - o) :: fill bytes items

def decode (slots : List Slot) (bytes : List UInt8) : Except DecodeError (List (List UInt8)) := do
  let items ← register bytes slots 0 none
  match firstOffset items with
  | some first =>
    if first < fixedWidth slots then .error (.offsetIntoFixedPortion first)
    else if first > fixedWidth slots then .error (.offsetSkipsVariableBytes first)
    else .ok (fill bytes items)
  | none =>
    if fixedWidth slots = bytes.length then .ok (fill bytes items)
    else .error (.invalidByteLength bytes.length (fixedWidth slots))

/-! ## 3. The reader's answer in one equivalence -/

/-- An offset is read from four bytes, and they are its spelling. -/
theorem readOffset_eq_ok {bytes : List UInt8} {o : ℕ} :
    readOffset bytes = .ok o ↔ o < 256 ^ 4 ∧ bytes.take 4 = toLE 4 o := by
  unfold readOffset
  split
  · rename_i hshort
    constructor
    · intro h
      cases h
    · rintro ⟨-, h⟩
      have hlen := congrArg List.length h
      rw [List.length_take, toLE_length] at hlen
      omega
  · rename_i hlong
    have hlen : (bytes.take 4).length = 4 := by
      rw [List.length_take]
      omega
    rw [Except.ok.injEq]
    constructor
    · rintro rfl
      have hlt := ofLE_lt (bytes.take 4)
      have hback := toLE_ofLE (bytes.take 4)
      rw [hlen] at hlt hback
      exact ⟨hlt, hback.symm⟩
    · rintro ⟨hlt, h⟩
      rw [h, ofLE_toLE, Nat.mod_eq_of_lt hlt]

theorem sanitizeOffset_eq_ok {o o' n : ℕ} {prev : Option ℕ} :
    sanitizeOffset o prev n = .ok o' ↔ o' = o ∧ o ≤ n ∧ prev.getD 0 ≤ o := by
  unfold sanitizeOffset
  split
  · simp
    omega
  · split
    · simp
      omega
    · simp only [Except.ok.injEq]
      constructor
      · rintro rfl
        exact ⟨rfl, by omega, by omega⟩
      · exact fun h => h.1.symm

/-- Two adjacent cuts are one. -/
theorem take_append_take_drop {α : Type} (l : List α) (m n : ℕ) :
    l.take m ++ (l.drop m).take n = l.take (m + n) := by
  rw [List.take_add]

/-- What the reader does at a field of fixed width. -/
theorem register_fixed_eq_ok {bytes : List UInt8} {slots : List Slot} {i n : ℕ}
    {prev : Option ℕ} {items : List Item} :
    register bytes (.fixed n :: slots) i prev = .ok items ↔
      i + n ≤ bytes.length ∧ ∃ items', register bytes slots (i + n) prev = .ok items' ∧
        .slice ((bytes.drop i).take n) :: items' = items := by
  rw [register]
  split
  · rename_i hshort
    constructor
    · intro h
      cases h
    · rintro ⟨hlen, -⟩
      omega
  · rename_i hlong
    constructor
    · intro h
      obtain ⟨items', hreg, h⟩ := Except.bind_eq_ok.mp h
      exact ⟨not_lt.mp hlong, items', hreg, Except.ok.inj h⟩
    · rintro ⟨-, items', hreg, rfl⟩
      rw [hreg]
      rfl

/-- What the reader does at a variable field. -/
theorem register_dynamic_eq_ok {bytes : List UInt8} {slots : List Slot} {i : ℕ}
    {prev : Option ℕ} {items : List Item} :
    register bytes (.dynamic :: slots) i prev = .ok items ↔
      ∃ o items', o < 256 ^ 4 ∧ (bytes.drop i).take 4 = toLE 4 o ∧ o ≤ bytes.length ∧
        prev.getD 0 ≤ o ∧ register bytes slots (i + 4) (some o) = .ok items' ∧
        .offset o :: items' = items := by
  rw [register]
  constructor
  · intro h
    obtain ⟨raw, hraw, hchecked⟩ := Except.bind_eq_ok.mp h
    obtain ⟨o, ho, hrest⟩ := Except.bind_eq_ok.mp hchecked
    obtain ⟨items', hreg, hitems⟩ := Except.bind_eq_ok.mp hrest
    obtain ⟨hlt, hbytes⟩ := readOffset_eq_ok.mp hraw
    obtain ⟨rfl, hle, hmono⟩ := sanitizeOffset_eq_ok.mp ho
    exact ⟨o, items', hlt, hbytes, hle, hmono, hreg, Except.ok.inj hitems⟩
  · rintro ⟨o, items', hlt, hbytes, hle, hmono, hreg, rfl⟩
    rw [readOffset_eq_ok.mpr ⟨hlt, hbytes⟩]
    simp only [bind, Except.bind, sanitizeOffset_eq_ok.mpr ⟨rfl, hle, hmono⟩, hreg]
    rfl

/-- What the registered head says: the parts cut at its offsets fit, and writing them again
gives the head and the body that were read. -/
theorem register_sound (bytes : List UInt8) (slots : List Slot) (i : ℕ) (prev : Option ℕ)
    (items : List Item) (hprev : prev.getD 0 ≤ bytes.length)
    (h : register bytes slots i prev = .ok items) :
    prev.getD 0 ≤ nextOffset bytes items ∧ nextOffset bytes items ≤ bytes.length ∧
      Fits (nextOffset bytes items) slots (fill bytes items) ∧
      headBytes (nextOffset bytes items) slots (fill bytes items)
        = (bytes.drop i).take (fixedWidth slots) ∧
      bodyBytes slots (fill bytes items) = bytes.drop (nextOffset bytes items) := by
  induction slots generalizing i prev items with
  | nil =>
    obtain rfl := Except.ok.inj h
    simpa [nextOffset, firstOffset, fill, Fits, headBytes, bodyBytes] using hprev
  | cons slot slots ih =>
    cases slot with
    | fixed n =>
      obtain ⟨hlen, items', hreg, rfl⟩ := register_fixed_eq_ok.mp h
      obtain ⟨h1, h2, h3, h4, h5⟩ := ih (i + n) prev items' hprev hreg
      have htake : ((bytes.drop i).take n).length = n := by
        rw [List.length_take, List.length_drop]
        omega
      refine ⟨h1, h2, ⟨htake, h3⟩, ?_, h5⟩
      have hdrop : bytes.drop (i + n) = (bytes.drop i).drop n := by rw [List.drop_drop]
      change (bytes.drop i).take n ++ headBytes (nextOffset bytes items') slots _ = _
      rw [h4, hdrop, take_append_take_drop, fixedWidth_cons, Slot.width]
    | dynamic =>
      obtain ⟨o, items', hlt, hoff, hle, hmono, hreg, rfl⟩ := register_dynamic_eq_ok.mp h
      obtain ⟨h1, h2, h3, h4, h5⟩ := ih (i + 4) (some o) items' hle hreg
      rw [Option.getD_some] at h1
      -- the part reaches from its offset to the next one
      have hpart : o + ((bytes.drop o).take (nextOffset bytes items' - o)).length
          = nextOffset bytes items' := by
        rw [List.length_take, List.length_drop]
        omega
      refine ⟨hmono, hle, ⟨hlt, ?_⟩, ?_, ?_⟩
      · change Fits (o + ((bytes.drop o).take (nextOffset bytes items' - o)).length) slots _
        rw [hpart]
        exact h3
      · have hdrop : bytes.drop (i + 4) = (bytes.drop i).drop 4 := by rw [List.drop_drop]
        change toLE 4 o ++ headBytes (o + ((bytes.drop o).take
          (nextOffset bytes items' - o)).length) slots _ = _
        rw [hpart, h4, ← hoff, hdrop, take_append_take_drop, fixedWidth_cons, Slot.width]
      · have hdrop : bytes.drop (nextOffset bytes items')
            = (bytes.drop o).drop (nextOffset bytes items' - o) := by
          rw [List.drop_drop]
          congr 1
          omega
        change (bytes.drop o).take (nextOffset bytes items' - o) ++ bodyBytes slots _ = _
        rw [h5, hdrop, List.take_append_drop]
        rfl

/-- The items a written head registers. -/
def itemsOf : ℕ → List Slot → List (List UInt8) → List Item
  | o, .fixed _ :: ss, p :: ps => .slice p :: itemsOf o ss ps
  | o, .dynamic :: ss, p :: ps => .offset o :: itemsOf (o + p.length) ss ps
  | _, _, _ => []

/-- A written head is registered, at any place of the buffer. -/
theorem register_head (bytes : List UInt8) (slots : List Slot) (parts : List (List UInt8))
    (i o : ℕ) (prev : Option ℕ) (tail : List UInt8) (hfit : Fits o slots parts)
    (hi : i ≤ bytes.length) (hdrop : bytes.drop i = headBytes o slots parts ++ tail)
    (hbody : o + (bodyBytes slots parts).length ≤ bytes.length) (hprev : prev.getD 0 ≤ o) :
    register bytes slots i prev = .ok (itemsOf o slots parts) := by
  induction hfit using Fits.induction generalizing i prev with
  | nil o => rfl
  | fixed n o slots p ps hn hfit ih =>
    have hd : bytes.drop i = p ++ (headBytes o slots ps ++ tail) := by
      rw [hdrop, headBytes, List.append_assoc]
    have hlen := congrArg List.length hd
    simp only [List.length_drop, List.length_append] at hlen
    have hrest : bytes.drop (i + n) = headBytes o slots ps ++ tail := by
      rw [← List.drop_drop, hd, List.drop_left' hn]
    have hreg := ih (i + n) prev (by omega) hrest hbody hprev
    refine register_fixed_eq_ok.mpr ⟨by omega, _, hreg, ?_⟩
    rw [hd, List.take_left' hn]
    rfl
  | dynamic o slots p ps ho hfit ih =>
    have hd : bytes.drop i = toLE 4 o ++ (headBytes (o + p.length) slots ps ++ tail) := by
      rw [hdrop, headBytes, List.append_assoc]
    have hlen := congrArg List.length hd
    simp only [List.length_drop, List.length_append, toLE_length] at hlen
    have hbody' : o + p.length + (bodyBytes slots ps).length ≤ bytes.length := by
      rw [bodyBytes, List.length_append] at hbody
      omega
    have hrest : bytes.drop (i + 4) = headBytes (o + p.length) slots ps ++ tail := by
      rw [← List.drop_drop, hd, List.drop_left' (toLE_length 4 o)]
    have hreg := ih (i + 4) (some o) (by omega) hrest hbody' (by simp)
    refine register_dynamic_eq_ok.mpr ⟨o, _, ho, ?_, by omega, hprev, hreg, rfl⟩
    rw [hd, List.take_left' (toLE_length 4 o)]

/-- Cutting a written body gives the parts back, and the first cut is where it starts. -/
theorem fill_itemsOf (bytes : List UInt8) (slots : List Slot) (parts : List (List UInt8)) (o : ℕ)
    (hfit : Fits o slots parts) (ho : o ≤ bytes.length)
    (hdrop : bytes.drop o = bodyBytes slots parts) :
    nextOffset bytes (itemsOf o slots parts) = o ∧ fill bytes (itemsOf o slots parts) = parts := by
  induction hfit using Fits.induction with
  | nil o =>
    have hlen := congrArg List.length hdrop
    simp only [List.length_drop, bodyBytes, List.length_nil] at hlen
    refine ⟨?_, rfl⟩
    change bytes.length = o
    omega
  | fixed n o slots p ps hn hfit ih =>
    obtain ⟨h1, h2⟩ := ih ho hdrop
    exact ⟨h1, congrArg (p :: ·) h2⟩
  | dynamic o slots p ps hlt hfit ih =>
    have hd : bytes.drop o = p ++ bodyBytes slots ps := hdrop
    have hlen := congrArg List.length hd
    simp only [List.length_drop, List.length_append] at hlen
    have hrest : bytes.drop (o + p.length) = bodyBytes slots ps := by
      rw [← List.drop_drop, hd, List.drop_left' rfl]
    obtain ⟨h1, h2⟩ := ih (by omega) hrest
    refine ⟨rfl, ?_⟩
    rw [itemsOf, fill, h1, h2, hd, Nat.add_sub_cancel_left, List.take_left' rfl]

theorem length_headBytes (slots : List Slot) (parts : List (List UInt8)) (o : ℕ)
    (hfit : Fits o slots parts) : (headBytes o slots parts).length = fixedWidth slots := by
  induction hfit using Fits.induction with
  | nil o => rfl
  | fixed n o slots p ps hn hfit ih =>
    rw [headBytes, List.length_append, ih, hn]
    rfl
  | dynamic o slots p ps ho hfit ih =>
    rw [headBytes, List.length_append, ih, toLE_length]
    rfl

/-- **The reader's answer**: parts that fit, and the buffer is what they are written as. -/
theorem decode_eq_ok {slots : List Slot} {bytes : List UInt8} {parts : List (List UInt8)} :
    decode slots bytes = .ok parts ↔
      Fits (fixedWidth slots) slots parts ∧ bytes = encode slots parts := by
  constructor
  · intro h
    obtain ⟨items, hreg, h⟩ := Except.bind_eq_ok.mp h
    obtain ⟨-, -, h3, h4, h5⟩ :=
      register_sound bytes slots 0 none items (Nat.zero_le _) hreg
    -- either check says that the body starts where the head ends
    have hnext : nextOffset bytes items = fixedWidth slots ∧ parts = fill bytes items := by
      unfold nextOffset
      cases hf : firstOffset items with
      | none =>
        rw [hf] at h
        dsimp only at h
        split at h
        · rename_i heq
          exact ⟨by simpa using heq.symm, (Except.ok.inj h).symm⟩
        · cases h
      | some first =>
        rw [hf] at h
        dsimp only at h
        split at h
        · cases h
        · split at h
          · cases h
          · exact ⟨by rw [Option.getD_some]; omega, (Except.ok.inj h).symm⟩
    obtain ⟨hnext, rfl⟩ := hnext
    rw [hnext] at h3 h4 h5
    refine ⟨h3, ?_⟩
    rw [encode, h4, h5, List.drop_zero, List.take_append_drop]
  · rintro ⟨hfit, rfl⟩
    have hhead := length_headBytes slots parts _ hfit
    have hlen :
        (encode slots parts).length = fixedWidth slots + (bodyBytes slots parts).length := by
      rw [encode, List.length_append, hhead]
    have hreg := register_head (encode slots parts) slots parts 0 (fixedWidth slots) none
      (bodyBytes slots parts) hfit (Nat.zero_le _) rfl (by omega) (Nat.zero_le _)
    have hdrop : (encode slots parts).drop (fixedWidth slots) = bodyBytes slots parts := by
      rw [encode, List.drop_left' hhead]
    obtain ⟨hnext, hfill⟩ := fill_itemsOf (encode slots parts) slots parts _ hfit (by omega) hdrop
    rw [decode, hreg]
    simp only [bind, Except.bind, hfill]
    cases hf : firstOffset (itemsOf (fixedWidth slots) slots parts) with
    | none =>
      rw [nextOffset, hf, Option.getD_none] at hnext
      simp [hnext]
    | some first =>
      rw [nextOffset, hf, Option.getD_some] at hnext
      simp [hnext]

/-! ## 4. Values of fixed width -/

/-- A value with one spelling, of a width known in advance. -/
structure Fixed (α : Type) where
  len : ℕ
  len_pos : 0 < len
  enc : α → List UInt8
  dec : List UInt8 → Except DecodeError α
  enc_length : ∀ a, (enc a).length = len
  dec_eq_ok : ∀ {bs : List UInt8} {a : α}, dec bs = .ok a ↔ bs = enc a

namespace Fixed

variable {α β : Type}

/-- An unsigned 64-bit integer. -/
def u64 : Fixed UInt64 where
  len := 8
  len_pos := by norm_num
  enc x := toLE 8 x.toNat
  dec bs :=
    if bs.length = 8 then .ok (UInt64.ofNat (ofLE bs))
    else .error (.invalidByteLength bs.length 8)
  enc_length x := toLE_length 8 x.toNat
  dec_eq_ok := by
    intro bs x
    constructor
    · intro h
      split at h
      · rename_i hlen
        have hlt : ofLE bs < 2 ^ 64 := by
          have hofle := ofLE_lt bs
          rw [hlen] at hofle
          exact hofle
        rw [← Except.ok.inj h, UInt64.toNat_ofNat', Nat.mod_eq_of_lt hlt, ← hlen, toLE_ofLE]
      · cases h
    · rintro rfl
      have hmod : x.toNat % 256 ^ 8 = x.toNat := Nat.mod_eq_of_lt (UInt64.toNat_lt x)
      rw [if_pos (toLE_length _ _), ofLE_toLE, hmod, UInt64.ofNat_toNat]

/-- A byte string of `n` bytes, as the type `α` that `wrap` and `unwrap` identify with it. -/
def bytes (n : ℕ) (hn : 0 < n) (unwrap : α → List UInt8)
    (wrap : (bs : List UInt8) → bs.length = n → α) (hlen : ∀ a, (unwrap a).length = n)
    (hwrap : ∀ bs h, unwrap (wrap bs h) = bs) (hunwrap : ∀ a, wrap (unwrap a) (hlen a) = a) :
    Fixed α where
  len := n
  len_pos := hn
  enc := unwrap
  dec bs :=
    if h : bs.length = n then .ok (wrap bs h) else .error (.invalidByteLength bs.length n)
  enc_length := hlen
  dec_eq_ok := by
    intro bs a
    constructor
    · intro h
      split at h
      · rename_i hl
        rw [← Except.ok.inj h, hwrap]
      · cases h
    · rintro rfl
      rw [dif_pos (hlen a), hunwrap]

/-- The fields of a container of fixed width stand one after the other. -/
def seq (f : Fixed α) (g : Fixed β) : Fixed (α × β) where
  len := f.len + g.len
  len_pos := Nat.add_pos_left f.len_pos _
  enc x := f.enc x.1 ++ g.enc x.2
  dec bs :=
    if bs.length = f.len + g.len then do
      let a ← f.dec (bs.take f.len)
      let b ← g.dec (bs.drop f.len)
      return (a, b)
    else .error (.invalidByteLength bs.length (f.len + g.len))
  enc_length x := by rw [List.length_append, f.enc_length, g.enc_length]
  dec_eq_ok := by
    rintro bs ⟨a, b⟩
    constructor
    · intro h
      split at h
      · obtain ⟨a', ha, h⟩ := Except.bind_eq_ok.mp h
        obtain ⟨b', hb, h⟩ := Except.bind_eq_ok.mp h
        simp only [pure, Except.pure, Except.ok.injEq, Prod.mk.injEq] at h
        obtain ⟨rfl, rfl⟩ := h
        rw [← f.dec_eq_ok.mp ha, ← g.dec_eq_ok.mp hb, List.take_append_drop]
      · cases h
    · rintro rfl
      have ha : f.dec ((f.enc a ++ g.enc b).take f.len) = .ok a :=
        f.dec_eq_ok.mpr (List.take_left' (f.enc_length a))
      have hb : g.dec ((f.enc a ++ g.enc b).drop f.len) = .ok b :=
        g.dec_eq_ok.mpr (List.drop_left' (f.enc_length a))
      rw [if_pos (by rw [List.length_append, f.enc_length, g.enc_length]), ha]
      simp only [bind, Except.bind, hb]
      rfl

/-- Carry the values of `β` in the spelling of `α`. -/
def map (f : Fixed α) (g : α → β) (inv : β → α) (hg : ∀ b, g (inv b) = b)
    (hinv : ∀ a, inv (g a) = a) : Fixed β where
  len := f.len
  len_pos := f.len_pos
  enc b := f.enc (inv b)
  dec bs := (f.dec bs).map g
  enc_length b := f.enc_length (inv b)
  dec_eq_ok := by
    intro bs b
    rw [Except.map_eq_ok]
    constructor
    · rintro ⟨a, ha, rfl⟩
      rw [hinv]
      exact f.dec_eq_ok.mp ha
    · rintro rfl
      exact ⟨inv b, f.dec_eq_ok.mpr rfl, hg b⟩

/-- Read the buffer in chunks of the item's width; the last one may be short. -/
def decodeChunks (f : Fixed α) : ℕ → List UInt8 → Except DecodeError (List α)
  | 0, _ => .ok []
  | fuel + 1, bs =>
    if bs = [] then .ok []
    else do
      let a ← f.dec (bs.take f.len)
      let as ← decodeChunks f fuel (bs.drop f.len)
      return a :: as

theorem flatMap_enc_eq_nil {f : Fixed α} {as : List α} : as.flatMap f.enc = [] ↔ as = [] := by
  cases as with
  | nil => simp
  | cons a as =>
    have hlen := f.enc_length a
    have hpos := f.len_pos
    simp only [List.flatMap_cons, List.append_eq_nil_iff, reduceCtorEq, iff_false, not_and]
    intro h
    rw [h, List.length_nil] at hlen
    omega

/-- One chunk, and the rest. -/
theorem decodeChunks_cons_eq_ok {f : Fixed α} {fuel : ℕ} {bs : List UInt8} {as : List α}
    (hbs : bs ≠ []) :
    decodeChunks f (fuel + 1) bs = .ok as ↔
      ∃ a as', bs.take f.len = f.enc a ∧ decodeChunks f fuel (bs.drop f.len) = .ok as' ∧
        a :: as' = as := by
  rw [decodeChunks, if_neg hbs]
  constructor
  · intro h
    obtain ⟨a, ha, h⟩ := Except.bind_eq_ok.mp h
    obtain ⟨as', has, h⟩ := Except.bind_eq_ok.mp h
    exact ⟨a, as', f.dec_eq_ok.mp ha, has, Except.ok.inj h⟩
  · rintro ⟨a, as', ha, has, rfl⟩
    rw [f.dec_eq_ok.mpr ha, has]
    rfl

/-- With fuel to spare, the chunks that are read are the buffer. -/
theorem decodeChunks_eq_ok (f : Fixed α) (fuel : ℕ) (bs : List UInt8) (as : List α)
    (hfuel : bs.length ≤ fuel) : decodeChunks f fuel bs = .ok as ↔ bs = as.flatMap f.enc := by
  induction fuel generalizing bs as with
  | zero =>
    obtain rfl : bs = [] := List.length_eq_zero_iff.mp (Nat.le_zero.mp hfuel)
    rw [decodeChunks, Except.ok.injEq, eq_comm, eq_comm (a := []), flatMap_enc_eq_nil]
  | succ fuel ih =>
    by_cases hbs : bs = []
    · rw [decodeChunks, if_pos hbs, Except.ok.injEq, hbs, eq_comm, eq_comm (a := []),
        flatMap_enc_eq_nil]
    have hpos := f.len_pos
    have hrest : (bs.drop f.len).length ≤ fuel := by
      rw [List.length_drop]
      omega
    rw [decodeChunks_cons_eq_ok hbs]
    constructor
    · rintro ⟨a, as', ha, has, rfl⟩
      rw [List.flatMap_cons, ← ha, ← (ih _ _ hrest).mp has, List.take_append_drop]
    · intro h
      cases as with
      | nil => exact absurd h hbs
      | cons a as =>
        rw [List.flatMap_cons] at h
        refine ⟨a, as, ?_, (ih _ _ hrest).mpr ?_, rfl⟩
        · rw [h, List.take_left' (f.enc_length a)]
        · rw [h, List.drop_left' (f.enc_length a)]

theorem length_flatMap_enc (f : Fixed α) (as : List α) :
    (as.flatMap f.enc).length = as.length * f.len := by
  induction as with
  | nil => simp
  | cons a as ih =>
    rw [List.flatMap_cons, List.length_append, f.enc_length, ih, List.length_cons, Nat.add_mul,
      Nat.one_mul, Nat.add_comm]

end Fixed

end Ssz
