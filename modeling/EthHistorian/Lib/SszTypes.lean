/-
# Types with an SSZ form

`Ssz.lean` cuts a container into the byte strings of its fields.  Here the fields have values: a
`Ty` is a type's encoder and reader with the laws that make its form canonical, and `Fields` are
those of a container.  The combinators keep the laws (`Fields.container`, and the lists and vectors
of `SszLists.lean`), so a format is proved canonical by writing it down.

A reader is an `Outcome`, since a hand-written one may abort.  It is only held to account on bytes
its slot admits: a type of fixed width is handed slices of that width by whoever contains it, and
what it does with others is its own affair.  `Strict` types refuse those others.  A list needs its
items to be strict, because its last chunk may be short; a container and a vector do not.
-/
import EthHistorian.Lib.Outcome
import EthHistorian.Lib.Ssz

namespace Ssz

open ByteString

/-! ## 1. Types and fields -/

/-- Errors that can say why a reader refuses. -/
class Refusal (ε : Type) where
  of : DecodeError → ε

instance : Refusal DecodeError := ⟨id⟩

/-- And that the table of offsets of a list has an impossible length. -/
class ListRefusal (ε : Type) extends Refusal ε where
  invalidListFixedBytesLen : ℕ → ε

/-- The bytes a slot can hold. -/
def Slot.Admits : Slot → List UInt8 → Prop
  | fixed n, bs => bs.length = n
  | dynamic, _ => True

def Slot.isFixed : Slot → Bool
  | fixed _ => true
  | dynamic => false

/-- A type with an SSZ form. -/
structure Ty (ε α : Type) where
  slot : Slot
  enc : α → List UInt8
  dec : List UInt8 → Outcome ε α
  /-- The values whose offsets can be written. -/
  Valid : α → Prop
  admits_enc : ∀ a, slot.Admits (enc a)
  dec_eq_ok : ∀ {bs : List UInt8} {a : α}, slot.Admits bs →
    (dec bs = .ok a ↔ Valid a ∧ bs = enc a)
  returns : ∀ {bs : List UInt8}, slot.Admits bs → (dec bs).Returns
  valid_of_length_lt : ∀ a, (enc a).length < 256 ^ 4 → Valid a

/-- The fields of a container, one byte string each. -/
structure Fields (ε α : Type) where
  slots : List Slot
  parts : α → List (List UInt8)
  dec : List (List UInt8) → Outcome ε α
  Valid : α → Prop
  admits_parts : ∀ a, List.Forall₂ Slot.Admits slots (parts a)
  dec_eq_ok : ∀ {ps : List (List UInt8)} {a : α}, List.Forall₂ Slot.Admits slots ps →
    (dec ps = .ok a ↔ Valid a ∧ ps = parts a)
  returns : ∀ {ps : List (List UInt8)}, List.Forall₂ Slot.Admits slots ps → (dec ps).Returns
  valid_of_length_lt : ∀ a, (∀ p ∈ parts a, p.length < 256 ^ 4) → Valid a

variable {ε α β : Type}

/-- Bytes are of one value. -/
theorem Ty.eq_of_enc_eq (T : Ty ε α) {a b : α} (ha : T.Valid a) (hb : T.Valid b)
    (h : T.enc a = T.enc b) : a = b :=
  Outcome.ok.inj (((T.dec_eq_ok (T.admits_enc a)).mpr ⟨ha, rfl⟩).symm.trans
    ((T.dec_eq_ok (T.admits_enc a)).mpr ⟨hb, h⟩))

/-- A type that refuses what its slot does not admit. -/
def Ty.Strict (T : Ty ε α) : Prop := ∀ bs, ¬ T.slot.Admits bs → ∃ e, T.dec bs = .err e

/-- Such a type's reader is accounted for on all bytes. -/
theorem Ty.Strict.dec_eq_ok {T : Ty ε α} (h : T.Strict) {bs : List UInt8} {a : α} :
    T.dec bs = .ok a ↔ T.Valid a ∧ bs = T.enc a := by
  by_cases hadm : T.slot.Admits bs
  · exact T.dec_eq_ok hadm
  · obtain ⟨e, he⟩ := h bs hadm
    rw [he]
    refine iff_of_false (fun h => by cases h) ?_
    rintro ⟨-, rfl⟩
    exact hadm (T.admits_enc a)

theorem Ty.Strict.returns {T : Ty ε α} (h : T.Strict) (bs : List UInt8) : (T.dec bs).Returns := by
  by_cases hadm : T.slot.Admits bs
  · exact T.returns hadm
  · obtain ⟨e, he⟩ := h bs hadm
    rw [he]
    exact fun msg h => by cases h

/-- Such a type's values, as those of a larger type. -/
theorem Ty.Strict.bind_eq_ok {T : Ty ε α} (h : T.Strict) {f : α → β} {bs : List UInt8} {b : β} :
    (do return f (← T.dec bs) : Outcome ε β) = .ok b ↔
      ∃ a, f a = b ∧ T.Valid a ∧ bs = T.enc a := by
  rw [Outcome.bind_eq_ok]
  constructor
  · rintro ⟨a, ha, hb⟩
    exact ⟨a, Outcome.ok.inj hb, h.dec_eq_ok.mp ha⟩
  · rintro ⟨a, rfl, ha⟩
    exact ⟨a, h.dec_eq_ok.mpr ha, rfl⟩

theorem Ty.Strict.bind_returns {T : Ty ε α} (h : T.Strict) {f : α → β} (bs : List UInt8) :
    (do return f (← T.dec bs) : Outcome ε β).Returns := by
  intro msg hpanic
  rcases Outcome.bind_eq_panic.mp hpanic with hpanic | ⟨a, -, hpanic⟩
  · exact h.returns bs msg hpanic
  · cases hpanic

/-- A type of variable width admits everything. -/
theorem Ty.admits_of_dynamic {T : Ty ε α} (h : T.slot = .dynamic) (bs : List UInt8) :
    T.slot.Admits bs := by
  rw [h]
  trivial

theorem Ty.strict_of_dynamic {T : Ty ε α} (h : T.slot = .dynamic) : T.Strict := fun bs hbs =>
  absurd (T.admits_of_dynamic h bs) hbs

/-- The values of `β` in the form of `α`. -/
def Ty.map (T : Ty ε α) (e : β ≃ α) : Ty ε β where
  slot := T.slot
  enc b := T.enc (e b)
  dec bs := do
    let a ← T.dec bs
    return e.symm a
  Valid b := T.Valid (e b)
  admits_enc b := T.admits_enc (e b)
  dec_eq_ok := by
    intro bs b hadm
    rw [Outcome.bind_eq_ok]
    constructor
    · rintro ⟨a, ha, hb⟩
      obtain rfl := Outcome.ok.inj hb
      rw [e.apply_symm_apply]
      exact (T.dec_eq_ok hadm).mp ha
    · rintro ⟨hv, rfl⟩
      refine ⟨e b, (T.dec_eq_ok hadm).mpr ⟨hv, rfl⟩, ?_⟩
      rw [e.symm_apply_apply]
      rfl
  returns := by
    intro bs hadm msg hpanic
    rcases Outcome.bind_eq_panic.mp hpanic with h | ⟨a, -, h⟩
    · exact T.returns hadm msg h
    · cases h
  valid_of_length_lt b := T.valid_of_length_lt (e b)

theorem Ty.Strict.map {T : Ty ε α} (h : T.Strict) {e : β ≃ α} : (T.map e).Strict := by
  intro bs hbs
  obtain ⟨err, herr⟩ := h bs hbs
  refine ⟨err, ?_⟩
  change (T.dec bs >>= fun a => pure (e.symm a)) = _
  rw [herr, Outcome.err_bind]

section

variable [Refusal ε]

/-- A computation of the strict reader, with the refusal in the error type at hand. -/
def refuse {γ : Type} (x : Except DecodeError γ) : Outcome ε γ :=
  (Outcome.ofExcept x).mapErr Refusal.of

theorem refuse_eq_ok {γ : Type} {x : Except DecodeError γ} {c : γ} :
    (refuse x : Outcome ε γ) = .ok c ↔ x = .ok c := by
  rw [refuse, Outcome.mapErr_eq_ok, Outcome.ofExcept_eq_ok]

theorem refuse_ne_panic {γ : Type} {x : Except DecodeError γ} {msg : String} :
    (refuse x : Outcome ε γ) ≠ .panic msg := fun h =>
  Outcome.ofExcept_ne_panic (Outcome.mapErr_eq_panic.mp h)

/-- A value of fixed width with a strict reader. -/
def Ty.ofFixed (f : Fixed α) : Ty ε α where
  slot := .fixed f.len
  enc := f.enc
  dec bs := refuse (f.dec bs)
  Valid _ := True
  admits_enc := f.enc_length
  dec_eq_ok := fun _ => by rw [refuse_eq_ok, f.dec_eq_ok, true_and]
  returns := fun _ _ => refuse_ne_panic
  valid_of_length_lt _ _ := trivial

theorem Ty.strict_ofFixed (f : Fixed α) : (Ty.ofFixed f : Ty ε α).Strict := by
  intro bs hbs
  cases hdec : f.dec bs with
  | ok a =>
    refine absurd ?_ hbs
    rw [f.dec_eq_ok.mp hdec]
    exact f.enc_length a
  | error e =>
    refine ⟨Refusal.of e, ?_⟩
    change refuse (f.dec bs) = _
    rw [hdec]
    rfl

end

namespace Fields

/-- No fields. -/
def nil : Fields ε Unit where
  slots := []
  parts _ := []
  dec _ := .ok ()
  Valid _ := True
  admits_parts _ := .nil
  dec_eq_ok := fun h => iff_of_true rfl ⟨trivial, List.forall₂_nil_left_iff.mp h⟩
  returns := fun _ _ h => by cases h
  valid_of_length_lt _ _ := trivial

/-- A field, and more. -/
def cons (T : Ty ε α) (F : Fields ε β) : Fields ε (α × β) where
  slots := T.slot :: F.slots
  parts x := T.enc x.1 :: F.parts x.2
  dec
    | [] => .panic "index exceeds length"
    | p :: ps => do
      let a ← T.dec p
      let b ← F.dec ps
      return (a, b)
  Valid x := T.Valid x.1 ∧ F.Valid x.2
  admits_parts x := .cons (T.admits_enc x.1) (F.admits_parts x.2)
  dec_eq_ok := by
    rintro ps ⟨a, b⟩ hadm
    obtain ⟨p, ps, hp, hps, rfl⟩ := List.forall₂_cons_left_iff.mp hadm
    simp only [Outcome.bind_eq_ok, Outcome.pure_eq, Outcome.ok.injEq, Prod.mk.injEq]
    constructor
    · rintro ⟨a', ha, b', hb, rfl, rfl⟩
      obtain ⟨hva, rfl⟩ := (T.dec_eq_ok hp).mp ha
      obtain ⟨hvb, rfl⟩ := (F.dec_eq_ok hps).mp hb
      exact ⟨⟨hva, hvb⟩, rfl⟩
    · rintro ⟨⟨hva, hvb⟩, heq⟩
      obtain ⟨rfl, rfl⟩ := List.cons.inj heq
      exact ⟨a, (T.dec_eq_ok hp).mpr ⟨hva, rfl⟩, b, (F.dec_eq_ok hps).mpr ⟨hvb, rfl⟩, rfl, rfl⟩
  returns := by
    intro ps hadm msg hpanic
    obtain ⟨p, ps, hp, hps, rfl⟩ := List.forall₂_cons_left_iff.mp hadm
    rcases Outcome.bind_eq_panic.mp hpanic with h | ⟨a, -, h⟩
    · exact T.returns hp msg h
    · rcases Outcome.bind_eq_panic.mp h with h | ⟨b, -, h⟩
      · exact F.returns hps msg h
      · cases h
  valid_of_length_lt x h :=
    ⟨T.valid_of_length_lt x.1 (h _ List.mem_cons_self),
      F.valid_of_length_lt x.2 fun p hp => h p (List.mem_cons_of_mem _ hp)⟩

/-- The values of `β` by the fields of `α`. -/
def map (F : Fields ε α) (e : β ≃ α) : Fields ε β where
  slots := F.slots
  parts b := F.parts (e b)
  dec ps := do
    let a ← F.dec ps
    return e.symm a
  Valid b := F.Valid (e b)
  admits_parts b := F.admits_parts (e b)
  dec_eq_ok := by
    intro ps b hadm
    rw [Outcome.bind_eq_ok]
    constructor
    · rintro ⟨a, ha, hb⟩
      obtain rfl := Outcome.ok.inj hb
      rw [e.apply_symm_apply]
      exact (F.dec_eq_ok hadm).mp ha
    · rintro ⟨hv, rfl⟩
      refine ⟨e b, (F.dec_eq_ok hadm).mpr ⟨hv, rfl⟩, ?_⟩
      rw [e.symm_apply_apply]
      rfl
  returns := by
    intro ps hadm msg hpanic
    rcases Outcome.bind_eq_panic.mp hpanic with h | ⟨a, -, h⟩
    · exact F.returns hadm msg h
    · cases h
  valid_of_length_lt b := F.valid_of_length_lt (e b)

end Fields

/-! ## 2. Containers -/

/-- Induction along parts that their slots admit. -/
theorem admits_induction {motive : (slots : List Slot) → (ps : List (List UInt8)) →
      List.Forall₂ Slot.Admits slots ps → Prop}
    (nil : motive [] [] .nil)
    (fixed : ∀ n slots p ps (hn : (Slot.fixed n).Admits p)
      (hadm : List.Forall₂ Slot.Admits slots ps),
      motive slots ps hadm → motive (.fixed n :: slots) (p :: ps) (.cons hn hadm))
    (dynamic : ∀ slots p ps (hp : Slot.dynamic.Admits p)
      (hadm : List.Forall₂ Slot.Admits slots ps),
      motive slots ps hadm → motive (.dynamic :: slots) (p :: ps) (.cons hp hadm))
    {slots : List Slot} {ps : List (List UInt8)} (hadm : List.Forall₂ Slot.Admits slots ps) :
    motive slots ps hadm := by
  induction slots generalizing ps with
  | nil =>
    cases hadm
    exact nil
  | cons slot slots ih =>
    obtain ⟨p, ps, hp, hps, rfl⟩ := List.forall₂_cons_left_iff.mp hadm
    cases slot with
    | fixed n => exact fixed n slots p ps hp hps (ih hps)
    | dynamic => exact dynamic slots p ps hp hps (ih hps)

/-- Cut a container of fixed width at its fields. -/
def cut : List Slot → List UInt8 → List (List UInt8)
  | [], _ => []
  | slot :: slots, bs => bs.take slot.width :: cut slots (bs.drop slot.width)

/-- Every slot has a width of its own. -/
def AllFixed (slots : List Slot) : Prop := ∀ s ∈ slots, s.isFixed = true

theorem AllFixed.tail {slot : Slot} {slots : List Slot} (h : AllFixed (slot :: slots)) :
    AllFixed slots := fun s hs => h s (List.mem_cons_of_mem _ hs)

theorem not_allFixed_dynamic {slots : List Slot} : ¬ AllFixed (.dynamic :: slots) := fun h =>
  Bool.false_ne_true (h _ List.mem_cons_self)

/-- Then the parts are the bytes, cut. -/
theorem admits_cut {slots : List Slot} (hfixed : AllFixed slots) {bs : List UInt8}
    (hlen : bs.length = fixedWidth slots) :
    List.Forall₂ Slot.Admits slots (cut slots bs) ∧ (cut slots bs).flatten = bs := by
  induction slots generalizing bs with
  | nil => exact ⟨.nil, (List.length_eq_zero_iff.mp hlen).symm⟩
  | cons slot slots ih =>
    cases slot with
    | dynamic => exact absurd hfixed not_allFixed_dynamic
    | fixed n =>
      have hn : bs.length = n + fixedWidth slots := hlen
      have hrest : (bs.drop n).length = fixedWidth slots := by
        rw [List.length_drop]
        omega
      have hfirst : (bs.take n).length = n := by
        rw [List.length_take]
        omega
      obtain ⟨hadm, hflat⟩ := ih hfixed.tail hrest
      refine ⟨.cons hfirst hadm, ?_⟩
      rw [cut, List.flatten_cons, Slot.width, hflat, List.take_append_drop]

/-- Such a container is written as its parts and nothing else, and cut where they end. -/
theorem encode_of_fixed {slots : List Slot} {ps : List (List UInt8)}
    (hadm : List.Forall₂ Slot.Admits slots ps) (hfixed : AllFixed slots) :
    (∀ o, headBytes o slots ps = ps.flatten) ∧ bodyBytes slots ps = [] ∧
      cut slots ps.flatten = ps := by
  induction hadm using admits_induction with
  | nil => exact ⟨fun o => rfl, rfl, rfl⟩
  | fixed n slots p ps hn _ ih =>
    obtain ⟨hhead, hbody, hcut⟩ := ih hfixed.tail
    refine ⟨fun o => ?_, hbody, ?_⟩
    · rw [headBytes, hhead, List.flatten_cons]
    · have hlen : p.length = n := hn
      rw [List.flatten_cons, cut, Slot.width, List.take_left' hlen, List.drop_left' hlen, hcut]
  | dynamic => exact absurd hfixed not_allFixed_dynamic

/-- Parts that fit are admitted by their slots. -/
theorem Fits.admits {o : ℕ} {slots : List Slot} {ps : List (List UInt8)}
    (h : Fits o slots ps) : List.Forall₂ Slot.Admits slots ps := by
  induction h using Fits.induction with
  | nil o => exact .nil
  | fixed n o slots p ps hn _ ih => exact .cons hn ih
  | dynamic o slots p ps _ _ ih => exact .cons trivial ih

/-- The head is as wide as its slots, and no part is longer than the container. -/
theorem length_parts_le {slots : List Slot} {ps : List (List UInt8)}
    (hadm : List.Forall₂ Slot.Admits slots ps) :
    (∀ o, (headBytes o slots ps).length = fixedWidth slots) ∧
      ∀ p ∈ ps, p.length ≤ fixedWidth slots + (bodyBytes slots ps).length := by
  induction hadm using admits_induction with
  | nil => exact ⟨fun o => rfl, by simp⟩
  | fixed n slots p ps hn _ ih =>
    obtain ⟨hhead, hparts⟩ := ih
    have hlen : p.length = n := hn
    refine ⟨fun o => ?_, fun q hq => ?_⟩
    · rw [headBytes, List.length_append, hhead, hlen, fixedWidth_cons, Slot.width]
    · rw [fixedWidth_cons, Slot.width, bodyBytes]
      rcases List.mem_cons.mp hq with rfl | hq
      · omega
      · have hle := hparts q hq
        omega
  | dynamic slots p ps _ _ ih =>
    obtain ⟨hhead, hparts⟩ := ih
    refine ⟨fun o => ?_, fun q hq => ?_⟩
    · rw [headBytes, List.length_append, hhead, toLE_length, fixedWidth_cons, Slot.width]
    · rw [fixedWidth_cons, Slot.width, bodyBytes, List.length_append]
      rcases List.mem_cons.mp hq with rfl | hq
      · omega
      · have hle := hparts q hq
        omega

theorem length_encode {slots : List Slot} {ps : List (List UInt8)}
    (hadm : List.Forall₂ Slot.Admits slots ps) :
    (encode slots ps).length = fixedWidth slots + (bodyBytes slots ps).length := by
  rw [encode, List.length_append, (length_parts_le hadm).1]

/-- The parts of a short container fit. -/
theorem fits_of_length_lt {slots : List Slot} {ps : List (List UInt8)} {o : ℕ}
    (hadm : List.Forall₂ Slot.Admits slots ps)
    (hlen : o + (bodyBytes slots ps).length < 256 ^ 4) : Fits o slots ps := by
  induction hadm using admits_induction generalizing o with
  | nil => trivial
  | fixed n slots p ps hn _ ih => exact ⟨hn, ih hlen⟩
  | dynamic slots p ps _ _ ih =>
    rw [bodyBytes, List.length_append] at hlen
    exact ⟨by omega, ih (by omega)⟩

/-- Where every slot has a width, parts always fit. -/
theorem fits_of_fixed {slots : List Slot} {ps : List (List UInt8)} {o : ℕ}
    (hadm : List.Forall₂ Slot.Admits slots ps) (hfixed : AllFixed slots) : Fits o slots ps := by
  induction hadm using admits_induction with
  | nil => trivial
  | fixed n slots p ps hn _ ih => exact ⟨hn, ih hfixed.tail⟩
  | dynamic => exact absurd hfixed not_allFixed_dynamic

namespace Fields

/-- All fields are of fixed width. -/
def isFixed (F : Fields ε α) : Bool := F.slots.all Slot.isFixed

theorem isFixed_iff {F : Fields ε α} : F.isFixed = true ↔ AllFixed F.slots := List.all_eq_true

/-- A container is of fixed width when all of its fields are. -/
def slot (F : Fields ε α) : Slot := if F.isFixed then .fixed (fixedWidth F.slots) else .dynamic

def encode (F : Fields ε α) (a : α) : List UInt8 := Ssz.encode F.slots (F.parts a)

/-- A derived reader: one of fixed width checks the length and cuts, another follows offsets. -/
def decode [Refusal ε] (F : Fields ε α) (bs : List UInt8) : Outcome ε α :=
  if F.isFixed then
    if bs.length = fixedWidth F.slots then F.dec (cut F.slots bs)
    else .err (Refusal.of (.invalidByteLength bs.length (fixedWidth F.slots)))
  else do
    let parts ← refuse (Ssz.decode F.slots bs)
    F.dec parts

theorem admits_encode (F : Fields ε α) (a : α) : F.slot.Admits (F.encode a) := by
  unfold slot
  split
  · rename_i h
    obtain ⟨-, hbody, -⟩ := encode_of_fixed (F.admits_parts a) (isFixed_iff.mp h)
    change (F.encode a).length = _
    rw [encode, length_encode (F.admits_parts a), hbody, List.length_nil, Nat.add_zero]
  · trivial

/-- A short container can be written. -/
theorem valid_of_length_encode_lt (F : Fields ε α) (a : α)
    (hlen : (F.encode a).length < 256 ^ 4) :
    F.Valid a ∧ Fits (fixedWidth F.slots) F.slots (F.parts a) := by
  rw [encode, length_encode (F.admits_parts a)] at hlen
  obtain ⟨-, hparts⟩ := length_parts_le (F.admits_parts a)
  exact ⟨F.valid_of_length_lt a fun p hp => (hparts p hp).trans_lt hlen,
    fits_of_length_lt (F.admits_parts a) hlen⟩

section

variable [Refusal ε]

theorem decode_eq_ok (F : Fields ε α) {bs : List UInt8} {a : α} :
    F.decode bs = .ok a ↔
      (F.Valid a ∧ Fits (fixedWidth F.slots) F.slots (F.parts a)) ∧ bs = F.encode a := by
  unfold decode encode
  split
  · rename_i h
    have hfixed := isFixed_iff.mp h
    obtain ⟨hhead, hbody, hcut⟩ := encode_of_fixed (F.admits_parts a) hfixed
    have henc : Ssz.encode F.slots (F.parts a) = (F.parts a).flatten := by
      rw [Ssz.encode, hhead, hbody, List.append_nil]
    have hfit : Fits (fixedWidth F.slots) F.slots (F.parts a) :=
      fits_of_fixed (F.admits_parts a) hfixed
    split
    · rename_i hlen
      obtain ⟨hadm, hflat⟩ := admits_cut hfixed hlen
      rw [F.dec_eq_ok hadm]
      constructor
      · rintro ⟨hv, hparts⟩
        exact ⟨⟨hv, hfit⟩, by rw [henc, ← hparts, hflat]⟩
      · rintro ⟨⟨hv, -⟩, rfl⟩
        exact ⟨hv, by rw [henc, hcut]⟩
    · rename_i hlen
      refine iff_of_false (fun h => by cases h) ?_
      rintro ⟨-, rfl⟩
      rw [length_encode (F.admits_parts a), hbody] at hlen
      exact hlen rfl
  · rw [Outcome.bind_eq_ok]
    constructor
    · rintro ⟨ps, hps, ha⟩
      obtain ⟨hfit, rfl⟩ := Ssz.decode_eq_ok.mp (refuse_eq_ok.mp hps)
      obtain ⟨hv, rfl⟩ := (F.dec_eq_ok hfit.admits).mp ha
      exact ⟨⟨hv, hfit⟩, rfl⟩
    · rintro ⟨⟨hv, hfit⟩, rfl⟩
      exact ⟨_, refuse_eq_ok.mpr (Ssz.decode_eq_ok.mpr ⟨hfit, rfl⟩),
        (F.dec_eq_ok (F.admits_parts a)).mpr ⟨hv, rfl⟩⟩

theorem returns_decode (F : Fields ε α) (bs : List UInt8) : (F.decode bs).Returns := by
  intro msg hpanic
  unfold decode at hpanic
  split at hpanic
  · rename_i h
    split at hpanic
    · rename_i hlen
      exact F.returns (admits_cut (isFixed_iff.mp h) hlen).1 msg hpanic
    · cases hpanic
  · rcases Outcome.bind_eq_panic.mp hpanic with h | ⟨ps, hps, h⟩
    · exact refuse_ne_panic h
    · obtain ⟨hfit, -⟩ := Ssz.decode_eq_ok.mp (refuse_eq_ok.mp hps)
      exact F.returns hfit.admits msg h

/-- The container of the fields, as a type. -/
def container (F : Fields ε α) : Ty ε α where
  slot := F.slot
  enc := F.encode
  dec := F.decode
  Valid a := F.Valid a ∧ Fits (fixedWidth F.slots) F.slots (F.parts a)
  admits_enc := F.admits_encode
  dec_eq_ok := fun _ => F.decode_eq_ok
  returns := fun _ => F.returns_decode _
  valid_of_length_lt := F.valid_of_length_encode_lt

theorem strict_container (F : Fields ε α) : F.container.Strict := by
  intro bs hbs
  by_cases h : F.isFixed = true
  · have hslot : F.slot = .fixed (fixedWidth F.slots) := if_pos h
    have hlen : bs.length ≠ fixedWidth F.slots := by
      intro hlen
      apply hbs
      change F.slot.Admits bs
      rw [hslot]
      exact hlen
    refine ⟨Refusal.of (.invalidByteLength bs.length (fixedWidth F.slots)), ?_⟩
    change F.decode bs = _
    rw [decode, if_pos h, if_neg hlen]
  · have hslot : F.slot = .dynamic := if_neg h
    exact F.container.strict_of_dynamic hslot bs hbs

/-- A record, by the fields it is declared with. -/
def record (F : Fields ε α) (e : β ≃ α) : Ty ε β := (F.map e).container

theorem strict_record {F : Fields ε α} {e : β ≃ α} : (F.record e).Strict := strict_container _

end

end Fields

end Ssz
