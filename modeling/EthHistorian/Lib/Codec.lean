/-
# Canonical prefix codecs

A prefix codec reads one value off the front of a byte string and returns the unread rest.
`Codec` packs an encoder and a decoder with the two laws that make the format canonical:

* `dec_enc`: what was written is read back, and nothing after it is touched;
* `enc_dec`: what is accepted is an encoding, byte for byte, followed by the unread rest.

So a value of type `Codec` cannot accept two spellings of one value.  `Payload` is the same
for a decoder that must use up its whole input, which is how a length-delimited body is read.
The combinators below keep the laws, so a format is proved canonical by writing it down.
-/
import Mathlib.Tactic

/-- A canonical codec for a value at the front of a byte string. -/
structure Codec (ε : Type) (α : Type) where
  enc : α → List UInt8
  dec : List UInt8 → Except ε (α × List UInt8)
  /-- The values the format can carry. -/
  Valid : α → Prop
  enc_ne_nil : ∀ a, enc a ≠ []
  dec_enc : ∀ a rest, Valid a → dec (enc a ++ rest) = .ok (a, rest)
  enc_dec : ∀ bs a rest, dec bs = .ok (a, rest) → Valid a ∧ bs = enc a ++ rest

/-- A canonical codec for a value that is all of its byte string. -/
structure Payload (ε : Type) (α : Type) where
  enc : α → List UInt8
  dec : List UInt8 → Except ε α
  Valid : α → Prop
  dec_enc : ∀ a, Valid a → dec (enc a) = .ok a
  enc_dec : ∀ bs a, dec bs = .ok a → Valid a ∧ bs = enc a

/-- A sequence of fallible steps returns a value when both halves do. -/
theorem Except.bind_eq_ok {ε α β : Type} {x : Except ε α} {f : α → Except ε β} {b : β} :
    (x >>= f) = .ok b ↔ ∃ a, x = .ok a ∧ f a = .ok b := by
  cases x with
  | ok a => simp [bind, Except.bind]
  | error e => simp [bind, Except.bind]

/-- Rewriting a value neither makes nor loses one. -/
theorem Except.map_eq_ok {ε α β : Type} {x : Except ε α} {f : α → β} {b : β} :
    x.map f = .ok b ↔ ∃ a, x = .ok a ∧ f a = b := by
  cases x with
  | ok a => simp [Except.map]
  | error e => simp [Except.map]

/-- Rewriting an error neither makes nor loses a value. -/
theorem Except.mapError_eq_ok {ε ε' α : Type} {x : Except ε α} {f : ε → ε'} {a : α} :
    x.mapError f = .ok a ↔ x = .ok a := by
  cases x with
  | ok a => simp [Except.mapError]
  | error e => simp [Except.mapError]

namespace Codec

variable {ε α β : Type}

/-- The decoder's answer in one equivalence. -/
theorem dec_eq_ok (c : Codec ε α) {bs rest : List UInt8} {a : α} :
    c.dec bs = .ok (a, rest) ↔ c.Valid a ∧ bs = c.enc a ++ rest := by
  constructor
  · exact c.enc_dec bs a rest
  · rintro ⟨hv, rfl⟩
    exact c.dec_enc a rest hv

/-- Encodings are prefix-free and injective. -/
theorem enc_append_inj (c : Codec ε α) {a b : α} {r s : List UInt8} (ha : c.Valid a)
    (hb : c.Valid b) (h : c.enc a ++ r = c.enc b ++ s) : a = b ∧ r = s := by
  have h1 : c.dec (c.enc a ++ r) = .ok (a, r) := c.dec_enc a r ha
  rw [h, c.dec_enc b s hb, Except.ok.injEq, Prod.mk.injEq] at h1
  exact ⟨h1.1.symm, h1.2.symm⟩

/-- No encoding begins another one. -/
theorem not_prefix_enc (c : Codec ε α) {a b : α} (ha : c.Valid a) (hb : c.Valid b) (hne : a ≠ b) :
    ¬ c.enc a <+: c.enc b := by
  rintro ⟨t, h⟩
  rw [← List.append_nil (c.enc b)] at h
  exact hne (c.enc_append_inj ha hb h).1

/-- Another reader of the same values: it accepts their encodings and nothing else, and leaves
what follows unread. -/
def Reads {ε' : Type} (c : Codec ε α) (read : List UInt8 → Except ε' (α × List UInt8)) : Prop :=
  ∀ bs a rest, read bs = .ok (a, rest) ↔ c.Valid a ∧ bs = c.enc a ++ rest

theorem Reads.enc_append {ε' : Type} {c : Codec ε α}
    {read : List UInt8 → Except ε' (α × List UInt8)} (h : c.Reads read) {a : α} (ha : c.Valid a)
    (rest : List UInt8) : read (c.enc a ++ rest) = .ok (a, rest) :=
  (h _ _ _).mpr ⟨ha, rfl⟩

theorem Reads.eq_enc {ε' : Type} {c : Codec ε α}
    {read : List UInt8 → Except ε' (α × List UInt8)} (h : c.Reads read) {x : List UInt8} {a : α}
    (hx : read x = .ok (a, [])) : x = c.enc a := by
  rw [((h _ _ _).mp hx).2, List.append_nil]

/-- Carry the values of `α` inside those of `β`: `f` embeds, `g` recognises its image. -/
def refine (c : Codec ε β) (f : α → β) (g : β → Except ε α)
    (hfg : ∀ b a, g b = .ok a ↔ b = f a) : Codec ε α where
  enc a := c.enc (f a)
  dec bs := do
    let (b, rest) ← c.dec bs
    let a ← g b
    return (a, rest)
  Valid a := c.Valid (f a)
  enc_ne_nil a := c.enc_ne_nil (f a)
  dec_enc a rest hv := by
    have hg : g (f a) = .ok a := (hfg _ _).mpr rfl
    simp [c.dec_enc _ rest hv, hg, bind, Except.bind, pure, Except.pure]
  enc_dec bs a rest h := by
    obtain ⟨⟨b, r⟩, hb, h⟩ := Except.bind_eq_ok.mp h
    obtain ⟨a', ha', h⟩ := Except.bind_eq_ok.mp h
    simp only [pure, Except.pure, Except.ok.injEq, Prod.mk.injEq] at h
    obtain ⟨rfl, rfl⟩ := h
    obtain ⟨hv, hbs⟩ := c.enc_dec bs b r hb
    rw [(hfg b a').mp ha'] at hv hbs
    exact ⟨hv, hbs⟩

end Codec

namespace Payload

variable {ε α β : Type}

/-- The decoder's answer in one equivalence. -/
theorem dec_eq_ok (p : Payload ε α) {bs : List UInt8} {a : α} :
    p.dec bs = .ok a ↔ p.Valid a ∧ bs = p.enc a := by
  constructor
  · exact p.enc_dec bs a
  · rintro ⟨hv, rfl⟩
    exact p.dec_enc a hv

/-- Nothing; `e` is the answer to leftover bytes. -/
def nil (e : ε) : Payload ε Unit where
  enc _ := []
  dec bs := if bs = [] then .ok () else .error e
  Valid _ := True
  dec_enc _ _ := rfl
  enc_dec bs a h := by
    by_cases hb : bs = []
    · exact ⟨trivial, hb⟩
    · rw [if_neg hb] at h
      cases h

/-- A value and then a payload. -/
def cons (c : Codec ε α) (p : Payload ε β) : Payload ε (α × β) where
  enc x := c.enc x.1 ++ p.enc x.2
  dec bs := do
    let (a, rest) ← c.dec bs
    let b ← p.dec rest
    return (a, b)
  Valid x := c.Valid x.1 ∧ p.Valid x.2
  dec_enc x hv := by
    simp [c.dec_enc x.1 _ hv.1, p.dec_enc x.2 hv.2, bind, Except.bind, pure, Except.pure]
  enc_dec bs x h := by
    obtain ⟨⟨a, r⟩, ha, h⟩ := Except.bind_eq_ok.mp h
    obtain ⟨b, hb, h⟩ := Except.bind_eq_ok.mp h
    simp only [pure, Except.pure, Except.ok.injEq] at h
    subst h
    obtain ⟨hva, hbs⟩ := c.enc_dec bs a r ha
    obtain ⟨hvb, hr⟩ := p.enc_dec r b hb
    exact ⟨⟨hva, hvb⟩, by rw [hbs, hr]⟩

/-- Nothing, or a value and then a payload. -/
def opt (c : Codec ε α) (p : Payload ε β) : Payload ε (Option (α × β)) where
  enc
    | none => []
    | some x => (cons c p).enc x
  dec bs := if bs = [] then .ok none else (cons c p).dec bs >>= fun x => .ok (some x)
  Valid x := ∀ y, x = some y → (cons c p).Valid y
  dec_enc x hv := by
    cases x with
    | none => simp
    | some y =>
      have hne : (cons c p).enc y ≠ [] := fun h =>
        c.enc_ne_nil y.1 (List.append_eq_nil_iff.mp h).1
      simp [hne, (cons c p).dec_enc y (hv y rfl), bind, Except.bind]
  enc_dec bs x h := by
    by_cases hb : bs = []
    · simp only [hb, if_true, Except.ok.injEq] at h
      subst h
      exact ⟨by simp, hb⟩
    · rw [if_neg hb] at h
      obtain ⟨y, hy, h⟩ := Except.bind_eq_ok.mp h
      obtain ⟨hv, hbs⟩ := (cons c p).enc_dec bs y hy
      simp only [Except.ok.injEq] at h
      subst h
      refine ⟨fun z hz => ?_, hbs⟩
      rw [← Option.some.inj hz]
      exact hv

/-- Read values until the input is used up.  Every value takes at least one byte, so the
input's length is fuel enough. -/
def readMany (read : List UInt8 → Except ε (α × List UInt8)) :
    ℕ → List UInt8 → Except ε (List α)
  | _, [] => .ok []
  | 0, _ :: _ => .ok []
  | n + 1, b :: bs => do
    let (a, rest) ← read (b :: bs)
    let as ← readMany read n rest
    return a :: as

/-- Reading back a written list, with fuel to spare. -/
theorem readMany_flatMap {read : List UInt8 → Except ε (α × List UInt8)} {enc : α → List UInt8}
    (hne : ∀ a, enc a ≠ []) (as : List α) (n : ℕ) (hn : (as.flatMap enc).length ≤ n)
    (hread : ∀ a ∈ as, ∀ rest, read (enc a ++ rest) = .ok (a, rest)) :
    readMany read n (as.flatMap enc) = .ok as := by
  induction as generalizing n with
  | nil => cases n <;> rfl
  | cons a as ih =>
    obtain ⟨b, bs, hb⟩ := List.exists_cons_of_ne_nil (hne a)
    have hlen : (a :: as).flatMap enc = b :: (bs ++ as.flatMap enc) := by
      rw [List.flatMap_cons, hb, List.cons_append]
    rw [hlen, List.length_cons, List.length_append] at hn
    obtain ⟨m, rfl⟩ : ∃ m, n = m + 1 := ⟨n - 1, by omega⟩
    have hdec : read (b :: (bs ++ as.flatMap enc)) = .ok (a, as.flatMap enc) := by
      rw [← List.cons_append, ← hb]
      exact hread a List.mem_cons_self _
    have has := ih m (by omega) fun x hx => hread x (List.mem_cons_of_mem a hx)
    rw [hlen]
    simp [readMany, hdec, has, bind, Except.bind, pure, Except.pure]

/-- A list that was read, fuel permitting: the bytes of its values, one after the other. -/
theorem readMany_eq_ok {read : List UInt8 → Except ε (α × List UInt8)}
    {R : α → List UInt8 → Prop} (hne : ∀ a x, R a x → x ≠ [])
    (hread : ∀ bs a rest, read bs = .ok (a, rest) → ∃ x, R a x ∧ bs = x ++ rest) (n : ℕ)
    (bs : List UInt8) (as : List α) (hn : bs.length ≤ n) (h : readMany read n bs = .ok as) :
    ∃ xs, List.Forall₂ R as xs ∧ bs = xs.flatten := by
  -- on the fuel: each value has at least a byte, so it lasts
  induction n generalizing bs as with
  | zero =>
    obtain rfl : bs = [] := List.length_eq_zero_iff.mp (Nat.le_zero.mp hn)
    obtain rfl := Except.ok.inj h
    exact ⟨[], .nil, rfl⟩
  | succ n ih =>
    cases bs with
    | nil =>
      obtain rfl := Except.ok.inj h
      exact ⟨[], .nil, rfl⟩
    | cons b bs =>
      obtain ⟨⟨a, rest⟩, ha, h⟩ := Except.bind_eq_ok.mp h
      obtain ⟨as', has, h⟩ := Except.bind_eq_ok.mp h
      obtain rfl := Except.ok.inj h
      obtain ⟨x, hx, hbs⟩ := hread _ a rest ha
      have hpos : 0 < x.length := List.length_pos_of_ne_nil (hne a x hx)
      have hlen : (b :: bs).length = x.length + rest.length := by
        rw [hbs, List.length_append]
      obtain ⟨xs, hxs, hrest⟩ := ih rest as' (by simp at hn hlen; omega) has
      exact ⟨x :: xs, .cons hx hxs, by rw [hbs, hrest, List.flatten_cons]⟩

/-- Values that are spelled in one way, one after the other. -/
theorem flatten_of_forall₂ {enc : α → List UInt8} {P : α → Prop} {as : List α}
    {xs : List (List UInt8)} (h : List.Forall₂ (fun a x => P a ∧ x = enc a) as xs) :
    (∀ a ∈ as, P a) ∧ xs.flatten = as.flatMap enc := by
  induction h with
  | nil => simp
  | cons hx _ ih =>
    obtain ⟨ha, rfl⟩ := hx
    exact ⟨List.forall_mem_cons.mpr ⟨ha, ih.1⟩, by rw [List.flatten_cons, ih.2, List.flatMap_cons]⟩

/-- Any number of values. -/
def many (c : Codec ε α) : Payload ε (List α) where
  enc as := as.flatMap c.enc
  dec bs := readMany c.dec bs.length bs
  Valid as := ∀ a ∈ as, c.Valid a
  dec_enc as hv :=
    readMany_flatMap c.enc_ne_nil as _ le_rfl fun a ha rest => c.dec_enc a rest (hv a ha)
  enc_dec bs as h := by
    obtain ⟨xs, hxs, rfl⟩ := readMany_eq_ok (R := fun a x => c.Valid a ∧ x = c.enc a)
      (fun a x hx => hx.2 ▸ c.enc_ne_nil a)
      (fun bs a rest ha => ⟨c.enc a, ⟨(c.enc_dec bs a rest ha).1, rfl⟩, (c.enc_dec bs a rest ha).2⟩)
      bs.length bs as le_rfl h
    exact flatten_of_forall₂ hxs

end Payload

/-! What takes few enough bytes can be carried. -/

section

variable {ε α β : Type} {n : ℕ}

/-- The values whose encodings are shorter than `n` bytes are valid. -/
def Codec.Carries (c : Codec ε α) (n : ℕ) : Prop := ∀ a, (c.enc a).length < n → c.Valid a

def Payload.Carries (p : Payload ε α) (n : ℕ) : Prop := ∀ a, (p.enc a).length < n → p.Valid a

theorem Codec.Carries.refine {c : Codec ε β} (h : c.Carries n) {f : α → β} {g : β → Except ε α}
    {hfg : ∀ b a, g b = .ok a ↔ b = f a} : (c.refine f g hfg).Carries n :=
  fun a ha => h (f a) ha

theorem Payload.carries_nil {e : ε} : (Payload.nil e).Carries n := fun _ _ => trivial

theorem Codec.Carries.cons {c : Codec ε α} {p : Payload ε β} (hc : c.Carries n)
    (hp : p.Carries n) : (Payload.cons c p).Carries n := by
  intro x hx
  have hlen : (c.enc x.1).length + (p.enc x.2).length < n := by
    rw [← List.length_append]
    exact hx
  exact ⟨hc x.1 (by omega), hp x.2 (by omega)⟩

/-- Each value of a list takes no more than the list does. -/
theorem Codec.Carries.many {c : Codec ε α} (h : c.Carries n) : (Payload.many c).Carries n := by
  intro as has a hmem
  have hsub : (c.enc a).Sublist (as.map c.enc).flatten :=
    List.sublist_flatten_of_mem (List.mem_map.mpr ⟨a, hmem, rfl⟩)
  rw [← List.flatMap_def] at hsub
  exact h a (hsub.length_le.trans_lt has)

end
