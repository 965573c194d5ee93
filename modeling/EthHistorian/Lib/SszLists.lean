/-
# SSZ lists and vectors

The two layouts of a sequence.  Items of fixed width stand one after the other and are read in
chunks, the last of which may be short (`Ty.list`, `Ty.vector`).  Items of variable width stand
behind a table of offsets, whose first entry says how many there are (`Ty.variableList`).

The readers are those of the published implementation, with the order of its checks.  The second
one reads the table item by item, as it goes; `decodeVariableList_eq_ok` says that it accepts what
the strict reader of a container with that many variable fields would.
-/
import EthHistorian.Lib.SszTypes

namespace Ssz

open ByteString

variable {ε α : Type}

/-! ## 1. Items one after the other -/

/-- Read byte strings in order, up to the first failure. -/
def decodeAll (dec : List UInt8 → Outcome ε α) : List (List UInt8) → Outcome ε (List α)
  | [] => .ok []
  | p :: ps => do
    let a ← dec p
    let as ← decodeAll dec ps
    return a :: as

theorem decodeAll_cons_eq_ok {dec : List UInt8 → Outcome ε α} {p : List UInt8}
    {ps : List (List UInt8)} {as : List α} :
    decodeAll dec (p :: ps) = .ok as ↔
      ∃ a as', dec p = .ok a ∧ decodeAll dec ps = .ok as' ∧ a :: as' = as := by
  simp only [decodeAll, Outcome.bind_eq_ok, Outcome.pure_eq, Outcome.ok.injEq]
  constructor
  · rintro ⟨a, ha, as', has, rfl⟩
    exact ⟨a, as', ha, has, rfl⟩
  · rintro ⟨a, as', ha, has, rfl⟩
    exact ⟨a, ha, as', has, rfl⟩

/-- Where each reading is exact, so is reading them all. -/
theorem decodeAll_eq_ok {T : Ty ε α} {ps : List (List UInt8)}
    (hexact : ∀ p ∈ ps, ∀ a, T.dec p = .ok a ↔ T.Valid a ∧ p = T.enc a) {as : List α} :
    decodeAll T.dec ps = .ok as ↔ (∀ a ∈ as, T.Valid a) ∧ ps = as.map T.enc := by
  induction ps generalizing as with
  | nil =>
    rw [decodeAll, Outcome.ok.injEq]
    constructor
    · rintro rfl
      exact ⟨fun a ha => absurd ha List.not_mem_nil, rfl⟩
    · rintro ⟨-, h⟩
      exact (List.map_eq_nil_iff.mp h.symm).symm
  | cons p ps ih =>
    have htail : ∀ as, decodeAll T.dec ps = .ok as ↔
        (∀ a ∈ as, T.Valid a) ∧ ps = as.map T.enc := fun as =>
      ih fun q hq => hexact q (List.mem_cons_of_mem p hq)
    rw [decodeAll_cons_eq_ok]
    constructor
    · rintro ⟨a, as', ha, has, rfl⟩
      obtain ⟨hv, rfl⟩ := (hexact p List.mem_cons_self a).mp ha
      obtain ⟨hvs, rfl⟩ := (htail as').mp has
      exact ⟨List.forall_mem_cons.mpr ⟨hv, hvs⟩, rfl⟩
    · rintro ⟨hvs, heq⟩
      cases as with
      | nil => cases heq
      | cons a as =>
        obtain ⟨hv, hvs⟩ := List.forall_mem_cons.mp hvs
        obtain ⟨rfl, rfl⟩ := List.cons.inj heq
        exact ⟨a, as, (hexact _ List.mem_cons_self a).mpr ⟨hv, rfl⟩,
          (htail as).mpr ⟨hvs, rfl⟩, rfl⟩

theorem decodeAll_returns {dec : List UInt8 → Outcome ε α} {ps : List (List UInt8)}
    (hret : ∀ p ∈ ps, (dec p).Returns) : (decodeAll dec ps).Returns := by
  induction ps with
  | nil => exact fun msg h => by cases h
  | cons p ps ih =>
    intro msg hpanic
    rcases Outcome.bind_eq_panic.mp hpanic with h | ⟨a, -, h⟩
    · exact hret p List.mem_cons_self msg h
    · rcases Outcome.bind_eq_panic.mp h with h | ⟨as, -, h⟩
      · exact ih (fun q hq => hret q (List.mem_cons_of_mem p hq)) msg h
      · cases h

/-- `chunks(n)`: the last one may be short. -/
def chunks (n : ℕ) (bs : List UInt8) : List (List UInt8) :=
  go bs.length bs
where
  go : ℕ → List UInt8 → List (List UInt8)
    | 0, _ => []
    | fuel + 1, bs => if bs = [] then [] else bs.take n :: go fuel (bs.drop n)

/-- Chunks put together again. -/
theorem flatten_chunks {n : ℕ} (hn : 0 < n) (bs : List UInt8) : (chunks n bs).flatten = bs := by
  have hgo : ∀ (fuel : ℕ) (bs : List UInt8), bs.length ≤ fuel →
      (chunks.go n fuel bs).flatten = bs := by
    intro fuel
    induction fuel with
    | zero => exact fun bs h => (List.length_eq_zero_iff.mp (Nat.le_zero.mp h)).symm
    | succ fuel ih =>
      intro bs h
      rw [chunks.go]
      split
      · rename_i hbs
        rw [hbs]
        rfl
      · have hdrop : (bs.drop n).length ≤ fuel := by
          rw [List.length_drop]
          omega
        rw [List.flatten_cons, ih _ hdrop, List.take_append_drop]
  exact hgo bs.length bs le_rfl

/-- Items of one width are the chunks of what they make. -/
theorem chunks_flatten {n : ℕ} (hn : 0 < n) {ps : List (List UInt8)}
    (hps : ∀ p ∈ ps, p.length = n) : chunks n ps.flatten = ps := by
  have hgo : ∀ (ps : List (List UInt8)) (fuel : ℕ), (∀ p ∈ ps, p.length = n) →
      ps.flatten.length ≤ fuel → chunks.go n fuel ps.flatten = ps := by
    intro ps
    induction ps with
    | nil =>
      intro fuel _ _
      cases fuel <;> rfl
    | cons p ps ih =>
      intro fuel hlen hfuel
      have hp := hlen p List.mem_cons_self
      rw [List.flatten_cons, List.length_append] at hfuel
      obtain ⟨m, rfl⟩ : ∃ m, fuel = m + 1 := ⟨fuel - 1, by omega⟩
      have hne : p ++ ps.flatten ≠ [] := by
        intro h
        rw [(List.append_eq_nil_iff.mp h).1, List.length_nil] at hp
        omega
      rw [List.flatten_cons, chunks.go, if_neg hne, List.take_left' hp, List.drop_left' hp,
        ih m (fun q hq => hlen q (List.mem_cons_of_mem p hq)) (by omega)]
  exact hgo ps _ hps le_rfl

/-- Where the width goes into the length, no chunk is short. -/
theorem length_of_mem_chunks {n k : ℕ} {bs : List UInt8} (hlen : bs.length = k * n)
    {p : List UInt8} (hp : p ∈ chunks n bs) : p.length = n := by
  have hgo : ∀ (k fuel : ℕ) (bs : List UInt8), bs.length = k * n →
      ∀ p ∈ chunks.go n fuel bs, p.length = n := by
    intro k fuel
    induction fuel generalizing k with
    | zero => exact fun bs _ p hp => absurd hp List.not_mem_nil
    | succ fuel ih =>
      intro bs hbs p hp
      rw [chunks.go] at hp
      split at hp
      · exact absurd hp List.not_mem_nil
      · rename_i hne
        obtain ⟨m, rfl⟩ : ∃ m, k = m + 1 := by
          refine ⟨k - 1, ?_⟩
          have hpos := List.length_pos_of_ne_nil hne
          rw [hbs] at hpos
          have hk := Nat.pos_of_mul_pos_right hpos
          omega
        rw [Nat.add_mul, Nat.one_mul] at hbs
        rcases List.mem_cons.mp hp with rfl | hp
        · rw [List.length_take]
          omega
        · exact ih m _ (by rw [List.length_drop]; omega) p hp
  exact hgo k _ bs hlen p hp

theorem length_flatten_map_enc {T : Ty ε α} {n : ℕ} (hslot : T.slot = .fixed n) (as : List α) :
    (as.map T.enc).flatten.length = as.length * n := by
  induction as with
  | nil => simp
  | cons a as ih =>
    have ha : (T.enc a).length = n := by
      have hadm := T.admits_enc a
      rwa [hslot] at hadm
    rw [List.map_cons, List.flatten_cons, List.length_append, ih, ha, List.length_cons,
      Nat.add_mul, Nat.one_mul, Nat.add_comm]

/-- Chunks of a type's width are read exactly, when none is short or short ones are refused. -/
theorem decodeAll_chunks_eq_ok {T : Ty ε α} {n : ℕ} (hslot : T.slot = .fixed n) (hn : 0 < n)
    {bs : List UInt8}
    (hexact : ∀ p ∈ chunks n bs, ∀ a, T.dec p = .ok a ↔ T.Valid a ∧ p = T.enc a)
    {as : List α} :
    decodeAll T.dec (chunks n bs) = .ok as ↔
      (∀ a ∈ as, T.Valid a) ∧ bs = (as.map T.enc).flatten := by
  have hlen : ∀ p ∈ as.map T.enc, p.length = n := by
    intro p hp
    obtain ⟨a, -, rfl⟩ := List.mem_map.mp hp
    have hadm := T.admits_enc a
    rwa [hslot] at hadm
  rw [decodeAll_eq_ok hexact]
  refine and_congr_right fun _ => ⟨fun h => ?_, ?_⟩
  · rw [← h, flatten_chunks hn]
  · rintro rfl
    exact chunks_flatten hn hlen

section

variable [Refusal ε]

/-- The reader of a list of at most `N` items of `n` bytes each. -/
def decodeList (dec : List UInt8 → Outcome ε α) (n N : ℕ) (bs : List UInt8) :
    Outcome ε (List α) :=
  if bs = [] then .ok []
  else
    let numItems := bs.length / n
    if numItems > N then
      .err (Refusal.of (.bytesInvalid
        s!"VariableList of {numItems} items exceeds maximum of {N}"))
    else decodeAll dec (chunks n bs)

/-- And of a vector of exactly `N`. -/
def decodeVector (dec : List UInt8 → Outcome ε α) (n N : ℕ) (bs : List UInt8) :
    Outcome ε {as : List α // as.length = N} :=
  if bs = [] then .err (Refusal.of (.invalidByteLength 0 1))
  else
    let numItems := bs.length / n
    if numItems ≠ N then
      .err (Refusal.of (.bytesInvalid s!"FixedVector of {numItems} items has {N} items"))
    else do
      let as ← decodeAll dec (chunks n bs)
      if h : as.length = N then .ok ⟨as, h⟩
      else .err (Refusal.of (.bytesInvalid "Wrong number of FixedVector elements"))

variable {T : Ty ε α} {n N : ℕ}

theorem decodeList_eq_ok (hslot : T.slot = .fixed n) (hn : 0 < n) (hstrict : T.Strict)
    {bs : List UInt8} {as : List α} :
    decodeList T.dec n N bs = .ok as ↔
      ((∀ a ∈ as, T.Valid a) ∧ as.length ≤ N) ∧ bs = (as.map T.enc).flatten := by
  have hread : decodeAll T.dec (chunks n bs) = .ok as ↔
      (∀ a ∈ as, T.Valid a) ∧ bs = (as.map T.enc).flatten :=
    decodeAll_chunks_eq_ok hslot hn fun p _ a => hstrict.dec_eq_ok
  have hcount : bs = (as.map T.enc).flatten → bs.length / n = as.length := by
    rintro rfl
    rw [length_flatten_map_enc hslot, Nat.mul_div_cancel _ hn]
  unfold decodeList
  split
  · rename_i hbs
    rw [hbs, Outcome.ok.injEq]
    constructor
    · rintro rfl
      exact ⟨⟨fun a ha => absurd ha List.not_mem_nil, Nat.zero_le N⟩, rfl⟩
    · rintro ⟨-, heq⟩
      have hzero := hcount (hbs.trans heq)
      rw [hbs, List.length_nil, Nat.zero_div] at hzero
      exact (List.length_eq_zero_iff.mp hzero.symm).symm
  · dsimp only
    split
    · rename_i hlong
      refine iff_of_false (fun h => by cases h) ?_
      rintro ⟨⟨-, hle⟩, heq⟩
      rw [hcount heq] at hlong
      omega
    · rename_i hshort
      rw [hread]
      constructor
      · rintro ⟨hv, heq⟩
        rw [hcount heq] at hshort
        exact ⟨⟨hv, not_lt.mp hshort⟩, heq⟩
      · rintro ⟨⟨hv, -⟩, heq⟩
        exact ⟨hv, heq⟩

theorem decodeVector_eq_ok (hslot : T.slot = .fixed n) (hn : 0 < n) (hN : 0 < N)
    {bs : List UInt8} (hadm : bs.length = N * n) {as : {as : List α // as.length = N}} :
    decodeVector T.dec n N bs = .ok as ↔
      (∀ a ∈ as.val, T.Valid a) ∧ bs = (as.val.map T.enc).flatten := by
  have hread : ∀ {as : List α}, decodeAll T.dec (chunks n bs) = .ok as ↔
      (∀ a ∈ as, T.Valid a) ∧ bs = (as.map T.enc).flatten := fun {as} =>
    decodeAll_chunks_eq_ok hslot hn fun p hp a => T.dec_eq_ok (by
      rw [hslot]
      exact length_of_mem_chunks hadm hp)
  have hne : bs ≠ [] := fun h => by
    have hpos := Nat.mul_pos hN hn
    rw [← hadm, h, List.length_nil] at hpos
    exact Nat.lt_irrefl 0 hpos
  have hcount : ¬ bs.length / n ≠ N := by
    rw [hadm, Nat.mul_div_cancel _ hn]
    exact not_not.mpr rfl
  rw [decodeVector, if_neg hne]
  dsimp only
  rw [if_neg hcount, Outcome.bind_eq_ok]
  constructor
  · rintro ⟨as', has, h⟩
    split at h
    · obtain rfl := Outcome.ok.inj h
      exact hread.mp has
    · cases h
  · intro h
    refine ⟨as.val, hread.mpr h, ?_⟩
    rw [dif_pos as.property]

/-- A list of at most `N` items of fixed width.  What does not fit would be dropped. -/
def Ty.list (N : ℕ) (T : Ty ε α) (hslot : T.slot = .fixed n) (hn : 0 < n) (hstrict : T.Strict) :
    Ty ε {as : List α // as.length ≤ N} where
  slot := .dynamic
  enc as := (as.val.map T.enc).flatten
  dec bs := do
    let as ← decodeList T.dec n N bs
    return ⟨as.take N, List.length_take_le N as⟩
  Valid as := ∀ a ∈ as.val, T.Valid a
  admits_enc _ := trivial
  dec_eq_ok := by
    intro bs as _
    rw [Outcome.bind_eq_ok]
    constructor
    · rintro ⟨as', has, h⟩
      obtain rfl := Outcome.ok.inj h
      obtain ⟨⟨hv, hle⟩, rfl⟩ := (decodeList_eq_ok hslot hn hstrict).mp has
      dsimp only
      rw [List.take_of_length_le hle]
      exact ⟨hv, rfl⟩
    · rintro ⟨hv, rfl⟩
      refine ⟨as.val, (decodeList_eq_ok hslot hn hstrict).mpr ⟨⟨hv, as.property⟩, rfl⟩, ?_⟩
      exact congrArg Outcome.ok (Subtype.ext (List.take_of_length_le as.property))
  returns := by
    intro bs _ msg hpanic
    rcases Outcome.bind_eq_panic.mp hpanic with h | ⟨as, -, h⟩
    · unfold decodeList at h
      split at h
      · cases h
      · dsimp only at h
        split at h
        · cases h
        · exact decodeAll_returns (fun p _ => hstrict.returns p) msg h
    · cases h
  valid_of_length_lt as hlen := by
    intro a ha
    have hsub : (T.enc a).Sublist (as.val.map T.enc).flatten :=
      List.sublist_flatten_of_mem (List.mem_map.mpr ⟨a, ha, rfl⟩)
    exact T.valid_of_length_lt a (hsub.length_le.trans_lt hlen)

/-- A vector of `N` items of fixed width. -/
def Ty.vector (N : ℕ) (hN : 0 < N) (T : Ty ε α) (hslot : T.slot = .fixed n) (hn : 0 < n) :
    Ty ε {as : List α // as.length = N} where
  slot := .fixed (N * n)
  enc as := (as.val.map T.enc).flatten
  dec := decodeVector T.dec n N
  Valid as := ∀ a ∈ as.val, T.Valid a
  admits_enc as := (length_flatten_map_enc hslot as.val).trans (by rw [as.property])
  dec_eq_ok := fun hadm => decodeVector_eq_ok hslot hn hN hadm
  returns := by
    intro bs hadm msg hpanic
    have hret : ∀ p ∈ chunks n bs, (T.dec p).Returns := fun p hp => T.returns (by
      rw [hslot]
      exact length_of_mem_chunks hadm hp)
    unfold decodeVector at hpanic
    split at hpanic
    · cases hpanic
    · dsimp only at hpanic
      split at hpanic
      · cases hpanic
      · rcases Outcome.bind_eq_panic.mp hpanic with h | ⟨as, -, h⟩
        · exact decodeAll_returns hret msg h
        · split at h <;> cases h
  valid_of_length_lt as hlen := by
    intro a ha
    have hsub : (T.enc a).Sublist (as.val.map T.enc).flatten :=
      List.sublist_flatten_of_mem (List.mem_map.mpr ⟨a, ha, rfl⟩)
    exact T.valid_of_length_lt a (hsub.length_le.trans_lt hlen)

end

/-! ## 2. Items behind offsets -/

section

variable [ListRefusal ε]

/-- An offset in a list: it may not point into the table either. -/
def sanitizeItemOffset (offset previousOffset numBytes numFixedBytes : ℕ) :
    Except DecodeError ℕ :=
  if offset < numFixedBytes then .error (.offsetIntoFixedPortion offset)
  else sanitizeOffset offset (some previousOffset) numBytes

/-- The item at `offset`, and `k` more, the next of which has the `i`-th offset of the table. -/
def readItems (dec : List UInt8 → Outcome ε α) (bs : List UInt8) (first : ℕ) :
    ℕ → ℕ → ℕ → Outcome ε (List α)
  | 0, _, offset => do
    let a ← dec (bs.drop offset)
    return [a]
  | k + 1, i, offset => do
    let raw ← refuse (readOffset (bs.drop (4 * i)))
    let next ← refuse (sanitizeItemOffset raw offset bs.length first)
    let a ← dec ((bs.drop offset).take (next - offset))
    let as ← readItems dec bs first k (i + 1) next
    return a :: as

/-- `decode_list_of_variable_length_items`: the first offset says how many items there are. -/
def decodeVariableList (dec : List UInt8 → Outcome ε α) (N : ℕ) (bs : List UInt8) :
    Outcome ε (List α) :=
  if bs = [] then .ok []
  else do
    let first ← refuse (readOffset bs)
    if first > bs.length then .err (Refusal.of (.offsetOutOfBounds first))
    else if first % 4 ≠ 0 ∨ first < 4 then .err (ListRefusal.invalidListFixedBytesLen first)
    else
      let numItems := first / 4
      if numItems > N then
        .err (Refusal.of (.bytesInvalid
          s!"Variable length list of {numItems} items exceeds maximum of Some({N})"))
      else readItems dec bs first (numItems - 1) 1 first

theorem sanitizeItemOffset_eq_ok {o prev n first next : ℕ} (hprev : first ≤ prev) :
    sanitizeItemOffset o prev n first = .ok next ↔ next = o ∧ o ≤ n ∧ prev ≤ o := by
  unfold sanitizeItemOffset
  split
  · refine iff_of_false (fun h => by cases h) ?_
    rintro ⟨-, -, hle⟩
    omega
  · rw [sanitizeOffset_eq_ok, Option.getD_some]

/-- The table is registered as the head of a container would be. -/
theorem readItems_eq_ok {dec : List UInt8 → Outcome ε α} {bs : List UInt8} {first : ℕ}
    (k i offset : ℕ) (hfirst : first ≤ offset) {as : List α} :
    readItems dec bs first k i offset = .ok as ↔
      ∃ items, register bs (List.replicate k .dynamic) (4 * i) (some offset) = .ok items ∧
        decodeAll dec (fill bs (.offset offset :: items)) = .ok as := by
  induction k generalizing i offset as with
  | zero =>
    -- the last item takes the rest
    have hfill : fill bs [.offset offset] = [bs.drop offset] := by
      have hall : (bs.drop offset).take (bs.length - offset) = bs.drop offset :=
        List.take_of_length_le (by rw [List.length_drop])
      change [(bs.drop offset).take (bs.length - offset)] = _
      rw [hall]
    have hread : readItems dec bs first 0 i offset = decodeAll dec [bs.drop offset] := rfl
    rw [hread]
    constructor
    · intro h
      exact ⟨[], rfl, by rw [hfill]; exact h⟩
    · rintro ⟨items, hreg, h⟩
      obtain rfl := Except.ok.inj hreg
      rwa [hfill] at h
  | succ k ih =>
    rw [List.replicate_succ]
    simp only [readItems, Outcome.bind_eq_ok, refuse_eq_ok, sanitizeItemOffset_eq_ok hfirst,
      Outcome.pure_eq, Outcome.ok.injEq, readOffset_eq_ok]
    constructor
    · rintro ⟨o, ⟨hlt, hbytes⟩, next, ⟨rfl, hle, hmono⟩, a, ha, as', has, rfl⟩
      obtain ⟨items, hreg, hall⟩ := (ih (i + 1) next (hfirst.trans hmono)).mp has
      refine ⟨.offset next :: items, register_dynamic_eq_ok.mpr
        ⟨next, items, hlt, hbytes, hle, hmono, hreg, rfl⟩, ?_⟩
      exact decodeAll_cons_eq_ok.mpr ⟨a, as', ha, hall, rfl⟩
    · rintro ⟨items, hreg, hall⟩
      obtain ⟨next, items', hlt, hbytes, hle, hmono, hreg', rfl⟩ := register_dynamic_eq_ok.mp hreg
      obtain ⟨a, as', ha, has, rfl⟩ := decodeAll_cons_eq_ok.mp hall
      have hmono' : offset ≤ next := hmono
      exact ⟨next, ⟨hlt, hbytes⟩, next, ⟨rfl, hle, hmono'⟩, a, ha, as',
        (ih (i + 1) next (hfirst.trans hmono')).mpr ⟨items', hreg', has⟩, rfl⟩

theorem readItems_returns {dec : List UInt8 → Outcome ε α} (hret : ∀ p, (dec p).Returns)
    {bs : List UInt8} {first : ℕ} (k i offset : ℕ) :
    (readItems dec bs first k i offset).Returns := by
  induction k generalizing i offset with
  | zero =>
    intro msg hpanic
    rcases Outcome.bind_eq_panic.mp hpanic with h | ⟨a, -, h⟩
    · exact hret _ msg h
    · cases h
  | succ k ih =>
    intro msg hpanic
    simp only [readItems, Outcome.bind_eq_panic, refuse_ne_panic, false_or, Outcome.pure_eq,
      reduceCtorEq, and_false, exists_false, or_false] at hpanic
    obtain ⟨-, -, next, -, h | ⟨a, -, h⟩⟩ := hpanic
    · exact hret _ msg h
    · exact ih (i + 1) next msg h

end

/-- The slots of `n` items behind offsets. -/
def itemSlots (n : ℕ) : List Slot := List.replicate n .dynamic

theorem fixedWidth_itemSlots (n : ℕ) : fixedWidth (itemSlots n) = 4 * n := by
  induction n with
  | zero => rfl
  | succ n ih =>
    rw [itemSlots, List.replicate_succ, fixedWidth_cons, ← itemSlots, ih, Slot.width]
    omega

theorem admits_itemSlots (ps : List (List UInt8)) :
    List.Forall₂ Slot.Admits (itemSlots ps.length) ps := by
  induction ps with
  | nil => exact .nil
  | cons p ps ih => exact .cons trivial ih

/-- What the strict reader does with a table of offsets. -/
theorem decode_itemSlots_eq_ok {bs : List UInt8} {k : ℕ} {parts : List (List UInt8)} :
    decode (itemSlots (k + 1)) bs = .ok parts ↔
      readOffset bs = .ok (4 * (k + 1)) ∧ 4 * (k + 1) ≤ bs.length ∧
        ∃ items, register bs (itemSlots k) 4 (some (4 * (k + 1))) = .ok items ∧
          fill bs (.offset (4 * (k + 1)) :: items) = parts := by
  have hwidth := fixedWidth_itemSlots (k + 1)
  unfold decode
  rw [Except.bind_eq_ok, hwidth]
  constructor
  · rintro ⟨items, hreg, h⟩
    obtain ⟨first, items, hlt, hbytes, hle, -, hrest, rfl⟩ := register_dynamic_eq_ok.mp hreg
    dsimp only [firstOffset] at h
    split at h
    · cases h
    · split at h
      · cases h
      · obtain rfl : first = 4 * (k + 1) := by omega
        exact ⟨readOffset_eq_ok.mpr ⟨hlt, hbytes⟩, hle, items, hrest, Except.ok.inj h⟩
  · rintro ⟨hread, hle, items, hreg, rfl⟩
    obtain ⟨hlt, hbytes⟩ := readOffset_eq_ok.mp hread
    refine ⟨.offset (4 * (k + 1)) :: items, register_dynamic_eq_ok.mpr
      ⟨_, items, hlt, hbytes, hle, Nat.zero_le _, hreg, rfl⟩, ?_⟩
    dsimp only [firstOffset]
    rw [if_neg (Nat.lt_irrefl _), if_neg (Nat.lt_irrefl _)]

section

variable [ListRefusal ε]

/-- **A list is read as the container of its items**, one more than the table's first offset
leaves room for. -/
theorem decodeVariableList_eq_ok {dec : List UInt8 → Outcome ε α} {N : ℕ} {bs : List UInt8}
    (hne : bs ≠ []) {as : List α} :
    decodeVariableList dec N bs = .ok as ↔
      ∃ k parts, k + 1 ≤ N ∧ decode (itemSlots (k + 1)) bs = .ok parts ∧
        decodeAll dec parts = .ok as := by
  rw [decodeVariableList, if_neg hne]
  simp only [Outcome.bind_eq_ok, refuse_eq_ok]
  constructor
  · rintro ⟨first, hread, h⟩
    split at h
    · cases h
    · rename_i hle
      split at h
      · cases h
      · rename_i htable
        split at h
        · cases h
        · rename_i hN
          obtain ⟨k, rfl⟩ : ∃ k, first = 4 * (k + 1) := ⟨first / 4 - 1, by omega⟩
          have hnum : 4 * (k + 1) / 4 = k + 1 := by omega
          rw [hnum, Nat.add_sub_cancel] at h
          obtain ⟨items, hreg, hall⟩ := (readItems_eq_ok k 1 _ le_rfl).mp h
          exact ⟨k, _, by omega, decode_itemSlots_eq_ok.mpr
            ⟨hread, by omega, items, hreg, rfl⟩, hall⟩
  · rintro ⟨k, parts, hN, hdec, hall⟩
    obtain ⟨hread, hle, items, hreg, rfl⟩ := decode_itemSlots_eq_ok.mp hdec
    have hnum : 4 * (k + 1) / 4 = k + 1 := by omega
    refine ⟨4 * (k + 1), hread, ?_⟩
    rw [if_neg (by omega), if_neg (by omega), hnum, if_neg (by omega), Nat.add_sub_cancel]
    exact (readItems_eq_ok k 1 _ le_rfl).mpr ⟨items, hreg, hall⟩

/-- What such a list accepts, for items of variable width. -/
theorem decodeVariableList_dec_eq_ok {T : Ty ε α} (hslot : T.slot = .dynamic) {N : ℕ}
    {bs : List UInt8} {as : List α} :
    decodeVariableList T.dec N bs = .ok as ↔
      (((∀ a ∈ as, T.Valid a) ∧
        Fits (4 * as.length) (itemSlots as.length) (as.map T.enc)) ∧ as.length ≤ N) ∧
      bs = encode (itemSlots as.length) (as.map T.enc) := by
  have hadm : List.Forall₂ Slot.Admits (itemSlots as.length) (as.map T.enc) := by
    have h := admits_itemSlots (as.map T.enc)
    rwa [List.length_map] at h
  have hwidth := fixedWidth_itemSlots as.length
  have hread : ∀ {ps : List (List UInt8)}, decodeAll T.dec ps = .ok as ↔
      (∀ a ∈ as, T.Valid a) ∧ ps = as.map T.enc := fun {ps} =>
    decodeAll_eq_ok fun p _ a => T.dec_eq_ok (T.admits_of_dynamic hslot p)
  by_cases hbs : bs = []
  · rw [decodeVariableList, if_pos hbs, hbs, Outcome.ok.injEq]
    constructor
    · rintro rfl
      exact ⟨⟨⟨fun a ha => absurd ha List.not_mem_nil, trivial⟩, Nat.zero_le N⟩, rfl⟩
    · rintro ⟨-, heq⟩
      have hlen := congrArg List.length heq
      rw [length_encode hadm, hwidth, List.length_nil] at hlen
      exact (List.length_eq_zero_iff.mp (by omega)).symm
  · rw [decodeVariableList_eq_ok hbs]
    constructor
    · rintro ⟨k, parts, hN, hdec, hall⟩
      obtain ⟨hfit, rfl⟩ := decode_eq_ok.mp hdec
      obtain ⟨hv, rfl⟩ := hread.mp hall
      have hcount : as.length = k + 1 := by
        have h := hfit.admits.length_eq
        rw [itemSlots, List.length_replicate, List.length_map] at h
        exact h.symm
      rw [← hcount] at hfit
      rw [hwidth] at hfit
      exact ⟨⟨⟨hv, hfit⟩, by omega⟩, by rw [hcount]⟩
    · rintro ⟨⟨⟨hv, hfit⟩, hN⟩, rfl⟩
      obtain ⟨k, hk⟩ : ∃ k, as.length = k + 1 := by
        refine ⟨as.length - 1, ?_⟩
        by_contra hzero
        refine hbs ?_
        obtain rfl : as = [] := List.length_eq_zero_iff.mp (by omega)
        rfl
      refine ⟨k, as.map T.enc, by omega, decode_eq_ok.mpr ⟨?_, by rw [hk]⟩, hread.mpr ⟨hv, rfl⟩⟩
      rw [← hk, hwidth]
      exact hfit

/-- A list of at most `N` items of variable width. -/
def Ty.variableList (N : ℕ) (T : Ty ε α) (hslot : T.slot = .dynamic) :
    Ty ε {as : List α // as.length ≤ N} where
  slot := .dynamic
  enc as := encode (itemSlots as.val.length) (as.val.map T.enc)
  dec bs := do
    let as ← decodeVariableList T.dec N bs
    return ⟨as.take N, List.length_take_le N as⟩
  Valid as := (∀ a ∈ as.val, T.Valid a) ∧
    Fits (4 * as.val.length) (itemSlots as.val.length) (as.val.map T.enc)
  admits_enc _ := trivial
  dec_eq_ok := by
    intro bs as _
    rw [Outcome.bind_eq_ok]
    constructor
    · rintro ⟨as', has, h⟩
      obtain rfl := Outcome.ok.inj h
      obtain ⟨⟨hv, hle⟩, hbs⟩ := (decodeVariableList_dec_eq_ok hslot).mp has
      dsimp only
      rw [List.take_of_length_le hle]
      exact ⟨hv, hbs⟩
    · rintro ⟨hv, hbs⟩
      refine ⟨as.val, (decodeVariableList_dec_eq_ok hslot).mpr ⟨⟨hv, as.property⟩, hbs⟩, ?_⟩
      exact congrArg Outcome.ok (Subtype.ext (List.take_of_length_le as.property))
  returns := by
    intro bs _ msg hpanic
    rcases Outcome.bind_eq_panic.mp hpanic with h | ⟨as, -, h⟩
    · unfold decodeVariableList at h
      split at h
      · cases h
      · rcases Outcome.bind_eq_panic.mp h with h | ⟨first, -, h⟩
        · exact refuse_ne_panic h
        · split at h
          · cases h
          · split at h
            · cases h
            · dsimp only at h
              split at h
              · cases h
              · exact readItems_returns
                  (fun p => T.returns (T.admits_of_dynamic hslot p)) _ _ _ msg h
    · cases h
  valid_of_length_lt as hlen := by
    have hadm : List.Forall₂ Slot.Admits (itemSlots as.val.length) (as.val.map T.enc) := by
      have h := admits_itemSlots (as.val.map T.enc)
      rwa [List.length_map] at h
    rw [length_encode hadm, fixedWidth_itemSlots] at hlen
    obtain ⟨-, hparts⟩ := length_parts_le hadm
    rw [fixedWidth_itemSlots] at hparts
    refine ⟨fun a ha => T.valid_of_length_lt a ?_, fits_of_length_lt hadm hlen⟩
    exact (hparts _ (List.mem_map.mpr ⟨a, ha, rfl⟩)).trans_lt hlen

end

end Ssz
