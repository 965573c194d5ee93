/-
# Ring buffers of a history

A chain keeps the last `n` values of a history in `n` cells: the value of slot `s` is written to
cell `s % n` when the chain moves on from `s` to `s + 1`.  `after` is the run of these writes.
`after_mod` says what the cells hold: cell `j % n` has the value of slot `j` for as long as it is
written and not overwritten, which is from slot `j + 1` to slot `j + n`.
-/
import Mathlib.Tactic

namespace Ring

variable {α : Type} (n : ℕ) (init f : ℕ → α)

/-- The cells in slot `s`: slots `0` to `s - 1` have been written, over the initial contents. -/
def after : ℕ → ℕ → α
  | 0 => init
  | s + 1 => Function.update (after s) (s % n) (f s)

/-- One step writes one cell. -/
theorem after_succ (s i : ℕ) :
    after n init f (s + 1) i = if i = s % n then f s else after n init f s i := by
  rw [after, Function.update_apply]

/-- **What the cells hold**, in every slot of a value's lifetime. -/
theorem after_mod {j s : ℕ} (hj : j < s) (hs : s ≤ j + n) : after n init f s (j % n) = f j := by
  induction s with
  | zero => omega
  | succ s ih =>
    rw [after_succ]
    by_cases heq : j = s
    · rw [if_pos (by rw [heq]), heq]
    · -- the cells of two slots less than `n` apart are different
      have hne : j % n ≠ s % n := by
        intro hmod
        have hdvd : n ∣ s - j := (Nat.modEq_iff_dvd' (by omega)).mp hmod
        have hle := Nat.le_of_dvd (by omega) hdvd
        omega
      rw [if_neg hne]
      exact ih (by omega) (by omega)

/-- A cell that has not been written holds what it held at the start. -/
theorem after_of_le {i s : ℕ} (hi : s ≤ i) (hn : i < n) : after n init f s i = init i := by
  induction s with
  | zero => rfl
  | succ s ih =>
    have hmod : s % n = s := Nat.mod_eq_of_lt (by omega)
    rw [after_succ, hmod, if_neg (by omega)]
    exact ih (by omega)

/-- At the start of a turn the cells hold the whole turn before it, in order. -/
theorem after_turn {k i : ℕ} (hi : i < n) : after n init f (k * n + n) i = f (k * n + i) := by
  have h := after_mod n init f (j := k * n + i) (s := k * n + n) (by omega) (by omega)
  rwa [Nat.mul_add_mod_of_lt hi] at h

/-- In the last slot of a turn the last cell is still that of the turn before. -/
theorem after_turn_last {k i : ℕ} (hi : i < n) :
    after n init f (k * n + (n - 1)) i
      = if i + 1 < n then f (k * n + i) else if k = 0 then init i else f (k * n - 1) := by
  by_cases hlast : i + 1 < n
  · have h := after_mod n init f (j := k * n + i) (s := k * n + (n - 1)) (by omega) (by omega)
    rw [Nat.mul_add_mod_of_lt hi] at h
    rw [if_pos hlast, h]
  · rw [if_neg hlast]
    cases k with
    | zero =>
      rw [if_pos rfl]
      exact after_of_le n init f (by omega) hi
    | succ k =>
      have hturn : (k + 1) * n = k * n + n := Nat.succ_mul k n
      have hprev : (k + 1) * n - 1 = k * n + i := by omega
      have h := after_mod n init f (j := k * n + i) (s := (k + 1) * n + (n - 1)) (by omega)
        (by omega)
      rw [Nat.mul_add_mod_of_lt hi] at h
      rw [if_neg (Nat.succ_ne_zero k), hprev, h]

end Ring
