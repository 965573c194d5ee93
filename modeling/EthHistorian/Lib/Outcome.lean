/-
# Computations that return, fail, or abort

A call of a systems language ends in one of three ways: it returns a value, it returns an
error value the caller can inspect, or it aborts (an index out of bounds, a failed assertion,
an unwrapped absence).  `Outcome` keeps the last two apart, so that "this function never
aborts" is a statement about the model and not a side condition of its translation.

`bind` runs on after `ok` only.  The inversion lemmas `bind_eq_ok`, `bind_eq_panic` and
`require_eq_ok` say once what a sequence can have done, so that callers take a computation
apart without unfolding it.
-/
import Mathlib.Tactic

universe u v w

/-- The result of a call: a value, an error value, or an abort with its message. -/
inductive Outcome (ε : Type u) (α : Type v) where
  | ok (a : α)
  | err (e : ε)
  | panic (msg : String)
  deriving DecidableEq, Repr

namespace Outcome

variable {ε : Type u} {ε' : Type w} {α : Type v} {β : Type v}

/-- Run on after a value; an error or an abort ends the sequence. -/
protected def bind (x : Outcome ε α) (f : α → Outcome ε β) : Outcome ε β :=
  match x with
  | ok a => f a
  | err e => err e
  | panic msg => panic msg

instance : Monad (Outcome ε) where
  pure := ok
  bind := Outcome.bind

/-- Rewrite the error value; a value or an abort passes through. -/
def mapErr (f : ε → ε') : Outcome ε α → Outcome ε' α
  | ok a => ok a
  | err e => err (f e)
  | panic msg => panic msg

/-- A pure fallible computation never aborts. -/
def ofExcept : Except ε α → Outcome ε α
  | .ok a => ok a
  | .error e => err e

/-- Go on if the condition holds, return the error otherwise. -/
def require (b : Bool) (e : ε) : Outcome ε PUnit.{v + 1} := if b then ok ⟨⟩ else err e

/-- Take the value, abort with the message otherwise. -/
def expect (x : Option α) (msg : String) : Outcome ε α :=
  match x with
  | some a => ok a
  | none => panic msg

/-- Take the value, return the error otherwise. -/
def okOr (x : Option α) (e : ε) : Outcome ε α :=
  match x with
  | some a => ok a
  | none => err e

/-- The call did not abort. -/
def Returns (x : Outcome ε α) : Prop := ∀ msg, x ≠ panic msg

/-! ## 1. Evaluating a sequence -/

@[simp] theorem pure_eq (a : α) : (pure a : Outcome ε α) = ok a := rfl
@[simp] theorem ok_bind (a : α) (f : α → Outcome ε β) : (ok a >>= f) = f a := rfl
@[simp] theorem err_bind (e : ε) (f : α → Outcome ε β) : (err e >>= f) = err e := rfl
@[simp] theorem panic_bind (msg : String) (f : α → Outcome ε β) :
    ((panic msg : Outcome ε α) >>= f) = panic msg := rfl

@[simp] theorem mapErr_ok (f : ε → ε') (a : α) : mapErr f (ok a : Outcome ε α) = ok a := rfl
@[simp] theorem mapErr_err (f : ε → ε') (e : ε) :
    mapErr f (err e : Outcome ε α) = err (f e) := rfl
@[simp] theorem mapErr_panic (f : ε → ε') (msg : String) :
    mapErr f (panic msg : Outcome ε α) = panic msg := rfl

@[simp] theorem require_true (e : ε) : (require true e : Outcome ε PUnit) = ok ⟨⟩ := rfl
@[simp] theorem require_false (e : ε) : (require false e : Outcome ε PUnit) = err e := rfl
@[simp] theorem expect_some (a : α) (msg : String) :
    (expect (some a) msg : Outcome ε α) = ok a := rfl
@[simp] theorem expect_none (msg : String) :
    (expect none msg : Outcome ε α) = panic msg := rfl

@[simp] theorem okOr_some (a : α) (e : ε) : (okOr (some a) e : Outcome ε α) = ok a := rfl
@[simp] theorem okOr_none (e : ε) : (okOr none e : Outcome ε α) = err e := rfl

@[simp] theorem ofExcept_ok (a : α) : ofExcept (.ok a : Except ε α) = ok a := rfl
@[simp] theorem ofExcept_error (e : ε) : ofExcept (.error e : Except ε α) = err e := rfl

/-! ## 2. Taking a sequence apart -/

/-- A sequence returns a value when both halves do. -/
theorem bind_eq_ok {x : Outcome ε α} {f : α → Outcome ε β} {b : β} :
    (x >>= f) = ok b ↔ ∃ a, x = ok a ∧ f a = ok b := by
  cases x with
  | ok a => simp
  | err e => simp
  | panic msg => simp

/-- A sequence aborts when its first half does, or its second half after a value. -/
theorem bind_eq_panic {x : Outcome ε α} {f : α → Outcome ε β} {msg : String} :
    (x >>= f) = panic msg ↔ x = panic msg ∨ ∃ a, x = ok a ∧ f a = panic msg := by
  cases x with
  | ok a => simp
  | err e => simp
  | panic msg => simp

/-- Rewriting errors neither makes nor loses a value. -/
@[simp] theorem mapErr_eq_ok {f : ε → ε'} {x : Outcome ε α} {a : α} :
    mapErr f x = ok a ↔ x = ok a := by
  cases x <;> simp [mapErr]

/-- Rewriting errors neither makes nor loses an abort. -/
@[simp] theorem mapErr_eq_panic {f : ε → ε'} {x : Outcome ε α} {msg : String} :
    mapErr f x = panic msg ↔ x = panic msg := by
  cases x <;> simp [mapErr]

/-- A check lets a run through exactly when its condition holds. -/
@[simp] theorem require_eq_ok {b : Bool} {e : ε} {u : PUnit.{v + 1}} :
    require b e = ok u ↔ b = true := by
  cases b <;> simp [require]

/-- A check never aborts. -/
@[simp] theorem require_ne_panic {b : Bool} {e : ε} {msg : String} :
    (require b e : Outcome ε PUnit.{v + 1}) ≠ panic msg := by
  cases b <;> simp [require]

/-- A computation without an abort returns its value. -/
@[simp] theorem ofExcept_eq_ok {x : Except ε α} {a : α} : ofExcept x = ok a ↔ x = .ok a := by
  cases x <;> simp [ofExcept]

/-- A computation without an abort never aborts. -/
@[simp] theorem ofExcept_ne_panic {x : Except ε α} {msg : String} : ofExcept x ≠ panic msg := by
  cases x <;> simp [ofExcept]

/-- A call that returns, returns a value or an error. -/
theorem returns_iff {x : Outcome ε α} : Returns x ↔ (∃ a, x = ok a) ∨ ∃ e, x = err e := by
  cases x <;> simp [Returns]

theorem returns_iff_not_panic {x : Outcome ε α} : Returns x ↔ ¬ ∃ msg, x = panic msg := by
  rw [Returns, not_exists]

/-- The value or the error of a call that returns. -/
def toExcept : (x : Outcome ε α) → x.Returns → Except ε α
  | ok a, _ => .ok a
  | err e, _ => .error e
  | panic msg, h => absurd rfl (h msg)

@[simp] theorem ofExcept_toExcept {x : Outcome ε α} (h : x.Returns) :
    ofExcept (x.toExcept h) = x := by
  cases x with
  | ok a => rfl
  | err e => rfl
  | panic msg => exact absurd rfl (h msg)

theorem toExcept_eq_ok {x : Outcome ε α} {h : x.Returns} {a : α} :
    x.toExcept h = .ok a ↔ x = .ok a := by
  rw [← ofExcept_eq_ok, ofExcept_toExcept]

end Outcome
