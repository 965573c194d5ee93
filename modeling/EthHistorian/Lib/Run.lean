/-
# Runs of a labelled transition system

A system is a relation `step s e s'`: in state `s` the event `e` can happen and leads to `s'`.  A
run is a sequence of events; what an event records (an operation, its arguments, its answer) is
the label's own business.

Two rules are enough for statements about whole runs: `Run.invariant` carries a property along a
run whose events are admissible, and `Run.of_append` finds the state in which an event of the run
happened.
-/
import Mathlib.Tactic

universe u v

variable {σ : Type u} {ε : Type v}

/-- From the first state, the events lead to the last one. -/
inductive Run (step : σ → ε → σ → Prop) : σ → List ε → σ → Prop
  | nil (s : σ) : Run step s [] s
  | cons {s s' s'' : σ} {e : ε} {es : List ε} (head : step s e s') (tail : Run step s' es s'') :
      Run step s (e :: es) s''

namespace Run

variable {step : σ → ε → σ → Prop}

/-- **The invariant rule**: what each admissible event keeps, a run of admissible events keeps. -/
theorem invariant {P : σ → Prop} {Q : ε → Prop}
    (hstep : ∀ {s e s'}, P s → Q e → step s e s' → P s') {s s' : σ} {es : List ε}
    (hrun : Run step s es s') (hQ : ∀ e ∈ es, Q e) (hs : P s) : P s' := by
  induction hrun with
  | nil s => exact hs
  | cons head tail ih =>
    have hfirst := hstep hs (hQ _ List.mem_cons_self) head
    exact ih (fun e he => hQ e (List.mem_cons_of_mem _ he)) hfirst

/-- A run goes on from where another one ended. -/
theorem append {es es' : List ε} {s s' s'' : σ} (hrun : Run step s es s')
    (hrun' : Run step s' es' s'') : Run step s (es ++ es') s'' := by
  induction hrun with
  | nil s => exact hrun'
  | cons head tail ih => exact .cons head (ih hrun')

/-- A run of two lists of events passes a state between them. -/
theorem of_append {es es' : List ε} {s s'' : σ} (hrun : Run step s (es ++ es') s'') :
    ∃ s', Run step s es s' ∧ Run step s' es' s'' := by
  induction es generalizing s with
  | nil => exact ⟨s, .nil s, hrun⟩
  | cons e es ih =>
    cases hrun with
    | cons head tail =>
      obtain ⟨s', hleft, hright⟩ := ih tail
      exact ⟨s', .cons head hleft, hright⟩

/-- The state in which an event of the run happened, and what came of it. -/
theorem of_event {es es' : List ε} {e : ε} {s s' : σ} (hrun : Run step s (es ++ e :: es') s') :
    ∃ a b, Run step s es a ∧ step a e b ∧ Run step b es' s' := by
  obtain ⟨a, hleft, hright⟩ := of_append hrun
  cases hright with
  | cons head tail => exact ⟨a, _, hleft, head, tail⟩

end Run
