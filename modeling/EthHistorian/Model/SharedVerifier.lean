/-
# A verifier and its clones

`src/api.rs`: a `Verifier` holds its validator behind an `Arc`, so a clone checks against the same
validator, and `set_historical_summaries` on one handle replaces the snapshot of all of them.  The
validators are the cells of a heap here, and a handle has the address of one.

Each operation reads or replaces the snapshot once, under its lock, so a run is a sequence of
whole operations; an event records the operation, the handle it was called on, and its answer.
-/
import EthHistorian.Lib.Run
import EthHistorian.Model.Api

namespace EthHistorian

/-! ## 1. The source -/

/-- `set_summaries` replaces the snapshot. -/
def HistoricalSummariesProvider.setSummaries (_p : HistoricalSummariesProvider)
    (summaries : HistoricalSummaries) : HistoricalSummariesProvider := ⟨summaries⟩

def HeaderValidator.setHistoricalSummaries (v : HeaderValidator) (summaries : HistoricalSummaries) :
    HeaderValidator :=
  { v with
    historicalSummariesProvider := v.historicalSummariesProvider.setSummaries summaries }

/-- `Verifier::set_historical_summaries`, seen through the handle it is called on. -/
def Verifier.setHistoricalSummaries (v : Verifier) (summaries : HistoricalSummaries) : Verifier :=
  { v with validator := v.validator.setHistoricalSummaries summaries }

/-! ## 2. Handles -/

/-- A `Verifier`: the address of its validator, and sources of its own. -/
structure VerifierHandle where
  validator : ℕ
  dataSources : List DataSource

structure SharedState where
  heap : List HeaderValidator
  handles : List VerifierHandle

/-- One verifier, alone. -/
def Verifier.shared (v : Verifier) : SharedState := ⟨[v.validator], [⟨0, v.dataSources⟩]⟩

inductive Event where
  | cloned (handle : ℕ)
  | verified (handle : ℕ) (hwp : HeaderWithProof) (answer : Outcome Error VerifiedBlock)
  | refreshed (handle : ℕ) (replaced summaries : HistoricalSummaries)

/-- What can happen, and what it records. -/
inductive SharedState.Step (c : Crypto) (w : PointerWidth) :
    SharedState → Event → SharedState → Prop
  | clone {s : SharedState} {i : ℕ} {handle : VerifierHandle} (hi : s.handles[i]? = some handle) :
      Step c w s (.cloned i) { s with handles := s.handles ++ [handle] }
  | verify {s : SharedState} {i : ℕ} {handle : VerifierHandle} {validator : HeaderValidator}
      (hi : s.handles[i]? = some handle) (hv : s.heap[handle.validator]? = some validator)
      (hwp : HeaderWithProof) :
      Step c w s (.verified i hwp (Verifier.verify c w ⟨validator, handle.dataSources⟩ hwp)) s
  | setHistoricalSummaries {s : SharedState} {i : ℕ} {handle : VerifierHandle}
      {validator : HeaderValidator} (hi : s.handles[i]? = some handle)
      (hv : s.heap[handle.validator]? = some validator) (summaries : HistoricalSummaries) :
      Step c w s (.refreshed i validator.historicalSummariesProvider.summaries summaries)
        { s with heap := s.heap.set handle.validator (validator.setHistoricalSummaries summaries) }

/-- A refresh that keeps what it replaces, at the front. -/
def Event.Extends : Event → Prop
  | cloned _ => True
  | verified _ _ _ => True
  | refreshed _ replaced summaries => replaced.toList <+: summaries.toList

/-! ## 3. What a run keeps -/

/-- The same accumulators, and a snapshot that begins with the other's. -/
structure HeaderValidator.Extends (v v' : HeaderValidator) : Prop where
  preMergeAcc : v'.preMergeAcc = v.preMergeAcc
  historicalRootsAcc : v'.historicalRootsAcc = v.historicalRootsAcc
  summaries : v.historicalSummariesProvider.summaries.toList <+:
    v'.historicalSummariesProvider.summaries.toList

namespace HeaderValidator.Extends

theorem refl (v : HeaderValidator) : v.Extends v := ⟨rfl, rfl, List.prefix_refl _⟩

theorem trans {v v' v'' : HeaderValidator} (h : v.Extends v') (h' : v'.Extends v'') :
    v.Extends v'' :=
  ⟨h'.preMergeAcc.trans h.preMergeAcc, h'.historicalRootsAcc.trans h.historicalRootsAcc,
    h.summaries.trans h'.summaries⟩

theorem setHistoricalSummaries {v : HeaderValidator} {summaries : HistoricalSummaries}
    (h : v.historicalSummariesProvider.summaries.toList <+: summaries.toList) :
    v.Extends (v.setHistoricalSummaries summaries) := ⟨rfl, rfl, h⟩

end HeaderValidator.Extends

/-- Every handle has the first validator, which extends the one given. -/
structure SharedState.Sharing (v : HeaderValidator) (s : SharedState) : Prop where
  handles : ∀ handle ∈ s.handles, handle.validator = 0
  validator : ∃ v', s.heap[0]? = some v' ∧ v.Extends v'

theorem Verifier.sharing_shared (v : Verifier) : v.shared.Sharing v.validator where
  handles := by
    intro handle hmem
    rw [List.mem_singleton.mp hmem]
  validator := ⟨v.validator, rfl, .refl _⟩

/-- **One operation keeps the validator shared and the snapshot growing.** -/
theorem SharedState.Step.sharing {c : Crypto} {w : PointerWidth} {v : HeaderValidator}
    {s s' : SharedState} {e : Event} (hs : s.Sharing v) (he : e.Extends) (h : Step c w s e s') :
    s'.Sharing v := by
  obtain ⟨hhandles, v₀, hv₀, hext⟩ := hs
  cases h with
  | clone hi =>
    refine ⟨fun handle hmem => ?_, v₀, hv₀, hext⟩
    rcases List.mem_append.mp hmem with hmem | hmem
    · exact hhandles handle hmem
    · rw [List.mem_singleton.mp hmem]
      exact hhandles _ (List.mem_of_getElem? hi)
  | verify hi hv hwp => exact ⟨hhandles, v₀, hv₀, hext⟩
  | setHistoricalSummaries hi hv summaries =>
    have haddress := hhandles _ (List.mem_of_getElem? hi)
    rw [haddress] at hv
    obtain rfl := Option.some.inj (hv.symm.trans hv₀)
    refine ⟨hhandles, _, ?_, hext.trans (.setHistoricalSummaries he)⟩
    have hlt := (List.getElem?_eq_some_iff.mp hv).1
    rw [haddress, List.getElem?_set_self hlt]

/-- A check answers for the shared validator, and changes nothing. -/
theorem SharedState.Step.verified {c : Crypto} {w : PointerWidth} {v : HeaderValidator}
    {s s' : SharedState} {i : ℕ} {hwp : HeaderWithProof} {answer : Outcome Error VerifiedBlock}
    (hs : s.Sharing v) (h : Step c w s (.verified i hwp answer) s') :
    s' = s ∧ ∃ v' sources, s.heap[0]? = some v' ∧ v.Extends v' ∧
      answer = Verifier.verify c w ⟨v', sources⟩ hwp := by
  obtain ⟨hhandles, v₀, hv₀, hext⟩ := hs
  cases h with
  | verify hi hv hwp =>
    rw [hhandles _ (List.mem_of_getElem? hi)] at hv
    obtain rfl := Option.some.inj (hv.symm.trans hv₀)
    exact ⟨rfl, _, _, hv, hext, rfl⟩

end EthHistorian
