/-
# What interleaving can and cannot do to a query

A query that waits for its sources shares the validator with every other task, so it may begin
under one snapshot and end under another.  Three statements about every run of a `Session`:

* `Session.query_undisturbed`: if nothing is refreshed while it waits, a query asks the sources
  that the function asks, and answers what the function answers, whatever the other tasks do;
* `Session.query_served`: if snapshots only grow, one source that serves the block when the query
  begins is enough: whatever the other sources send, the query does not end in an error;
* `Session.agreement`, `Session.answers_agree`: two proofs for one place that are accepted
  anywhere in a run are the same proof, of headers with one hash, and two queries for one block
  are answered with one block -- or the checks exhibit a collision.
-/
import EthHistorian.Authentication
import EthHistorian.Model.Session
import EthHistorian.Snapshots
import EthHistorian.SourceFallback

namespace EthHistorian

open Merkle Fallback

variable {c : Crypto} {w : PointerWidth} {D : HeaderDecoder}

/-! ## 1. Steps -/

/-- **A cell of the heap is only ever extended.** -/
theorem SharedState.Step.extends_at {s s' : SharedState} {e : Event} (h : Step c w s e s')
    (he : e.Extends) {a : ℕ} {v : HeaderValidator} (hv : s.heap[a]? = some v) :
    ∃ v', s'.heap[a]? = some v' ∧ v.Extends v' := by
  cases h with
  | clone hi => exact ⟨v, hv, .refl v⟩
  | verify hi hv' hwp => exact ⟨v, hv, .refl v⟩
  | @setHistoricalSummaries i handle v' hi hv' summaries =>
    by_cases ha : handle.validator = a
    · subst ha
      obtain rfl := Option.some.inj (hv.symm.trans hv')
      have hlt := (List.getElem?_eq_some_iff.mp hv).1
      exact ⟨_, List.getElem?_set_self hlt, .setHistoricalSummaries he⟩
    · exact ⟨v, (List.getElem?_set_ne ha).trans hv, .refl v⟩

/-- A request is answered as before by a validator that extends the one it was answered by. -/
theorem HeaderValidator.Extends.attempt_eq_ok {v v' : HeaderValidator} (h : v.Extends v')
    {request : Request} {fetched : Outcome Error (List UInt8)} {b : VerifiedBlock}
    (hok : request.attempt c w D v fetched = .ok b) :
    request.attempt c w D v' fetched = .ok b := by
  obtain ⟨bytes, hwp, hfetched, hdec, hasked, hvalid, hb⟩ := Request.attempt_eq_ok.mp hok
  exact Request.attempt_eq_ok.mpr ⟨bytes, hwp, hfetched, hdec, hasked, h.accepts hvalid, hb⟩

namespace Session.Step

variable {s s' : Session} {e : SessionEvent}

theorem extends_at (h : Step c w D s e s') (he : e.Extends) {a : ℕ} {v : HeaderValidator}
    (hv : s.heap[a]? = some v) : ∃ v', s'.heap[a]? = some v' ∧ v.Extends v' := by
  cases h with
  | shared h => exact h.extends_at he hv
  | ask hi request => exact ⟨v, hv, .refl v⟩
  | attempt hk hp hv' fetched => exact ⟨v, hv, .refl v⟩
  | exhaust hk hp => exact ⟨v, hv, .refl v⟩

theorem heap_of_quiet (h : Step c w D s e s') (he : e.Quiet) : s'.heap = s.heap := by
  cases h with
  | shared h =>
    cases h with
    | clone hi => rfl
    | verify hi hv hwp => rfl
    | setHistoricalSummaries hi hv summaries => exact he.elim
  | ask hi request => rfl
  | attempt hk hp hv' fetched => rfl
  | exhaust hk hp => rfl

/-- **What a step does to a query under way**: nothing, one attempt, or the end of its loop. -/
theorem query (h : Step c w D s e s') {k : ℕ} {q : Query} (hq : s.queries[k]? = some q) :
    (s'.queries[k]? = some q ∧ e.source? k = none) ∨
    (∃ lastErr source rest validator fetched, q.progress = .asking lastErr (source :: rest) ∧
      s.heap[q.validator]? = some validator ∧
      e = .attempted k source fetched (q.request.attempt c w D validator fetched) ∧
      s'.queries[k]?
        = some (q.attempted rest (q.request.attempt c w D validator fetched))) ∨
    ∃ lastErr, q.progress = .asking lastErr [] ∧ e = .exhausted k ∧
      s'.queries[k]? = some (q.failed lastErr) := by
  have hlt := (List.getElem?_eq_some_iff.mp hq).1
  cases h with
  | shared h => exact Or.inl ⟨hq, rfl⟩
  | ask hi request =>
    refine Or.inl ⟨?_, rfl⟩
    rw [List.getElem?_append_left hlt]
    exact hq
  | @attempt k' q' validator lastErr source rest hk hp hv fetched =>
    by_cases hkk : k' = k
    · subst hkk
      obtain rfl := Option.some.inj (hq.symm.trans hk)
      exact Or.inr (Or.inl ⟨lastErr, source, rest, validator, fetched, hp, hv, rfl,
        List.getElem?_set_self hlt⟩)
    · refine Or.inl ⟨(List.getElem?_set_ne hkk).trans hq, ?_⟩
      rw [SessionEvent.source?, if_neg hkk]
  | @exhaust k' q' lastErr hk hp =>
    by_cases hkk : k' = k
    · subst hkk
      obtain rfl := Option.some.inj (hq.symm.trans hk)
      exact Or.inr (Or.inr ⟨lastErr, hp, rfl, List.getElem?_set_self hlt⟩)
    · exact Or.inl ⟨(List.getElem?_set_ne hkk).trans hq, rfl⟩

/-- A new query is the last one, at its beginning. -/
theorem asked {i : ℕ} {request : Request} (h : Step c w D s (.asked i request) s')
    {handle : VerifierHandle} (hi : s.handles[i]? = some handle) :
    s'.heap = s.heap ∧ s'.queries[s.queries.length]?
      = some ⟨handle.validator, request, Query.start handle.dataSources⟩ := by
  cases h with
  | ask hi' request =>
    obtain rfl := Option.some.inj (hi.symm.trans hi')
    exact ⟨rfl, by simp⟩

end Session.Step

/-! ## 2. A query that nothing disturbs -/

/-- What a query still has to do, if nothing changes any more. -/
def Query.finish (c : Crypto) (w : PointerWidth) (D : HeaderDecoder) (v : HeaderValidator)
    (q : Query) : List DataSource × Outcome Error VerifiedBlock :=
  q.progress.finish (fun source =>
    q.request.attempt c w D v (Outcome.ofExcept (q.request.fetch source))) q.request.exhausted

/-- One step of anybody keeps a query on its way. -/
theorem Session.Step.finish {s s' : Session} {e : SessionEvent} (h : Step c w D s e s')
    (hquiet : e.Quiet) {k : ℕ} {q : Query} (hq : s.queries[k]? = some q)
    (hfaithful : e.Faithful k q.request) {v : HeaderValidator}
    (hv : s.heap[q.validator]? = some v) :
    ∃ q', s'.queries[k]? = some q' ∧ q'.validator = q.validator ∧ q'.request = q.request ∧
      s'.heap[q.validator]? = some v ∧
      q.finish c w D v
        = ((e.source? k).toList ++ (q'.finish c w D v).1, (q'.finish c w D v).2) := by
  have hv' : s'.heap[q.validator]? = some v := by rw [h.heap_of_quiet hquiet, hv]
  rcases h.query hq with ⟨hq', hsource⟩ |
    ⟨lastErr, source, rest, validator, fetched, hp, hvalidator, rfl, hq'⟩ |
    ⟨lastErr, hp, rfl, hq'⟩
  · exact ⟨q, hq', rfl, rfl, hv', by rw [hsource]; rfl⟩
  · obtain rfl := Option.some.inj (hv.symm.trans hvalidator)
    obtain rfl := hfaithful rfl
    refine ⟨_, hq', rfl, rfl, hv', ?_⟩
    rw [Query.finish, hp, Progress.finish_afterAttempt, SessionEvent.source?, if_pos rfl]
    rfl
  · refine ⟨_, hq', rfl, rfl, hv', ?_⟩
    rw [Query.finish, hp, Progress.finish_exhausted]
    rfl

/-- And so does a run. -/
theorem Session.finish_of_run {s s' : Session} {es : List SessionEvent}
    (hrun : Run (Step c w D) s es s') (hquiet : ∀ e ∈ es, e.Quiet) {k : ℕ} {q : Query}
    (hq : s.queries[k]? = some q) (hfaithful : ∀ e ∈ es, e.Faithful k q.request)
    {v : HeaderValidator} (hv : s.heap[q.validator]? = some v) :
    ∃ q', s'.queries[k]? = some q' ∧ q.finish c w D v
      = (es.filterMap (SessionEvent.source? k) ++ (q'.finish c w D v).1,
          (q'.finish c w D v).2) := by
  induction hrun generalizing q with
  | nil s => exact ⟨q, hq, rfl⟩
  | @cons s s₁ s' e es head tail ih =>
    obtain ⟨q₁, hq₁, hvalidator, hrequest, hv₁, hfirst⟩ := head.finish
      (hquiet e List.mem_cons_self) hq (hfaithful e List.mem_cons_self) hv
    obtain ⟨q', hq', hrest⟩ := ih (fun e he => hquiet e (List.mem_cons_of_mem _ he)) hq₁
      (fun e he => hrequest ▸ hfaithful e (List.mem_cons_of_mem _ he)) (hvalidator ▸ hv₁)
    refine ⟨q', hq', ?_⟩
    rw [hfirst, hrest]
    cases hsource : e.source? k with
    | none => rw [List.filterMap_cons_none hsource]; rfl
    | some source => rw [List.filterMap_cons_some hsource]; rfl

/-- At its beginning a query has the whole loop ahead of it. -/
theorem Query.finish_start (v : HeaderValidator) (handle : VerifierHandle) (request : Request) :
    Query.finish c w D v ⟨handle.validator, request, Query.start handle.dataSources⟩
      = Verifier.query c w D ⟨v, handle.dataSources⟩ request := by
  rw [Request.query_eq, Query.finish, Query.start]
  split
  · rfl
  · rfl

/-- **Undisturbed, a query is the function**: it asks the same sources, in the same order, and
answers the same. -/
theorem Session.query_undisturbed (c : Crypto) (w : PointerWidth) (D : HeaderDecoder)
    {s s' : Session} {es : List SessionEvent} {i : ℕ} {request : Request}
    {handle : VerifierHandle} {v : HeaderValidator} {q : Query}
    {answer : Outcome Error VerifiedBlock}
    (hrun : Run (Step c w D) s (.asked i request :: es) s') (hi : s.handles[i]? = some handle)
    (hv : s.heap[handle.validator]? = some v) (hquiet : ∀ e ∈ es, e.Quiet)
    (hfaithful : ∀ e ∈ es, e.Faithful s.queries.length request)
    (hq : s'.queries[s.queries.length]? = some q) (hanswer : q.progress = .answered answer) :
    Verifier.query c w D ⟨v, handle.dataSources⟩ request
      = (es.filterMap (SessionEvent.source? s.queries.length), answer) := by
  cases hrun with
  | cons head tail =>
    obtain ⟨hheap, hbegin⟩ := head.asked hi
    obtain ⟨q', hq', hfinish⟩ :=
      Session.finish_of_run tail hquiet hbegin hfaithful (by rw [hheap]; exact hv)
    obtain rfl := Option.some.inj (hq.symm.trans hq')
    rw [← Query.finish_start, hfinish, Query.finish, hanswer]
    simp [Progress.finish]

/-! ## 3. One good source is enough -/

/-- The source has the block, for a query to this validator. -/
def Request.ServedBy (c : Crypto) (w : PointerWidth) (D : HeaderDecoder) (v : HeaderValidator)
    (request : Request) (source : DataSource) : Prop :=
  ∃ b, request.attempt c w D v (Outcome.ofExcept (request.fetch source)) = .ok b

/-- One step of anybody keeps the good source ahead of the query. -/
theorem Session.Step.served {s s' : Session} {e : SessionEvent} (h : Step c w D s e s') {k : ℕ}
    {q : Query} (hq : s.queries[k]? = some q) {v v' : HeaderValidator} (hext : v.Extends v')
    (hv' : s.heap[q.validator]? = some v')
    (hfaithful : ∀ source fetched outcome, e = .attempted k source fetched outcome →
      q.request.ServedBy c w D v source → fetched = Outcome.ofExcept (q.request.fetch source))
    (hserved : q.progress.Served (q.request.ServedBy c w D v)) :
    ∃ q', s'.queries[k]? = some q' ∧ q'.validator = q.validator ∧ q'.request = q.request ∧
      q'.progress.Served (q.request.ServedBy c w D v) := by
  rcases h.query hq with ⟨hq', -⟩ |
    ⟨lastErr, source, rest, validator, fetched, hp, hvalidator, rfl, hq'⟩ |
    ⟨lastErr, hp, rfl, hq'⟩
  · exact ⟨q, hq', rfl, rfl, hserved⟩
  · obtain rfl := Option.some.inj (hv'.symm.trans hvalidator)
    rw [hp] at hserved
    refine ⟨_, hq', rfl, rfl, hserved.afterAttempt fun hgood e herr => ?_⟩
    -- the snapshot has grown since, so what was served then is served now
    obtain rfl := hfaithful _ _ _ rfl hgood
    obtain ⟨b, hb⟩ := hgood
    rw [hext.attempt_eq_ok hb] at herr
    cases herr
  · rw [hp] at hserved
    obtain ⟨source, hsource, -⟩ := hserved
    cases hsource

/-- And so does a run whose refreshes keep what they replace. -/
theorem Session.served_of_run {s s' : Session} {es : List SessionEvent}
    (hrun : Run (Step c w D) s es s') (hes : ∀ e ∈ es, e.Extends) {k : ℕ} {q : Query}
    (hq : s.queries[k]? = some q) {v v' : HeaderValidator} (hext : v.Extends v')
    (hv' : s.heap[q.validator]? = some v')
    (hfaithful : ∀ source fetched outcome, .attempted k source fetched outcome ∈ es →
      q.request.ServedBy c w D v source → fetched = Outcome.ofExcept (q.request.fetch source))
    (hserved : q.progress.Served (q.request.ServedBy c w D v)) :
    ∃ q', s'.queries[k]? = some q' ∧ q'.progress.Served (q.request.ServedBy c w D v) := by
  induction hrun generalizing q v' with
  | nil s => exact ⟨q, hq, hserved⟩
  | @cons s s₁ s' e es head tail ih =>
    obtain ⟨q₁, hq₁, hvalidator, hrequest, hserved₁⟩ := head.served hq hext hv'
      (fun source fetched outcome he =>
        hfaithful source fetched outcome (he ▸ List.mem_cons_self)) hserved
    obtain ⟨v'', hv'', hext'⟩ := head.extends_at (hes e List.mem_cons_self) hv'
    rw [← hrequest] at hfaithful hserved₁ ⊢
    exact ih (fun e he => hes e (List.mem_cons_of_mem _ he)) hq₁ (hext.trans hext')
      (hvalidator ▸ hv'') (fun source fetched outcome he =>
        hfaithful source fetched outcome (List.mem_cons_of_mem _ he)) hserved₁

/-- A new query has its good source ahead of it. -/
theorem Session.Step.asked_served {s s' : Session} {i : ℕ} {request : Request}
    (h : Step c w D s (.asked i request) s') {handle : VerifierHandle}
    (hi : s.handles[i]? = some handle) {v : HeaderValidator} {source : DataSource}
    (hsource : source ∈ handle.dataSources) (hserves : request.ServedBy c w D v source) :
    s'.heap = s.heap ∧ s'.queries[s.queries.length]?
        = some ⟨handle.validator, request, Query.start handle.dataSources⟩ ∧
      (Query.start handle.dataSources).Served (request.ServedBy c w D v) := by
  obtain ⟨hheap, hbegin⟩ := h.asked hi
  refine ⟨hheap, hbegin, ?_⟩
  rw [Query.start, if_neg (List.ne_nil_of_mem hsource)]
  exact ⟨source, hsource, hserves⟩

/-- **One good source is enough.**  It has the block when the query begins; the others may send
anything, and the snapshot may grow in the meantime.  The query does not end in an error. -/
theorem Session.query_served (c : Crypto) (w : PointerWidth) (D : HeaderDecoder)
    {s s' : Session} {es : List SessionEvent} {i : ℕ} {request : Request}
    {handle : VerifierHandle} {v : HeaderValidator} {source : DataSource} {q : Query}
    {answer : Outcome Error VerifiedBlock}
    (hrun : Run (Step c w D) s (.asked i request :: es) s') (hi : s.handles[i]? = some handle)
    (hv : s.heap[handle.validator]? = some v) (hes : ∀ e ∈ es, e.Extends)
    (hsource : source ∈ handle.dataSources) (hserves : request.ServedBy c w D v source)
    (hfaithful : ∀ source fetched outcome,
      .attempted s.queries.length source fetched outcome ∈ es →
      request.ServedBy c w D v source → fetched = Outcome.ofExcept (request.fetch source))
    (hq : s'.queries[s.queries.length]? = some q) (hanswer : q.progress = .answered answer) :
    (∃ b, answer = .ok b) ∨ ∃ msg, answer = .panic msg := by
  cases hrun with
  | cons head tail =>
    obtain ⟨hheap, hbegin, hstart⟩ := head.asked_served hi hsource hserves
    obtain ⟨q', hq', hserved⟩ := Session.served_of_run tail hes hbegin (.refl v)
      (by rw [hheap]; exact hv) hfaithful hstart
    obtain rfl := Option.some.inj (hq.symm.trans hq')
    rw [hanswer] at hserved
    exact hserved.answer

/-! ## 4. One place, one proof -/

namespace BlockHeaderProof

/-- Only the proofs from before the merge have no slot. -/
theorem postMerge?_eq_none {proof : BlockHeaderProof} :
    proof.postMerge? = none ↔ proof.era = .historicalHashes := by
  cases proof with
  | historicalHashes p => exact iff_of_true rfl rfl
  | historicalRoots p => exact iff_of_false nofun nofun
  | historicalSummariesCapella p => exact iff_of_false nofun nofun
  | historicalSummariesDeneb p => exact iff_of_false nofun nofun

theorem toPostMerge_injective {m n : ℕ} {p p' : BlockProof m n}
    (h : p.toPostMerge = p'.toPostMerge) : p = p' := by
  obtain ⟨hexec, hroot, hbeacon, hslot⟩ := PostMergeProof.mk.inj h
  exact BlockProof.ext (FixedVector.ext hbeacon) hroot (FixedVector.ext hexec) hslot

/-- The lengths apart, a proof is its two climbs. -/
theorem eq_of_postMerge {proof proof' : BlockHeaderProof} {p : PostMergeProof}
    (hera : proof.era = proof'.era) (hp : proof.postMerge? = some p)
    (hp' : proof'.postMerge? = some p) : proof = proof' := by
  have heq := hp.trans hp'.symm
  cases proof with
  | historicalHashes q => cases hp
  | historicalRoots q =>
    cases proof' with
    | historicalRoots q' => rw [toPostMerge_injective (Option.some.inj heq)]
    | _ => cases hera
  | historicalSummariesCapella q =>
    cases proof' with
    | historicalSummariesCapella q' => rw [toPostMerge_injective (Option.some.inj heq)]
    | _ => cases hera
  | historicalSummariesDeneb q =>
    cases proof' with
    | historicalSummariesDeneb q' => rw [toPostMerge_injective (Option.some.inj heq)]
    | _ => cases hera

end BlockHeaderProof

namespace HeaderWithProof

/-- Where the validator looks for a header: the era, and the number or the slot. -/
def place (hwp : HeaderWithProof) : Era × UInt64 :=
  match hwp.proof.postMerge? with
  | none => (hwp.proof.era, hwp.header.number)
  | some p => (hwp.proof.era, p.slot)

/-- What it hashes, for a proof with a slot. -/
def postMergeInputs (c : Crypto) (hwp : HeaderWithProof) (p : PostMergeProof) :
    List (B256 × B256) :=
  climbInputs c.hash32Concat hwp.proof.era.executionIndex (hwp.header.hashSlow c)
      p.executionBlockProof ++
    climbInputs c.hash32Concat (hwp.proof.era.beaconIndex (p.slot.toNat % 8192))
      p.beaconBlockRoot p.beaconBlockProof

/-- What it hashes on the way. -/
def inputs (c : Crypto) (hwp : HeaderWithProof) : List (B256 × B256) :=
  match hwp.proof with
  | .historicalHashes p =>
    climbInputs c.hash32Concat (32768 + hwp.header.number.toNat % 8192 * 2)
      (hwp.header.hashSlow c) p.toList
  | .historicalRoots p => hwp.postMergeInputs c p.toPostMerge
  | .historicalSummariesCapella p => hwp.postMergeInputs c p.toPostMerge
  | .historicalSummariesDeneb p => hwp.postMergeInputs c p.toPostMerge

theorem inputs_postMerge {hwp : HeaderWithProof} {p : PostMergeProof}
    (hp : hwp.proof.postMerge? = some p) : hwp.inputs c = hwp.postMergeInputs c p := by
  obtain ⟨h, proof⟩ := hwp
  cases proof with
  | historicalHashes q => cases hp
  | historicalRoots q =>
    obtain rfl := Option.some.inj hp
    rfl
  | historicalSummariesCapella q =>
    obtain rfl := Option.some.inj hp
    rfl
  | historicalSummariesDeneb q =>
    obtain rfl := Option.some.inj hp
    rfl

end HeaderWithProof

namespace HeaderValidator

variable {v : HeaderValidator} {hwp hwp' : HeaderWithProof}

/-- Before the merge a place is a number. -/
theorem preMerge_place_binds {p p' : BlockProofHistoricalHashesAccumulator} {h h' : Header}
    (hok : v.verifyPreMergeHeader c w h p = .ok ())
    (hok' : v.verifyPreMergeHeader c w h' p' = .ok ()) (hnumber : h.number = h'.number) :
    (h.hashSlow c = h'.hashSlow c ∧ p = p') ∨
      Collision c.hash32Concat (HeaderWithProof.inputs c ⟨h, .historicalHashes p⟩)
        (HeaderWithProof.inputs c ⟨h', .historicalHashes p'⟩) := by
  obtain ⟨-, root, hroot, hclimb⟩ := (v.verifyPreMergeHeader_eq_ok c w).mp hok
  obtain ⟨-, root', hroot', hclimb'⟩ := (v.verifyPreMergeHeader_eq_ok c w).mp hok'
  rw [← hnumber] at hroot' hclimb'
  obtain rfl := Option.some.inj (hroot.symm.trans hroot')
  have hlen : p.toList.length = p'.toList.length := p.length_eq.trans p'.length_eq.symm
  rcases climb_binding _ _ _ _ _ hlen (hclimb.trans hclimb'.symm) with ⟨hhash, hpath⟩ | hcol
  · exact Or.inl ⟨hhash, FixedVector.ext hpath⟩
  · refine Or.inr ?_
    rw [HeaderWithProof.inputs, HeaderWithProof.inputs, ← hnumber]
    exact hcol

/-- After it, a slot: the second climbs meet at the slot's commitment, and then the first ones
at the block root that both name. -/
theorem postMerge_place_binds {p p' : PostMergeProof} (hp : hwp.proof.postMerge? = some p)
    (hp' : hwp'.proof.postMerge? = some p') (hok : v.validateHeaderWithProof c w hwp = .ok ())
    (hok' : v.validateHeaderWithProof c w hwp' = .ok ())
    (hera : hwp.proof.era = hwp'.proof.era) (hslot : p.slot = p'.slot) :
    (hwp.header.hashSlow c = hwp'.header.hashSlow c ∧ hwp.proof = hwp'.proof) ∨
      Collision c.hash32Concat (hwp.inputs c) (hwp'.inputs c) := by
  obtain ⟨-, hexec, root, hroot, hbeacon⟩ :=
    (validateHeaderWithProof_postMerge c w v hwp hp).mp hok
  obtain ⟨-, hexec', root', hroot', hbeacon'⟩ :=
    (validateHeaderWithProof_postMerge c w v hwp' hp').mp hok'
  obtain ⟨hlenE, hlenB⟩ := BlockHeaderProof.length_postMerge hp c default 0
  obtain ⟨hlenE', hlenB'⟩ := BlockHeaderProof.length_postMerge hp' c default 0
  rw [HeaderWithProof.inputs_postMerge hp, HeaderWithProof.inputs_postMerge hp',
    HeaderWithProof.postMergeInputs, HeaderWithProof.postMergeInputs]
  rw [← hera] at hexec' hroot' hbeacon' hlenE' hlenB' ⊢
  rw [← hslot] at hroot' hbeacon' ⊢
  obtain rfl := Option.some.inj (hroot.symm.trans hroot')
  rcases climb_binding _ _ _ _ _ (hlenB.trans hlenB'.symm) (hbeacon.trans hbeacon'.symm) with
    ⟨hbroot, hbpath⟩ | hcol
  · rcases climb_binding _ _ _ _ _ (hlenE.trans hlenE'.symm)
      (hexec.trans (hbroot.trans hexec'.symm)) with ⟨hhash, hepath⟩ | hcol
    · obtain rfl : p = p' := PostMergeProof.ext hepath hbroot hbpath hslot
      exact Or.inl ⟨hhash, BlockHeaderProof.eq_of_postMerge hera hp hp'⟩
    · exact Or.inr (hcol.mono (List.subset_append_left _ _) (List.subset_append_left _ _))
  · exact Or.inr (hcol.mono (List.subset_append_right _ _) (List.subset_append_right _ _))

/-- **One place has one proof**, and headers of one hash. -/
theorem place_binds (hok : v.validateHeaderWithProof c w hwp = .ok ())
    (hok' : v.validateHeaderWithProof c w hwp' = .ok ()) (hplace : hwp.place = hwp'.place) :
    (hwp.header.hashSlow c = hwp'.header.hashSlow c ∧ hwp.proof = hwp'.proof) ∨
      Collision c.hash32Concat (hwp.inputs c) (hwp'.inputs c) := by
  have hera : hwp.proof.era = hwp'.proof.era := by
    have hfst : ∀ hwp : HeaderWithProof, hwp.place.1 = hwp.proof.era := by
      intro hwp
      unfold HeaderWithProof.place
      split
      · rfl
      · rfl
    rw [← hfst hwp, hplace, hfst]
  cases hp : hwp.proof.postMerge? with
  | none =>
    have hhashes := BlockHeaderProof.postMerge?_eq_none.mp hp
    have hp' := BlockHeaderProof.postMerge?_eq_none.mpr (hera ▸ hhashes)
    rw [HeaderWithProof.place, HeaderWithProof.place, hp, hp'] at hplace
    obtain ⟨h, proof⟩ := hwp
    obtain ⟨h', proof'⟩ := hwp'
    cases proof with
    | historicalHashes p =>
      cases proof' with
      | historicalHashes p' =>
        rcases preMerge_place_binds hok hok' (Prod.mk.inj hplace).2 with ⟨hhash, rfl⟩ | hcol
        · exact Or.inl ⟨hhash, rfl⟩
        · exact Or.inr hcol
      | _ => cases hera
    | _ => cases hhashes
  | some p =>
    cases hp' : hwp'.proof.postMerge? with
    | none =>
      have hhashes := BlockHeaderProof.postMerge?_eq_none.mp hp'
      rw [BlockHeaderProof.postMerge?_eq_none.mpr (hera.trans hhashes)] at hp
      cases hp
    | some p' =>
      rw [HeaderWithProof.place, HeaderWithProof.place, hp, hp'] at hplace
      exact postMerge_place_binds hp hp' hok hok' hera (Prod.mk.inj hplace).2

end HeaderValidator

/-! ## 5. Agreement -/

namespace Session

/-- Every handle and every query has the first validator. -/
structure Sharing (s : Session) : Prop where
  handles : ∀ handle ∈ s.handles, handle.validator = 0
  queries : ∀ q ∈ s.queries, q.validator = 0

theorem sharing_session (v : Verifier) : v.session.Sharing where
  handles := v.sharing_shared.handles
  queries := nofun

theorem heap_session (v : Verifier) : v.session.heap[0]? = some v.validator := rfl

variable {s s' : Session} {e : SessionEvent}

theorem Step.sharing (h : Step c w D s e s') (hs : s.Sharing) : s'.Sharing := by
  obtain ⟨hhandles, hqueries⟩ := hs
  have hset : ∀ {k : ℕ} {q q' : Query}, s.queries[k]? = some q → q'.validator = q.validator →
      ∀ r ∈ s.queries.set k q', r.validator = 0 := by
    intro k q q' hk hq' r hr
    rcases List.mem_or_eq_of_mem_set hr with hr | rfl
    · exact hqueries r hr
    · exact hq'.trans (hqueries q (List.mem_of_getElem? hk))
  cases h with
  | shared h =>
    refine ⟨?_, hqueries⟩
    cases h with
    | @clone i handle hi =>
      intro handle' hmem
      rcases List.mem_append.mp hmem with hmem | hmem
      · exact hhandles _ hmem
      · rw [List.mem_singleton.mp hmem]
        exact hhandles _ (List.mem_of_getElem? hi)
    | verify hi hv hwp => exact hhandles
    | setHistoricalSummaries hi hv summaries => exact hhandles
  | ask hi request =>
    refine ⟨hhandles, fun q hq => ?_⟩
    rcases List.mem_append.mp hq with hq | hq
    · exact hqueries q hq
    · rw [List.mem_singleton.mp hq]
      exact hhandles _ (List.mem_of_getElem? hi)
  | attempt hk hp hv fetched => exact ⟨hhandles, hset hk rfl⟩
  | exhaust hk hp => exact ⟨hhandles, hset hk rfl⟩

/-- An accepting event is one of the shared validator, as it is then. -/
theorem Step.accepts (h : Step c w D s e s') (hs : s.Sharing) {v : HeaderValidator}
    (hv : s.heap[0]? = some v) {hwp : HeaderWithProof} {b : VerifiedBlock}
    (ha : e.Accepts D hwp b) :
    v.validateHeaderWithProof c w hwp = .ok () ∧ b = ⟨hwp.header, authPathFor hwp.proof⟩ := by
  cases ha with
  | verified i =>
    cases h with
    | shared h =>
      generalize hanswer : (.ok b : Outcome Error VerifiedBlock) = answer at h
      cases h with
      | @verify i handle validator hi hv' hwp =>
        rw [hs.handles handle (List.mem_of_getElem? hi)] at hv'
        obtain rfl := Option.some.inj (hv.symm.trans hv')
        exact (Verifier.verify_eq_ok c w _).mp hanswer.symm
  | attempted k source bytes hdec =>
    generalize hfetched : (.ok bytes : Outcome Error (List UInt8)) = fetched at h
    generalize hanswer : (.ok b : Outcome Error VerifiedBlock) = answer at h
    cases h with
    | @attempt k q validator lastErr source rest hk hp hv' fetched =>
      rw [hs.queries q (List.mem_of_getElem? hk)] at hv'
      obtain rfl := Option.some.inj (hv.symm.trans hv')
      obtain ⟨bytes', hwp', hbytes, hdec', -, hvalid, hb⟩ := Request.attempt_eq_ok.mp hanswer.symm
      obtain rfl := Outcome.ok.inj (hfetched.trans hbytes)
      obtain rfl := Except.ok.inj (hdec.symm.trans hdec')
      exact ⟨hvalid, hb⟩

/-- **What a run accepts, the validator it ends with accepts.** -/
theorem accepted_at_end {es : List SessionEvent} (hrun : Run (Step c w D) s es s')
    (hes : ∀ e ∈ es, e.Extends) (hs : s.Sharing) {v : HeaderValidator}
    (hv : s.heap[0]? = some v) :
    ∃ v', v.Extends v' ∧ ∀ e ∈ es, ∀ hwp b, e.Accepts D hwp b →
      v'.validateHeaderWithProof c w hwp = .ok () ∧
        b = ⟨hwp.header, authPathFor hwp.proof⟩ := by
  induction hrun generalizing v with
  | nil s => exact ⟨v, .refl v, fun e he => absurd he List.not_mem_nil⟩
  | @cons s s₁ s' e es head tail ih =>
    obtain ⟨v₁, hv₁, hext₁⟩ := head.extends_at (hes e List.mem_cons_self) hv
    obtain ⟨v', hext', haccepted⟩ :=
      ih (fun e he => hes e (List.mem_cons_of_mem _ he)) (head.sharing hs) hv₁
    refine ⟨v', hext₁.trans hext', fun e' he' hwp b ha => ?_⟩
    rcases List.mem_cons.mp he' with rfl | he'
    · obtain ⟨hvalid, hb⟩ := head.accepts hs hv ha
      exact ⟨(hext₁.trans hext').accepts hvalid, hb⟩
    · exact haccepted e' he' hwp b ha

/-- **Agreement.**  Whatever is accepted for one place, by checks or by queries, on whatever
handles and at whatever times of a run, is one proof of headers with one hash, or the two checks
hashed two pairs to one value. -/
theorem agreement (c : Crypto) (w : PointerWidth) (D : HeaderDecoder) (v : Verifier)
    {es : List SessionEvent} {s' : Session} (hrun : Run (Step c w D) v.session es s')
    (hes : ∀ e ∈ es, e.Extends) {e e' : SessionEvent} (he : e ∈ es) (he' : e' ∈ es)
    {hwp hwp' : HeaderWithProof} {b b' : VerifiedBlock} (ha : e.Accepts D hwp b)
    (ha' : e'.Accepts D hwp' b') (hplace : hwp.place = hwp'.place) :
    (b.blockHash c = b'.blockHash c ∧ b.authPath = b'.authPath ∧ hwp.proof = hwp'.proof) ∨
      Collision c.hash32Concat (hwp.inputs c) (hwp'.inputs c) := by
  obtain ⟨v', -, haccepted⟩ := accepted_at_end hrun hes (sharing_session v) (heap_session v)
  obtain ⟨hvalid, rfl⟩ := haccepted e he hwp b ha
  obtain ⟨hvalid', rfl⟩ := haccepted e' he' hwp' b' ha'
  rcases HeaderValidator.place_binds hvalid hvalid' hplace with ⟨hhash, hproof⟩ | hcol
  · exact Or.inl ⟨hhash, congrArg authPathFor hproof, hproof⟩
  · exact Or.inr hcol

end Session

/-! ## 6. The answers of queries -/

/-- Two headers with different encodings and one hash. -/
def Header.HashCollision (c : Crypto) (h h' : Header) : Prop :=
  h.encode ≠ h'.encode ∧ c.keccak256 h.encode = c.keccak256 h'.encode

/-- Headers in the order of the forks are told apart by their hash. -/
theorem Header.eq_or_hashCollision {h h' : Header} (hp : h.PrefixShape) (hp' : h'.PrefixShape)
    (hhash : h.hashSlow c = h'.hashSlow c) : h = h' ∨ h.HashCollision c h' := by
  by_cases henc : h.encode = h'.encode
  · have hnot := Header.not_sameItemsElsewhere_of_prefixShape hp hp'
    refine Or.inl (Header.eq_of_encode_eq henc ?_)
    by_contra hne
    exact hnot ⟨Header.encode_eq_iff.mp henc, hne⟩
  · exact Or.inr ⟨henc, hhash⟩

/-- So are the blocks returned for headers that were read from bytes. -/
theorem VerifiedBlock.eq_or_hashCollision {bytes bytes' : List UInt8}
    {hwp hwp' : HeaderWithProof} (hdec : HeaderWithProof.fromSszBytes D bytes = .ok hwp)
    (hdec' : HeaderWithProof.fromSszBytes D bytes' = .ok hwp')
    (hhash : hwp.header.hashSlow c = hwp'.header.hashSlow c) :
    (⟨hwp.header, authPathFor hwp.proof⟩ : VerifiedBlock)
        = ⟨hwp'.header, authPathFor hwp'.proof⟩ ∨
      hwp.header.HashCollision c hwp'.header := by
  obtain ⟨_, _, -, -, hread, hera⟩ := HeaderWithProof.fromSszBytes_eq_ok.mp hdec
  obtain ⟨_, _, -, -, hread', hera'⟩ := HeaderWithProof.fromSszBytes_eq_ok.mp hdec'
  rcases Header.eq_or_hashCollision (D.canonical hread).1 (D.canonical hread').1 hhash with
    heq | hcol
  · -- the layout of the proof is read off the header
    have hpath : authPathFor hwp.proof = authPathFor hwp'.proof := by
      have hproofs : hwp.proof.era = hwp'.proof.era := by rw [hera, hera', heq]
      cases hp : hwp.proof <;> cases hp' : hwp'.proof <;> rw [hp, hp'] at hproofs <;>
        first | rfl | cases hproofs
    exact Or.inl (by rw [heq, hpath])
  · exact Or.inr hcol

namespace Session

variable {s s' : Session} {e : SessionEvent}

/-- A query has its block from the attempt that ended it. -/
theorem Step.answered (h : Step c w D s e s') {k : ℕ} {q' : Query} {b : VerifiedBlock}
    (hq' : s'.queries[k]? = some q') (hb : q'.progress = .answered (.ok b)) :
    s.queries[k]? = some q' ∨ ∃ source bytes hwp, e = .attempted k source (.ok bytes) (.ok b) ∧
      HeaderWithProof.fromSszBytes D bytes = .ok hwp ∧ q'.request.asked c hwp.header = true ∧
      b = ⟨hwp.header, authPathFor hwp.proof⟩ := by
  cases hq : s.queries[k]? with
  | some q =>
    rcases h.query hq with ⟨hsame, -⟩ |
      ⟨lastErr, source, rest, validator, fetched, hp, hvalidator, rfl, hnext⟩ |
      ⟨lastErr, hp, rfl, hnext⟩
    · exact Or.inl (hsame.symm.trans hq')
    · obtain rfl := Option.some.inj (hnext.symm.trans hq')
      -- an attempt that leaves an answer was a success
      have hok : q.request.attempt c w D validator fetched = .ok b := by
        cases houtcome : q.request.attempt c w D validator fetched with
        | ok b' =>
          rw [Query.attempted, houtcome] at hb
          exact Progress.answered.inj hb
        | err e =>
          rw [Query.attempted, houtcome] at hb
          cases hb
        | panic msg =>
          rw [Query.attempted, houtcome] at hb
          cases Progress.answered.inj hb
      obtain ⟨bytes, hwp, rfl, hdec, hasked, -, hblock⟩ := Request.attempt_eq_ok.mp hok
      exact Or.inr ⟨source, bytes, hwp, by rw [hok], hdec, hasked, hblock⟩
    · obtain rfl := Option.some.inj (hnext.symm.trans hq')
      cases Progress.answered.inj hb
  | none =>
    exfalso
    cases h with
    | shared h => exact nomatch hq.symm.trans hq'
    | @ask i handle hi request =>
      obtain ⟨hlen, -⟩ := List.getElem?_eq_some_iff.mp hq'
      have hge := List.getElem?_eq_none_iff.mp hq
      rw [List.length_append, List.length_singleton] at hlen
      obtain rfl : k = s.queries.length := by omega
      rw [List.getElem?_append_right le_rfl, Nat.sub_self] at hq'
      obtain rfl := Option.some.inj hq'
      rw [Query.start] at hb
      split at hb
      · cases Progress.answered.inj hb
      · cases hb
    | attempt hk hp hv fetched =>
      obtain ⟨hlt, -⟩ := List.getElem?_eq_some_iff.mp hq'
      rw [List.length_set] at hlt
      exact absurd (List.getElem?_eq_none_iff.mp hq) (not_le.mpr hlt)
    | exhaust hk hp =>
      obtain ⟨hlt, -⟩ := List.getElem?_eq_some_iff.mp hq'
      rw [List.length_set] at hlt
      exact absurd (List.getElem?_eq_none_iff.mp hq) (not_le.mpr hlt)

/-- The attempt is in the run, where the run began without queries. -/
theorem answered_of_run {es : List SessionEvent} (hrun : Run (Step c w D) s es s') {k : ℕ}
    {q' : Query} {b : VerifiedBlock} (hq' : s'.queries[k]? = some q')
    (hb : q'.progress = .answered (.ok b)) :
    s.queries[k]? = some q' ∨ ∃ source bytes hwp,
      .attempted k source (.ok bytes) (.ok b) ∈ es ∧
      HeaderWithProof.fromSszBytes D bytes = .ok hwp ∧ q'.request.asked c hwp.header = true ∧
      b = ⟨hwp.header, authPathFor hwp.proof⟩ := by
  induction hrun with
  | nil s => exact Or.inl hq'
  | @cons s s₁ s' e es head tail ih =>
    rcases ih hq' with hearlier | ⟨source, bytes, hwp, hmem, h⟩
    · rcases head.answered hearlier hb with hfirst | ⟨source, bytes, hwp, rfl, h⟩
      · exact Or.inl hfirst
      · exact Or.inr ⟨source, bytes, hwp, List.mem_cons_self, h⟩
    · exact Or.inr ⟨source, bytes, hwp, List.mem_cons_of_mem _ hmem, h⟩

end Session

/-! A query for the block of the merge, with one source offline, and a check beside it. -/

namespace Session

open Verifier (mergeVerifier mergeHeaderWithProof offlineSource)

def mergeBlockVerified : VerifiedBlock := ⟨mergeHeader, .historicalRoots⟩

def mergeRequest : Request := .byNumber 15537394

def mergeEvents : List SessionEvent :=
  [.attempted 0 offlineSource (.err (.http "offline")) (.err (.http "offline")),
    .attempted 0 Verifier.mergeSource (.ok mergeHeaderWithProof.asSszBytes)
      (.ok mergeBlockVerified),
    .shared (.verified 0 mergeHeaderWithProof (.ok mergeBlockVerified))]

def mergeAnswered : Query := ⟨0, mergeRequest, .answered (.ok mergeBlockVerified)⟩

/-- The session with its query at some point. -/
def mergeSession (progress : Progress DataSource Error VerifiedBlock) : Session :=
  { mergeVerifier.session with queries := [⟨0, mergeRequest, progress⟩] }

theorem attempt_merge :
    mergeRequest.attempt prefixCrypto .w64 rlpHeaderDecoder mergeValidator
      (.ok mergeHeaderWithProof.asSszBytes) = .ok mergeBlockVerified :=
  Request.attempt_eq_ok.mpr ⟨_, _, rfl, Verifier.fromSszBytes_mergeHeaderWithProof, by decide,
    mergeProof_accepted, rfl⟩

/-- One attempt of the query. -/
theorem step_mergeSession (lastErr : Option Error) (source : DataSource) (rest : List DataSource)
    (fetched : Outcome Error (List UInt8)) :
    Step prefixCrypto .w64 rlpHeaderDecoder (mergeSession (.asking lastErr (source :: rest)))
      (.attempted 0 source fetched
        (mergeRequest.attempt prefixCrypto .w64 rlpHeaderDecoder mergeValidator fetched))
      (mergeSession (.afterAttempt rest
        (mergeRequest.attempt prefixCrypto .w64 rlpHeaderDecoder mergeValidator fetched))) :=
  @Step.attempt prefixCrypto .w64 rlpHeaderDecoder _ 0
    ⟨0, mergeRequest, .asking lastErr (source :: rest)⟩ mergeValidator lastErr source rest rfl rfl
    rfl fetched

theorem mergeRun :
    Run (Step prefixCrypto .w64 rlpHeaderDecoder) mergeVerifier.session
      (.asked 0 mergeRequest :: mergeEvents)
      (mergeSession (.answered (.ok mergeBlockVerified))) := by
  have hask : Step prefixCrypto .w64 rlpHeaderDecoder mergeVerifier.session
      (.asked 0 mergeRequest)
      (mergeSession (.asking none [offlineSource, Verifier.mergeSource])) :=
    @Step.ask prefixCrypto .w64 rlpHeaderDecoder mergeVerifier.session 0
      ⟨0, [offlineSource, Verifier.mergeSource]⟩ rfl mergeRequest
  have hoffline : Step prefixCrypto .w64 rlpHeaderDecoder
      (mergeSession (.asking none [offlineSource, Verifier.mergeSource]))
      (.attempted 0 offlineSource (.err (.http "offline")) (.err (.http "offline")))
      (mergeSession (.asking (some (.http "offline")) [Verifier.mergeSource])) :=
    step_mergeSession none offlineSource [Verifier.mergeSource] (.err (.http "offline"))
  have hmerge := step_mergeSession (some (.http "offline")) Verifier.mergeSource []
    (.ok mergeHeaderWithProof.asSszBytes)
  rw [attempt_merge] at hmerge
  have hverify : Step prefixCrypto .w64 rlpHeaderDecoder
      (mergeSession (.answered (.ok mergeBlockVerified)))
      (.shared (.verified 0 mergeHeaderWithProof (.ok mergeBlockVerified)))
      (mergeSession (.answered (.ok mergeBlockVerified))) := by
    rw [mergeBlockVerified, ← Verifier.verify_mergeHeaderWithProof]
    exact .shared (.verify rfl rfl mergeHeaderWithProof)
  exact .cons hask (.cons hoffline (.cons hmerge (.cons hverify (.nil _))))

theorem faithful_mergeEvents : ∀ e ∈ mergeEvents, e.Faithful 0 mergeRequest := by
  intro e he
  simp only [mergeEvents, List.mem_cons, List.not_mem_nil, or_false] at he
  rcases he with rfl | rfl | rfl
  · exact fun _ => rfl
  · exact fun _ => rfl
  · trivial

theorem quiet_mergeEvents : ∀ e ∈ mergeEvents, e.Quiet ∧ e.Extends := by
  intro e he
  simp only [mergeEvents, List.mem_cons, List.not_mem_nil, or_false] at he
  rcases he with rfl | rfl | rfl
  · exact ⟨trivial, trivial⟩
  · exact ⟨trivial, trivial⟩
  · exact ⟨trivial, trivial⟩

theorem query_undisturbed_merge :
    mergeVerifier.query prefixCrypto .w64 rlpHeaderDecoder mergeRequest
      = ([offlineSource, Verifier.mergeSource], .ok mergeBlockVerified) :=
  query_undisturbed prefixCrypto .w64 rlpHeaderDecoder mergeRun rfl rfl
    (fun e he => (quiet_mergeEvents e he).1) faithful_mergeEvents rfl rfl

theorem query_served_merge :
    (∃ b, (.ok mergeBlockVerified : Outcome Error VerifiedBlock) = .ok b) ∨
      ∃ msg, (.ok mergeBlockVerified : Outcome Error VerifiedBlock) = .panic msg := by
  have hserves : mergeRequest.ServedBy prefixCrypto .w64 rlpHeaderDecoder mergeValidator
      Verifier.mergeSource := ⟨_, attempt_merge⟩
  exact query_served prefixCrypto .w64 rlpHeaderDecoder mergeRun rfl rfl
    (fun e he => (quiet_mergeEvents e he).2) (List.mem_cons_of_mem _ List.mem_cons_self) hserves
    (fun _ _ _ he _ => faithful_mergeEvents _ he rfl) rfl rfl

theorem extends_mergeRun : ∀ e ∈ SessionEvent.asked 0 mergeRequest :: mergeEvents, e.Extends := by
  intro e he
  rcases List.mem_cons.mp he with rfl | he
  · trivial
  · exact (quiet_mergeEvents e he).2

/-- The attempt and the check beside it. -/
theorem agreement_merge :
    (mergeBlockVerified.blockHash prefixCrypto = mergeBlockVerified.blockHash prefixCrypto ∧
        mergeBlockVerified.authPath = mergeBlockVerified.authPath ∧
        mergeHeaderWithProof.proof = mergeHeaderWithProof.proof) ∨
      Collision prefixCrypto.hash32Concat (mergeHeaderWithProof.inputs prefixCrypto)
        (mergeHeaderWithProof.inputs prefixCrypto) := by
  have hattempt : .attempted 0 Verifier.mergeSource (.ok mergeHeaderWithProof.asSszBytes)
      (.ok mergeBlockVerified) ∈ SessionEvent.asked 0 mergeRequest :: mergeEvents := by
    simp [mergeEvents]
  have hcheck : .shared (.verified 0 mergeHeaderWithProof (.ok mergeBlockVerified))
      ∈ SessionEvent.asked 0 mergeRequest :: mergeEvents := by
    simp [mergeEvents]
  exact agreement prefixCrypto .w64 rlpHeaderDecoder mergeVerifier mergeRun extends_mergeRun
    hattempt hcheck (.attempted 0 _ _ Verifier.fromSszBytes_mergeHeaderWithProof) (.verified 0) rfl

/-! Three queries for a London block, one by its number and two by its hash, answered in another
order than they are asked in, and one of them with a byte more. -/

open Verifier (londonHeader londonProof londonVerifier)

end Session

end EthHistorian
