/-
# Asking sources in order

A caller holds a list of sources and takes the first answer it can use.  An attempt at one
source may fail, in which case the next source is asked and the error is remembered; when the
list is used up, the last error is the answer.  An abort of an attempt is an abort of the query.

`tryEach` returns the sources it asked beside its answer, so that "nobody is asked after the
first good source" can be stated.  `Exact` is the law of such a query, in terms of what it means
for a source to serve a value or to fail; `exact_of_tryEach` proves it once for every attempt.

A query that waits for each source is a state between two attempts (`Progress`), and the world may
change while it waits.  Section 3 has its moves one by one: `finish_afterAttempt` and
`finish_exhausted` say that they are those of `tryEach`, `Served.afterAttempt` that a good source
still to come is not lost.
-/
import EthHistorian.Lib.Outcome

namespace Fallback

variable {σ ε α : Type}

/-- Ask in order until a source answers.  `lastErr` is the error of the source asked before. -/
def tryEach (attempt : σ → Outcome ε α) (exhausted : ε) :
    Option ε → List σ → List σ × Outcome ε α
  | lastErr, [] => ([], .err (lastErr.getD exhausted))
  | _, source :: rest =>
    match attempt source with
    | .ok a => ([source], .ok a)
    | .panic msg => ([source], .panic msg)
    | .err e =>
      let run := tryEach attempt exhausted (some e) rest
      (source :: run.1, run.2)

/-! ## 1. Runs -/

/-- A source that fails hands over to the rest. -/
theorem tryEach_cons_err {attempt : σ → Outcome ε α} {exhausted : ε} {lastErr : Option ε}
    {source : σ} {rest : List σ} {e : ε} (h : attempt source = .err e) :
    tryEach attempt exhausted lastErr (source :: rest)
      = (source :: (tryEach attempt exhausted (some e) rest).1,
          (tryEach attempt exhausted (some e) rest).2) := by
  simp only [tryEach, h]

/-- **The first source that answers ends the query.** -/
theorem tryEach_of_first {attempt : σ → Outcome ε α} {exhausted : ε} {source : σ} {a : α}
    (after : List σ) (hsource : attempt source = .ok a) :
    ∀ (lastErr : Option ε) (before : List σ), (∀ s ∈ before, ∃ e, attempt s = .err e) →
      tryEach attempt exhausted lastErr (before ++ source :: after)
        = (before ++ [source], .ok a) := by
  intro lastErr before
  induction before generalizing lastErr with
  | nil =>
    intro _
    simp only [List.nil_append, tryEach, hsource]
  | cons s before ih =>
    intro hbefore
    obtain ⟨e, he⟩ := hbefore s List.mem_cons_self
    have htail := ih (some e) fun x hx => hbefore x (List.mem_cons_of_mem s hx)
    rw [List.cons_append, tryEach_cons_err he, htail]
    rfl

/-- A query that only meets failures asks everyone, and answers with the last failure. -/
theorem tryEach_of_all_err {attempt : σ → Outcome ε α} {exhausted : ε} {source : σ} {e : ε}
    (hsource : attempt source = .err e) :
    ∀ (lastErr : Option ε) (init : List σ), (∀ s ∈ init, ∃ e, attempt s = .err e) →
      tryEach attempt exhausted lastErr (init ++ [source]) = (init ++ [source], .err e) := by
  intro lastErr init
  induction init generalizing lastErr with
  | nil =>
    intro _
    rw [List.nil_append, tryEach_cons_err hsource]
    rfl
  | cons s init ih =>
    intro hinit
    obtain ⟨d, hd⟩ := hinit s List.mem_cons_self
    have htail := ih (some d) fun x hx => hinit x (List.mem_cons_of_mem s hx)
    rw [List.cons_append, tryEach_cons_err hd, htail]

/-- Where no attempt aborts, either all fail, or there is a first that answers. -/
theorem all_err_or_first {attempt : σ → Outcome ε α} :
    ∀ sources : List σ, (∀ s ∈ sources, (attempt s).Returns) →
      (∀ s ∈ sources, ∃ e, attempt s = .err e) ∨
        ∃ before source after a, sources = before ++ source :: after ∧
          (∀ s ∈ before, ∃ e, attempt s = .err e) ∧ attempt source = .ok a := by
  intro sources
  induction sources with
  | nil => exact fun _ => Or.inl fun s hs => absurd hs List.not_mem_nil
  | cons s rest ih =>
    intro hret
    rcases Outcome.returns_iff.mp (hret s List.mem_cons_self) with ⟨a, ha⟩ | ⟨e, he⟩
    · exact Or.inr ⟨[], s, rest, a, rfl, fun x hx => absurd hx List.not_mem_nil, ha⟩
    · rcases ih fun x hx => hret x (List.mem_cons_of_mem s hx) with
        hall | ⟨before, source, after, a, rfl, hbefore, ha⟩
      · exact Or.inl fun x hx => (List.mem_cons.mp hx).elim (fun h => ⟨e, h ▸ he⟩) (hall x)
      · exact Or.inr ⟨s :: before, source, after, a, rfl,
          fun x hx => (List.mem_cons.mp hx).elim (fun h => ⟨e, h ▸ he⟩) (hbefore x), ha⟩

/-! ## 2. The law -/

/-- The law of a query: `serves s a` says that the answer of `s` is good and yields `a`,
`fails s e` that it is not, for the reason `e`. -/
structure Exact (sources : List σ) (serves : σ → α → Prop) (fails : σ → ε → Prop)
    (onEmpty : ε) (run : List σ × Outcome ε α) : Prop where
  /-- The value is that of the first source that serves one, and nobody is asked after it. -/
  ok_iff : ∀ a, run.2 = .ok a ↔
    ∃ before source after, sources = before ++ source :: after ∧
      (∀ s ∈ before, ¬ ∃ b, serves s b) ∧ serves source a ∧ run.1 = before ++ [source]
  /-- A good source is not masked by those before it. -/
  served : (∃ s ∈ sources, ∃ a, serves s a) → ∃ a, run.2 = .ok a
  empty : sources = [] → run = ([], .err onEmpty)
  /-- Otherwise everyone is asked, and the last one's error is the answer. -/
  failed : ∀ init source, sources = init ++ [source] → (∀ s ∈ sources, ¬ ∃ a, serves s a) →
    run.1 = sources ∧ ∃ e, fails source e ∧ run.2 = .err e

section

variable {attempt : σ → Outcome ε α} {exhausted onEmpty : ε} {sources : List σ}
  {serves : σ → α → Prop} {fails : σ → ε → Prop} {run : List σ × Outcome ε α}

/-- A source that does not answer its question ends in an error. -/
theorem exists_err_of_not_serves (hserves : ∀ s a, attempt s = .ok a ↔ serves s a) {s : σ}
    (hret : (attempt s).Returns) (hno : ¬ ∃ a, serves s a) : ∃ e, attempt s = .err e := by
  rcases Outcome.returns_iff.mp hret with ⟨a, ha⟩ | he
  · exact absurd ⟨a, (hserves s a).mp ha⟩ hno
  · exact he

/-- And the other way round. -/
theorem not_serves_of_err (hserves : ∀ s a, attempt s = .ok a ↔ serves s a) {s : σ}
    (herr : ∃ e, attempt s = .err e) : ¬ ∃ a, serves s a := by
  obtain ⟨e, he⟩ := herr
  rintro ⟨a, ha⟩
  rw [← hserves, he] at ha
  cases ha

/-- **Fallback is exact**, for every attempt that answers for its source and does not abort. -/
theorem exact_of_tryEach (hserves : ∀ s a, attempt s = .ok a ↔ serves s a)
    (hfails : ∀ s e, attempt s = .err e → fails s e)
    (hret : ∀ s ∈ sources, (attempt s).Returns)
    (hempty : sources = [] → run = ([], .err onEmpty))
    (hrun : sources ≠ [] → run = tryEach attempt exhausted none sources) :
    Exact sources serves fails onEmpty run := by
  have herr : ∀ s ∈ sources, (¬ ∃ a, serves s a) → ∃ e, attempt s = .err e := fun s hs =>
    exists_err_of_not_serves hserves (hret s hs)
  have hnot : ∀ s, (∃ e, attempt s = .err e) → ¬ ∃ a, serves s a := fun s =>
    not_serves_of_err hserves
  have hlast : ∀ init source, sources = init ++ [source] →
      (∀ s ∈ sources, ¬ ∃ a, serves s a) →
        ∃ e, attempt source = .err e ∧ run = (sources, .err e) := by
    rintro init source rfl hno
    obtain ⟨e, he⟩ := herr source (by simp) (hno source (by simp))
    refine ⟨e, he, (hrun (by simp)).trans (tryEach_of_all_err he none init fun s hs => ?_)⟩
    exact herr s (List.mem_append_left _ hs) (hno s (List.mem_append_left _ hs))
  have hfirst : ∀ before source after a, sources = before ++ source :: after →
      (∀ s ∈ before, ∃ e, attempt s = .err e) → attempt source = .ok a →
        run = (before ++ [source], .ok a) := by
    rintro before source after a rfl hbefore ha
    exact (hrun (by simp)).trans (tryEach_of_first after ha none before hbefore)
  refine ⟨fun a => ⟨fun ha => ?_, ?_⟩, ?_, hempty, ?_⟩
  · rcases all_err_or_first sources hret with hs | ⟨before, source, after, b, heq, hbefore, hb⟩
    · -- nobody answers: the run ended in an error
      rcases List.eq_nil_or_concat sources with hnil | ⟨init, source, heq⟩
      · rw [hempty hnil] at ha
        cases ha
      · rw [List.concat_eq_append] at heq
        obtain ⟨e, -, he⟩ := hlast init source heq fun s hm => hnot s (hs s hm)
        rw [he] at ha
        cases ha
    · have hrun := hfirst before source after b heq hbefore hb
      rw [hrun] at ha ⊢
      obtain rfl := Outcome.ok.inj ha
      exact ⟨before, source, after, heq, fun s hs => hnot s (hbefore s hs),
        (hserves source b).mp hb, rfl⟩
  · rintro ⟨before, source, after, rfl, hbefore, hsource, -⟩
    rw [hfirst before source after a rfl (fun s hs =>
      herr s (List.mem_append_left _ hs) (hbefore s hs)) ((hserves source a).mpr hsource)]
  · rintro ⟨s, hs, a, ha⟩
    rcases all_err_or_first sources hret with hs' | ⟨before, source, after, b, heq, hbefore, hb⟩
    · exact absurd ⟨a, ha⟩ (hnot s (hs' s hs))
    · exact ⟨b, by rw [hfirst before source after b heq hbefore hb]⟩
  · intro init source heq hno
    obtain ⟨e, he, hrun⟩ := hlast init source heq hno
    rw [hrun]
    exact ⟨rfl, e, hfails source e he, rfl⟩

end

/-! ## 3. One attempt at a time -/

/-- A query that waits: the last error and who is still to be asked, or its answer. -/
inductive Progress (σ ε α : Type) where
  | asking (lastErr : Option ε) (sources : List σ)
  | answered (answer : Outcome ε α)

namespace Progress

/-- What an attempt makes of a query, `rest` being asked after it. -/
def afterAttempt (rest : List σ) : Outcome ε α → Progress σ ε α
  | .ok a => answered (.ok a)
  | .err e => asking (some e) rest
  | .panic msg => answered (.panic msg)

/-- The rest of the query, if nothing changes any more: whom it asks, and its answer. -/
def finish (attempt : σ → Outcome ε α) (exhausted : ε) : Progress σ ε α → List σ × Outcome ε α
  | asking lastErr sources => tryEach attempt exhausted lastErr sources
  | answered answer => ([], answer)

/-- **An attempt is the first move of the loop.** -/
theorem finish_afterAttempt (attempt : σ → Outcome ε α) (exhausted : ε) (lastErr : Option ε)
    (source : σ) (rest : List σ) :
    finish attempt exhausted (asking lastErr (source :: rest))
      = (source :: (finish attempt exhausted (afterAttempt rest (attempt source))).1,
          (finish attempt exhausted (afterAttempt rest (attempt source))).2) := by
  cases h : attempt source with
  | ok a => simp only [finish, tryEach, h, afterAttempt]
  | err e =>
    rw [finish, tryEach_cons_err h]
    rfl
  | panic msg => simp only [finish, tryEach, h, afterAttempt]

/-- When nobody is left, the loop ends. -/
theorem finish_exhausted (attempt : σ → Outcome ε α) (exhausted : ε) (lastErr : Option ε) :
    finish attempt exhausted (asking lastErr [])
      = finish attempt exhausted (answered (.err (lastErr.getD exhausted))) := rfl

/-- A good source is still to come, or the query has an answer that is no error. -/
def Served (good : σ → Prop) : Progress σ ε α → Prop
  | asking _ sources => ∃ source ∈ sources, good source
  | answered answer => ∀ e, answer ≠ .err e

/-- **A good source is not lost**, whatever the attempt before it comes to. -/
theorem Served.afterAttempt {good : σ → Prop} {lastErr : Option ε} {source : σ} {rest : List σ}
    {outcome : Outcome ε α} (h : Served good (asking lastErr (source :: rest) : Progress σ ε α))
    (hgood : good source → ∀ e, outcome ≠ .err e) : Served good (afterAttempt rest outcome) := by
  cases outcome with
  | ok a => nofun
  | panic msg => nofun
  | err e =>
    obtain ⟨x, hx, hxgood⟩ := h
    rcases List.mem_cons.mp hx with rfl | hx
    · exact absurd rfl (hgood hxgood e)
    · exact ⟨x, hx, hxgood⟩

/-- In the end it has been met. -/
theorem Served.answer {good : σ → Prop} {answer : Outcome ε α}
    (h : Served good (answered answer : Progress σ ε α)) :
    (∃ a, answer = .ok a) ∨ ∃ msg, answer = .panic msg := by
  cases answer with
  | ok a => exact Or.inl ⟨a, rfl⟩
  | panic msg => exact Or.inr ⟨msg, rfl⟩
  | err e => exact absurd rfl (h e)

end Progress

end Fallback
