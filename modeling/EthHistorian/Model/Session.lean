/-
# Queries under way

`verify_block_by_number` and `verify_block_by_hash` await each source in turn, and while one query
waits, other tasks go on: they clone the verifier, replace its snapshot, check headers, and make
queries of their own.  A `Session` is a verifier with its clones and all the queries begun on them,
and a step of it moves one task from one await to the next.

What a source sends is not the model's to choose: an attempt may meet any bytes, any error and any
abort, at any time.  Each attempt reads the snapshot as it is then, not as it was when the query
began.
-/
import EthHistorian.Model.SharedVerifier

namespace EthHistorian

open Fallback

/-! ## 1. The source -/

/-- What a query asks for. -/
inductive Request where
  | byNumber (blockNumber : UInt64)
  | byHash (blockHash : B256)
  deriving DecidableEq

namespace Request

/-- The call it makes to each source. -/
def fetch : Request → DataSource → Except Error (List UInt8)
  | byNumber n, source => source.fetchHeaderWithProofByNumber n
  | byHash x, source => source.fetchHeaderWithProofByHash x

/-- The test that a decoded header has to pass. -/
def asked (c : Crypto) : Request → Header → Bool
  | byNumber n, h => h.number == n
  | byHash x, h => h.hashSlow c == x

/-- The error for a header that does not pass it. -/
def mismatch : Request → Header → Error
  | byNumber n, h => .blockNumberMismatch n h.number
  | byHash _, h =>
    .verificationFailed h.number "returned header's hash does not match requested hash"

/-- The number quoted for bytes that do not decode. -/
def block : Request → UInt64
  | byNumber n => n
  | byHash _ => 0

/-- The answer when there was somebody to ask, and no error. -/
def exhausted : Request → Error
  | byNumber n => .blockNotFound n
  | byHash _ => .dataSource "no source produced bytes"

/-- The body of the loop, on what a source has sent. -/
def attempt (c : Crypto) (w : PointerWidth) (D : HeaderDecoder) (v : HeaderValidator)
    (request : Request) (fetched : Outcome Error (List UInt8)) : Outcome Error VerifiedBlock :=
  fetched >>= fun bytes =>
    Verifier.attempt c w D ⟨v, []⟩ request.block (request.asked c) request.mismatch (.ok bytes)

end Request

/-- The query, when nothing comes between its awaits. -/
def Verifier.query (c : Crypto) (w : PointerWidth) (D : HeaderDecoder) (v : Verifier) :
    Request → List DataSource × Outcome Error VerifiedBlock
  | .byNumber n => v.verifyBlockByNumber c w D n
  | .byHash x => v.verifyBlockByHash c w D x

/-! ## 2. Sessions -/

/-- A query under way, on the validator at an address. -/
structure Query where
  validator : ℕ
  request : Request
  progress : Progress DataSource Error VerifiedBlock

/-- Where a query begins: with nobody to ask it is answered at once. -/
def Query.start (sources : List DataSource) : Progress DataSource Error VerifiedBlock :=
  if sources = [] then .answered (.err .noDataSource) else .asking none sources

/-- A query after an attempt. -/
def Query.attempted (query : Query) (rest : List DataSource)
    (outcome : Outcome Error VerifiedBlock) : Query :=
  { query with progress := .afterAttempt rest outcome }

/-- A query that nobody has answered. -/
def Query.failed (query : Query) (lastErr : Option Error) : Query :=
  { query with progress := .answered (.err (lastErr.getD query.request.exhausted)) }

structure Session extends SharedState where
  queries : List Query

def Verifier.session (v : Verifier) : Session := ⟨v.shared, []⟩

inductive SessionEvent where
  | shared (e : Event)
  | asked (handle : ℕ) (request : Request)
  | attempted (query : ℕ) (source : DataSource) (fetched : Outcome Error (List UInt8))
      (outcome : Outcome Error VerifiedBlock)
  | exhausted (query : ℕ)

/-- What can happen, and what it records. -/
inductive Session.Step (c : Crypto) (w : PointerWidth) (D : HeaderDecoder) :
    Session → SessionEvent → Session → Prop
  | shared {s : Session} {e : Event} {t : SharedState}
      (h : SharedState.Step c w s.toSharedState e t) :
      Step c w D s (.shared e) { s with toSharedState := t }
  | ask {s : Session} {i : ℕ} {handle : VerifierHandle} (hi : s.handles[i]? = some handle)
      (request : Request) :
      Step c w D s (.asked i request)
        { s with
          queries := s.queries ++
            [⟨handle.validator, request, Query.start handle.dataSources⟩] }
  | attempt {s : Session} {k : ℕ} {query : Query} {validator : HeaderValidator}
      {lastErr : Option Error} {source : DataSource} {rest : List DataSource}
      (hk : s.queries[k]? = some query) (hp : query.progress = .asking lastErr (source :: rest))
      (hv : s.heap[query.validator]? = some validator) (fetched : Outcome Error (List UInt8)) :
      Step c w D s
        (.attempted k source fetched (query.request.attempt c w D validator fetched))
        { s with
          queries := s.queries.set k
            (query.attempted rest (query.request.attempt c w D validator fetched)) }
  | exhaust {s : Session} {k : ℕ} {query : Query} {lastErr : Option Error}
      (hk : s.queries[k]? = some query) (hp : query.progress = .asking lastErr []) :
      Step c w D s (.exhausted k)
        { s with queries := s.queries.set k (query.failed lastErr) }

namespace SessionEvent

/-- Refreshes keep what they replace. -/
def Extends : SessionEvent → Prop
  | shared e => e.Extends
  | _ => True

/-- Nothing is refreshed. -/
def Quiet : SessionEvent → Prop
  | shared (.refreshed _ _ _) => False
  | _ => True

/-- In the attempts of a query, the sources answer as the functions they are. -/
def Faithful (k : ℕ) (request : Request) : SessionEvent → Prop
  | attempted k' source fetched _ => k' = k → fetched = Outcome.ofExcept (request.fetch source)
  | _ => True

/-- The source that a query asked in this event. -/
def source? (k : ℕ) : SessionEvent → Option DataSource
  | attempted k' source _ _ => if k' = k then some source else none
  | _ => none

/-- A header with its proof that was accepted, and the block that was returned for it. -/
inductive Accepts (D : HeaderDecoder) (hwp : HeaderWithProof) (b : VerifiedBlock) :
    SessionEvent → Prop
  | verified (i : ℕ) : Accepts D hwp b (.shared (.verified i hwp (.ok b)))
  | attempted (k : ℕ) (source : DataSource) (bytes : List UInt8)
      (hdec : HeaderWithProof.fromSszBytes D bytes = .ok hwp) :
      Accepts D hwp b (.attempted k source (.ok bytes) (.ok b))

end SessionEvent

/-! ## 3. Attempts -/

namespace Request

variable {c : Crypto} {w : PointerWidth} {D : HeaderDecoder}

/-- The two loops of the source, as one. -/
theorem query_eq (v : Verifier) (request : Request) :
    v.query c w D request
      = if v.dataSources = [] then ([], .err .noDataSource)
        else tryEach (fun source =>
          request.attempt c w D v.validator (Outcome.ofExcept (request.fetch source)))
          request.exhausted none v.dataSources := by
  have hattempt : ∀ (block : UInt64) (asked : Header → Bool) (mismatch : Header → Error)
      (fetched : Except Error (List UInt8)),
      v.attempt c w D block asked mismatch fetched
        = Outcome.ofExcept fetched >>= fun bytes =>
            Verifier.attempt c w D ⟨v.validator, []⟩ block asked mismatch (.ok bytes) := by
    intro block asked mismatch fetched
    cases fetched with
    | ok bytes => rfl
    | error e => rfl
  cases request with
  | byNumber n =>
    have hfun : v.attemptByNumber c w D n = fun source => (byNumber n).attempt c w D v.validator
        (Outcome.ofExcept ((byNumber n).fetch source)) := by
      funext source
      exact hattempt n (fun h => h.number == n) (fun h => .blockNumberMismatch n h.number)
        (source.fetchHeaderWithProofByNumber n)
    rw [Verifier.query, Verifier.verifyBlockByNumber, hfun]
    rfl
  | byHash x =>
    have hfun : v.attemptByHash c w D x = fun source => (byHash x).attempt c w D v.validator
        (Outcome.ofExcept ((byHash x).fetch source)) := by
      funext source
      exact hattempt 0 (fun h => h.hashSlow c == x) (fun h => .verificationFailed h.number
        "returned header's hash does not match requested hash")
        (source.fetchHeaderWithProofByHash x)
    rw [Verifier.query, Verifier.verifyBlockByHash, hfun]
    rfl

/-- An attempt succeeds on bytes that decode to a header that was asked for and is accepted. -/
theorem attempt_eq_ok {v : HeaderValidator} {request : Request}
    {fetched : Outcome Error (List UInt8)} {b : VerifiedBlock} :
    request.attempt c w D v fetched = .ok b ↔
      ∃ bytes hwp, fetched = .ok bytes ∧ HeaderWithProof.fromSszBytes D bytes = .ok hwp ∧
        request.asked c hwp.header = true ∧ v.validateHeaderWithProof c w hwp = .ok () ∧
        b = ⟨hwp.header, authPathFor hwp.proof⟩ := by
  rw [attempt, Outcome.bind_eq_ok]
  constructor
  · rintro ⟨bytes, hfetched, h⟩
    obtain ⟨_, hwp, hbytes, hdec, hasked, hverify⟩ := (Verifier.attempt_eq_ok c w D _).mp h
    obtain rfl := Except.ok.inj hbytes
    exact ⟨bytes, hwp, hfetched, hdec, hasked, (Verifier.verify_eq_ok c w _).mp hverify⟩
  · rintro ⟨bytes, hwp, hfetched, hdec, hasked, hverify⟩
    exact ⟨bytes, hfetched, (Verifier.attempt_eq_ok c w D _).mpr
      ⟨bytes, hwp, rfl, hdec, hasked, (Verifier.verify_eq_ok c w _).mpr hverify⟩⟩

end Request

end EthHistorian
