/-
# The public interface

`src/api.rs`: a `Verifier` holds a validator and a list of data sources.  `verify` checks a
header a caller already has; `verify_block_by_number` and `verify_block_by_hash` ask the sources
for one.  The two loops of the source differ in four places only (whom they ask for what, the
block number they quote for undecodable bytes, the test on the decoded header, and the answer
when no error was recorded), so each is `Fallback.tryEach` at its own values.

A query returns the sources it asked beside its outcome.
-/
import EthHistorian.Lib.Fallback
import EthHistorian.Model.Errors
import EthHistorian.Model.HeaderValidator

namespace EthHistorian

/-! ## 1. The source -/

inductive AuthPath where
  | historicalHashes
  | historicalRoots
  | historicalSummariesCapella
  | historicalSummariesDeneb
  deriving DecidableEq, Repr

def authPathFor : BlockHeaderProof → AuthPath
  | .historicalHashes _ => .historicalHashes
  | .historicalRoots _ => .historicalRoots
  | .historicalSummariesCapella _ => .historicalSummariesCapella
  | .historicalSummariesDeneb _ => .historicalSummariesDeneb

structure VerifiedBlock where
  header : Header
  authPath : AuthPath

/-- What a source answers to each request: a fetch error, or any bytes. -/
structure DataSource where
  fetchHeaderWithProofByNumber : UInt64 → Except Error (List UInt8)
  fetchHeaderWithProofByHash : B256 → Except Error (List UInt8)

structure Verifier where
  validator : HeaderValidator
  dataSources : List DataSource

def VerifiedBlock.blockHash (c : Crypto) (b : VerifiedBlock) : B256 := b.header.hashSlow c

namespace Verifier

variable (c : Crypto) (w : PointerWidth) (D : HeaderDecoder) (v : Verifier)

def verify (hwp : HeaderWithProof) : Outcome Error VerifiedBlock := do
  (v.validator.validateHeaderWithProof c w hwp).mapErr fun reason =>
    .verificationFailed hwp.header.number reason
  return ⟨hwp.header, authPathFor hwp.proof⟩

/-- The body of both loops, for the answer of one source: decode, test, verify.  `block` is the
number quoted for bytes that do not decode, `mismatch` the error for a header not asked for. -/
def attempt (block : UInt64) (asked : Header → Bool) (mismatch : Header → Error)
    (fetched : Except Error (List UInt8)) : Outcome Error VerifiedBlock := do
  let bytes ← Outcome.ofExcept fetched
  let hwp ← (Outcome.ofExcept (HeaderWithProof.fromSszBytes D bytes)).mapErr fun e =>
    .sszDecode block e.debug
  .require (asked hwp.header) (mismatch hwp.header)
  v.verify c w hwp

def attemptByNumber (blockNumber : UInt64) (source : DataSource) : Outcome Error VerifiedBlock :=
  v.attempt c w D blockNumber (fun h => h.number == blockNumber)
    (fun h => .blockNumberMismatch blockNumber h.number)
    (source.fetchHeaderWithProofByNumber blockNumber)

/-- Undecodable bytes are reported for block 0: the number is not known yet. -/
def attemptByHash (blockHash : B256) (source : DataSource) : Outcome Error VerifiedBlock :=
  v.attempt c w D 0 (fun h => h.hashSlow c == blockHash)
    (fun h => .verificationFailed h.number
      "returned header's hash does not match requested hash")
    (source.fetchHeaderWithProofByHash blockHash)

def verifyBlockByNumber (blockNumber : UInt64) :
    List DataSource × Outcome Error VerifiedBlock :=
  if v.dataSources = [] then ([], .err .noDataSource)
  else Fallback.tryEach (v.attemptByNumber c w D blockNumber) (.blockNotFound blockNumber) none
    v.dataSources

def verifyBlockByHash (blockHash : B256) : List DataSource × Outcome Error VerifiedBlock :=
  if v.dataSources = [] then ([], .err .noDataSource)
  else Fallback.tryEach (v.attemptByHash c w D blockHash)
    (.dataSource "no source produced bytes") none v.dataSources

/-! ## 2. What each returns -/

/-- **`verify` returns the header it was given**, when the validator accepts it. -/
theorem verify_eq_ok {hwp : HeaderWithProof} {b : VerifiedBlock} :
    v.verify c w hwp = .ok b ↔
      v.validator.validateHeaderWithProof c w hwp = .ok () ∧
        b = ⟨hwp.header, authPathFor hwp.proof⟩ := by
  simp only [verify, Outcome.bind_eq_ok, Outcome.mapErr_eq_ok, Outcome.pure_eq, Outcome.ok.injEq]
  constructor
  · rintro ⟨⟨⟩, hok, hb⟩
    exact ⟨hok, hb.symm⟩
  · rintro ⟨hok, hb⟩
    exact ⟨(), hok, hb.symm⟩

/-- It aborts where the validator does. -/
theorem verify_returns {hwp : HeaderWithProof} :
    (v.verify c w hwp).Returns ↔ (v.validator.validateHeaderWithProof c w hwp).Returns := by
  simp only [Outcome.Returns, verify, ne_eq, Outcome.bind_eq_panic, Outcome.mapErr_eq_panic,
    Outcome.pure_eq, reduceCtorEq, and_false, exists_false, or_false]

/-- A source serves a block: its bytes decode to the header asked for, which is verified. -/
def Serves (asked : Header → Bool) (fetched : Except Error (List UInt8)) (b : VerifiedBlock) :
    Prop :=
  ∃ bytes hwp, fetched = .ok bytes ∧ HeaderWithProof.fromSszBytes D bytes = .ok hwp ∧
    asked hwp.header = true ∧ v.verify c w hwp = .ok b

/-- The four ways a source fails, and what each is reported as. -/
inductive Fails (block : UInt64) (asked : Header → Bool) (mismatch : Header → Error) :
    Except Error (List UInt8) → Error → Prop
  | fetch (e : Error) : Fails block asked mismatch (.error e) e
  | undecodable (bytes : List UInt8) (e : Ssz.DecodeError)
      (hdec : HeaderWithProof.fromSszBytes D bytes = .error e) :
      Fails block asked mismatch (.ok bytes) (.sszDecode block e.debug)
  | wrongBlock (bytes : List UInt8) (hwp : HeaderWithProof)
      (hdec : HeaderWithProof.fromSszBytes D bytes = .ok hwp)
      (hasked : asked hwp.header = false) :
      Fails block asked mismatch (.ok bytes) (mismatch hwp.header)
  | rejected (bytes : List UInt8) (hwp : HeaderWithProof) (e : Error)
      (hdec : HeaderWithProof.fromSszBytes D bytes = .ok hwp)
      (hasked : asked hwp.header = true) (hverify : v.verify c w hwp = .err e) :
      Fails block asked mismatch (.ok bytes) e

variable {block : UInt64} {asked : Header → Bool} {mismatch : Header → Error}
  {fetched : Except Error (List UInt8)}

theorem attempt_eq_ok {b : VerifiedBlock} :
    v.attempt c w D block asked mismatch fetched = .ok b ↔ v.Serves c w D asked fetched b := by
  simp only [attempt, Serves, Outcome.bind_eq_ok, Outcome.mapErr_eq_ok, Outcome.ofExcept_eq_ok,
    Outcome.require_eq_ok]
  constructor
  · rintro ⟨bytes, hfetched, hwp, hdec, -, hasked, hverify⟩
    exact ⟨bytes, hwp, hfetched, hdec, hasked, hverify⟩
  · rintro ⟨bytes, hwp, hfetched, hdec, hasked, hverify⟩
    exact ⟨bytes, hfetched, hwp, hdec, (), hasked, hverify⟩

theorem fails_of_attempt {e : Error}
    (h : v.attempt c w D block asked mismatch fetched = .err e) :
    v.Fails c w D block asked mismatch fetched e := by
  cases fetched with
  | error d =>
    obtain rfl := Outcome.err.inj h
    exact .fetch d
  | ok bytes =>
    cases hdec : HeaderWithProof.fromSszBytes D bytes with
    | error d =>
      simp only [attempt, Outcome.ofExcept_ok, Outcome.ok_bind, hdec, Outcome.ofExcept_error,
        Outcome.mapErr_err, Outcome.err_bind, Outcome.err.injEq] at h
      rw [← h]
      exact .undecodable bytes d hdec
    | ok hwp =>
      simp only [attempt, Outcome.ofExcept_ok, Outcome.ok_bind, hdec, Outcome.mapErr_ok] at h
      cases hasked : asked hwp.header with
      | false =>
        simp only [hasked, Outcome.require_false, Outcome.err_bind, Outcome.err.injEq] at h
        rw [← h]
        exact .wrongBlock bytes hwp hdec hasked
      | true =>
        simp only [hasked, Outcome.require_true, Outcome.ok_bind] at h
        exact .rejected bytes hwp e hdec hasked h

/-- An attempt aborts where `verify` does. -/
theorem attempt_returns
    (h : ∀ bytes hwp, fetched = .ok bytes → HeaderWithProof.fromSszBytes D bytes = .ok hwp →
      (v.verify c w hwp).Returns) :
    (v.attempt c w D block asked mismatch fetched).Returns := by
  intro msg hpanic
  simp only [attempt, Outcome.bind_eq_panic, Outcome.mapErr_eq_panic, Outcome.ofExcept_ne_panic,
    Outcome.require_ne_panic, false_or, Outcome.mapErr_eq_ok, Outcome.ofExcept_eq_ok] at hpanic
  obtain ⟨bytes, hfetched, hwp, hdec, -, -, hverify⟩ := hpanic
  exact h bytes hwp hfetched hdec msg hverify

end Verifier

end EthHistorian
