/-
# Source fallback is exact

Both queries of the `Verifier` obey the one law `Fallback.Exact`, for any number of sources and
any answers: the block returned is the one the FIRST good source serves, nobody is asked after
that source, an unusable source never masks a later good one, and where there is no good source
the error is that of the last one (`NoDataSource` when there is none to ask).  What counts as
good is spelled out in `Verifier.Serves`, and the four ways to fail in `Verifier.Fails`.

The one assumption is that `verify` returns on what the sources answered.
-/
import EthHistorian.Model.Api
import EthHistorian.PostMerge
import EthHistorian.Wire

namespace EthHistorian

namespace Verifier

/-! ## 1. Each query -/

/-- `verify` does not abort on what a source answered. -/
def ReturnsOn (c : Crypto) (w : PointerWidth) (D : HeaderDecoder) (v : Verifier)
    (fetch : DataSource → Except Error (List UInt8)) : Prop :=
  ∀ source ∈ v.dataSources, ∀ bytes hwp, fetch source = .ok bytes →
    HeaderWithProof.fromSszBytes D bytes = .ok hwp → (v.verify c w hwp).Returns

/-- What a source serves was asked for. -/
theorem asked_of_serves {c : Crypto} {w : PointerWidth} {D : HeaderDecoder} {v : Verifier}
    {asked : Header → Bool} {fetched : Except Error (List UInt8)} {b : VerifiedBlock}
    (h : v.Serves c w D asked fetched b) : asked b.header = true := by
  obtain ⟨bytes, hwp, -, -, hasked, hverify⟩ := h
  obtain ⟨-, rfl⟩ := (v.verify_eq_ok c w).mp hverify
  exact hasked

section

variable (c : Crypto) (w : PointerWidth) (D : HeaderDecoder) (v : Verifier)

def ServesByNumber (n : UInt64) (source : DataSource) : VerifiedBlock → Prop :=
  v.Serves c w D (fun h => h.number == n) (source.fetchHeaderWithProofByNumber n)

def FailsByNumber (n : UInt64) (source : DataSource) : Error → Prop :=
  v.Fails c w D n (fun h => h.number == n) (fun h => .blockNumberMismatch n h.number)
    (source.fetchHeaderWithProofByNumber n)

def ServesByHash (x : B256) (source : DataSource) : VerifiedBlock → Prop :=
  v.Serves c w D (fun h => h.hashSlow c == x) (source.fetchHeaderWithProofByHash x)

def FailsByHash (x : B256) (source : DataSource) : Error → Prop :=
  v.Fails c w D 0 (fun h => h.hashSlow c == x)
    (fun h => .verificationFailed h.number "returned header's hash does not match requested hash")
    (source.fetchHeaderWithProofByHash x)

variable {c w D v}

theorem verifyBlockByNumber_law {n : UInt64}
    (hret : v.ReturnsOn c w D fun s => s.fetchHeaderWithProofByNumber n) :
    Fallback.Exact v.dataSources (v.ServesByNumber c w D n) (v.FailsByNumber c w D n)
      .noDataSource (v.verifyBlockByNumber c w D n) := by
  have hserves : ∀ s b, v.attemptByNumber c w D n s = .ok b ↔ v.ServesByNumber c w D n s b :=
    fun s b => v.attempt_eq_ok c w D
  have hfails : ∀ s e, v.attemptByNumber c w D n s = .err e → v.FailsByNumber c w D n s e :=
    fun s e => v.fails_of_attempt c w D
  exact Fallback.exact_of_tryEach hserves hfails
    (fun s hs => v.attempt_returns c w D (hret s hs)) (fun h => if_pos h) (fun h => if_neg h)

theorem verifyBlockByHash_law {x : B256}
    (hret : v.ReturnsOn c w D fun s => s.fetchHeaderWithProofByHash x) :
    Fallback.Exact v.dataSources (v.ServesByHash c w D x) (v.FailsByHash c w D x)
      .noDataSource (v.verifyBlockByHash c w D x) := by
  have hserves : ∀ s b, v.attemptByHash c w D x s = .ok b ↔ v.ServesByHash c w D x s b :=
    fun s b => v.attempt_eq_ok c w D
  have hfails : ∀ s e, v.attemptByHash c w D x s = .err e → v.FailsByHash c w D x s e :=
    fun s e => v.fails_of_attempt c w D
  exact Fallback.exact_of_tryEach hserves hfails
    (fun s hs => v.attempt_returns c w D (hret s hs)) (fun h => if_pos h) (fun h => if_neg h)

end

/-! ## 2. Both queries -/

/-- **Both queries are exact, and answer with the block asked for.** -/
theorem verifyBlock_exact (c : Crypto) (w : PointerWidth) (D : HeaderDecoder) (v : Verifier)
    (n : UInt64) (x : B256)
    (hn : v.ReturnsOn c w D fun s => s.fetchHeaderWithProofByNumber n)
    (hx : v.ReturnsOn c w D fun s => s.fetchHeaderWithProofByHash x) :
    (Fallback.Exact v.dataSources (v.ServesByNumber c w D n) (v.FailsByNumber c w D n)
        .noDataSource (v.verifyBlockByNumber c w D n) ∧
      ∀ b, (v.verifyBlockByNumber c w D n).2 = .ok b → b.header.number = n) ∧
    (Fallback.Exact v.dataSources (v.ServesByHash c w D x) (v.FailsByHash c w D x)
        .noDataSource (v.verifyBlockByHash c w D x) ∧
      ∀ b, (v.verifyBlockByHash c w D x).2 = .ok b → b.blockHash c = x) := by
  have hnumber := verifyBlockByNumber_law hn
  have hhash := verifyBlockByHash_law hx
  refine ⟨⟨hnumber, fun b hb => ?_⟩, ⟨hhash, fun b hb => ?_⟩⟩
  · obtain ⟨-, source, -, -, -, hserves, -⟩ := (hnumber.ok_iff b).mp hb
    exact eq_of_beq (asked_of_serves hserves)
  · obtain ⟨-, source, -, -, -, hserves, -⟩ := (hhash.ok_iff b).mp hb
    exact eq_of_beq (asked_of_serves hserves)

/-! A source that is offline, before one that has the block of the merge. -/

def mergeHeaderWithProof : HeaderWithProof := ⟨mergeHeader, .historicalRoots mergeProof⟩

def offlineSource : DataSource where
  fetchHeaderWithProofByNumber _ := .error (.http "offline")
  fetchHeaderWithProofByHash _ := .error (.http "offline")

def mergeSource : DataSource where
  fetchHeaderWithProofByNumber _ := .ok mergeHeaderWithProof.asSszBytes
  fetchHeaderWithProofByHash _ := .ok mergeHeaderWithProof.asSszBytes

def mergeVerifier : Verifier := ⟨mergeValidator, [offlineSource, mergeSource]⟩

theorem fromSszBytes_mergeHeaderWithProof :
    HeaderWithProof.fromSszBytes rlpHeaderDecoder mergeHeaderWithProof.asSszBytes
      = .ok mergeHeaderWithProof := by
  have hlen : mergeHeader.encode.length ≤ 2048 := mergeHeader.length_encode_le (by decide)
  have hdec : rlpHeaderDecoder.decode mergeHeader.encode = .ok (mergeHeader, []) := by
    have h := rlpHeaderDecoder.roundTrip [] (h := mergeHeader) (by decide) hlen
    rwa [List.append_nil] at h
  exact HeaderWithProof.fromSszBytes_eq_ok.mpr
    ⟨mergeHeader.encode, [], hlen, HeaderWithProof.asSszBytes_eq hlen, hdec, by decide⟩

theorem verify_mergeHeaderWithProof :
    mergeVerifier.verify prefixCrypto .w64 mergeHeaderWithProof
      = .ok ⟨mergeHeader, .historicalRoots⟩ :=
  (mergeVerifier.verify_eq_ok prefixCrypto .w64).mpr ⟨mergeProof_accepted, rfl⟩

theorem mergeVerifier_returnsOn {fetch : DataSource → Except Error (List UInt8)}
    (hoffline : fetch offlineSource = .error (.http "offline"))
    (hmerge : fetch mergeSource = .ok mergeHeaderWithProof.asSszBytes) :
    mergeVerifier.ReturnsOn prefixCrypto .w64 rlpHeaderDecoder fetch := by
  intro source hs bytes hwp hfetch hdec
  rcases List.mem_pair.mp hs with rfl | rfl
  · rw [hoffline] at hfetch
    cases hfetch
  · obtain rfl := Except.ok.inj (hmerge.symm.trans hfetch)
    obtain rfl := Except.ok.inj (fromSszBytes_mergeHeaderWithProof.symm.trans hdec)
    rw [Outcome.Returns, verify_mergeHeaderWithProof]
    exact fun msg h => by cases h

theorem verifyBlock_exact_merge :
    ∃ b, (mergeVerifier.verifyBlockByNumber prefixCrypto .w64 rlpHeaderDecoder 15537394).2
        = .ok b ∧ b.header.number = 15537394 := by
  obtain ⟨hexact, hnumber⟩ := (verifyBlock_exact prefixCrypto .w64 rlpHeaderDecoder mergeVerifier
    15537394 (mergeHeader.hashSlow prefixCrypto) (mergeVerifier_returnsOn rfl rfl)
    (mergeVerifier_returnsOn rfl rfl)).1
  obtain ⟨b, hb⟩ := hexact.served ⟨mergeSource, by simp [mergeVerifier], _, _, _, rfl,
    fromSszBytes_mergeHeaderWithProof, by decide, verify_mergeHeaderWithProof⟩
  exact ⟨b, hb, hnumber b hb⟩

end Verifier

end EthHistorian
