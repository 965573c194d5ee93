/-
# Errors

`src/errors.rs`, and the texts its messages are put together from.
-/
import EthHistorian.Lib.Ssz
import EthHistorian.Model.MerkleProof

namespace EthHistorian

inductive Error where
  | noDataSource
  | blockNotFound (block : UInt64)
  | dataSource (reason : String)
  | sszDecode (block : UInt64) (reason : String)
  | verificationFailed (block : UInt64) (reason : String)
  | blockNumberMismatch (expected actual : UInt64)
  | http (reason : String)
  | json (reason : String)
  | hex (reason : String)
  | historicalSummariesUnavailable
  | proofConstruction (reason : String)
  | mptInclusion (reason : String)
  | receiptDecode (index : UInt64) (reason : String)
  | transactionDecode (index : UInt64) (reason : String)
  | io (reason : String)
  deriving DecidableEq, Repr

/-! ## Texts -/

/-- One digit of lowercase hex. -/
def hexDigit (n : ℕ) : Char := Char.ofNat (if n < 10 then 48 + n else 87 + n)

/-- `{:02x}`. -/
def hexByte (b : UInt8) : String :=
  String.ofList [hexDigit (b.toNat / 16), hexDigit (b.toNat % 16)]

/-- `{:?}` of a `FixedBytes`. -/
def FixedBytes.debug {n : ℕ} (x : FixedBytes n) : String :=
  "0x" ++ String.join (x.bytes.map hexByte)

/-- The derived `{:?}` of the errors that are quoted in messages. -/
def InvalidSnapshot.debug : InvalidSnapshot → String
  | emptyBranchWithNonZeroDeposits n => s!"EmptyBranchWithNonZeroDeposits({n})"
  | endOfTree => "EndOfTree"

def MerkleTreeError.debug : MerkleTreeError → String
  | leafReached => "LeafReached"
  | merkleTreeFull => "MerkleTreeFull"
  | invalid => "Invalid"
  | depthTooSmall => "DepthTooSmall"
  | arithError => "ArithError"
  | zeroNodeFinalized => "ZeroNodeFinalized"
  | finalizedNodePushed => "FinalizedNodePushed"
  | invalidSnapshot e => s!"InvalidSnapshot({e.debug})"
  | proofEncounteredFinalizedNode => "ProofEncounteredFinalizedNode"
  | pleaseNotifyTheDevs => "PleaseNotifyTheDevs"

end EthHistorian

namespace Ssz

/-- The derived `{:?}` of a decoding error. -/
def DecodeError.debug : DecodeError → String
  | invalidByteLength len expected =>
    s!"InvalidByteLength \x7b len: {len}, expected: {expected} \x7d"
  | invalidLengthPrefix len expected =>
    s!"InvalidLengthPrefix \x7b len: {len}, expected: {expected} \x7d"
  | offsetIntoFixedPortion i => s!"OffsetIntoFixedPortion({i})"
  | offsetSkipsVariableBytes i => s!"OffsetSkipsVariableBytes({i})"
  | offsetsAreDecreasing i => s!"OffsetsAreDecreasing({i})"
  | offsetOutOfBounds i => s!"OffsetOutOfBounds({i})"
  | bytesInvalid reason => s!"BytesInvalid({reason.quote})"

end Ssz
