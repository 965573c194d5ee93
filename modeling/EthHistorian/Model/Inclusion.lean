/-
# Inclusion, and decoding receipts

`src/inclusion.rs`: the trie key of a position in a block, the check of a trie proof against a
root the caller trusts, and the reading of what is included.  A receipt as the receipts trie
stores it is dispatched on its first byte, read by one of four arms, and written back by
`to_wire_bytes`.

The trie is `alloy_trie`'s, a crate of its own, so what the code calls of it is a parameter
(`AlloyTrie`).
-/
import EthHistorian.Model.Api
import EthHistorian.Model.Receipt

namespace EthHistorian

open ByteString

/-! ## 1. Inclusion -/

structure AlloyTrie where
  /-- `Nibbles::unpack`. -/
  unpack : List UInt8 → Outcome Error (List Nibble)
  /-- The path of a key is its half bytes, up to the longest key a path can hold. -/
  unpack_eq : ∀ key, key.length ≤ 32 → unpack key = .ok (nibbles key)
  /-- `verify_proof`: the root, the path, the value expected there and the nodes.  An error is
  its text. -/
  verifyProof : B256 → List Nibble → Option (List UInt8) → List (List UInt8) →
    Except String Unit

/-- The trie key of a position. -/
def rlpEncodeIndex (index : UInt64) : List UInt8 := rlpU64.enc index

section

variable (T : AlloyTrie)

def verifyMptInclusion (root : B256) (key value : List UInt8) (proofNodes : List (List UInt8)) :
    Outcome Error Unit :=
  if proofNodes = [] then .err (.mptInclusion "empty proof")
  else do
    let nibbles ← T.unpack key
    (Outcome.ofExcept (T.verifyProof root nibbles (some value) proofNodes)).mapErr .mptInclusion

def verifyTransactionInclusion (transactionsRoot : B256) (txIndex : UInt64) (rawTx : List UInt8)
    (proofNodes : List (List UInt8)) : Outcome Error Unit :=
  verifyMptInclusion T transactionsRoot (rlpEncodeIndex txIndex) rawTx proofNodes

def verifyReceiptInclusion (receiptsRoot : B256) (receiptIndex : UInt64)
    (rawReceipt : List UInt8) (proofNodes : List (List UInt8)) : Outcome Error Unit :=
  verifyMptInclusion T receiptsRoot (rlpEncodeIndex receiptIndex) rawReceipt proofNodes

end

/-! ## 2. Receipts -/

def arbitrumTxTypeMin : UInt8 := 0x64
def arbitrumTxTypeMax : UInt8 := 0x6A
def opDepositTxType : UInt8 := 0x7E

inductive DecodedReceipt where
  | ethereum (envelope : ReceiptEnvelope)
  | arbitrum (txType : UInt8) (receipt : ReceiptWithBloom)
  | opDeposit (receipt : ReceiptWithBloom) (depositNonce depositReceiptVersion : Option UInt64)
  deriving DecidableEq

namespace DecodedReceipt

def txType : DecodedReceipt → UInt8
  | ethereum envelope => envelope.txType
  | arbitrum txType _ => txType
  | opDeposit .. => opDepositTxType

/-- The two trailing fields of a deposit receipt, written together or not at all. -/
def opDepositTail : Option UInt64 → Option UInt64 → List UInt8
  | some n, some v => rlpU64.enc n ++ rlpU64.enc v
  | _, _ => []

def toWireBytes : DecodedReceipt → List UInt8
  | ethereum envelope => envelope.encoded2718
  | arbitrum txType receipt => txType :: rlpReceipt.enc receipt
  | opDeposit receipt depositNonce depositReceiptVersion =>
    let payload := receipt.payload ++ opDepositTail depositNonce depositReceiptVersion
    opDepositTxType :: ((Rlp.Header.mk true payload.length).encode ++ payload)

end DecodedReceipt

/-- `if condition { return Err(reason) }`. -/
def refuse (condition : Prop) [Decidable condition] (reason : String) : Except String Unit :=
  if condition then .error reason else .ok ()

theorem refuse_eq_ok {condition : Prop} [Decidable condition] {reason : String} {u : Unit} :
    refuse condition reason = .ok u ↔ ¬ condition := by
  unfold refuse
  split
  · rename_i h
    simp [h]
  · rename_i h
    simp [h]

/-- The message of an error inside a deposit receipt. -/
def opDepositError (what err : String) : String := s!"op deposit 0x7e: {what}: {err}"

/-- The last two fields of a deposit receipt, from Canyon on. -/
def decodeOpDepositTail (D : ReceiptDecoders) (p : List UInt8) :
    Except String (Option UInt64 × Option UInt64 × List UInt8) :=
  if p = [] then .ok (none, none, p)
  else do
    let (n, p) ← (D.u64 p).mapError (opDepositError "depositNonce")
    let (v, p) ← (D.u64 p).mapError (opDepositError "depositReceiptVersion")
    return (some n, some v, p)

def decodeOpDeposit (D : ReceiptDecoders) (body : List UInt8) : Except String DecodedReceipt := do
  let (h, buf) ← (D.header body).mapError (opDepositError "list header")
  refuse (h.list = false) "op deposit 0x7e: body is not an RLP list"
  -- `abs_diff`, whose one half is zero
  refuse (buf.length ≠ h.payloadLength)
    (s!"op deposit 0x7e: {buf.length - h.payloadLength + (h.payloadLength - buf.length)} " ++
      "trailing bytes after the receipt body")
  let (status, p) ← (D.status buf).mapError (opDepositError "status")
  let (cumulativeGasUsed, p) ← (D.u64 p).mapError (opDepositError "cumulativeGasUsed")
  let (logsBloom, p) ← (D.bloom p).mapError (opDepositError "logsBloom")
  let (logs, p) ← (D.logs p).mapError (opDepositError "logs")
  let (depositNonce, depositReceiptVersion, p) ← decodeOpDepositTail D p
  refuse (p ≠ []) s!"op deposit 0x7e: {p.length} unexpected bytes after the receipt's fields"
  return .opDeposit ⟨⟨status, cumulativeGasUsed, logs⟩, logsBloom⟩ depositNonce
    depositReceiptVersion

/-- The reading of a nonempty receipt, by its first byte. -/
def decodeReceiptArm (D : ReceiptDecoders) (txType : UInt8) (body : List UInt8) :
    Except String DecodedReceipt :=
  if 0x80 ≤ txType then
    -- what the reader leaves unread is dropped
    (D.envelope (txType :: body)).map fun (envelope, _) => .ethereum envelope
  else if arbitrumTxTypeMin ≤ txType ∧ txType ≤ arbitrumTxTypeMax then do
    let (receipt, rest) ← (D.receipt body).mapError fun e =>
      s!"arbitrum type 0x{hexByte txType}: {e}"
    refuse (rest ≠ []) (s!"arbitrum type 0x{hexByte txType}: {rest.length} trailing bytes " ++
      "after the receipt body")
    return .arbitrum txType receipt
  else if txType = opDepositTxType then decodeOpDeposit D body
  else if txType ≤ 0x04 then
    (D.decode2718 (txType :: body)).map fun (envelope, _) => .ethereum envelope
  else
    .error (s!"unsupported EIP-2718 receipt type 0x{hexByte txType} " ++
      "(admitted: 0x00-0x04 Ethereum, 0x64-0x6a Arbitrum, 0x7e OP-stack deposit)")

def decodeReceipt (D : ReceiptDecoders) (receiptIndex : UInt64) (rawReceipt : List UInt8) :
    Except Error DecodedReceipt :=
  match rawReceipt with
  | [] => .error (.receiptDecode receiptIndex "empty receipt bytes")
  | txType :: body => (decodeReceiptArm D txType body).mapError (.receiptDecode receiptIndex)

def verifyAndDecodeReceipt (T : AlloyTrie) (D : ReceiptDecoders) (receiptsRoot : B256)
    (receiptIndex : UInt64) (rawReceipt : List UInt8) (proofNodes : List (List UInt8)) :
    Outcome Error DecodedReceipt := do
  verifyReceiptInclusion T receiptsRoot receiptIndex rawReceipt proofNodes
  .ofExcept (decodeReceipt D receiptIndex rawReceipt)

/-! ## 3. On a verified block

`src/api.rs` calls the same functions with the roots of the header it has authenticated. -/

namespace VerifiedBlock

variable (T : AlloyTrie) (b : VerifiedBlock)

def verifyTransactionInclusion (txIndex : UInt64) (rawTx : List UInt8)
    (proofNodes : List (List UInt8)) : Outcome Error Unit :=
  EthHistorian.verifyTransactionInclusion T b.header.transactionsRoot txIndex rawTx proofNodes

def verifyReceiptInclusion (receiptIndex : UInt64) (rawReceipt : List UInt8)
    (proofNodes : List (List UInt8)) : Outcome Error Unit :=
  EthHistorian.verifyReceiptInclusion T b.header.receiptsRoot receiptIndex rawReceipt proofNodes

def verifyAndDecodeReceipt (D : ReceiptDecoders) (receiptIndex : UInt64)
    (rawReceipt : List UInt8) (proofNodes : List (List UInt8)) : Outcome Error DecodedReceipt :=
  EthHistorian.verifyAndDecodeReceipt T D b.header.receiptsRoot receiptIndex rawReceipt proofNodes

end VerifiedBlock

end EthHistorian
