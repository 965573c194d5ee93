/-
# The beacon node, with its blocks

The rest of `src/sources/beacon_rpc.rs`: the request for a signed block, and with it the
`BeaconDataProvider` that the archive source is handed.  `SignedBeaconBlock::from_ssz_bytes_with`
repeats what the derive macro would have written, so that the fork can be told to the block's
reader; section 2 says it accepts what the derived readers accept.
-/
import EthHistorian.Model.ArchiveRpc
import EthHistorian.Model.BeaconStateSsz

namespace EthHistorian

open Ssz (Fields Ty)

/-! ## 1. Blocks and signed blocks -/

namespace BeaconBlock

/-- The bytes of the variant, with no selector. -/
def asSszBytes : BeaconBlock → List UInt8
  | bellatrix b => (sszBeaconBlockBellatrix : Ty SszDecodeError _).enc b
  | capella b => (sszBeaconBlockCapella : Ty SszDecodeError _).enc b
  | deneb b => (sszBeaconBlockDeneb : Ty SszDecodeError _).enc b
  | electra b => (sszBeaconBlockElectra : Ty SszDecodeError _).enc b

def fromSszBytes (bytes : List UInt8) : ForkName → Outcome SszDecodeError BeaconBlock
  | .bellatrix => do return bellatrix (← sszBeaconBlockBellatrix.dec bytes)
  | .capella => do return capella (← sszBeaconBlockCapella.dec bytes)
  | .deneb => do return deneb (← sszBeaconBlockDeneb.dec bytes)
  | .electra => do return electra (← sszBeaconBlockElectra.dec bytes)

/-- The offsets of the block can be written. -/
def Valid : BeaconBlock → Prop
  | bellatrix b => (sszBeaconBlockBellatrix : Ty SszDecodeError _).Valid b
  | capella b => (sszBeaconBlockCapella : Ty SszDecodeError _).Valid b
  | deneb b => (sszBeaconBlockDeneb : Ty SszDecodeError _).Valid b
  | electra b => (sszBeaconBlockElectra : Ty SszDecodeError _).Valid b

end BeaconBlock

namespace SignedBeaconBlock

/-- The block first, at an offset, and then its signature. -/
def slots : List Ssz.Slot := [.dynamic, .fixed 96]

def asSszBytes (b : SignedBeaconBlock) : List UInt8 :=
  Ssz.encode slots [b.message.asSszBytes, b.signature.signature.bytes]

/-- `from_ssz_bytes_with`. -/
def fromSszBytesWith (bytes : List UInt8)
    (blockDecoder : List UInt8 → Outcome SszDecodeError BeaconBlock) :
    Outcome SszDecodeError SignedBeaconBlock := do
  let items ← Ssz.refuse (Ssz.decode slots bytes)
  match items with
  | [first, second] =>
    let message ← blockDecoder first
    let signature ← sszBlsSignature.dec second
    return ⟨message, signature⟩
  | _ => .panic "index exceeds length"

def fromSszBytes (bytes : List UInt8) (forkName : ForkName) :
    Outcome SszDecodeError SignedBeaconBlock :=
  fromSszBytesWith bytes fun bytes => BeaconBlock.fromSszBytes bytes forkName

end SignedBeaconBlock

/-! ## 2. What the readers accept -/

namespace BeaconBlock

/-- **A block's reader accepts** the encodings of the fork it is told, and no others. -/
theorem fromSszBytes_eq_ok {bytes : List UInt8} {forkName : ForkName} {b : BeaconBlock} :
    fromSszBytes bytes forkName = .ok b ↔
      b.forkName = forkName ∧ b.Valid ∧ bytes = b.asSszBytes := by
  cases forkName with
  | bellatrix =>
    have hstrict : (sszBeaconBlockBellatrix : Ty SszDecodeError _).Strict := Fields.strict_record
    rw [fromSszBytes, hstrict.bind_eq_ok]
    constructor
    · rintro ⟨a, rfl, ha⟩
      exact ⟨rfl, ha⟩
    · rintro ⟨hfork, ha⟩
      cases b with
      | bellatrix b => exact ⟨b, rfl, ha⟩
      | _ => cases hfork
  | capella =>
    have hstrict : (sszBeaconBlockCapella : Ty SszDecodeError _).Strict := Fields.strict_record
    rw [fromSszBytes, hstrict.bind_eq_ok]
    constructor
    · rintro ⟨a, rfl, ha⟩
      exact ⟨rfl, ha⟩
    · rintro ⟨hfork, ha⟩
      cases b with
      | capella b => exact ⟨b, rfl, ha⟩
      | _ => cases hfork
  | deneb =>
    have hstrict : (sszBeaconBlockDeneb : Ty SszDecodeError _).Strict := Fields.strict_record
    rw [fromSszBytes, hstrict.bind_eq_ok]
    constructor
    · rintro ⟨a, rfl, ha⟩
      exact ⟨rfl, ha⟩
    · rintro ⟨hfork, ha⟩
      cases b with
      | deneb b => exact ⟨b, rfl, ha⟩
      | _ => cases hfork
  | electra =>
    have hstrict : (sszBeaconBlockElectra : Ty SszDecodeError _).Strict := Fields.strict_record
    rw [fromSszBytes, hstrict.bind_eq_ok]
    constructor
    · rintro ⟨a, rfl, ha⟩
      exact ⟨rfl, ha⟩
    · rintro ⟨hfork, ha⟩
      cases b with
      | electra b => exact ⟨b, rfl, ha⟩
      | _ => cases hfork

theorem fromSszBytes_returns (bytes : List UInt8) (forkName : ForkName) :
    (fromSszBytes bytes forkName).Returns := by
  cases forkName with
  | bellatrix =>
    have hstrict : (sszBeaconBlockBellatrix : Ty SszDecodeError _).Strict := Fields.strict_record
    rw [fromSszBytes]
    exact hstrict.bind_returns bytes
  | capella =>
    have hstrict : (sszBeaconBlockCapella : Ty SszDecodeError _).Strict := Fields.strict_record
    rw [fromSszBytes]
    exact hstrict.bind_returns bytes
  | deneb =>
    have hstrict : (sszBeaconBlockDeneb : Ty SszDecodeError _).Strict := Fields.strict_record
    rw [fromSszBytes]
    exact hstrict.bind_returns bytes
  | electra =>
    have hstrict : (sszBeaconBlockElectra : Ty SszDecodeError _).Strict := Fields.strict_record
    rw [fromSszBytes]
    exact hstrict.bind_returns bytes

theorem valid_of_length_lt {b : BeaconBlock} (h : b.asSszBytes.length < 2 ^ 32) : b.Valid := by
  cases b with
  | bellatrix b => exact Ty.valid_of_length_lt _ b h
  | capella b => exact Ty.valid_of_length_lt _ b h
  | deneb b => exact Ty.valid_of_length_lt _ b h
  | electra b => exact Ty.valid_of_length_lt _ b h

end BeaconBlock

namespace SignedBeaconBlock

theorem fits_slots {message signature : List UInt8} (h : signature.length = 96) :
    Ssz.Fits (Ssz.fixedWidth slots) slots [message, signature] :=
  ⟨by decide, h, trivial⟩

/-- **A signed block's reader**, whatever reads its block. -/
theorem fromSszBytesWith_eq_ok {bytes : List UInt8}
    {blockDecoder : List UInt8 → Outcome SszDecodeError BeaconBlock} {b : SignedBeaconBlock} :
    fromSszBytesWith bytes blockDecoder = .ok b ↔
      ∃ message, blockDecoder message = .ok b.message ∧
        bytes = Ssz.encode slots [message, b.signature.signature.bytes] := by
  rw [fromSszBytesWith, Outcome.bind_eq_ok]
  constructor
  · rintro ⟨items, hitems, hb⟩
    obtain ⟨hfit, rfl⟩ := Ssz.decode_eq_ok.mp (Ssz.refuse_eq_ok.mp hitems)
    obtain ⟨first, second, rfl, hlen⟩ : ∃ first second, items = [first, second] ∧
        second.length = 96 := by
      match items, hfit with
      | [first, second], ⟨_, hlen, _⟩ => exact ⟨first, second, rfl, hlen⟩
    obtain ⟨message, hmessage, hb⟩ := Outcome.bind_eq_ok.mp hb
    obtain ⟨signature, hsignature, hb⟩ := Outcome.bind_eq_ok.mp hb
    obtain rfl := Outcome.ok.inj hb
    obtain ⟨-, rfl⟩ := (BlsSignature.fromSszBytes_eq_ok hlen).mp hsignature
    exact ⟨first, hmessage, rfl⟩
  · rintro ⟨message, hmessage, rfl⟩
    have hlen := b.signature.signature.length_eq
    refine ⟨_, Ssz.refuse_eq_ok.mpr (Ssz.decode_eq_ok.mpr ⟨fits_slots hlen, rfl⟩), ?_⟩
    have hsignature : sszBlsSignature.dec b.signature.signature.bytes
        = (.ok b.signature : Outcome SszDecodeError _) :=
      (BlsSignature.fromSszBytes_eq_ok hlen).mpr ⟨trivial, rfl⟩
    simp only [hmessage, hsignature, Outcome.ok_bind, Outcome.pure_eq]

theorem fromSszBytes_eq_ok {bytes : List UInt8} {forkName : ForkName} {b : SignedBeaconBlock} :
    fromSszBytes bytes forkName = .ok b ↔
      b.message.forkName = forkName ∧ b.message.Valid ∧ bytes = b.asSszBytes := by
  rw [fromSszBytes, fromSszBytesWith_eq_ok]
  constructor
  · rintro ⟨message, hmessage, rfl⟩
    obtain ⟨hfork, hvalid, rfl⟩ := BeaconBlock.fromSszBytes_eq_ok.mp hmessage
    exact ⟨hfork, hvalid, rfl⟩
  · rintro ⟨hfork, hvalid, rfl⟩
    exact ⟨_, BeaconBlock.fromSszBytes_eq_ok.mpr ⟨hfork, hvalid, rfl⟩, rfl⟩

theorem length_message_le (b : SignedBeaconBlock) :
    b.message.asSszBytes.length ≤ b.asSszBytes.length := by
  have hadm : List.Forall₂ Ssz.Slot.Admits slots
      [b.message.asSszBytes, b.signature.signature.bytes] :=
    (fits_slots b.signature.signature.length_eq).admits
  rw [asSszBytes, Ssz.length_encode hadm]
  exact (Ssz.length_parts_le hadm).2 _ List.mem_cons_self

/-- The slice that the signature's reader is handed always has its length. -/
theorem fromSszBytes_returns (bytes : List UInt8) (forkName : ForkName) :
    (fromSszBytes bytes forkName).Returns := by
  intro msg hpanic
  rcases Outcome.bind_eq_panic.mp hpanic with h | ⟨items, hitems, h⟩
  · exact Ssz.refuse_ne_panic h
  · obtain ⟨hfit, -⟩ := Ssz.decode_eq_ok.mp (Ssz.refuse_eq_ok.mp hitems)
    match items, hfit with
    | [first, second], ⟨_, hlen, _⟩ =>
      rcases Outcome.bind_eq_panic.mp h with h | ⟨message, -, h⟩
      · exact BeaconBlock.fromSszBytes_returns _ _ msg h
      · rcases Outcome.bind_eq_panic.mp h with h | ⟨signature, -, h⟩
        · exact BlsSignature.fromSszBytes_returns hlen msg h
        · cases h

end SignedBeaconBlock

/-! ## 3. States -/

/-- The derived readers return, so their refusals are all they have to say. -/
def stateDecoder : StateDecoder where
  bellatrix bytes :=
    (sszBeaconStateBellatrix.dec bytes).toExcept (Fields.strict_record.returns bytes)
  capella bytes :=
    (sszBeaconStateCapella.dec bytes).toExcept (Fields.strict_record.returns bytes)
  deneb bytes :=
    (sszBeaconStateDeneb.dec bytes).toExcept (Fields.strict_record.returns bytes)
  electra bytes :=
    (sszBeaconStateElectra.dec bytes).toExcept (Fields.strict_record.returns bytes)

namespace BeaconState

/-- The variant of a state. -/
def forkName : BeaconState → ForkName
  | bellatrix _ => .bellatrix
  | capella _ => .capella
  | deneb _ => .deneb
  | electra _ => .electra

/-- The bytes of the variant, with no selector. -/
def asSszBytes : BeaconState → List UInt8
  | bellatrix s => (sszBeaconStateBellatrix : Ty Ssz.DecodeError _).enc s
  | capella s => (sszBeaconStateCapella : Ty Ssz.DecodeError _).enc s
  | deneb s => (sszBeaconStateDeneb : Ty Ssz.DecodeError _).enc s
  | electra s => (sszBeaconStateElectra : Ty Ssz.DecodeError _).enc s

/-- The offsets of the state can be written. -/
def Valid : BeaconState → Prop
  | bellatrix s => (sszBeaconStateBellatrix : Ty Ssz.DecodeError _).Valid s
  | capella s => (sszBeaconStateCapella : Ty Ssz.DecodeError _).Valid s
  | deneb s => (sszBeaconStateDeneb : Ty Ssz.DecodeError _).Valid s
  | electra s => (sszBeaconStateElectra : Ty Ssz.DecodeError _).Valid s

theorem map_eq_ok {α : Type} {T : Ty Ssz.DecodeError α} (h : T.Strict) {f : α → BeaconState}
    {bytes : List UInt8} {s : BeaconState} :
    ((T.dec bytes).toExcept (h.returns bytes)).map f = .ok s ↔
      ∃ a, f a = s ∧ T.Valid a ∧ bytes = T.enc a := by
  constructor
  · intro hs
    cases hdec : (T.dec bytes).toExcept (h.returns bytes) with
    | error e =>
      rw [hdec] at hs
      cases hs
    | ok a =>
      rw [hdec] at hs
      exact ⟨a, Except.ok.inj hs, h.dec_eq_ok.mp (Outcome.toExcept_eq_ok.mp hdec)⟩
  · rintro ⟨a, rfl, ha⟩
    rw [Outcome.toExcept_eq_ok.mpr (h.dec_eq_ok.mpr ha)]
    rfl

/-- **A state's reader accepts** the encodings of the fork it is told, and no others. -/
theorem fromSszBytes_eq_ok {bytes : List UInt8} {forkName : ForkName} {s : BeaconState} :
    fromSszBytes stateDecoder bytes forkName = .ok s ↔
      s.forkName = forkName ∧ s.Valid ∧ bytes = s.asSszBytes := by
  cases forkName with
  | bellatrix =>
    have hstrict : (sszBeaconStateBellatrix : Ty Ssz.DecodeError _).Strict := Fields.strict_record
    rw [fromSszBytes, stateDecoder, map_eq_ok hstrict]
    constructor
    · rintro ⟨a, rfl, ha⟩
      exact ⟨rfl, ha⟩
    · rintro ⟨hfork, ha⟩
      cases s with
      | bellatrix s => exact ⟨s, rfl, ha⟩
      | _ => cases hfork
  | capella =>
    have hstrict : (sszBeaconStateCapella : Ty Ssz.DecodeError _).Strict := Fields.strict_record
    rw [fromSszBytes, stateDecoder, map_eq_ok hstrict]
    constructor
    · rintro ⟨a, rfl, ha⟩
      exact ⟨rfl, ha⟩
    · rintro ⟨hfork, ha⟩
      cases s with
      | capella s => exact ⟨s, rfl, ha⟩
      | _ => cases hfork
  | deneb =>
    have hstrict : (sszBeaconStateDeneb : Ty Ssz.DecodeError _).Strict := Fields.strict_record
    rw [fromSszBytes, stateDecoder, map_eq_ok hstrict]
    constructor
    · rintro ⟨a, rfl, ha⟩
      exact ⟨rfl, ha⟩
    · rintro ⟨hfork, ha⟩
      cases s with
      | deneb s => exact ⟨s, rfl, ha⟩
      | _ => cases hfork
  | electra =>
    have hstrict : (sszBeaconStateElectra : Ty Ssz.DecodeError _).Strict := Fields.strict_record
    rw [fromSszBytes, stateDecoder, map_eq_ok hstrict]
    constructor
    · rintro ⟨a, rfl, ha⟩
      exact ⟨rfl, ha⟩
    · rintro ⟨hfork, ha⟩
      cases s with
      | electra s => exact ⟨s, rfl, ha⟩
      | _ => cases hfork

theorem valid_of_length_lt {s : BeaconState} (h : s.asSszBytes.length < 2 ^ 32) : s.Valid := by
  cases s with
  | bellatrix s => exact Ty.valid_of_length_lt _ s h
  | capella s => exact Ty.valid_of_length_lt _ s h
  | deneb s => exact Ty.valid_of_length_lt _ s h
  | electra s => exact Ty.valid_of_length_lt _ s h

end BeaconState

/-! ## 4. The node -/

/-- A beacon node that has blocks: `getBlock` is the answer to
`GET {base_url}/eth/v2/beacon/blocks/{slot}`. -/
structure BeaconNode extends BeaconRpcSource where
  getBlock : UInt64 → Except String HttpResponse

namespace BeaconNode

def fetchBlockSsz (node : BeaconNode) (slot : UInt64) : Except Error (List UInt8) := do
  let res ← (node.getBlock slot).mapError .http
  if res.isSuccess then res.body.mapError .http
  else .error (.dataSource s!"beacon block at slot {slot}: HTTP {res.status}")

def fetchSignedBeaconBlock (node : BeaconNode) (slot : UInt64) :
    Outcome Error SignedBeaconBlock := do
  let bytes ← Outcome.ofExcept (node.fetchBlockSsz slot)
  let fork := forkForSlot slot
  (SignedBeaconBlock.fromSszBytes bytes fork).mapErr fun e =>
    .dataSource (s!"decoding SignedBeaconBlock at slot {slot} (fork={fork.debug}): {e.debug}")

/-- The node as a provider of beacon data. -/
def provider (overflowChecks : Bool) (node : BeaconNode) : BeaconDataProvider where
  fetchSignedBeaconBlock := node.fetchSignedBeaconBlock
  fetchHistoricalBatch := node.fetchHistoricalBatch stateDecoder overflowChecks

end BeaconNode

end EthHistorian
