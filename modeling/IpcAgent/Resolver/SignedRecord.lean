import IpcAgent.Library.Signature
import IpcAgent.Resolver.Membership
import Mathlib.Data.Countable.Basic
import Mathlib.Logic.Equiv.List

/-!
# Signed records

`ipld/resolver/src/signed_record.rs`, with the two kinds of records of `provider_record.rs`
and `vote_record.rs`. The formats and the signature scheme come from other crates: the
formats are any that can be read back, and the signatures any that cannot be forged.
-/

namespace IpcAgent.Resolver
open Library

abbrev Signature := List UInt8

/-- What a signed envelope signs. -/
structure Signable where
  domain : String
  payloadType : List UInt8
  payload : List UInt8
deriving DecidableEq

/-- `libp2p::core::SignedEnvelope`. -/
structure SignedEnvelope where
  key : PublicKey
  payloadType : List UInt8
  payload : List UInt8
  signature : Signature
deriving DecidableEq

inductive ReadPayloadError
  | invalidSignature
  | unexpectedPayloadType
deriving DecidableEq

abbrev Verify := PublicKey → Signable → Signature → Bool

namespace SignedEnvelope

/-- `SignedEnvelope::new`, given the signature that the key has made. -/
def new (key : PublicKey) (m : Signable) (signature : Signature) : SignedEnvelope :=
  ⟨key, m.payloadType, m.payload, signature⟩

def verify (verify : Verify) (e : SignedEnvelope) (domain : String) : Bool :=
  verify e.key ⟨domain, e.payloadType, e.payload⟩ e.signature

def payloadAndSigningKey (verify : Verify) (e : SignedEnvelope) (domain : String)
    (expected : List UInt8) : Except ReadPayloadError (List UInt8 × PublicKey) :=
  if e.payloadType ≠ expected then .error .unexpectedPayloadType
  else if !e.verify verify domain then .error .invalidSignature
  else .ok (e.payload, e.key)

end SignedEnvelope

def domainSep : String := "/ipc/ipld/resolver"

/-- The trait `Record`, with the format of the records. -/
structure Record (R : Type) where
  payloadType : String
  checkSigningKey : R → PublicKey → Bool
  cbor : Serialization R

/-- `R::payload_type().as_bytes()`. -/
def Record.payloadTypeBytes {R : Type} (rec : Record R) : List UInt8 :=
  rec.payloadType.toUTF8.toList

structure SignedRecord (R : Type) where
  record : R
  envelope : SignedEnvelope

inductive FromEnvelopeError
  | badPayload (e : ReadPayloadError)
  | invalidRecord
  | mismatchedSignature
deriving DecidableEq

inductive FromBytesError
  | decodingError
  | fromEnvelope (e : FromEnvelopeError)
deriving DecidableEq

namespace SignedRecord

variable {R : Type} (rec : Record R)

/-- The message a key signs for a record. -/
def signable (r : R) : Signable :=
  ⟨domainSep, rec.payloadTypeBytes, rec.cbor.encode r⟩

def new (key : PublicKey) (r : R) (signature : Signature) : SignedRecord R :=
  ⟨r, .new key (signable rec r) signature⟩

variable (verify : Verify)

def fromSignedEnvelope (envelope : SignedEnvelope) :
    Except FromEnvelopeError (SignedRecord R) :=
  match envelope.payloadAndSigningKey verify domainSep rec.payloadTypeBytes with
  | .error e => .error (.badPayload e)
  | .ok (payload, signingKey) =>
    match rec.cbor.decode payload with
    | none => .error .invalidRecord
    | some record =>
      if !rec.checkSigningKey record signingKey then .error .mismatchedSignature
      else .ok ⟨record, envelope⟩

/-- Deserialize then check the domain tags and the signature. -/
def fromBytes (protobuf : Serialization SignedEnvelope) (bytes : List UInt8) :
    Except FromBytesError (SignedRecord R) :=
  match protobuf.decode bytes with
  | none => .error .decodingError
  | some envelope => (fromSignedEnvelope rec verify envelope).mapError .fromEnvelope

end SignedRecord

/-! ## The two kinds of records -/

/-- A vote as it is written: the derived code for the other fields, and the bytes of the key
in the place of the key. -/
structure VoteWire where
  publicKey : List UInt8
  subnetId : SubnetID
  cid : Cid
  claim : String
  timestamp : Timestamp
deriving DecidableEq

/-- What other crates provide: the identifier of a key, protobuf and CBOR. -/
structure Encodings where
  toPeerId : PublicKey → PeerId
  toPeerId_injective : ∀ {k k'}, toPeerId k = toPeerId k' → k = k'
  envelope : Serialization SignedEnvelope
  publicKey : Serialization PublicKey
  providerRecord : Serialization ProviderRecord
  voteWire : Serialization VoteWire

inductive RecordKind
  | provider
  | vote
deriving DecidableEq

abbrev RecordKind.Carrier : RecordKind → Type
  | provider => ProviderRecord
  | vote => VoteRecord

namespace Encodings

variable (e : Encodings)

/-- `ValidatorKey::serialize`. -/
def serialize (v : VoteRecord) : VoteWire :=
  ⟨e.publicKey.encode v.publicKey, v.subnetId, v.cid, v.claim, v.timestamp⟩

/-- `ValidatorKey::deserialize`. -/
def deserialize (w : VoteWire) : Option VoteRecord :=
  (e.publicKey.decode w.publicKey).map (⟨·, w.subnetId, w.cid, w.claim, w.timestamp⟩)

theorem deserialize_serialize (v : VoteRecord) : e.deserialize (e.serialize v) = some v := by
  simp [serialize, deserialize]

def record : (kind : RecordKind) → Record kind.Carrier
  | .provider =>
    { payloadType := "/ipc/provider-record"
      checkSigningKey := fun r key => r.peerId = e.toPeerId key
      cbor := e.providerRecord }
  | .vote =>
    { payloadType := "/ipc/vote-record"
      checkSigningKey := fun r key => r.publicKey = key
      cbor := e.voteWire.via e.serialize e.deserialize e.deserialize_serialize }

theorem checkSigningKey_provider {r : ProviderRecord} {key : PublicKey} :
    (e.record .provider).checkSigningKey r key = true ↔ r.peerId = e.toPeerId key :=
  decide_eq_true_iff

theorem checkSigningKey_vote {v : VoteRecord} {key : PublicKey} :
    (e.record .vote).checkSigningKey v key = true ↔ v.publicKey = key :=
  decide_eq_true_iff

/-- The two kinds do not share their payload type. -/
theorem payloadType_injective {kind kind' : RecordKind}
    (eq : (e.record kind).payloadTypeBytes = (e.record kind').payloadTypeBytes) :
    kind = kind' := by
  have apart : "/ipc/provider-record".toUTF8.toList ≠ "/ipc/vote-record".toUTF8.toList := by
    decide +kernel
  cases kind <;> cases kind'
  case provider.provider => rfl
  case vote.vote => rfl
  case provider.vote => exact absurd eq apart
  case vote.provider => exact absurd eq.symm apart

/-- A record names a single key. -/
theorem eq_of_checkSigningKey {kind : RecordKind} {r : kind.Carrier} {k k' : PublicKey}
    (h : (e.record kind).checkSigningKey r k = true)
    (h' : (e.record kind).checkSigningKey r k' = true) : k = k' := by
  cases kind with
  | provider =>
    rw [checkSigningKey_provider] at h h'
    exact e.toPeerId_injective (h.symm.trans h')
  | vote =>
    rw [checkSigningKey_vote] at h h'
    exact h.symm.trans h'

end Encodings

/-! ## Who signed what -/

/-- A use of a key: through `SignedRecord::new`, or in any other way. -/
inductive Signing
  | record (kind : RecordKind) (key : PublicKey) (r : kind.Carrier) (signature : Signature)
  | other (key : PublicKey) (m : Signable) (signature : Signature)

def Signing.signed (e : Encodings) : Signing → Signed PublicKey Signable Signature
  | record kind key r signature => ⟨key, SignedRecord.signable (e.record kind) r, signature⟩
  | other key m signature => ⟨key, m, signature⟩

/-- The key only signs through `SignedRecord::new`. -/
def SignsRecordsOnly (history : List Signing) (key : PublicKey) : Prop :=
  ∀ m signature, .other key m signature ∉ history

namespace SignedRecord

section

variable {R : Type} {rec : Record R} {verify : Verify}

/-- An envelope is accepted if all four checks pass. -/
theorem fromSignedEnvelope_eq_ok {env : SignedEnvelope} {sr : SignedRecord R} :
    fromSignedEnvelope rec verify env = .ok sr ↔
      (env.payloadType = rec.payloadTypeBytes ∧ env.verify verify domainSep = true) ∧
      rec.cbor.decode env.payload = some sr.record ∧
      rec.checkSigningKey sr.record env.key = true ∧ env = sr.envelope := by
  obtain ⟨record, envelope⟩ := sr
  unfold fromSignedEnvelope SignedEnvelope.payloadAndSigningKey
  by_cases read : env.payloadType = rec.payloadTypeBytes ∧ env.verify verify domainSep = true
  · cases decoded : rec.cbor.decode env.payload with
    | none => simp [read, decoded]
    | some r => grind
  · grind

theorem fromBytes_eq_ok {protobuf : Serialization SignedEnvelope} {bytes : List UInt8}
    {sr : SignedRecord R} :
    fromBytes rec verify protobuf bytes = .ok sr ↔
      ∃ env, protobuf.decode bytes = some env ∧ fromSignedEnvelope rec verify env = .ok sr := by
  unfold fromBytes
  cases protobuf.decode bytes with
  | none => simp
  | some env => cases read : fromSignedEnvelope rec verify env <;> simp [Except.mapError, read]

/-- A record that names the key that signed it is accepted, once it is signed. -/
theorem fromBytes_new {protobuf : Serialization SignedEnvelope} {key : PublicKey} {r : R}
    {signature : Signature} (own : rec.checkSigningKey r key = true)
    (made : verify key (signable rec r) signature = true) :
    fromBytes rec verify protobuf (protobuf.encode (new rec key r signature).envelope) =
      .ok (new rec key r signature) := by
  refine fromBytes_eq_ok.mpr ⟨_, protobuf.decode_encode _, fromSignedEnvelope_eq_ok.mpr ?_⟩
  exact ⟨⟨rfl, made⟩, rec.cbor.decode_encode r, own, rfl⟩

end

variable {e : Encodings} {verify : Verify} {history : List Signing}
  (sound : Verifies (history.map (Signing.signed e)) verify)

include sound

/-- What is accepted as the record of a key was signed as such. -/
theorem signed_of_fromBytes {kind : RecordKind} {key : PublicKey} {bytes : List UInt8}
    {sr : SignedRecord kind.Carrier} (careful : SignsRecordsOnly history key)
    (accepted : fromBytes (e.record kind) verify e.envelope bytes = .ok sr)
    (own : (e.record kind).checkSigningKey sr.record key = true) :
    ∃ signature, .record kind key sr.record signature ∈ history := by
  obtain ⟨env, -, accepted⟩ := fromBytes_eq_ok.mp accepted
  obtain ⟨⟨type, verified⟩, decoded, checked, -⟩ := fromSignedEnvelope_eq_ok.mp accepted
  obtain rfl : env.key = key := e.eq_of_checkSigningKey checked own
  obtain ⟨signature, made⟩ := sound.unforgeable _ _ _ verified
  obtain ⟨signing, mem, eq⟩ := List.mem_map.mp made
  cases signing with
  | other key' m signature' =>
    obtain rfl : key' = env.key := congrArg Signed.key eq
    exact absurd mem (careful m signature')
  | record kind' key' r signature' =>
    have message := congrArg Signed.message eq
    -- The payload types say that the key signed a record of this kind, and the payloads that
    -- it signed this one.
    obtain rfl : kind' = kind :=
      e.payloadType_injective ((congrArg Signable.payloadType message).trans type)
    have payload : (e.record kind').cbor.encode r = env.payload :=
      congrArg Signable.payload message
    rw [← payload, Serialization.decode_encode, Option.some.injEq] at decoded
    obtain rfl : key' = env.key := congrArg Signed.key eq
    exact ⟨signature', decoded ▸ mem⟩

end SignedRecord

/-- `SignedRecord::from_bytes(bytes).map(|r| r.into_record())`, without the error. -/
def Encodings.read (e : Encodings) (verify : Verify) (kind : RecordKind) (bytes : List UInt8) :
    Option kind.Carrier :=
  match SignedRecord.fromBytes (e.record kind) verify e.envelope bytes with
  | .ok sr => some sr.record
  | .error _ => none

theorem Encodings.read_eq_some {e : Encodings} {verify : Verify} {kind : RecordKind}
    {bytes : List UInt8} {r : kind.Carrier} :
    e.read verify kind bytes = some r ↔
      ∃ sr, SignedRecord.fromBytes (e.record kind) verify e.envelope bytes = .ok sr ∧
        sr.record = r := by
  unfold Encodings.read
  split <;> simp_all

/-- What membership reads from the data of a message. -/
def Encodings.codec (e : Encodings) (sha256 : String → String) (verify : Verify) :
    Membership.Codec where
  sha256 := sha256
  providerRecord := e.read verify .provider
  voteRecord := e.read verify .vote

/-- No bytes are accepted as a record of a key that did not sign this very record, an envelope
of one kind is refused as the other, and a record signed by the key it names is accepted. -/
theorem signed_records_authentic (e : Encodings) (history : List Signing) (verify : Verify)
    (sound : Verifies (history.map (Signing.signed e)) verify) :
    (∀ kind key bytes sr, SignsRecordsOnly history key →
      SignedRecord.fromBytes (e.record kind) verify e.envelope bytes = .ok sr →
      (e.record kind).checkSigningKey sr.record key = true →
      ∃ signature, .record kind key sr.record signature ∈ history) ∧
    (∀ kind kind' bytes envelope, e.envelope.decode bytes = some envelope →
      envelope.payloadType = (e.record kind).payloadTypeBytes → kind' ≠ kind →
      SignedRecord.fromBytes (e.record kind') verify e.envelope bytes =
        .error (.fromEnvelope (.badPayload .unexpectedPayloadType))) ∧
    (∀ kind key r signature, .record kind key r signature ∈ history →
      (e.record kind).checkSigningKey r key = true →
      SignedRecord.fromBytes (e.record kind) verify e.envelope
          (e.envelope.encode (SignedRecord.new (e.record kind) key r signature).envelope) =
        .ok (SignedRecord.new (e.record kind) key r signature)) := by
  refine ⟨?_, ?_, ?_⟩
  · intro kind key bytes sr careful accepted own
    exact SignedRecord.signed_of_fromBytes sound careful accepted own
  · intro kind kind' bytes envelope decoded type other
    have mismatch : envelope.payloadType ≠ (e.record kind').payloadTypeBytes := by
      rw [type]
      exact fun eq => other (e.payloadType_injective eq).symm
    simp [SignedRecord.fromBytes, decoded, SignedRecord.fromSignedEnvelope,
      SignedEnvelope.payloadAndSigningKey, mismatch, Except.mapError]
  · intro kind key r signature made own
    exact SignedRecord.fromBytes_new own (sound.complete _ (List.mem_map_of_mem made))


/-- There are formats for everything that is written. -/
theorem nonempty_encodings : Nonempty Encodings := by
  have : Countable UInt8 := Function.Injective.countable (f := UInt8.toNat) fun _ _ =>
    UInt8.toNat_inj.mp
  have : Countable Char := Function.Injective.countable (f := Char.toNat) fun _ _ =>
    Char.toNat_inj.mp
  have : Countable String := Function.Injective.countable (f := String.toList) fun _ _ =>
    String.toList_inj.mp
  have : Countable PublicKey :=
    Function.Injective.countable (f := fun k => (k.kind, k.bytes)) (by rintro ⟨⟩ ⟨⟩; simp)
  have : Countable PeerId :=
    Function.Injective.countable (f := PeerId.bytes) (by rintro ⟨⟩ ⟨⟩; simp)
  have : Countable SubnetID :=
    Function.Injective.countable (f := SubnetID.text) (by rintro ⟨⟩ ⟨⟩; simp)
  have : Countable Cid := Function.Injective.countable (f := Cid.bytes) (by rintro ⟨⟩ ⟨⟩; simp)
  have : Countable SignedEnvelope := Function.Injective.countable
    (f := fun e => (e.key, e.payloadType, e.payload, e.signature)) (by rintro ⟨⟩ ⟨⟩; simp)
  have : Countable ProviderRecord := Function.Injective.countable
    (f := fun r => (r.peerId, r.subnetIds, (r.timestamp : Nat))) (by rintro ⟨⟩ ⟨⟩; simp)
  have : Countable VoteWire := Function.Injective.countable
    (f := fun w => (w.publicKey, w.subnetId, w.cid, w.claim, (w.timestamp : Nat)))
    (by rintro ⟨⟩ ⟨⟩; simp)
  obtain ⟨key⟩ := Serialization.nonempty_of_countable (α := PublicKey)
  obtain ⟨envelope⟩ := Serialization.nonempty_of_countable (α := SignedEnvelope)
  obtain ⟨provider⟩ := Serialization.nonempty_of_countable (α := ProviderRecord)
  obtain ⟨vote⟩ := Serialization.nonempty_of_countable (α := VoteWire)
  -- The bytes of a key can serve as its identifier.
  exact ⟨fun k => ⟨key.encode k⟩, fun eq => key.encode_injective (PeerId.mk.inj eq), envelope,
    key, provider, vote⟩

/-- A vote that has been signed is accepted as a vote, and refused as a provider record. -/
theorem signed_records_authentic_vote :
    let key : PublicKey := ⟨1, [7]⟩
    let vote : VoteRecord := ⟨key, ⟨"/root/t01"⟩, ⟨[1]⟩, "valid", 1⟩
    let history : List Signing := [.record .vote key vote [9]]
    ∃ e : Encodings,
      let verify : Verify := fun k m s => decide (⟨k, m, s⟩ ∈ history.map (Signing.signed e))
      let signed := SignedRecord.new (e.record .vote) key vote [9]
      let bytes := e.envelope.encode signed.envelope
      SignedRecord.fromBytes (e.record .vote) verify e.envelope bytes = .ok signed ∧
      SignedRecord.fromBytes (e.record .provider) verify e.envelope bytes =
        .error (.fromEnvelope (.badPayload .unexpectedPayloadType)) := by
  intro key vote history
  obtain ⟨e⟩ := nonempty_encodings
  refine ⟨e, ?_⟩
  intro verify signed bytes
  obtain ⟨-, apart, back⟩ := signed_records_authentic e history verify (verifies_ledger _)
  constructor
  · exact back .vote key vote [9] (List.mem_singleton_self _) (e.checkSigningKey_vote.mpr rfl)
  · exact apart .vote .provider bytes signed.envelope (e.envelope.decode_encode _) rfl (by decide)

end IpcAgent.Resolver
