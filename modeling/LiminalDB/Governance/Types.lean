import LiminalDB.Checkpoint.Linked
import LiminalDB.Checkpoint.Material

/-! # The data model of `governance_checkpoint_bridge.rs`

An envelope describes one step of an upstream governance process by digests alone. The bridge records
it in a transition ledger and answers with a bundle: the envelope, a signed checkpoint of the ledger
that now holds it, the key to verify the checkpoint with, and a receipt over all of it. -/

namespace LiminalDB

/-- `GovernanceTransitionEnvelopeBody`: what a transition of the world says about itself, from one
generation to the next. -/
structure GovernanceTransitionEnvelopeBody where
  schema : String
  rootIdSha256 : String
  transitionKind : String
  generationBefore : UInt64
  generationAfter : UInt64
  worldBeforeSha256 : String
  worldAfterSha256 : String
  reservationSha256 : String
  operationSha256 : String
  upstreamReceiptSha256 : String
  capturedAtMs : UInt64
  deriving DecidableEq, Repr

/-- `GovernanceTransitionEnvelope`: a body with the hash that names it. -/
structure GovernanceTransitionEnvelope where
  body : GovernanceTransitionEnvelopeBody
  envelopeRef : String
  deriving DecidableEq, Repr

/-- `GovernanceCheckpointReceiptBody`: what the bridge says about a checkpoint of an envelope. -/
structure GovernanceCheckpointReceiptBody where
  schema : String
  envelopeRef : String
  rootIdSha256 : String
  transitionKind : String
  generationBefore : UInt64
  generationAfter : UInt64
  worldBeforeSha256 : String
  worldAfterSha256 : String
  reservationSha256 : String
  operationSha256 : String
  upstreamReceiptSha256 : String
  eventHash : String
  checkpointRef : String
  eventChainHead : String
  lastSequence : Nat
  projectionDigest : String
  snapshotDigest : String
  signerId : String
  keyId : String
  verificationStatus : String
  deriving DecidableEq, Repr

/-- `GovernanceCheckpointReceipt`: a body with the hash that names it. -/
structure GovernanceCheckpointReceipt where
  body : GovernanceCheckpointReceiptBody
  receiptRef : String
  deriving DecidableEq, Repr

/-- `GovernanceCheckpointBundle`: all that is handed out for a transition, with the key to verify it
by. -/
structure GovernanceCheckpointBundle where
  envelope : GovernanceTransitionEnvelope
  receipt : GovernanceCheckpointReceipt
  checkpoint : SignedCheckpointManifest
  trustedKey : TrustedCheckpointKey
  deriving DecidableEq, Repr

/-- `GovernanceCheckpointBridgeError`. Errors of the ledger and of checkpoints are carried in place of
their texts. -/
inductive GovernanceCheckpointBridgeError
  | invalidField (label : String)
  | envelopeDigestMismatch
  | ledger (error : TransitionLedgerError)
  | checkpoint (error : CheckpointError)
  | encoding (message : String)
  deriving DecidableEq, Repr

/-- `GOVERNANCE_ENVELOPE_SCHEMA`: the schema that every envelope names. -/
def governanceEnvelopeSchema : String := "liminalosai-governance-transition-envelope-v0.1"

/-- `GOVERNANCE_RECEIPT_SCHEMA`: the schema that every receipt names. -/
def governanceReceiptSchema : String := "liminaldb-liminalosai-governance-checkpoint-receipt-v0.1"

/-- `SUBJECT_ID`: the subject of every transition in the ledger. -/
def governanceSubjectId : String := "liminalosai:durable-governance"

/-- `VERIFIED_STATUS`: the status that every receipt has, since the signature is checked before. -/
def verifiedStatus : String := "LOCAL_SIGNATURE_VERIFIED"

/-- `ZERO_SHA256`: the hash that stands for nothing. -/
def zeroSha256 : String := "0000000000000000000000000000000000000000000000000000000000000000"

/-- `SNAPSHOT_FILE`, the path of the snapshot in its directory. -/
def snapshotFile : String := "trustworthy-transition-v0.1.snap"

/-! ## The crates underneath -/

/-- The functions of other crates that the bridge uses, besides those of checkpoints. Both types are
only ever encoded, to be hashed. -/
structure GovernanceCrates extends CheckpointCrates where
  /-- `to_vec` of an envelope body -/
  envelopeBody : GovernanceTransitionEnvelopeBody → Except String Bytes
  /-- `to_vec` of a receipt body -/
  receiptBody : GovernanceCheckpointReceiptBody → Except String Bytes

/-- The assumptions on the crates: `to_vec` fails on none of the types, `from_slice` undoes it where
the ledger reads a type back, and signatures of an honest signer are accepted. -/
structure GovernanceCrates.Sound (env : GovernanceCrates) : Prop where
  lossless : env.toCrates.Lossless
  manifestBody : ∀ body, ∃ bytes, env.manifestBody body = .ok bytes
  receiptBody : ∀ body, ∃ bytes, env.receiptBody body = .ok bytes
  honest : env.ed25519.Honest

namespace Codec

/-- `GovernanceTransitionEnvelopeBody` -/
def envelopeBody : Codec GovernanceTransitionEnvelopeBody :=
  (record 11 (
    (field "schema" text).pair <| (field "root_id_sha256" text).pair <|
    (field "transition_kind" text).pair <| (field "generation_before" u64).pair <|
    (field "generation_after" u64).pair <| (field "world_before_sha256" text).pair <|
    (field "world_after_sha256" text).pair <| (field "reservation_sha256" text).pair <|
    (field "operation_sha256" text).pair <| (field "upstream_receipt_sha256" text).pair <|
    (field "captured_at_ms" u64))).via
    (fun x => (x.schema, x.rootIdSha256, x.transitionKind, x.generationBefore, x.generationAfter,
      x.worldBeforeSha256, x.worldAfterSha256, x.reservationSha256, x.operationSha256,
      x.upstreamReceiptSha256, x.capturedAtMs))
    (fun (x₁, x₂, x₃, x₄, x₅, x₆, x₇, x₈, x₉, x₁₀, x₁₁) => ⟨x₁, x₂, x₃, x₄, x₅, x₆, x₇, x₈, x₉, x₁₀,
      x₁₁⟩)
    fun _ => rfl

/-- `GovernanceCheckpointReceiptBody` -/
def receiptBody : Codec GovernanceCheckpointReceiptBody :=
  (record 20 (
    (field "schema" text).pair <| (field "envelope_ref" text).pair <|
    (field "root_id_sha256" text).pair <| (field "transition_kind" text).pair <|
    (field "generation_before" u64).pair <| (field "generation_after" u64).pair <|
    (field "world_before_sha256" text).pair <| (field "world_after_sha256" text).pair <|
    (field "reservation_sha256" text).pair <| (field "operation_sha256" text).pair <|
    (field "upstream_receipt_sha256" text).pair <| (field "event_hash" text).pair <|
    (field "checkpoint_ref" text).pair <| (field "event_chain_head" text).pair <|
    (field "last_sequence" uint).pair <| (field "projection_digest" text).pair <|
    (field "snapshot_digest" text).pair <| (field "signer_id" text).pair <|
    (field "key_id" text).pair <| (field "verification_status" text))).via
    (fun x => (x.schema, x.envelopeRef, x.rootIdSha256, x.transitionKind, x.generationBefore,
      x.generationAfter, x.worldBeforeSha256, x.worldAfterSha256, x.reservationSha256,
      x.operationSha256, x.upstreamReceiptSha256, x.eventHash, x.checkpointRef, x.eventChainHead,
      x.lastSequence, x.projectionDigest, x.snapshotDigest, x.signerId, x.keyId,
      x.verificationStatus))
    (fun (x₁, x₂, x₃, x₄, x₅, x₆, x₇, x₈, x₉, x₁₀, x₁₁, x₁₂, x₁₃, x₁₄, x₁₅, x₁₆, x₁₇, x₁₈, x₁₉, x₂₀)
      => ⟨x₁, x₂, x₃, x₄, x₅, x₆, x₇, x₈, x₉, x₁₀, x₁₁, x₁₂, x₁₃, x₁₄, x₁₅, x₁₆, x₁₇, x₁₈, x₁₉, x₂₀⟩)
    fun _ => rfl

end Codec

/-- The crates the program is linked with, for the bridge. -/
def linkedGovernanceCrates : GovernanceCrates :=
  { linkedCheckpointCrates with
    envelopeBody := Codec.envelopeBody.serde.toVec
    receiptBody := Codec.receiptBody.serde.toVec }

/-- What is asked of the crates holds of those of the sample. -/
theorem sound_linkedGovernanceCrates : linkedGovernanceCrates.Sound where
  lossless := lossless_linkedCrates
  manifestBody _ := ⟨_, rfl⟩
  receiptBody _ := ⟨_, rfl⟩
  honest := honest_digestScheme

end LiminalDB
