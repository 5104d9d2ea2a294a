import LiminalDB.Ledger.Linked
import LiminalDB.Ledger.Validate

/-! # The data model of `proofpath_durable.rs`

Evidence accepted from ProofPath is kept in a log of its own, one per namespace: a chain of records,
each with the exact bytes it was made from, under a key derived from the operation it belongs to.

The `sequence` is a natural number, as in the transition ledger. -/

namespace LiminalDB

/-- `ProofPathDurableInput`: what a caller hands in to be recorded, before anything is checked. -/
structure ProofPathDurableInput where
  logicalOperationId : String
  sourceEventBytes : Bytes
  admissionReportBytes : Bytes
  sourceReceiptRef : String
  validTimeMs : UInt64
  transactionTimeMs : UInt64
  storageAdmissionRef : String
  deriving DecidableEq, Repr

/-- `ProofPathDurableRecordBody`: what a record says, all of which its hash covers. -/
structure ProofPathDurableRecordBody where
  schema : String
  profile : String
  sequence : Nat
  «namespace» : String
  ingestionKey : String
  logicalOperationId : String
  sourceEventSha256 : String
  sourceReceiptRef : String
  admissionReportSha256 : String
  producerRepository : String
  producerCapabilityId : String
  producerCapabilityCommit : String
  consumerRepository : String
  consumerImportCommit : String
  consumerContractBlobSha : String
  validTimeMs : UInt64
  transactionTimeMs : UInt64
  sourceEventBytes : Bytes
  admissionReportBytes : Bytes
  storageAdmissionRef : String
  persistenceScope : String
  storageWriteAuthorized : Bool
  executionAuthorized : Bool
  mutationAuthorized : Bool
  externalEffectsAuthorized : Bool
  previousRecordHash : Option String
  deriving DecidableEq, Repr

/-- The caller's part of a record body. -/
def ProofPathDurableRecordBody.input (body : ProofPathDurableRecordBody) : ProofPathDurableInput :=
  ⟨body.logicalOperationId, body.sourceEventBytes, body.admissionReportBytes, body.sourceReceiptRef,
    body.validTimeMs, body.transactionTimeMs, body.storageAdmissionRef⟩

/-- `ProofPathDurableRecord`: a body with the hash of it. -/
structure ProofPathDurableRecord where
  body : ProofPathDurableRecordBody
  recordHash : String
  deriving DecidableEq, Repr

/-- The record has something in both of its byte fields. -/
def ProofPathDurableRecord.HasEvidence (record : ProofPathDurableRecord) : Prop :=
  record.body.sourceEventBytes ≠ [] ∧ record.body.admissionReportBytes ≠ []

/-- `ProofPathAppendOutcome`: whether the append has written a record, or found the one that is already
there. -/
inductive ProofPathAppendOutcome
  | inserted (record : ProofPathDurableRecord)
  | alreadyPresent (record : ProofPathDurableRecord)
  deriving DecidableEq, Repr

/-- `ProofPathDurableError`. A storage error carries the log's own error in place of its text. -/
inductive ProofPathDurableError
  | storage (error : StoreError)
  | encoding (message : String)
  | invalidNamespace
  | invalidLogicalOperationId
  | emptySourceEvent
  | emptyAdmissionReport
  | invalidReference (label : String)
  | invalidTemporalOrder
  | recordProfileMismatch
  | namespaceMismatch
  | sequenceMismatch (expected actual : Nat)
  | previousRecordHashMismatch
  | recordHashMismatch
  | ingestionKeyMismatch
  | sourceEventDigestMismatch
  | admissionReportDigestMismatch
  | producerCapabilityMismatch
  | consumerContractMismatch
  | authorityBoundaryViolation
  | duplicateIngestionKey (key : String)
  | idempotencyConflict
  | poisonedAfterStorageFailure
  deriving DecidableEq, Repr

/-- `ProofPathDurableState`: the records under their ingestion keys, with the hash of the last one and
the number of the next. -/
structure ProofPathDurableState where
  nextSequence : Nat
  headRecordHash : Option String
  records : Std.ExtTreeMap String ProofPathDurableRecord compare

/-- `ProofPathDurableState::default()`: no records, with one as the first number. -/
def ProofPathDurableState.default : ProofPathDurableState := ⟨1, none, ∅⟩

/-- The state with one more record. -/
def ProofPathDurableState.advance (state : ProofPathDurableState)
    (record : ProofPathDurableRecord) : ProofPathDurableState :=
  { nextSequence := state.nextSequence + 1
    headRecordHash := some record.recordHash
    records := state.records.insert record.body.ingestionKey record }

/-- `PROOFPATH_DURABLE_RECORD_SCHEMA`: the schema that every record names. -/
def proofpathDurableRecordSchema : String := "liminaldb.proofpath-durable-record.v0.1"

/-- `PROOFPATH_DURABLE_PROFILE`: the profile that every record names. -/
def proofpathDurableProfile : String := "org.liminaldb.proofpath-durable-ledger.v0.1"

/-- `PROOFPATH_PRODUCER_REPOSITORY`: where the recorded events come from. -/
def proofpathProducerRepository : String := "safal207/ProofPath"

/-- `PROOFPATH_CAPABILITY_ID`: the capability under which they were observed. -/
def proofpathCapabilityId : String := "proofpath.scig.v0.1"

/-- `PROOFPATH_CAPABILITY_COMMIT`: the commit at which the capability stood. -/
def proofpathCapabilityCommit : String := "685d50e256a5125a21f4c4584b326411caaa64ad"

/-- `LIMINALDB_CONSUMER_REPOSITORY`: the repository which records them. -/
def liminaldbConsumerRepository : String := "safal207/LiminalDB"

/-- `LIMINALDB_PROOFPATH_IMPORT_COMMIT`: the commit at which it took the capability over. -/
def liminaldbProofpathImportCommit : String := "00580ff097dee61b45ad3c8a3c36ae5f548f572d"

/-- `LIMINALDB_AUDIT_EVENT_CONTRACT_BLOB`: the blob of the contract that the events obey. -/
def liminaldbAuditEventContractBlob : String := "fd733971aaae089df770062bcf7f2c2d6d19ca1d"

/-- `PROOFPATH_PERSISTENCE_SCOPE`: how far a record is promised to last. -/
def proofpathPersistenceScope : String := "local_test_only"

/-- `RECORD_KIND`: what kind of fact a record is. -/
def recordKind : String := "proofpath.scig.verification.observed"

/-! ## The crates underneath -/

/-- The functions of other crates that the ProofPath ledger calls. -/
structure ProofPathCrates where
  /-- `crc32fast` -/
  crc32 : Bytes → UInt32
  /-- `Sha256::digest` -/
  sha256 : Bytes → List.Vector UInt8 32
  /-- CBOR of a record -/
  record : Serde ProofPathDurableRecord
  /-- `to_vec` of a record body -/
  recordBody : ProofPathDurableRecordBody → Except String Bytes

/-- `sha256_ref`: the digest of the bytes, as the text by which records refer to it. -/
def ProofPathCrates.sha256Ref (env : ProofPathCrates) (bytes : Bytes) : String :=
  digestText (env.sha256 bytes)

/-- The assumption on `serde_cbor`. -/
structure ProofPathCrates.Lossless (env : ProofPathCrates) : Prop where
  record : env.record.Lossless
  recordBody : ∀ body, ∃ bytes, env.recordBody body = .ok bytes

namespace Codec

/-- `u8` -/
def u8 : Codec UInt8 := uint.via UInt8.toNat UInt8.ofNat fun _ => UInt8.ofNat_toNat

/-- `ProofPathDurableRecordBody` -/
def recordBody : Codec ProofPathDurableRecordBody :=
  (record 26 (
    (field "schema" text).pair <| (field "profile" text).pair <| (field "sequence" uint).pair <|
    (field "namespace" text).pair <| (field "ingestion_key" text).pair <|
    (field "logical_operation_id" text).pair <| (field "source_event_sha256" text).pair <|
    (field "source_receipt_ref" text).pair <| (field "admission_report_sha256" text).pair <|
    (field "producer_repository" text).pair <| (field "producer_capability_id" text).pair <|
    (field "producer_capability_commit" text).pair <| (field "consumer_repository" text).pair <|
    (field "consumer_import_commit" text).pair <|
    (field "consumer_contract_blob_sha" text).pair <| (field "valid_time_ms" u64).pair <|
    (field "transaction_time_ms" u64).pair <| (field "source_event_bytes" u8.list).pair <|
    (field "admission_report_bytes" u8.list).pair <| (field "storage_admission_ref" text).pair <|
    (field "persistence_scope" text).pair <| (field "storage_write_authorized" bool).pair <|
    (field "execution_authorized" bool).pair <| (field "mutation_authorized" bool).pair <|
    (field "external_effects_authorized" bool).pair <| (field "previous_record_hash" ref))).via
    (fun x => (x.schema, x.profile, x.sequence, x.namespace, x.ingestionKey, x.logicalOperationId,
      x.sourceEventSha256, x.sourceReceiptRef, x.admissionReportSha256, x.producerRepository,
      x.producerCapabilityId, x.producerCapabilityCommit, x.consumerRepository,
      x.consumerImportCommit, x.consumerContractBlobSha, x.validTimeMs, x.transactionTimeMs,
      x.sourceEventBytes, x.admissionReportBytes, x.storageAdmissionRef, x.persistenceScope,
      x.storageWriteAuthorized, x.executionAuthorized, x.mutationAuthorized,
      x.externalEffectsAuthorized, x.previousRecordHash))
    (fun (x₁, x₂, x₃, x₄, x₅, x₆, x₇, x₈, x₉, x₁₀, x₁₁, x₁₂, x₁₃, x₁₄, x₁₅, x₁₆, x₁₇, x₁₈, x₁₉, x₂₀,
      x₂₁, x₂₂, x₂₃, x₂₄, x₂₅, x₂₆) => ⟨x₁, x₂, x₃, x₄, x₅, x₆, x₇, x₈, x₉, x₁₀, x₁₁, x₁₂, x₁₃, x₁₄,
      x₁₅, x₁₆, x₁₇, x₁₈, x₁₉, x₂₀, x₂₁, x₂₂, x₂₃, x₂₄, x₂₅, x₂₆⟩)
    fun _ => rfl

/-- `ProofPathDurableRecord` -/
def proofPathRecord : Codec ProofPathDurableRecord :=
  (record 2 (
    (field "body" recordBody).pair <| (field "record_hash" text))).via
    (fun x => (x.body, x.recordHash))
    (fun (x₁, x₂) => ⟨x₁, x₂⟩)
    fun _ => rfl

end Codec

/-- The crates the program is linked with, for the ProofPath ledger. -/
def linkedProofPathCrates : ProofPathCrates where
  crc32 := crc32Ieee
  sha256 := Sha256.digest
  record := Codec.proofPathRecord.serde
  recordBody := Codec.recordBody.serde.toVec

/-- The codecs of the sample read back what they write. -/
theorem lossless_linkedProofPathCrates : linkedProofPathCrates.Lossless where
  record := Codec.proofPathRecord.lossless_serde
  recordBody := fun _ => ⟨_, rfl⟩

end LiminalDB
