import LiminalDB.Foundations.StateResult
import LiminalDB.ProofPath.Types
import LiminalDB.Wal.Writer

/-! # `ProofPathDurableLedger`

The ledger of one namespace over its log. An input is checked by `normalize_input` before it is
written, and a record by `apply_record` before it is counted, on the write path as well as on replay.
`RecordAccepted` is what the second asks for; `InputAccepted` what the first does. They do not ask
for the same: replay takes records with no bytes in them, which no input becomes. -/

namespace LiminalDB.ProofPath

variable (env : ProofPathCrates)

/-! ## Checks -/

/-- `u8::is_ascii_alphanumeric`: a digit or a letter without accents. -/
def isAsciiAlphanumeric (b : UInt8) : Bool :=
  (0x30 ≤ b && b ≤ 0x39) || (0x41 ≤ b && b ≤ 0x5a) || (0x61 ≤ b && b ≤ 0x7a)

/-- `normalize_namespace`: a name space is short, begins with a letter or digit, and has no other marks
than three. -/
def normalizeNamespace (value : String) : Except ProofPathDurableError String :=
  let trimmed := trim value
  let validLen := !trimmed.isEmpty && (asBytes trimmed).length ≤ 64
  let validChars := (asBytes trimmed).all fun b =>
    isAsciiAlphanumeric b || b == 0x2e || b == 0x5f || b == 0x2d
  if !validLen || trimmed ≠ value || trimmed == "." || trimmed == ".." || !validChars
      || !isAsciiAlphanumeric ((asBytes trimmed).headD 0) then
    .error .invalidNamespace
  else .ok value

/-- `validate_sha256_ref`: a reference has the shape of a digest, or the error names its field. -/
def validateSha256Ref (reference label : String) : Except ProofPathDurableError Unit :=
  checkRef reference (.invalidReference label)

/-- `normalize_input`: an input whose fields are all there and in their shape, and whose times are in
their order. -/
def normalizeInput (input : ProofPathDurableInput) :
    Except ProofPathDurableError ProofPathDurableInput := do
  let logical := trim input.logicalOperationId
  failIf (logical = "" ∨ logical ≠ input.logicalOperationId) .invalidLogicalOperationId
  failIf (input.sourceEventBytes = []) .emptySourceEvent
  failIf (input.admissionReportBytes = []) .emptyAdmissionReport
  validateSha256Ref input.sourceReceiptRef "source_receipt_ref"
  validateSha256Ref input.storageAdmissionRef "storage_admission_ref"
  failIf (input.validTimeMs = 0 ∨ input.transactionTimeMs < input.validTimeMs) .invalidTemporalOrder
  return { input with logicalOperationId := logical }

/-- `ingestion_key`: the digest of the name space, the operation and the kind, with NULs between them. -/
def ingestionKey (ns logicalOperationId : String) : String :=
  env.sha256Ref (asBytes (ns ++ "\x00" ++ logicalOperationId ++ "\x00" ++ recordKind))

/-- `digest_cbor`, on a record body. -/
def recordDigest (body : ProofPathDurableRecordBody) : Except ProofPathDurableError String := do
  let bytes ← (env.recordBody body).mapError .encoding
  return env.sha256Ref bytes

/-- `equivalent_semantic_input`: whether a record says what the input says, whenever and under whichever
number it was written. -/
def equivalentSemanticInput (existing : ProofPathDurableRecord) (input : ProofPathDurableInput) :
    Bool :=
  existing.body.logicalOperationId == input.logicalOperationId
    && existing.body.sourceEventBytes == input.sourceEventBytes
    && existing.body.admissionReportBytes == input.admissionReportBytes
    && existing.body.sourceReceiptRef == input.sourceReceiptRef
    && existing.body.validTimeMs == input.validTimeMs
    && existing.body.sourceEventSha256 == env.sha256Ref input.sourceEventBytes
    && existing.body.admissionReportSha256 == env.sha256Ref input.admissionReportBytes

/-! ## Applying a record -/

/-- `apply_record`, which writes only when every check has passed. -/
def applyRecord (ns : String) (record : ProofPathDurableRecord) (state : ProofPathDurableState) :
    Except ProofPathDurableError ProofPathDurableState := do
  let body := record.body
  failIf (body.schema ≠ proofpathDurableRecordSchema ∨ body.profile ≠ proofpathDurableProfile)
    .recordProfileMismatch
  failIf (body.namespace ≠ ns) .namespaceMismatch
  failIf (body.sequence ≠ state.nextSequence) (.sequenceMismatch state.nextSequence body.sequence)
  failIf (body.previousRecordHash ≠ state.headRecordHash) .previousRecordHashMismatch
  let digest ← recordDigest env body
  failIf (digest ≠ record.recordHash) .recordHashMismatch
  validateSha256Ref record.recordHash "record_hash"
  validateSha256Ref body.sourceReceiptRef "source_receipt_ref"
  validateSha256Ref body.storageAdmissionRef "storage_admission_ref"
  failIf (trim body.logicalOperationId = "" ∨ trim body.logicalOperationId ≠ body.logicalOperationId)
    .invalidLogicalOperationId
  failIf (body.validTimeMs = 0 ∨ body.transactionTimeMs < body.validTimeMs) .invalidTemporalOrder
  let expectedKey := ingestionKey env ns body.logicalOperationId
  failIf (body.ingestionKey ≠ expectedKey) .ingestionKeyMismatch
  validateSha256Ref body.ingestionKey "ingestion_key"
  failIf (body.sourceEventSha256 ≠ env.sha256Ref body.sourceEventBytes) .sourceEventDigestMismatch
  failIf (body.admissionReportSha256 ≠ env.sha256Ref body.admissionReportBytes)
    .admissionReportDigestMismatch
  failIf (body.producerRepository ≠ proofpathProducerRepository ∨
    body.producerCapabilityId ≠ proofpathCapabilityId ∨
    body.producerCapabilityCommit ≠ proofpathCapabilityCommit) .producerCapabilityMismatch
  failIf (body.consumerRepository ≠ liminaldbConsumerRepository ∨
    body.consumerImportCommit ≠ liminaldbProofpathImportCommit ∨
    body.consumerContractBlobSha ≠ liminaldbAuditEventContractBlob) .consumerContractMismatch
  failIf (body.persistenceScope ≠ proofpathPersistenceScope ∨ body.storageWriteAuthorized = false ∨
    body.executionAuthorized = true ∨ body.mutationAuthorized = true ∨
    body.externalEffectsAuthorized = true) .authorityBoundaryViolation
  failIf (state.records.contains body.ingestionKey = true) (.duplicateIngestionKey body.ingestionKey)
  return state.advance record

/-- The loop of `replay_from`. -/
def replayRecords (ns : String) :
    List Bytes → ProofPathDurableState → Except ProofPathDurableError ProofPathDurableState
  | [], state => .ok state
  | bytes :: rest, state => do
      let decoded ← (env.record.fromSlice bytes).mapError .encoding
      let state ← applyRecord env ns decoded state
      replayRecords ns rest state

/-! ## The ledger -/

/-- `ProofPathDurableLedger`: the open log of a name space with the state that its records add up to. -/
structure DurableLedger where
  «namespace» : String
  store : Store
  state : ProofPathDurableState
  poisoned : Bool

/-- `replay_from`: the state to which the records of the log add up, or the error of the first one that
does not fit. -/
def replayFrom (store : Store) (ns : String) :
    Except ProofPathDurableError ProofPathDurableState := do
  let (records, stop) ← (store.streamFrom env.crc32 Offset.start).mapError .storage
  let state ← replayRecords env ns records .default
  match stop with
  | some e => .error (.storage e)
  | none => .ok state

/-- `ProofPathDurableLedger::open`, on the directory of the namespace's log. -/
def DurableLedger.open (dir : WalDir) (ns : String) :
    Except ProofPathDurableError DurableLedger := do
  let ns ← normalizeNamespace ns
  let store ← (Store.openWithRotation env.crc32 dir defaultSegmentSize).mapError .storage
  let state ← replayFrom env store ns
  return ⟨ns, store, state, false⟩

/-- The body that `append` writes for an input. -/
def recordBodyOf (ns : String) (state : ProofPathDurableState) (input : ProofPathDurableInput) :
    ProofPathDurableRecordBody :=
  { schema := proofpathDurableRecordSchema
    profile := proofpathDurableProfile
    sequence := state.nextSequence
    «namespace» := ns
    ingestionKey := ingestionKey env ns input.logicalOperationId
    logicalOperationId := input.logicalOperationId
    sourceEventSha256 := env.sha256Ref input.sourceEventBytes
    sourceReceiptRef := input.sourceReceiptRef
    admissionReportSha256 := env.sha256Ref input.admissionReportBytes
    producerRepository := proofpathProducerRepository
    producerCapabilityId := proofpathCapabilityId
    producerCapabilityCommit := proofpathCapabilityCommit
    consumerRepository := liminaldbConsumerRepository
    consumerImportCommit := liminaldbProofpathImportCommit
    consumerContractBlobSha := liminaldbAuditEventContractBlob
    validTimeMs := input.validTimeMs
    transactionTimeMs := input.transactionTimeMs
    sourceEventBytes := input.sourceEventBytes
    admissionReportBytes := input.admissionReportBytes
    storageAdmissionRef := input.storageAdmissionRef
    persistenceScope := proofpathPersistenceScope
    storageWriteAuthorized := true
    executionAuthorized := false
    mutationAuthorized := false
    externalEffectsAuthorized := false
    previousRecordHash := state.headRecordHash }

/-- The record of an input, the state it leads to and its bytes. -/
def prepareRecord (ns : String) (state : ProofPathDurableState) (input : ProofPathDurableInput) :
    Except ProofPathDurableError (ProofPathDurableRecord × ProofPathDurableState × Bytes) := do
  let body := recordBodyOf env ns state input
  let recordHash ← recordDigest env body
  let record : ProofPathDurableRecord := ⟨body, recordHash⟩
  let candidate ← applyRecord env ns record state
  let bytes ← (env.record.toVec record).mapError .encoding
  return (record, candidate, bytes)

/-- `append`, with the stage at which the write is made to fail. -/
def DurableLedger.append (input : ProofPathDurableInput) (failpoint : AppendFailpoint)
    (ledger : DurableLedger) :
    Except ProofPathDurableError ProofPathAppendOutcome × DurableLedger :=
  if ledger.poisoned then (.error .poisonedAfterStorageFailure, ledger)
  else
    match normalizeInput input with
    | .error e => (.error e, ledger)
    | .ok input =>
        match ledger.state.records[ingestionKey env ledger.namespace input.logicalOperationId]? with
        | some existing =>
            if equivalentSemanticInput env existing input then (.ok (.alreadyPresent existing), ledger)
            else (.error .idempotencyConflict, ledger)
        | none =>
            match prepareRecord env ledger.namespace ledger.state input with
            | .error e => (.error e, ledger)
            | .ok (record, candidate, bytes) =>
                match ledger.store.append env.crc32 bytes failpoint with
                | (.error e, store) => (.error (.storage e), { ledger with store, poisoned := true })
                | (.ok _, store) => (.ok (.inserted record), { ledger with store, state := candidate })

/-! ## What is accepted -/

/-- What both paths ask of the caller's part. -/
structure InputSound (input : ProofPathDurableInput) : Prop where
  logicalOperationId : IsIdentifier input.logicalOperationId
  sourceReceiptRef : IsRef input.sourceReceiptRef
  storageAdmissionRef : IsRef input.storageAdmissionRef
  validTimeMs : input.validTimeMs ≠ 0
  transactionTimeMs : input.validTimeMs ≤ input.transactionTimeMs

/-- What `normalize_input` asks for. -/
structure InputAccepted (input : ProofPathDurableInput) : Prop extends InputSound input where
  sourceEventBytes : input.sourceEventBytes ≠ []
  admissionReportBytes : input.admissionReportBytes ≠ []

/-- What `apply_record` asks for: the record is the one that `append` makes of its caller's part in
this state, under a new key. -/
structure RecordAccepted (ns : String) (state : ProofPathDurableState)
    (record : ProofPathDurableRecord) : Prop where
  input : InputSound record.body.input
  body : record.body = recordBodyOf env ns state record.body.input
  recordHash : ∃ bytes, env.recordBody record.body = .ok bytes ∧
    record.recordHash = env.sha256Ref bytes
  fresh : state.records[record.body.ingestionKey]? = none

variable {env}

/-- The test of an operation id, on both paths. -/
theorem isIdentifier_iff {value : String} :
    ¬ trim value = "" ∧ trim value = value ↔ IsIdentifier value := by
  constructor
  · rintro ⟨hne, htrim⟩
    exact ⟨htrim ▸ hne, htrim⟩
  · rintro ⟨hne, htrim⟩
    exact ⟨htrim.symm ▸ hne, htrim⟩

/-- The check of a reference succeeds exactly if it is one. -/
@[simp] theorem validateSha256Ref_eq_ok {reference label : String} {u : Unit} :
    validateSha256Ref reference label = .ok u ↔ IsRef reference :=
  checkRef_eq_ok

/-- The digest of a record is that of its encoded body, where there is one. -/
theorem recordDigest_eq_ok {body : ProofPathDurableRecordBody} {digest : String} :
    recordDigest env body = .ok digest ↔
      ∃ bytes, env.recordBody body = .ok bytes ∧ digest = env.sha256Ref bytes := by
  unfold recordDigest
  rw [result_bind_eq_ok]
  simp only [mapError_eq_ok]
  exact exists_congr fun bytes => and_congr_right fun _ => ⟨fun h => (Except.ok.inj h).symm,
    fun h => congrArg Except.ok h.symm⟩

/-- **The write path** takes an input as it is, if it takes it. -/
theorem normalizeInput_eq_ok {input result : ProofPathDurableInput} :
    normalizeInput input = .ok result ↔ InputAccepted input ∧ result = input := by
  unfold normalizeInput
  simp only [result_bind_eq_ok, failIf_eq_ok, validateSha256Ref_eq_ok, not_or, not_not, isIdentifier_iff,
    UInt64.not_lt, ne_eq]
  constructor
  · rintro ⟨-, hid, -, hsource, -, hreport, -, hreceipt, -, hadmission, -, ⟨hvalid, htransaction⟩,
      hresult⟩
    obtain rfl := Except.ok.inj hresult
    refine ⟨⟨⟨hid, hreceipt, hadmission, hvalid, htransaction⟩, hsource, hreport⟩, ?_⟩
    rw [hid.2]
  · rintro ⟨⟨⟨hid, hreceipt, hadmission, hvalid, htransaction⟩, hsource, hreport⟩, rfl⟩
    refine ⟨(), hid, (), hsource, (), hreport, (), hreceipt, (), hadmission, (),
      ⟨hvalid, htransaction⟩, ?_⟩
    rw [hid.2]
    rfl

/-- The errors of `normalize_input` are its own. -/
theorem normalizeInput_not_storage (input : ProofPathDurableInput) :
    Raises (fun e => ∀ e', e ≠ .storage e') (normalizeInput input) := by
  unfold normalizeInput validateSha256Ref checkRef
  refine .bind (.failIf fun _ => by simp) fun _ _ => .bind (.failIf fun _ => by simp) fun _ _ =>
    .bind (.failIf fun _ => by simp) fun _ _ => .bind (.failIf fun _ => by simp) fun _ _ =>
    .bind (.failIf fun _ => by simp) fun _ _ => .bind (.failIf fun _ => by simp) fun _ _ => .ok _

/-- **The replay path.** -/
theorem applyRecord_eq_ok {ns : String} {record : ProofPathDurableRecord}
    {state state' : ProofPathDurableState} :
    applyRecord env ns record state = .ok state' ↔
      RecordAccepted env ns state record ∧ state' = state.advance record := by
  unfold applyRecord
  -- Each check of the source becomes one condition, in its order.
  simp only [result_bind_eq_ok, failIf_eq_ok, validateSha256Ref_eq_ok, recordDigest_eq_ok, not_or,
    not_not, ne_eq, isIdentifier_iff, UInt64.not_lt, Bool.not_eq_true, Bool.not_eq_false]
  constructor
  · rintro ⟨-, ⟨hschema, hprofile⟩, -, hns, -, hsequence, -, hprevious, digest,
      ⟨bytes, hbytes, rfl⟩, -, hhash, -, hhashRef, -, hreceipt, -, hadmission, -, hid, -,
      ⟨hvalid, htransaction⟩, -, hkey, -, hkeyRef, -, hsource, -, hreport, -, hproducer, -,
      hconsumer, -, hboundary, -, hfresh, hstate⟩
    refine ⟨⟨⟨hid, hreceipt, hadmission, hvalid, htransaction⟩, ?_, ⟨bytes, hbytes, hhash.symm⟩, ?_⟩,
      (Except.ok.inj hstate).symm⟩
    · -- The checks say field by field what the body has to be.
      obtain ⟨body, recordHash⟩ := record
      obtain ⟨h₁, h₂, h₃⟩ := hproducer
      obtain ⟨h₄, h₅, h₆⟩ := hconsumer
      obtain ⟨h₇, h₈, h₉, h₁₀, h₁₁⟩ := hboundary
      cases body
      simp_all [recordBodyOf, ProofPathDurableRecordBody.input]
    · exact Std.ExtTreeMap.getElem?_eq_none_of_contains_eq_false hfresh
  · rintro ⟨⟨hinput, hbody, ⟨bytes, hbytes, hhash⟩, hfresh⟩, rfl⟩
    -- An accepted body is the one that is expected, and passes each check on a field.
    have hfield {α : Type} (f : ProofPathDurableRecordBody → α) :
        f record.body = f (recordBodyOf env ns state record.body.input) := congrArg f hbody
    have hkeyRef : IsRef record.body.ingestionKey := by
      rw [hfield (·.ingestionKey)]
      exact isRef_digestText _
    refine ⟨(), ⟨hfield (·.schema), hfield (·.profile)⟩, (), hfield (·.namespace), (),
      hfield (·.sequence), (), hfield (·.previousRecordHash), _, ⟨bytes, hbytes, rfl⟩, (),
      hhash.symm, (), ?_, (), hinput.sourceReceiptRef, (), hinput.storageAdmissionRef, (),
      hinput.logicalOperationId, (), ⟨hinput.validTimeMs, hinput.transactionTimeMs⟩, (),
      hfield (·.ingestionKey), (), hkeyRef, (), hfield (·.sourceEventSha256), (),
      hfield (·.admissionReportSha256), (), ⟨hfield (·.producerRepository),
      hfield (·.producerCapabilityId), hfield (·.producerCapabilityCommit)⟩, (),
      ⟨hfield (·.consumerRepository), hfield (·.consumerImportCommit),
      hfield (·.consumerContractBlobSha)⟩, (), ⟨hfield (·.persistenceScope),
      hfield (·.storageWriteAuthorized), hfield (·.executionAuthorized),
      hfield (·.mutationAuthorized), hfield (·.externalEffectsAuthorized)⟩, (), ?_, rfl⟩
    · rw [hhash]
      exact isRef_digestText _
    · rw [Std.ExtTreeMap.contains_eq_isSome_getElem?, hfresh]
      rfl

/-- What the write path prepares is what replay accepts. -/
theorem prepareRecord_eq_ok {ns : String} {state candidate : ProofPathDurableState}
    {input : ProofPathDurableInput} {record : ProofPathDurableRecord} {bytes : Bytes} :
    prepareRecord env ns state input = .ok (record, candidate, bytes) ↔
      record.body.input = input ∧ RecordAccepted env ns state record ∧
      candidate = state.advance record ∧ env.record.toVec record = .ok bytes := by
  unfold prepareRecord
  simp only [result_bind_eq_ok, mapError_eq_ok, applyRecord_eq_ok, recordDigest_eq_ok]
  constructor
  · rintro ⟨recordHash, -, candidate', ⟨hacc, rfl⟩, bytes', hbytes, hresult⟩
    obtain ⟨rfl, rfl, rfl⟩ := by simpa [pure, Except.pure] using hresult
    exact ⟨rfl, hacc, rfl, hbytes⟩
  · rintro ⟨rfl, hacc, rfl, hbytes⟩
    have hrecord : (⟨recordBodyOf env ns state record.body.input, record.recordHash⟩ :
        ProofPathDurableRecord) = record := by
      rw [← hacc.body]
    refine ⟨record.recordHash, hacc.body ▸ hacc.recordHash, state.advance record, ?_, bytes, ?_, ?_⟩
    · rw [hrecord]
      exact ⟨hacc, rfl⟩
    · rwa [hrecord]
    · rw [hrecord]
      rfl

/-- The key of an accepted record is that of its operation. -/
theorem RecordAccepted.ingestionKey_eq {ns : String} {state : ProofPathDurableState}
    {record : ProofPathDurableRecord} (h : RecordAccepted env ns state record) :
    record.body.ingestionKey = ingestionKey env ns record.body.logicalOperationId :=
  congrArg ProofPathDurableRecordBody.ingestionKey h.body

/-! ## One append -/

namespace DurableLedger

variable {ledger : DurableLedger} {input : ProofPathDurableInput} {failpoint : AppendFailpoint}
  {record : ProofPathDurableRecord} {candidate : ProofPathDurableState} {bytes : Bytes}

/-- A usable ledger, an acceptable input and a new key: the record that goes to the log. -/
structure Prepares (env : ProofPathCrates) (ledger : DurableLedger)
    (input : ProofPathDurableInput) (record : ProofPathDurableRecord) (bytes : Bytes) : Prop where
  usable : ledger.poisoned = false
  inputAccepted : InputAccepted input
  input_eq : record.body.input = input
  accepted : RecordAccepted env ledger.namespace ledger.state record
  encoded : env.record.toVec record = .ok bytes

/-- What a prepared append does is decided by the log. -/
theorem append_of_prepares (h : ledger.Prepares env input record bytes) :
    ledger.append env input failpoint =
      match ledger.store.append env.crc32 bytes failpoint with
      | (.error e, store) => (.error (.storage e), { ledger with store, poisoned := true })
      | (.ok _, store) =>
          (.ok (.inserted record), { ledger with store, state := ledger.state.advance record }) := by
  have hfresh : ledger.state.records[ingestionKey env ledger.namespace
      input.logicalOperationId]? = none := by
    rw [← h.input_eq]
    exact h.accepted.ingestionKey_eq ▸ h.accepted.fresh
  unfold append
  rw [if_neg (by simp [h.usable]), normalizeInput_eq_ok.mpr ⟨h.inputAccepted, rfl⟩]
  simp only [hfresh, prepareRecord_eq_ok.mpr ⟨h.input_eq, h.accepted, rfl, h.encoded⟩]

/-- A poisoned ledger refuses every append. -/
theorem append_of_poisoned (hp : ledger.poisoned = true) :
    ledger.append env input failpoint = (.error .poisonedAfterStorageFailure, ledger) := by
  unfold append
  rw [if_pos hp]

/-- An input that `normalize_input` does not take is refused with its error. -/
theorem append_of_invalid (hp : ledger.poisoned = false) {e : ProofPathDurableError}
    (hinput : normalizeInput input = .error e) :
    ledger.append env input failpoint = (.error e, ledger) := by
  unfold append
  rw [if_neg (by simp [hp]), hinput]

/-- A second append for an operation is answered from the record that is there. -/
theorem append_of_present (hp : ledger.poisoned = false) (hinput : InputAccepted input)
    {existing : ProofPathDurableRecord} (hkey : ledger.state.records[ingestionKey env
      ledger.namespace input.logicalOperationId]? = some existing) :
    ledger.append env input failpoint =
      (if equivalentSemanticInput env existing input then .ok (.alreadyPresent existing)
        else .error .idempotencyConflict, ledger) := by
  unfold append
  rw [if_neg (by simp [hp]), normalizeInput_eq_ok.mpr ⟨hinput, rfl⟩]
  simp only [hkey]
  split <;> rfl

/-- An input for a new operation always becomes a record. -/
theorem exists_prepares (henv : env.Lossless) (hp : ledger.poisoned = false)
    (hinput : InputAccepted input) (hkey : ledger.state.records[ingestionKey env ledger.namespace
      input.logicalOperationId]? = none) :
    ∃ record bytes, ledger.Prepares env input record bytes := by
  obtain ⟨bodyBytes, hbody⟩ := henv.recordBody (recordBodyOf env ledger.namespace ledger.state input)
  let record : ProofPathDurableRecord :=
    ⟨recordBodyOf env ledger.namespace ledger.state input, env.sha256Ref bodyBytes⟩
  obtain ⟨bytes, hbytes, -⟩ := henv.record record
  exact ⟨record, bytes, hp, hinput, rfl,
    ⟨hinput.toInputSound, rfl, ⟨bodyBytes, hbody, rfl⟩, hkey⟩, hbytes⟩

/-- What an append can do: leave the ledger as it is, with no word of the storage, or take a new
record to the log. -/
theorem append_cases (henv : env.Lossless) (ledger : DurableLedger)
    (input : ProofPathDurableInput) (failpoint : AppendFailpoint) :
    (∃ result, ledger.append env input failpoint = (result, ledger) ∧
      (∀ record, result ≠ .ok (.inserted record)) ∧ ∀ e, result ≠ .error (.storage e)) ∨
    ∃ record bytes, ledger.Prepares env input record bytes := by
  cases hp : ledger.poisoned with
  | true => exact .inl ⟨_, append_of_poisoned hp, by simp, by simp⟩
  | false =>
      cases hinput : normalizeInput input with
      | error e =>
          refine .inl ⟨_, append_of_invalid hp hinput, by simp, fun e' he' => ?_⟩
          exact normalizeInput_not_storage input e hinput e' (Except.error.inj he')
      | ok normal =>
          obtain ⟨hacc, rfl⟩ := normalizeInput_eq_ok.mp hinput
          cases hkey : ledger.state.records[ingestionKey env ledger.namespace
              normal.logicalOperationId]? with
          | some existing =>
              refine .inl ⟨_, append_of_present hp hacc hkey, fun record => ?_, fun e => ?_⟩
              all_goals split <;> simp
          | none => exact .inr (exists_prepares henv hp hacc hkey)

end DurableLedger

end LiminalDB.ProofPath
