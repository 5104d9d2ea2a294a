import LiminalDB.Ledger.History
import LiminalDB.ProofPath.Ledger

/-! # What replay accepts and what append writes

Replaying a log of the ProofPath ledger applies its records in order. Every record that replay
accepts is the one that `append` makes of its own fields, so the log could have been written by
appends, unless it holds a record without source bytes or report bytes. `normalize_input` refuses
those, and `apply_record` does not look (`replay_accepts_empty_evidence`). -/

namespace LiminalDB.ProofPath

variable {env : ProofPathCrates} {ns : String}

/-! ## Replaying records -/

/-- Apply records in order. -/
def applyRecords (env : ProofPathCrates) (ns : String) :
    List ProofPathDurableRecord → ProofPathDurableState →
      Except ProofPathDurableError ProofPathDurableState
  | [], state => .ok state
  | record :: records, state => do
      let state ← applyRecord env ns record state
      applyRecords env ns records state

/-- The bytes decode to the records. -/
def Decoded (env : ProofPathCrates) (bytes : List Bytes) (records : List ProofPathDurableRecord) :
    Prop :=
  List.Forall₂ (fun b record => env.record.fromSlice b = .ok record) bytes records

/-- Replay is the application of what the log decodes to. -/
theorem replayRecords_eq {bytes : List Bytes} {records : List ProofPathDurableRecord}
    (h : Decoded env bytes records) (state : ProofPathDurableState) :
    replayRecords env ns bytes state = applyRecords env ns records state := by
  induction h generalizing state with
  | nil => rfl
  | @cons b record bytes records hb _ ih =>
      rw [replayRecords, hb, applyRecords]
      show (do
        let state ← applyRecord env ns record state
        replayRecords env ns bytes state) = _
      cases applyRecord env ns record state with
      | error e => rfl
      | ok state' => exact ih state'

/-- The log of a store that holds the bytes of records, and nothing half written, replays to the
application of the records. -/
theorem replayFrom_eq {store : Store} {img : WalImage}
    (h : store.Represents env.crc32 img) (hclean : img.tail = .clean) (hfirst : img.first = 1)
    {records : List ProofPathDurableRecord} (hdecoded : Decoded env img.records records) :
    replayFrom env store ns = applyRecords env ns records .default := by
  unfold replayFrom
  rw [h.streamFrom_eq (WalImage.locates_start env.crc32 img hfirst), hclean, List.drop_zero]
  show (do
    let state ← replayRecords env ns img.records .default
    .ok state) = _
  rw [replayRecords_eq hdecoded]
  cases applyRecords env ns records .default <;> rfl

/-- Opening a namespace whose log holds the bytes of records that apply. -/
theorem DurableLedger.open_eq {dir : WalDir} {store : Store} {img : WalImage}
    (hns : normalizeNamespace ns = .ok ns)
    (hopen : Store.openWithRotation env.crc32 dir defaultSegmentSize = .ok store)
    (h : store.Represents env.crc32 img) (hclean : img.tail = .clean) (hfirst : img.first = 1)
    {records : List ProofPathDurableRecord} (hdecoded : Decoded env img.records records)
    {state : ProofPathDurableState} (hstate : applyRecords env ns records .default = .ok state) :
    DurableLedger.open env dir ns = .ok ⟨ns, store, state, false⟩ := by
  unfold DurableLedger.open
  rw [hns, hopen]
  show (do
    let state ← replayFrom env store ns
    return (⟨ns, store, state, false⟩ : DurableLedger)) = _
  rw [replayFrom_eq h hclean hfirst hdecoded, hstate]
  rfl

/-- A new namespace. -/
theorem DurableLedger.open_empty (env : ProofPathCrates) (hns : normalizeNamespace ns = .ok ns) :
    ∃ store, store.Represents env.crc32 WalImage.empty ∧
      DurableLedger.open env ∅ ns = .ok ⟨ns, store, .default, false⟩ := by
  obtain ⟨store, hopen, hrep, -⟩ :=
    openWithRotation_empty env.crc32 (show defaultSegmentSize ≠ 0 by decide)
  exact ⟨store, hrep, DurableLedger.open_eq hns hopen hrep rfl rfl .nil rfl⟩

/-! ## Appending one input after the other -/

/-- The results of appending a list of inputs, and the ledger at the end. -/
def DurableLedger.appendAll (env : ProofPathCrates) :
    List ProofPathDurableInput → DurableLedger →
      List (Except ProofPathDurableError ProofPathAppendOutcome) × DurableLedger
  | [], ledger => ([], ledger)
  | input :: inputs, ledger =>
      let (result, ledger) := ledger.append env input .disabled
      let (results, ledger) := DurableLedger.appendAll env inputs ledger
      (result :: results, ledger)

/-- Without an injected failure a prepared record is inserted. -/
theorem DurableLedger.Prepares.append_disabled {ledger : DurableLedger}
    {input : ProofPathDurableInput} {record : ProofPathDurableRecord} {bytes : Bytes}
    (h : ledger.Prepares env input record bytes) :
    ledger.append env input .disabled = (.ok (.inserted record),
      { ledger with
        store := (ledger.store.append env.crc32 bytes .disabled).2
        state := ledger.state.advance record }) := by
  obtain ⟨offset, hoffset⟩ := Store.append_disabled_isOk env.crc32 ledger.store bytes
  obtain ⟨store, hstore⟩ : ∃ store, ledger.store.append env.crc32 bytes .disabled =
      (.ok offset, store) := ⟨_, Prod.ext hoffset rfl⟩
  rw [DurableLedger.append_of_prepares h, hstore]

/-- A record leaves the other operations as they are. -/
theorem getElem?_advance_of_ne {state : ProofPathDurableState}
    {record : ProofPathDurableRecord} {key : String} (h : record.body.ingestionKey ≠ key) :
    (state.advance record).records[key]? = state.records[key]? := by
  show (state.records.insert record.body.ingestionKey record)[key]? = _
  rw [Std.ExtTreeMap.getElem?_insert, if_neg (by simpa using h)]

/-- Records that replay accepts are inserted when their own fields are appended. -/
theorem DurableLedger.appendAll_inputs (henv : env.Lossless) {ledger : DurableLedger}
    (hp : ledger.poisoned = false) {records : List ProofPathDurableRecord}
    {state : ProofPathDurableState}
    (happly : applyRecords env ledger.namespace records ledger.state = .ok state)
    (hevidence : ∀ record ∈ records, record.HasEvidence) :
    (ledger.appendAll env (records.map fun record => record.body.input)).1 =
        records.map (fun record => .ok (.inserted record)) ∧
      (ledger.appendAll env (records.map fun record => record.body.input)).2.state = state := by
  induction records generalizing ledger with
  | nil => exact ⟨rfl, Except.ok.inj happly⟩
  | cons record records ih =>
      obtain ⟨mid, hmid, hrest⟩ := result_bind_eq_ok.mp happly
      obtain ⟨hacc, rfl⟩ := applyRecord_eq_ok.mp hmid
      obtain ⟨bytes, hbytes, -⟩ := henv.record record
      obtain ⟨hsource, hreport⟩ := hevidence record List.mem_cons_self
      have hprepares : ledger.Prepares env record.body.input record bytes :=
        ⟨hp, ⟨hacc.input, hsource, hreport⟩, rfl, hacc, hbytes⟩
      let next : DurableLedger :=
        { ledger with
          store := (ledger.store.append env.crc32 bytes .disabled).2
          state := ledger.state.advance record }
      have htail := @ih next hp hrest fun r hr => hevidence r (List.mem_cons_of_mem _ hr)
      simp only [List.map_cons, DurableLedger.appendAll, hprepares.append_disabled]
      exact ⟨congrArg _ htail.1, htail.2⟩

/-- What is inserted has evidence. -/
theorem DurableLedger.hasEvidence_of_inserted (henv : env.Lossless) {ledger : DurableLedger}
    {input : ProofPathDurableInput} {record : ProofPathDurableRecord}
    (h : (ledger.append env input .disabled).1 = .ok (.inserted record)) : record.HasEvidence := by
  rcases ledger.append_cases henv input .disabled with
    ⟨result, hresult, hne, -⟩ | ⟨record', bytes, hprepares⟩
  · rw [hresult] at h
    exact absurd h (hne record)
  · rw [hprepares.append_disabled] at h
    obtain rfl : record' = record := by simpa using h
    have hinput := hprepares.inputAccepted
    rw [← hprepares.input_eq] at hinput
    exact ⟨hinput.sourceEventBytes, hinput.admissionReportBytes⟩

/-- By induction over the appends, every record that they have inserted has evidence. -/
theorem DurableLedger.hasEvidence_of_appendAll (henv : env.Lossless) {ledger : DurableLedger}
    {inputs : List ProofPathDurableInput} {records : List ProofPathDurableRecord}
    (h : (ledger.appendAll env inputs).1 = records.map fun record => .ok (.inserted record)) :
    ∀ record ∈ records, record.HasEvidence := by
  induction inputs generalizing ledger records with
  | nil =>
      obtain rfl : records = [] := by simpa [DurableLedger.appendAll] using h
      simp
  | cons input inputs ih =>
      cases records with
      | nil => simp
      | cons record records =>
          obtain ⟨hhead, htail⟩ := List.cons.inj h
          intro r hr
          rcases List.mem_cons.mp hr with rfl | hr
          · exact DurableLedger.hasEvidence_of_inserted henv hhead
          · exact ih htail r hr

/-- **What replay accepts could have been written by appends** exactly when every record has source
bytes and report bytes. -/
theorem replay_accepts_appended_iff (henv : env.Lossless) (hns : normalizeNamespace ns = .ok ns)
    {bytes : List Bytes} {records : List ProofPathDurableRecord} (hdecoded : Decoded env bytes records)
    {state : ProofPathDurableState} (hreplay : replayRecords env ns bytes .default = .ok state) :
    (∃ ledger inputs, DurableLedger.open env ∅ ns = .ok ledger ∧
        (ledger.appendAll env inputs).1 = records.map (fun record => .ok (.inserted record)) ∧
        (ledger.appendAll env inputs).2.state = state) ↔
      ∀ record ∈ records, record.body.sourceEventBytes ≠ [] ∧
        record.body.admissionReportBytes ≠ [] := by
  rw [replayRecords_eq hdecoded] at hreplay
  constructor
  · rintro ⟨ledger, inputs, -, hinserted, -⟩
    exact DurableLedger.hasEvidence_of_appendAll henv hinserted
  · intro hevidence
    obtain ⟨store, -, hopen⟩ := DurableLedger.open_empty env hns
    have hp : (⟨ns, store, .default, false⟩ : DurableLedger).poisoned = false := rfl
    exact ⟨_, _, hopen, DurableLedger.appendAll_inputs henv hp hreplay hevidence⟩

/-! ## Two logs -/

/-- Evidence with the given bytes of the source event. -/
def sampleEvidence (logicalOperationId : String) (sourceEventBytes : Bytes) :
    ProofPathDurableInput :=
  { logicalOperationId := logicalOperationId
    sourceEventBytes := sourceEventBytes
    admissionReportBytes := [0x7b, 0x7d]
    sourceReceiptRef := sampleRef 0x51
    validTimeMs := 5
    transactionTimeMs := 7
    storageAdmissionRef := sampleRef 0x52 }

/-- The sample evidence for an operation is sound, if the id of that is an identifier. -/
theorem inputSound_sampleEvidence {logicalOperationId : String}
    (h : IsIdentifier logicalOperationId) (sourceEventBytes : Bytes) :
    InputSound (sampleEvidence logicalOperationId sourceEventBytes) :=
  ⟨h, isRef_digestText _, isRef_digestText _, show (5 : UInt64) ≠ 0 by decide,
    show (5 : UInt64) ≤ 7 by decide⟩

/-- The first record of a namespace. -/
def firstRecord (input : ProofPathDurableInput) : ProofPathDurableRecord :=
  ⟨recordBodyOf linkedProofPathCrates "local" .default input,
    linkedProofPathCrates.sha256Ref
      (Codec.recordBody.enc (recordBodyOf linkedProofPathCrates "local" .default input))⟩

/-- The record that an append of the input to the namespace `local` writes in the given state. -/
def nextRecord (state : ProofPathDurableState) (input : ProofPathDurableInput) :
    ProofPathDurableRecord :=
  ⟨recordBodyOf linkedProofPathCrates "local" state input,
    linkedProofPathCrates.sha256Ref
      (Codec.recordBody.enc (recordBodyOf linkedProofPathCrates "local" state input))⟩

/-- The next record of a sound input applies, when its key is new. -/
theorem recordAccepted_nextRecord {state : ProofPathDurableState} {input : ProofPathDurableInput}
    (h : InputSound input)
    (hfresh : state.records[ingestionKey linkedProofPathCrates "local"
      input.logicalOperationId]? = none) :
    RecordAccepted linkedProofPathCrates "local" state (nextRecord state input) :=
  ⟨h, rfl, ⟨_, rfl, rfl⟩, hfresh⟩

/-- Records are decoded from what they are encoded to. -/
theorem decoded_map_enc (records : List ProofPathDurableRecord) :
    Decoded linkedProofPathCrates (records.map Codec.proofPathRecord.enc) records := by
  induction records with
  | nil => exact .nil
  | cons record records ih =>
      obtain ⟨bytes, hbytes, hback⟩ := lossless_linkedProofPathCrates.record record
      obtain rfl := Except.ok.inj hbytes
      exact .cons hback ih

/-- Replay accepts the first record of every sound input, whatever its bytes. -/
theorem replay_firstRecord {input : ProofPathDurableInput} (h : InputSound input) :
    Decoded linkedProofPathCrates [Codec.proofPathRecord.enc (firstRecord input)]
        [firstRecord input] ∧
      replayRecords linkedProofPathCrates "local" [Codec.proofPathRecord.enc (firstRecord input)]
        .default = .ok (ProofPathDurableState.default.advance (firstRecord input)) := by
  have hdecoded : Decoded linkedProofPathCrates [Codec.proofPathRecord.enc (firstRecord input)]
      [firstRecord input] := decoded_map_enc [firstRecord input]
  have hacc : RecordAccepted linkedProofPathCrates "local" .default (firstRecord input) :=
    recordAccepted_nextRecord h Std.ExtTreeMap.getElem?_empty
  refine ⟨hdecoded, ?_⟩
  rw [replayRecords_eq hdecoded]
  exact result_bind_eq_ok.mpr ⟨_, applyRecord_eq_ok.mpr ⟨hacc, rfl⟩, rfl⟩

/-- The log of two operations. -/
def sampleLog : List ProofPathDurableRecord :=
  let first := firstRecord (sampleEvidence "operation-1" [0x7b, 0x7d])
  [first, nextRecord (ProofPathDurableState.default.advance first)
    (sampleEvidence "operation-2" [0x5b, 0x5d])]

/-- The ingestion keys of the two operations are not the same. -/
theorem ingestionKey_sampleLog : ingestionKey linkedProofPathCrates "local" "operation-1" ≠
    ingestionKey linkedProofPathCrates "local" "operation-2" := by
  show digestText (Sha256.digest _) ≠ digestText (Sha256.digest _)
  rw [digestText_digest, digestText_digest]
  decide +kernel

/-- The sample log is replayed to the state that its two records make. -/
theorem applyRecords_sampleLog :
    applyRecords linkedProofPathCrates "local" sampleLog .default =
      .ok (sampleLog.foldl ProofPathDurableState.advance .default) := by
  have hfirst : RecordAccepted linkedProofPathCrates "local" .default
      (firstRecord (sampleEvidence "operation-1" [0x7b, 0x7d])) :=
    recordAccepted_nextRecord
      (inputSound_sampleEvidence (⟨by decide, by decide⟩ : IsIdentifier "operation-1") _)
      Std.ExtTreeMap.getElem?_empty
  have hfresh : (ProofPathDurableState.default.advance
      (firstRecord (sampleEvidence "operation-1" [0x7b, 0x7d]))).records[
        ingestionKey linkedProofPathCrates "local" "operation-2"]? = none :=
    (getElem?_advance_of_ne ingestionKey_sampleLog).trans Std.ExtTreeMap.getElem?_empty
  have hsecond := recordAccepted_nextRecord
    (inputSound_sampleEvidence (⟨by decide, by decide⟩ : IsIdentifier "operation-2") [0x5b, 0x5d])
    hfresh
  exact result_bind_eq_ok.mpr ⟨_, applyRecord_eq_ok.mpr ⟨hfirst, rfl⟩,
    result_bind_eq_ok.mpr ⟨_, applyRecord_eq_ok.mpr ⟨hsecond, rfl⟩, rfl⟩⟩

/-- A log of two proper records, which link and are written by two appends. -/
theorem replay_accepts_appended_iff_pair :
    ∃ ledger inputs, DurableLedger.open linkedProofPathCrates ∅ "local" = .ok ledger ∧
      (ledger.appendAll linkedProofPathCrates inputs).1 =
        sampleLog.map (fun record => .ok (.inserted record)) ∧
      (ledger.appendAll linkedProofPathCrates inputs).2.state =
        sampleLog.foldl ProofPathDurableState.advance .default := by
  have hdecoded := decoded_map_enc sampleLog
  have hreplay := (replayRecords_eq hdecoded _).trans applyRecords_sampleLog
  exact (replay_accepts_appended_iff lossless_linkedProofPathCrates (by decide) hdecoded
    hreplay).mpr (by simp [sampleLog, firstRecord, nextRecord, recordBodyOf, sampleEvidence])

/-- **Replay accepts a record without source bytes**, and no append inserts it. -/
theorem replay_accepts_empty_evidence :
    normalizeNamespace "local" = .ok "local" ∧
    Decoded linkedProofPathCrates
      [Codec.proofPathRecord.enc (firstRecord (sampleEvidence "operation-1" []))]
      [firstRecord (sampleEvidence "operation-1" [])] ∧
    (∃ state, replayRecords linkedProofPathCrates "local"
      [Codec.proofPathRecord.enc (firstRecord (sampleEvidence "operation-1" []))] .default =
        .ok state) ∧
    ¬ ∃ ledger inputs, DurableLedger.open linkedProofPathCrates ∅ "local" = .ok ledger ∧
      (ledger.appendAll linkedProofPathCrates inputs).1 =
        [.ok (.inserted (firstRecord (sampleEvidence "operation-1" [])))] := by
  obtain ⟨hdecoded, hreplay⟩ := replay_firstRecord
    (inputSound_sampleEvidence (⟨by decide, by decide⟩ : IsIdentifier "operation-1") [])
  refine ⟨by decide, hdecoded, ⟨_, hreplay⟩, ?_⟩
  rintro ⟨ledger, inputs, -, hinserted⟩
  have hevidence : ∀ record ∈ [firstRecord (sampleEvidence "operation-1" [])], record.HasEvidence :=
    DurableLedger.hasEvidence_of_appendAll lossless_linkedProofPathCrates hinserted
  exact (hevidence _ (List.mem_singleton_self _)).1 rfl

end LiminalDB.ProofPath
