import LiminalDB.ProofPath.Replay
import LiminalDB.Wal.Runs

/-! # Runs of the ProofPath ledger

Appends with injected failures, retries and reopenings of one namespace. `Session.Holds` is the
invariant: the log holds the records of the state, and behind them perhaps the one record whose
append failed after its whole frame was written. That record is the one whose append reported a
storage error last, so a reopening gives the state back, or the state and that record.

A retry is answered from the state. The ledger that reported the storage error does not answer:
until it is reopened it refuses every append, retries of older operations included
(`retry_on_poisoned_ledger`). -/

namespace LiminalDB.ProofPath

variable {env : ProofPathCrates}

/-- The bytes of a record decode to it. -/
theorem fromSlice_of_toVec (henv : env.Lossless) {record : ProofPathDurableRecord} {bytes : Bytes}
    (h : env.record.toVec record = .ok bytes) : env.record.fromSlice bytes = .ok record := by
  obtain ⟨bytes', hbytes', hback⟩ := henv.record record
  obtain rfl := Except.ok.inj (h.symm.trans hbytes')
  exact hback

/-! ## Histories -/

/-- One more record has to be accepted in the state reached by those before it. -/
theorem applyRecords_snoc {ns : String} {records : List ProofPathDurableRecord}
    {record : ProofPathDurableRecord} {start state : ProofPathDurableState} :
    applyRecords env ns (records ++ [record]) start = .ok state ↔
      ∃ mid, applyRecords env ns records start = .ok mid ∧ RecordAccepted env ns mid record ∧
        state = mid.advance record := by
  induction records generalizing start with
  | nil =>
      rw [show applyRecords env ns ([] ++ [record]) start =
        (applyRecord env ns record start >>= fun state => .ok state) from rfl, result_bind_eq_ok]
      constructor
      · rintro ⟨mid, hmid, hlast⟩
        obtain ⟨hacc, rfl⟩ := applyRecord_eq_ok.mp hmid
        exact ⟨start, rfl, hacc, (Except.ok.inj hlast).symm⟩
      · rintro ⟨mid, hmid, hacc, rfl⟩
        obtain rfl := Except.ok.inj hmid
        exact ⟨_, applyRecord_eq_ok.mpr ⟨hacc, rfl⟩, rfl⟩
  | cons first records ih =>
      rw [List.cons_append, applyRecords, applyRecords, result_bind_eq_ok]
      constructor
      · rintro ⟨next, hnext, hrest⟩
        obtain ⟨mid, hmid, hacc, hstate⟩ := ih.mp hrest
        exact ⟨mid, result_bind_eq_ok.mpr ⟨next, hnext, hmid⟩, hacc, hstate⟩
      · rintro ⟨mid, hmid, hacc, hstate⟩
        obtain ⟨next, hnext, hrest⟩ := result_bind_eq_ok.mp hmid
        exact ⟨next, hnext, ih.mpr ⟨mid, hrest, hacc, hstate⟩⟩

/-- A record is not displaced by a later one. -/
theorem RecordAccepted.getElem?_advance {ns key : String} {state : ProofPathDurableState}
    {record existing : ProofPathDurableRecord} (h : RecordAccepted env ns state record)
    (hkey : state.records[key]? = some existing) :
    (state.advance record).records[key]? = some existing := by
  have hne : record.body.ingestionKey ≠ key := by
    rintro rfl
    rw [h.fresh] at hkey
    cases hkey
  rw [getElem?_advance_of_ne hne, hkey]

/-- The state of a history, operation by operation. -/
structure Indexed (env : ProofPathCrates) (ns : String) (records : List ProofPathDurableRecord)
    (state : ProofPathDurableState) : Prop where
  /-- Every record is in the state, under the key of its operation. -/
  present : ∀ record ∈ records,
    state.records[ingestionKey env ns record.body.logicalOperationId]? = some record
  /-- What is in it was accepted, and is under the key of its operation. -/
  keyed : ∀ (key : String) record, state.records[key]? = some record →
    key = ingestionKey env ns record.body.logicalOperationId ∧
      ∃ earlier, RecordAccepted env ns earlier record
  /-- No operation has two records. -/
  nodup : (records.map fun record => record.body.logicalOperationId).Nodup

/-- The state that some records lead to has each of them under its key. -/
theorem indexed_of_applyRecords {ns : String} {records : List ProofPathDurableRecord}
    {state : ProofPathDurableState} (h : applyRecords env ns records .default = .ok state) :
    Indexed env ns records state := by
  induction records using List.reverseRecOn generalizing state with
  | nil =>
      obtain rfl := Except.ok.inj h
      refine ⟨by simp, fun key record hkey => ?_, by simp⟩
      rw [show ProofPathDurableState.default.records[key]? = none from
        Std.ExtTreeMap.getElem?_empty] at hkey
      cases hkey
  | append_singleton records record ih =>
      obtain ⟨mid, hmid, hacc, rfl⟩ := applyRecords_snoc.mp h
      have hindexed := ih hmid
      have hkey := hacc.ingestionKey_eq
      refine ⟨fun r hr => ?_, fun key r hr => ?_, ?_⟩
      · rcases List.mem_append.mp hr with hr | hr
        · exact hacc.getElem?_advance (hindexed.present r hr)
        · obtain rfl := List.mem_singleton.mp hr
          rw [← hkey]
          exact Std.ExtTreeMap.getElem?_insert_self
      · change (mid.records.insert record.body.ingestionKey record)[key]? = some r at hr
        rw [Std.ExtTreeMap.getElem?_insert] at hr
        split at hr
        · rename_i heq
          obtain rfl := Option.some.inj hr
          rw [← hkey, compare_eq_iff_eq.mp heq]
          exact ⟨rfl, mid, hacc⟩
        · exact hindexed.keyed key r hr
      · rw [List.map_append, List.map_singleton, List.nodup_append]
        refine ⟨hindexed.nodup, List.nodup_singleton _, fun id hid id' hid' heq => ?_⟩
        -- an operation that is already there has its key in the state
        obtain ⟨r, hr, rfl⟩ := List.mem_map.mp hid
        rw [List.mem_singleton.mp hid'] at heq
        have hpresent := hindexed.present r hr
        rw [heq, ← hkey, hacc.fresh] at hpresent
        cases hpresent

/-! ## Runs -/

/-- One step of a caller. -/
inductive Op
  /-- `append(input)`, whose write is made to fail at a stage. -/
  | append (input : ProofPathDurableInput) (failpoint : AppendFailpoint)
  /-- Close the ledger and open the namespace again. -/
  | reopen
  deriving DecidableEq, Repr

/-- A ledger and what its caller knows about failures. -/
structure Session where
  ledger : DurableLedger
  /-- The record whose append reported a storage error last. -/
  lastFailed : Option ProofPathDurableRecord := none

/-- The session after one step. Only an opening can fail to leave a ledger. -/
def Session.step (env : ProofPathCrates) : Op → Session → Except ProofPathDurableError Session
  | .append input failpoint, s =>
      let (result, ledger) := s.ledger.append env input failpoint
      .ok ⟨ledger, match result with
        | .error (.storage _) =>
            (prepareRecord env s.ledger.namespace s.ledger.state input).toOption.map Prod.fst
        | _ => s.lastFailed⟩
  | .reopen, s => do
      let ledger ← DurableLedger.open env s.ledger.store.dataDir s.ledger.namespace
      return ⟨ledger, s.lastFailed⟩

/-- The session after a list of steps. -/
def Session.run (env : ProofPathCrates) : List Op → Session → Except ProofPathDurableError Session
  | [], s => .ok s
  | op :: ops, s => do
      let s ← s.step env op
      Session.run env ops s

/-- The record that the input becomes, if it gets to the log, fits the 32-bit length of its frame. -/
def Op.Fits (env : ProofPathCrates) (ledger : DurableLedger) : Op → Prop
  | .append input _ => ∀ record bytes, ledger.Prepares env input record bytes →
      bytes.length < 2 ^ 32
  | .reopen => True

/-- Every step of the run fits, in the ledger it is made on. -/
def Session.FitsAlong (env : ProofPathCrates) : List Op → Session → Prop
  | [], _ => True
  | op :: ops, s => op.Fits env s.ledger ∧
      ∀ s', s.step env op = .ok s' → Session.FitsAlong env ops s'

/-- The log of the session holds the records of its state, and then perhaps the record of the last
failed append. -/
structure Session.Holds (env : ProofPathCrates) (ns : String) (s : Session) (img : WalImage)
    (records : List ProofPathDurableRecord) (pending : Option ProofPathDurableRecord) : Prop where
  namespace_eq : s.ledger.namespace = ns
  /-- The files are those of the log. -/
  represents : s.ledger.store.Represents env.crc32 img
  /-- Nothing was ever removed from it. -/
  first_eq : img.first = 1
  /-- The records of the log. -/
  decoded : Decoded env img.records (records ++ pending.toList)
  /-- The state is that of the records. -/
  history : applyRecords env ns records .default = .ok s.ledger.state
  /-- The record ahead of the state was accepted in it, and its append failed last. -/
  pending_eq : ∀ record ∈ pending, RecordAccepted env ns s.ledger.state record ∧
    s.lastFailed = some record
  /-- A usable ledger has nothing half done. -/
  usable : s.ledger.poisoned = false → img.tail = .clean ∧ pending = none

namespace Session.Holds

variable {ns : String} {s : Session} {img : WalImage} {records : List ProofPathDurableRecord}
  {pending : Option ProofPathDurableRecord}

/-- The history in the log. -/
theorem history_all (h : s.Holds env ns img records pending) :
    applyRecords env ns (records ++ pending.toList) .default =
      .ok (pending.elim s.ledger.state s.ledger.state.advance) := by
  cases pending with
  | none => simpa using h.history
  | some record =>
      exact applyRecords_snoc.mpr ⟨_, h.history, (h.pending_eq record rfl).1, rfl⟩

/-- **One reopening** succeeds, with the record that was ahead now in the state. -/
theorem reopen (h : s.Holds env ns img records pending) (hns : normalizeNamespace ns = .ok ns) :
    ∃ store, DurableLedger.open env s.ledger.store.dataDir ns =
        .ok ⟨ns, store, pending.elim s.ledger.state s.ledger.state.advance, false⟩ ∧
      Session.Holds env ns
        ⟨⟨ns, store, pending.elim s.ledger.state s.ledger.state.advance, false⟩, s.lastFailed⟩
        (img.tear .clean) (records ++ pending.toList) none := by
  obtain ⟨store, hopen, hstore, -⟩ :=
    h.represents.openWithRotation (show defaultSegmentSize ≠ 0 by decide)
  refine ⟨store, DurableLedger.open_eq hns hopen hstore rfl h.first_eq h.decoded h.history_all,
    rfl, hstore, h.first_eq, ?_, h.history_all, by simp, fun _ => ⟨rfl, rfl⟩⟩
  rw [Option.toList_none, List.append_nil]
  exact h.decoded

section Append

variable {input : ProofPathDurableInput} {record : ProofPathDurableRecord} {bytes : Bytes}

/-- **An append that succeeds** adds its record to the log and to the state. -/
theorem append_ok (henv : env.Lossless) (h : s.Holds env ns img records none)
    (hprep : s.ledger.Prepares env input record bytes) (hlen : bytes.length < 2 ^ 32) :
    ∃ s' img', s.step env (.append input .disabled) = .ok s' ∧
      s'.ledger.state = s.ledger.state.advance record ∧
      s'.Holds env ns img' (records ++ [record]) none := by
  obtain rfl := h.namespace_eq
  obtain ⟨-, hrep, -⟩ := h.represents.append (h.usable hprep.usable).1 hlen .disabled
  have hext := WalImage.Extends.of_append env.crc32 img s.ledger.store.writer.rotation bytes
    .disabled
  have hdecoded : Decoded env img.records records := by simpa using h.decoded
  let next : DurableLedger :=
    { s.ledger with
      store := (s.ledger.store.append env.crc32 bytes .disabled).2
      state := s.ledger.state.advance record }
  refine ⟨⟨next, s.lastFailed⟩, _, ?_, rfl, rfl, hrep, ?_, ?_, ?_, by simp, fun _ => ⟨?_, rfl⟩⟩
  · rw [Session.step, hprep.append_disabled]
  · rw [hext.first_eq, h.first_eq]
  · rw [hext.records_eq, Option.toList_none, List.append_nil]
    exact List.rel_append hdecoded (.cons (fromSlice_of_toVec henv hprep.encoded) .nil)
  · exact applyRecords_snoc.mpr ⟨_, h.history, hprep.accepted, rfl⟩
  · simp [WalImage.append, WalImage.push, (h.usable hprep.usable).1]

/-- **An append that fails** leaves the state and poisons the ledger; the log has the record exactly
when the failure came after its whole frame. -/
theorem append_failed (henv : env.Lossless) (h : s.Holds env ns img records none)
    (hprep : s.ledger.Prepares env input record bytes) (hlen : bytes.length < 2 ^ 32)
    {failpoint : AppendFailpoint} (hfail : failpoint ≠ .disabled) :
    ∃ s' img', s.step env (.append input failpoint) = .ok s' ∧ s'.ledger.poisoned = true ∧
      s'.ledger.state = s.ledger.state ∧
      s'.Holds env ns img' records (if failpoint.completes then some record else none) := by
  obtain rfl := h.namespace_eq
  obtain ⟨hres, hrep, -⟩ := h.represents.append (h.usable hprep.usable).1 hlen failpoint
  have hext := WalImage.Extends.of_append env.crc32 img s.ledger.store.writer.rotation bytes
    failpoint
  have hdecoded : Decoded env img.records records := by simpa using h.decoded
  -- the log reports the injected failure, and the caller remembers whose append it was
  let next : DurableLedger :=
    { s.ledger with
      store := (s.ledger.store.append env.crc32 bytes failpoint).2, poisoned := true }
  have happend : s.ledger.append env input failpoint =
      (.error (.storage (.injected failpoint)), next) := by
    obtain ⟨store, hstore⟩ : ∃ store, s.ledger.store.append env.crc32 bytes failpoint =
        (.error (.injected failpoint), store) := ⟨_, Prod.ext (hres.trans (if_neg hfail)) rfl⟩
    rw [DurableLedger.append_of_prepares hprep, show next = { s.ledger with
      store := (s.ledger.store.append env.crc32 bytes failpoint).2, poisoned := true } from rfl,
      hstore]
  have hprepared := prepareRecord_eq_ok.mpr
    ⟨hprep.input_eq, hprep.accepted, rfl, hprep.encoded⟩
  refine ⟨⟨next, some record⟩, _, ?_, rfl, rfl, rfl, hrep, ?_, ?_, h.history, ?_,
    fun hp => absurd hp (by simp [next])⟩
  · rw [Session.step, happend]
    simp only [hprepared, Except.toOption, Option.map_some]
  · rw [hext.first_eq, h.first_eq]
  · rw [hext.records_eq]
    refine List.rel_append hdecoded ?_
    have hback := fromSlice_of_toVec henv hprep.encoded
    -- a frame is stored exactly when the record is ahead
    cases failpoint with
    | disabled => exact absurd rfl hfail
    | beforeWrite => exact .nil
    | afterLengthWrite => exact .nil
    | afterPayloadWrite => exact .nil
    | afterWriteBeforeSync => exact .cons hback .nil
    | afterSyncBeforeAck => exact .cons hback .nil
  · intro r hr
    split at hr
    · obtain rfl := Option.some.inj hr
      exact ⟨hprep.accepted, rfl⟩
    · cases hr

end Append

/-- What a run keeps of an earlier state: the records in it. -/
def Keeps (earlier later : ProofPathDurableState) : Prop :=
  ∀ (key : String) record, earlier.records[key]? = some record →
    later.records[key]? = some record

/-- **One step** succeeds and keeps the invariant and the records. -/
theorem step (henv : env.Lossless) (hns : normalizeNamespace ns = .ok ns)
    (h : s.Holds env ns img records pending) {op : Op} (hfits : op.Fits env s.ledger) :
    ∃ s' img' records' pending', s.step env op = .ok s' ∧ s'.Holds env ns img' records' pending' ∧
      Keeps s.ledger.state s'.ledger.state := by
  cases op with
  | append input failpoint =>
      rcases s.ledger.append_cases henv input failpoint with
        ⟨result, hresult, -, hstorage⟩ | ⟨record, bytes, hprep⟩
      · -- The input is answered or turned down without a write.
        refine ⟨s, img, records, pending, ?_, h, fun _ _ hr => hr⟩
        rw [Session.step, hresult]
        dsimp only
        split
        · exact absurd rfl (hstorage _)
        · rfl
      · have hlen := hfits record bytes hprep
        obtain rfl := (h.usable hprep.usable).2
        by_cases hfail : failpoint = .disabled
        · subst hfail
          obtain ⟨s', img', hstep, hstate, hnext⟩ := h.append_ok henv hprep hlen
          refine ⟨s', img', _, _, hstep, hnext, fun key r hr => ?_⟩
          rw [hstate]
          exact hprep.accepted.getElem?_advance hr
        · obtain ⟨s', img', hstep, -, hstate, hnext⟩ := h.append_failed henv hprep hlen hfail
          refine ⟨s', img', _, _, hstep, hnext, fun key r hr => ?_⟩
          rwa [hstate]
  | reopen =>
      obtain ⟨store, hopen, hnext⟩ := h.reopen hns
      refine ⟨_, _, _, _, ?_, hnext, fun key r hr => ?_⟩
      · rw [Session.step, h.namespace_eq, hopen]
        rfl
      · -- A record that was still pending is taken in by the open.
        cases pending with
        | none => exact hr
        | some record => exact (h.pending_eq record rfl).1.getElem?_advance hr

/-- **Every run** succeeds and keeps the invariant and the records. -/
theorem run (henv : env.Lossless) (hns : normalizeNamespace ns = .ok ns)
    (h : s.Holds env ns img records pending) {ops : List Op} (hfits : s.FitsAlong env ops) :
    ∃ s' img' records' pending', s.run env ops = .ok s' ∧ s'.Holds env ns img' records' pending' ∧
      Keeps s.ledger.state s'.ledger.state := by
  induction ops generalizing s img records pending with
  | nil => exact ⟨s, img, records, pending, rfl, h, fun _ _ hr => hr⟩
  | cons op ops ih =>
      obtain ⟨s', img', records', pending', hstep, hnext, hkeeps⟩ := h.step henv hns hfits.1
      obtain ⟨s'', img'', records'', pending'', hrun, hlast, hkeeps'⟩ :=
        ih hnext (hfits.2 s' hstep)
      exact ⟨s'', img'', records'', pending'', result_bind_eq_ok.mpr ⟨s', hstep, hrun⟩, hlast,
        fun key r hr => hkeeps' key r (hkeeps key r hr)⟩

end Session.Holds

/-- A new namespace. -/
theorem holds_fresh (env : ProofPathCrates) {ns : String} (hns : normalizeNamespace ns = .ok ns) :
    ∃ fresh, DurableLedger.open env ∅ ns = .ok fresh ∧
      Session.Holds env ns ⟨fresh, none⟩ WalImage.empty [] none := by
  obtain ⟨store, hrep, hopen⟩ := DurableLedger.open_empty env hns
  exact ⟨_, hopen, rfl, hrep, rfl, .nil, rfl, by simp, fun _ => ⟨rfl, rfl⟩⟩

/-- The steps of a run in two parts. -/
theorem Session.fitsAlong_append {s : Session} {before after : List Op}
    (h : s.FitsAlong env (before ++ after)) :
    s.FitsAlong env before ∧ ∀ s', s.run env before = .ok s' → s'.FitsAlong env after := by
  induction before generalizing s with
  | nil =>
      refine ⟨trivial, fun s' hrun => ?_⟩
      obtain rfl := Except.ok.inj hrun
      exact h
  | cons op ops ih =>
      refine ⟨⟨h.1, fun s' hstep => (ih (h.2 s' hstep)).1⟩, fun s' hrun => ?_⟩
      obtain ⟨mid, hstep, hrest⟩ := result_bind_eq_ok.mp hrun
      exact (ih (h.2 mid hstep)).2 s' hrest

/-! ## Exactly once -/

/-- The input says what the record says, apart from the time of the transaction and the reference of
its admission. -/
def SameEvidence (record : ProofPathDurableRecord) (input : ProofPathDurableInput) : Prop :=
  record.body.sourceEventBytes = input.sourceEventBytes ∧
    record.body.admissionReportBytes = input.admissionReportBytes ∧
    record.body.sourceReceiptRef = input.sourceReceiptRef ∧
    record.body.validTimeMs = input.validTimeMs

/-- The digests that `equivalent_semantic_input` compares as well are those of the bytes. -/
theorem equivalentSemanticInput_iff {ns : String} {state : ProofPathDurableState}
    {record : ProofPathDurableRecord} {input : ProofPathDurableInput}
    (h : RecordAccepted env ns state record)
    (hid : record.body.logicalOperationId = input.logicalOperationId) :
    equivalentSemanticInput env record input = true ↔ SameEvidence record input := by
  have hsource : record.body.sourceEventSha256 = env.sha256Ref record.body.sourceEventBytes :=
    congrArg ProofPathDurableRecordBody.sourceEventSha256 h.body
  have hreport : record.body.admissionReportSha256 =
      env.sha256Ref record.body.admissionReportBytes :=
    congrArg ProofPathDurableRecordBody.admissionReportSha256 h.body
  unfold equivalentSemanticInput SameEvidence
  simp only [Bool.and_eq_true, beq_iff_eq]
  constructor
  · rintro ⟨⟨⟨⟨⟨⟨-, hs⟩, hr⟩, href⟩, hv⟩, -⟩, -⟩
    exact ⟨hs, hr, href, hv⟩
  · rintro ⟨hs, hr, href, hv⟩
    exact ⟨⟨⟨⟨⟨⟨hid, hs⟩, hr⟩, href⟩, hv⟩, hs ▸ hsource⟩, hr ▸ hreport⟩

/-- How a ledger answers every further append for the operation of a record. -/
structure AnswersFrom (env : ProofPathCrates) (ledger : DurableLedger)
    (record : ProofPathDurableRecord) (input : ProofPathDurableInput)
    (failpoint : AppendFailpoint) : Prop where
  /-- Neither the state nor the log changes. -/
  unchanged : (ledger.append env input failpoint).2 = ledger
  poisoned : ledger.poisoned = true →
    (ledger.append env input failpoint).1 = .error .poisonedAfterStorageFailure
  invalid : ledger.poisoned = false → ∀ e, normalizeInput input = .error e →
    (ledger.append env input failpoint).1 = .error e
  same : ledger.poisoned = false → InputAccepted input → SameEvidence record input →
    (ledger.append env input failpoint).1 = .ok (.alreadyPresent record)
  different : ledger.poisoned = false → InputAccepted input → ¬ SameEvidence record input →
    (ledger.append env input failpoint).1 = .error .idempotencyConflict

/-- A record that is there answers a retry of its operation with what was stored, and another operation under
its key with a conflict. -/
theorem answersFrom_of_present {ns : String} {ledger : DurableLedger}
    {records : List ProofPathDurableRecord} (hindexed : Indexed env ns records ledger.state)
    (hns : ledger.namespace = ns) {key : String} {record : ProofPathDurableRecord}
    (hrecord : ledger.state.records[key]? = some record) {input : ProofPathDurableInput}
    (hid : input.logicalOperationId = record.body.logicalOperationId) (failpoint : AppendFailpoint) :
    AnswersFrom env ledger record input failpoint := by
  obtain ⟨rfl, earlier, hacc⟩ := hindexed.keyed key record hrecord
  have hkey : ledger.state.records[ingestionKey env ledger.namespace
      input.logicalOperationId]? = some record := by
    rw [hns, hid]
    exact hrecord
  have hequiv := equivalentSemanticInput_iff hacc hid.symm
  refine ⟨?_, fun hp => ?_, fun hp e he => ?_, fun hp hin hsame => ?_, fun hp hin hne => ?_⟩
  · cases hp : ledger.poisoned with
    | true => rw [DurableLedger.append_of_poisoned hp]
    | false =>
        cases hin : normalizeInput input with
        | error e => rw [DurableLedger.append_of_invalid hp hin]
        | ok normal => rw [DurableLedger.append_of_present hp (normalizeInput_eq_ok.mp hin).1 hkey]
  · rw [DurableLedger.append_of_poisoned hp]
  · rw [DurableLedger.append_of_invalid hp he]
  · rw [DurableLedger.append_of_present hp hin hkey, if_pos (hequiv.mpr hsame)]
  · rw [DurableLedger.append_of_present hp hin hkey, if_neg (fun h => hne (hequiv.mp h))]

/-- **Exactly-once ingestion.** Take any run of one namespace from a new root, in two parts, of
appends that may fail at any stage and of reopenings, with records that fit their frames. Every
reopening succeeds. At the end of the run the log holds no two records of one operation, and opening
it gives the state, or the state and the one record whose append failed in the storage last. Every
record that was in the state between the two parts answers each further append for its operation,
unless the ledger is poisoned, and then the append is refused; in no case does anything change. -/
theorem proofpath_exactly_once (henv : env.Lossless) {ns : String}
    (hns : normalizeNamespace ns = .ok ns) (before after : List Op) :
    ∃ fresh, DurableLedger.open env ∅ ns = .ok fresh ∧
      (Session.FitsAlong env (before ++ after) ⟨fresh, none⟩ →
        ∃ mid last, Session.run env before ⟨fresh, none⟩ = .ok mid ∧ mid.run env after = .ok last ∧
          (∃ bytes stop records, last.ledger.store.streamFrom env.crc32 Offset.start =
              .ok (bytes, stop) ∧ Decoded env bytes records ∧
            (records.map fun record => record.body.logicalOperationId).Nodup) ∧
          (∃ reopened, DurableLedger.open env last.ledger.store.dataDir ns = .ok reopened ∧
            (reopened.state = last.ledger.state ∨ ∃ record, last.lastFailed = some record ∧
              reopened.state = last.ledger.state.advance record)) ∧
          ∀ (key : String) record, mid.ledger.state.records[key]? = some record →
            ∀ input failpoint, input.logicalOperationId = record.body.logicalOperationId →
              AnswersFrom env last.ledger record input failpoint) := by
  obtain ⟨fresh, hopen, hfresh⟩ := holds_fresh env hns
  refine ⟨fresh, hopen, fun hfits => ?_⟩
  obtain ⟨hbefore, hafter⟩ := Session.fitsAlong_append hfits
  obtain ⟨mid, midImg, midRecords, midPending, hmidRun, hmid, -⟩ := hfresh.run henv hns hbefore
  obtain ⟨last, img, records, pending, hrun, hlast, hkeeps⟩ :=
    hmid.run henv hns (hafter mid hmidRun)
  refine ⟨mid, last, hmidRun, hrun, ?_, ?_, fun key record hrecord input failpoint hid => ?_⟩
  · have hstream := hlast.represents.streamFrom_eq
      (WalImage.locates_start env.crc32 img hlast.first_eq)
    exact ⟨_, _, _, hstream, hlast.decoded, (indexed_of_applyRecords hlast.history_all).nodup⟩
  · obtain ⟨store, hreopen, -⟩ := hlast.reopen hns
    refine ⟨_, hreopen, ?_⟩
    cases pending with
    | none => exact .inl rfl
    | some record => exact .inr ⟨record, (hlast.pending_eq record rfl).2, rfl⟩
  · exact answersFrom_of_present (indexed_of_applyRecords hlast.history) hlast.namespace_eq
      (hkeeps key record hrecord) hid failpoint

/-! ## Runs on a new namespace -/

/-- Evidence of one operation. -/
def operationOne : ProofPathDurableInput := sampleEvidence "operation-1" [0x7b, 0x7d]

/-- Evidence of another. -/
def operationTwo : ProofPathDurableInput := sampleEvidence "operation-2" [0x7b, 0x7d]

/-- The first sample operation passes the checks of an input. -/
theorem inputAccepted_operationOne : InputAccepted operationOne :=
  ⟨inputSound_sampleEvidence ⟨by decide, by decide⟩ _, by decide, by decide⟩

/-- So does the second. -/
theorem inputAccepted_operationTwo : InputAccepted operationTwo :=
  ⟨inputSound_sampleEvidence ⟨by decide, by decide⟩ _, by decide, by decide⟩

/-- The two operations have different keys. -/
theorem ingestionKey_operations :
    ingestionKey linkedProofPathCrates "local" operationOne.logicalOperationId ≠
      ingestionKey linkedProofPathCrates "local" operationTwo.logicalOperationId := fun h =>
  Sha256.digest_ne (by decide +kernel) (digestText_injective h)

/-- What goes to the log first in a new namespace. -/
theorem eq_firstRecord {store : Store} {input : ProofPathDurableInput}
    {record : ProofPathDurableRecord} {bytes : Bytes}
    (h : DurableLedger.Prepares linkedProofPathCrates ⟨"local", store, .default, false⟩ input record
      bytes) : record = firstRecord input ∧ bytes = Codec.proofPathRecord.enc (firstRecord input) := by
  obtain ⟨body, recordHash⟩ := record
  obtain ⟨bodyBytes, hbodyBytes, rfl⟩ := h.accepted.recordHash
  have hbody : body = recordBodyOf linkedProofPathCrates "local" .default input := by
    rw [← h.input_eq]
    exact h.accepted.body
  subst hbody
  have hrecord : (⟨recordBodyOf linkedProofPathCrates "local" .default input,
      linkedProofPathCrates.sha256Ref bodyBytes⟩ : ProofPathDurableRecord) = firstRecord input := by
    rw [firstRecord, ← Except.ok.inj hbodyBytes]
  refine ⟨hrecord, ?_⟩
  rw [← hrecord]
  exact (Except.ok.inj h.encoded).symm

section NewNamespace

variable {input : ProofPathDurableInput}

/-- The first operation recorded in a new namespace. -/
theorem run_first (hinput : InputAccepted input) (store : Store) :
    ∃ store', Session.run linkedProofPathCrates [.append input .disabled]
        ⟨⟨"local", store, .default, false⟩, none⟩ =
      .ok ⟨⟨"local", store', ProofPathDurableState.default.advance (firstRecord input), false⟩,
        none⟩ := by
  obtain ⟨record, bytes, hprep⟩ := DurableLedger.exists_prepares lossless_linkedProofPathCrates
    (rfl : (⟨"local", store, .default, false⟩ : DurableLedger).poisoned = false) hinput
    Std.ExtTreeMap.getElem?_empty
  obtain ⟨rfl, rfl⟩ := eq_firstRecord hprep
  refine ⟨(store.append linkedProofPathCrates.crc32
    (Codec.proofPathRecord.enc (firstRecord input)) .disabled).2, ?_⟩
  rw [Session.run, Session.step, hprep.append_disabled]
  rfl

/-- Its record is in the state. -/
theorem getElem?_first :
    (ProofPathDurableState.default.advance (firstRecord input)).records[
      (firstRecord input).body.ingestionKey]? = some (firstRecord input) :=
  Std.ExtTreeMap.getElem?_insert_self

/-- Another operation is not. -/
theorem getElem?_first_ne {id : String}
    (hne : ingestionKey linkedProofPathCrates "local" input.logicalOperationId ≠
      ingestionKey linkedProofPathCrates "local" id) :
    (ProofPathDurableState.default.advance (firstRecord input)).records[
      ingestionKey linkedProofPathCrates "local" id]? = none := by
  have hinsert : (ProofPathDurableState.default.advance (firstRecord input)).records =
      (∅ : Std.ExtTreeMap String ProofPathDurableRecord compare).insert
        (ingestionKey linkedProofPathCrates "local" input.logicalOperationId) (firstRecord input) :=
    rfl
  rw [hinsert, Std.ExtTreeMap.getElem?_insert, if_neg (by simpa using hne),
    Std.ExtTreeMap.getElem?_empty]

/-- When the append of another operation fails behind its sync, the ledger is poisoned. -/
theorem run_second {other : ProofPathDurableInput} (hother : InputAccepted other)
    (hne : ingestionKey linkedProofPathCrates "local" input.logicalOperationId ≠
      ingestionKey linkedProofPathCrates "local" other.logicalOperationId) (store : Store) :
    ∃ last, Session.run linkedProofPathCrates [.append other .afterSyncBeforeAck]
        ⟨⟨"local", store, ProofPathDurableState.default.advance (firstRecord input), false⟩, none⟩ =
      .ok last ∧ last.ledger.poisoned = true := by
  obtain ⟨record, bytes, hprep⟩ := DurableLedger.exists_prepares lossless_linkedProofPathCrates
    (rfl : (⟨"local", store, ProofPathDurableState.default.advance (firstRecord input), false⟩ :
      DurableLedger).poisoned = false) hother (getElem?_first_ne hne)
  obtain ⟨store', hstore⟩ : ∃ store', store.append linkedProofPathCrates.crc32 bytes
      .afterSyncBeforeAck = (.error (.injected .afterSyncBeforeAck), store') :=
    ⟨_, Prod.ext (Store.append_injected _ store bytes (by decide)) rfl⟩
  refine ⟨⟨⟨"local", store', ProofPathDurableState.default.advance (firstRecord input), true⟩,
    (prepareRecord linkedProofPathCrates "local"
      (ProofPathDurableState.default.advance (firstRecord input)) other).toOption.map Prod.fst⟩,
    ?_, rfl⟩
  rw [Session.run, Session.step, DurableLedger.append_of_prepares hprep, hstore]
  rfl

end NewNamespace

/-- The encoding of a record is that of its body and a hash. -/
theorem length_enc_firstRecord (input : ProofPathDurableInput) :
    (Codec.proofPathRecord.enc (firstRecord input)).length =
      (Codec.recordBody.enc (recordBodyOf linkedProofPathCrates "local" .default input)).length
        + 91 := by
  have hhash : IsRef (firstRecord input).recordHash := isRef_digestText _
  have henc : Codec.proofPathRecord.enc (firstRecord input) =
      encHead 5 2 ++ ((Codec.text.enc "body" ++ Codec.recordBody.enc (firstRecord input).body) ++
        (Codec.text.enc "record_hash" ++ Codec.text.enc (firstRecord input).recordHash)) := rfl
  rw [henc]
  simp only [List.length_append, length_text_of_isRef hhash]
  rw [show (encHead 5 2).length = 1 from rfl, show (Codec.text.enc "body").length = 5 by decide,
    show (Codec.text.enc "record_hash").length = 12 by decide]
  simp only [firstRecord]
  omega

/-- Its record is short enough for a frame. -/
theorem length_enc_recordBody_operationOne :
    (Codec.recordBody.enc
      (recordBodyOf linkedProofPathCrates "local" .default operationOne)).length < 2 ^ 32 - 91 := by
  decide +kernel

/-- The record of the first operation fits its frame. -/
theorem fits_operationOne (store : Store) :
    Session.FitsAlong linkedProofPathCrates [.append operationOne .disabled]
      ⟨⟨"local", store, .default, false⟩, none⟩ := by
  refine ⟨fun record bytes hprep => ?_, fun _ _ => trivial⟩
  obtain ⟨-, rfl⟩ := eq_firstRecord hprep
  rw [length_enc_firstRecord]
  exact Nat.add_lt_of_lt_sub length_enc_recordBody_operationOne

/-- A retry of the first at another time passes the checks as well. -/
theorem inputAccepted_retry : InputAccepted { operationOne with transactionTimeMs := 9 } := by
  have h := inputAccepted_operationOne
  exact ⟨⟨h.logicalOperationId, h.sourceReceiptRef, h.storageAdmissionRef, h.validTimeMs,
    show (5 : UInt64) ≤ 9 by decide⟩, h.sourceEventBytes, h.admissionReportBytes⟩

/-- A retry with a later transaction time. -/
theorem proofpath_exactly_once_retry :
    ∃ fresh last, DurableLedger.open linkedProofPathCrates ∅ "local" = .ok fresh ∧
      Session.run linkedProofPathCrates [.append operationOne .disabled] ⟨fresh, none⟩ = .ok last ∧
      (last.ledger.append linkedProofPathCrates { operationOne with transactionTimeMs := 9 }
        .disabled).1 = .ok (.alreadyPresent (firstRecord operationOne)) := by
  obtain ⟨fresh, hopen, hrun⟩ := proofpath_exactly_once lossless_linkedProofPathCrates
    (by decide : normalizeNamespace "local" = .ok "local") [.append operationOne .disabled] []
  obtain ⟨store, -, hfresh⟩ := DurableLedger.open_empty linkedProofPathCrates
    (by decide : normalizeNamespace "local" = .ok "local")
  obtain rfl := Except.ok.inj (hopen.symm.trans hfresh)
  obtain ⟨mid, last, hmid, hlast, -, -, hanswers⟩ := hrun (fits_operationOne store)
  obtain ⟨store', hfirst⟩ := run_first inputAccepted_operationOne store
  obtain rfl := Except.ok.inj (hmid.symm.trans hfirst)
  obtain rfl := Except.ok.inj hlast
  have hanswer := hanswers _ _ getElem?_first { operationOne with transactionTimeMs := 9 } .disabled
    rfl
  exact ⟨_, _, hopen, hmid, hanswer.same rfl inputAccepted_retry ⟨rfl, rfl, rfl, rfl⟩⟩

/-- **A retry on a poisoned ledger.** One operation is recorded; the append of another fails behind
its sync; and now the first, appended again with the same evidence, is not answered. -/
theorem retry_on_poisoned_ledger :
    ∃ fresh mid last, DurableLedger.open linkedProofPathCrates ∅ "local" = .ok fresh ∧
      Session.run linkedProofPathCrates [.append operationOne .disabled] ⟨fresh, none⟩ = .ok mid ∧
      (∃ key : String, mid.ledger.state.records[key]? = some (firstRecord operationOne)) ∧
      mid.run linkedProofPathCrates [.append operationTwo .afterSyncBeforeAck] = .ok last ∧
      (last.ledger.append linkedProofPathCrates operationOne .disabled).1 =
        .error .poisonedAfterStorageFailure := by
  obtain ⟨store, -, hopen⟩ := DurableLedger.open_empty linkedProofPathCrates
    (by decide : normalizeNamespace "local" = .ok "local")
  obtain ⟨store', hfirst⟩ := run_first inputAccepted_operationOne store
  obtain ⟨last, hsecond, hpoisoned⟩ :=
    run_second inputAccepted_operationTwo ingestionKey_operations store'
  refine ⟨_, _, last, hopen, hfirst, ⟨_, getElem?_first⟩, hsecond, ?_⟩
  rw [DurableLedger.append_of_poisoned hpoisoned]

end LiminalDB.ProofPath
