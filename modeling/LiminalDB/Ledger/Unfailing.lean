import LiminalDB.Ledger.Recovery
import LiminalDB.Wal.Gc
import LiminalDB.Wal.Misread

/-! # Runs that nothing fails, of events of any size

`recovery_equals_live_state` is about events that fit their frames. This file drops that condition. An
event that does not fit is recorded like any other, and the ledger goes on; but from then on the root
does not open, because the beginning of the event is not the encoding of an event (`Live.reopen`). So
in every run that goes through, the state is that of the acknowledged events and the log only grows. -/

namespace LiminalDB

variable {env : Crates}

/-- The event that a step records and returns. -/
def LedgerOp.recorded (env : Crates) (ledger : Ledger) : LedgerOp → Option TransitionEvent
  | .append input failpoint => (ledger.append env input failpoint).1.toOption
  | _ => none

/-- The events that a list of steps records, up to an opening that fails. -/
def Ledger.recordedAlong (env : Crates) : List LedgerOp → Ledger → List TransitionEvent
  | [], _ => []
  | op :: ops, ledger =>
      (op.recorded env ledger).toList ++
        match ledger.step env op with
        | .ok ledger' => Ledger.recordedAlong env ops ledger'
        | .error _ => []

/-- The ledger takes appends and its state is that of the events. Its log can be replayed, or a record
in it is misread as something that is not an event. -/
structure Live (env : Crates) (ledger : Ledger) (events : List TransitionEvent) : Prop where
  /-- No append failed. -/
  usable : ledger.poisoned = false
  /-- The events of the state. -/
  history : History env events ledger.state
  /-- The log. -/
  log : (∃ img, Recovers env ledger img events none) ∨
    ∃ bytes, (∃ message, env.event.fromSlice bytes = .error message) ∧
      ledger.store.Misreads env.crc32 bytes

/-- Every append moves the end of the log, whatever the log holds. -/
theorem Store.endOffset_lt_append (crc32 : Bytes → UInt32) (store : Store) (bytes : Bytes) :
    store.endOffset < (store.append crc32 bytes .disabled).2.endOffset := by
  unfold Store.append
  rw [WalWriter.append_run]
  simp only [reduceCtorEq, if_false, or_self]
  rw [Offset.lt_iff]
  simp only [Store.endOffset, WalWriter.written]
  split
  · exact .inl (Nat.lt_succ_self _)
  · refine .inr ⟨rfl, ?_⟩
    simp only [recordSize]
    omega

/-- The log has grown, by more than nothing if events were recorded. -/
def Ledger.Grows (ledger ledger' : Ledger) (added : List TransitionEvent) : Prop :=
  ledger.store.endOffset ≤ ledger'.store.endOffset ∧
    (added ≠ [] → ledger.store.endOffset < ledger'.store.endOffset)

/-- A ledger whose log ends where it did has grown by nothing. -/
theorem Ledger.Grows.of_eq {ledger ledger' : Ledger}
    (h : ledger'.store.endOffset = ledger.store.endOffset) : ledger.Grows ledger' [] :=
  ⟨h.ge, fun hne => absurd rfl hne⟩

/-- Growing goes on from one ledger to the next. -/
theorem Ledger.Grows.trans {ledger₁ ledger₂ ledger₃ : Ledger} {added added' : List TransitionEvent}
    (h : ledger₁.Grows ledger₂ added) (h' : ledger₂.Grows ledger₃ added') :
    ledger₁.Grows ledger₃ (added ++ added') := by
  refine ⟨le_trans h.1 h'.1, fun hne => ?_⟩
  by_cases hadded : added = []
  · rw [hadded, List.nil_append] at hne
    exact lt_of_le_of_lt h.1 (h'.2 hne)
  · exact lt_of_lt_of_le (h.2 hadded) h'.1

/-- A record that is not an event stops the replay, if nothing before it does. -/
theorem replayRecords_isError {records : List Bytes} {bytes : Bytes} (hmem : bytes ∈ records)
    (hbad : ∃ message, env.event.fromSlice bytes = .error message) (state : LedgerState) :
    ∃ e, replayRecords env records state = .error e := by
  induction records generalizing state with
  | nil => cases hmem
  | cons first records ih =>
      rw [replayRecords]
      rcases List.mem_cons.mp hmem with rfl | hmem
      · obtain ⟨message, hmessage⟩ := hbad
        exact ⟨.encoding message, by rw [hmessage]; rfl⟩
      · cases env.event.fromSlice first with
        | error message => exact ⟨.encoding message, rfl⟩
        | ok event =>
            simp only [Except.mapError, bind, Except.bind]
            cases applyEvent env event state with
            | error e t => exact ⟨e, rfl⟩
            | ok u state' => exact ih hmem state'

/-- A root whose log is misread does not open. -/
theorem Store.Misreads.not_openWithRotation {ledger opened : Ledger} {bytes : Bytes}
    (h : ledger.store.Misreads env.crc32 bytes)
    (hbad : ∃ message, env.event.fromSlice bytes = .error message) {rotation : UInt64} :
    Ledger.openWithRotation env ledger.root rotation ≠ .ok opened := by
  intro hopen
  obtain ⟨store, full, hstore, -, hfull, -⟩ := Ledger.openWithRotation_eq_ok.mp hopen
  obtain ⟨records, stop, hstream, hrecords⟩ := h.openWithRotation hstore
  unfold replayFrom at hfull
  rw [hstream] at hfull
  obtain ⟨read, hread, hfull⟩ := result_bind_eq_ok.mp hfull
  obtain rfl := Except.ok.inj hread
  obtain ⟨state, hstate, hstop⟩ := result_bind_eq_ok.mp hfull
  rcases hrecords with hmem | hsome
  · obtain ⟨e, he⟩ := replayRecords_isError hmem hbad .default
    exact absurd (he.symm.trans hstate) nofun
  · obtain ⟨e, rfl⟩ := Option.isSome_iff_exists.mp hsome
    cases hstop

namespace Live

variable {ledger : Ledger} {events : List TransitionEvent}

/-- **An append** that is accepted, of an event of any size. -/
theorem append (hcut : env.event.RejectsTruncated) (h : Live env ledger events)
    {input : TransitionEventInput} {event : TransitionEvent} {candidate : LedgerState} {bytes : Bytes}
    (hprep : prepareEvent env input ledger.state = .ok (event, candidate))
    (hbytes : env.event.toVec event = .ok bytes) :
    ∃ ledger', ledger.append env input .disabled = (.ok event, ledger') ∧
      Live env ledger' (events ++ [event]) ∧ ledger.store.endOffset < ledger'.store.endOffset := by
  obtain ⟨-, hacc, hcandidate⟩ := prepareEvent_eq_ok.mp hprep
  have hhistory : History env (events ++ [event]) candidate :=
    History.snoc_iff.mpr ⟨_, h.history, hacc, hcandidate⟩
  obtain ⟨offset, hoffset⟩ := Store.append_disabled_isOk env.crc32 ledger.store bytes
  have happend := Ledger.append_of_stored h.usable hprep hbytes hoffset
  refine ⟨_, happend, ⟨h.usable, hhistory, ?_⟩, ledger.store.endOffset_lt_append env.crc32 bytes⟩
  rcases h.log with ⟨img, himg⟩ | ⟨beginning, hbad, hmisreads⟩
  · by_cases hlen : bytes.length < 2 ^ 32
    · obtain ⟨ledger', happend', -, -, hnext⟩ := himg.append_ok h.usable hprep hbytes hlen
      obtain ⟨-, rfl⟩ := Prod.mk.inj (happend.symm.trans happend')
      exact .inl ⟨_, hnext⟩
    · -- what the prefix keeps of the length is less than the length
      refine .inr ⟨bytes.take (bytes.length % 2 ^ 32), ?_, himg.represents.misreads_append
        himg.first_eq (himg.usable h.usable).1 (Nat.le_of_not_lt hlen)⟩
      refine hcut hbytes (List.take_prefix _ _) fun heq => ?_
      have hlength := congrArg List.length heq
      rw [List.length_take] at hlength
      omega
  · exact .inr ⟨beginning, hbad, hmisreads.append bytes⟩

/-- **A reopening** that succeeds gives back the state and the end of the log. -/
theorem reopen (henv : env.Lossless) (h : Live env ledger events) {rotation : UInt64}
    {opened : Ledger} (hopen : Ledger.openWithRotation env ledger.root rotation = .ok opened) :
    Live env opened events ∧ opened.store.endOffset = ledger.store.endOffset := by
  rcases h.log with ⟨img, himg⟩ | ⟨beginning, hbad, hmisreads⟩
  · have hrotation : rotation ≠ 0 := by
      rintro rfl
      cases hopen
    have hnext := himg.reopen henv hrotation hopen
    rw [Option.toList_none, List.append_nil] at hnext
    obtain ⟨store, full, -, -, -, rfl⟩ := Ledger.openWithRotation_eq_ok.mp hopen
    refine ⟨⟨rfl, hnext.history, .inl ⟨_, hnext⟩⟩, ?_⟩
    rw [hnext.represents.endOffset_eq, himg.represents.endOffset_eq]
    rfl
  · exact absurd hopen (hmisreads.not_openWithRotation hbad)

/-- A snapshot changes nothing but its file. -/
theorem withSnapshot (h : Live env ledger events) {bytes : Bytes}
    (hver : Verifies env bytes ledger.state ledger.store.endOffset) :
    Live env { ledger with snap := { file := some bytes } } events := by
  refine ⟨h.usable, h.history, ?_⟩
  rcases h.log with ⟨img, himg⟩ | hmisreads
  · exact .inl ⟨img, himg.withSnapshot hver⟩
  · exact .inr hmisreads

/-- **One step without failures.** -/
theorem step (henv : env.Lossless) (hcut : env.event.RejectsTruncated) (h : Live env ledger events)
    {op : LedgerOp} (hop : op.Unfailing) {ledger' : Ledger}
    (hstep : ledger.step env op = .ok ledger') :
    Live env ledger' (events ++ (op.recorded env ledger).toList) ∧
      ledger.Grows ledger' (op.recorded env ledger).toList := by
  -- What records nothing leaves the end of the log where it is.
  have unrecorded : op.recorded env ledger = none → Live env ledger' events →
      ledger'.store.endOffset = ledger.store.endOffset →
      Live env ledger' (events ++ (op.recorded env ledger).toList) ∧
        ledger.Grows ledger' (op.recorded env ledger).toList := by
    intro hnone hlive hend
    rw [hnone, Option.toList_none, List.append_nil]
    exact ⟨hlive, .of_eq hend⟩
  have snapshot : op.isSnapshot = true → Live env ledger' events ∧
      ledger'.store.endOffset = ledger.store.endOffset := by
    intro hsnapshot
    obtain ⟨bytes, hsnap, hver⟩ := ledger.step_of_isSnapshot henv hsnapshot
    obtain rfl := Except.ok.inj (hsnap.symm.trans hstep)
    exact ⟨h.withSnapshot hver, rfl⟩
  cases op with
  | append input failpoint =>
      obtain rfl : failpoint = .disabled := hop
      rcases ledger.append_cases input .disabled with
        ⟨e, he⟩ | ⟨-, event, candidate, bytes, hprep, hbytes⟩
      · rw [Ledger.step, he] at hstep
        obtain rfl := Except.ok.inj hstep
        refine unrecorded ?_ h rfl
        rw [LedgerOp.recorded, he]
        rfl
      · obtain ⟨next, happend, hlive, hend⟩ := h.append hcut hprep hbytes
        rw [Ledger.step, happend] at hstep
        obtain rfl := Except.ok.inj hstep
        rw [LedgerOp.recorded, happend]
        exact ⟨hlive, hend.le, fun _ => hend⟩
  | writeSnapshot createdAtMs => exact unrecorded rfl (snapshot rfl).1 (snapshot rfl).2
  | writeSnapshotCrashSafe createdAtMs => exact unrecorded rfl (snapshot rfl).1 (snapshot rfl).2
  | reopen rotation =>
      obtain ⟨hlive, hend⟩ := h.reopen henv hstep
      exact unrecorded rfl hlive hend

/-- **Every run without failures** that goes through. -/
theorem run (henv : env.Lossless) (hcut : env.event.RejectsTruncated) {ops : List LedgerOp}
    (hops : ∀ op ∈ ops, op.Unfailing) (h : Live env ledger events) {last : Ledger}
    (hrun : ledger.run env ops = .ok last) :
    Live env last (events ++ ledger.recordedAlong env ops) ∧
      ledger.Grows last (ledger.recordedAlong env ops) := by
  induction ops generalizing ledger events with
  | nil =>
      obtain rfl := Except.ok.inj hrun
      rw [Ledger.recordedAlong, List.append_nil]
      exact ⟨h, .of_eq rfl⟩
  | cons op ops ih =>
      obtain ⟨ledger', hstep, hrest⟩ := result_bind_eq_ok.mp hrun
      obtain ⟨hnext, hgrows⟩ := h.step henv hcut (hops op List.mem_cons_self) hstep
      obtain ⟨hlast, hgrows'⟩ := ih (fun op hop => hops op (List.mem_cons_of_mem _ hop)) hnext hrest
      have halong : ledger.recordedAlong env (op :: ops) =
          (op.recorded env ledger).toList ++ ledger'.recordedAlong env ops := by
        rw [Ledger.recordedAlong, hstep]
      rw [halong, ← List.append_assoc]
      exact ⟨hlast, hgrows.trans hgrows'⟩

end Live

/-- A new ledger. -/
theorem recovers_of_open_empty (henv : env.Lossless) {rotation : UInt64} {fresh : Ledger}
    (hopen : Ledger.openWithRotation env Root.empty rotation = .ok fresh) :
    fresh.poisoned = false ∧ ∃ img, Recovers env fresh img [] none := by
  have hrotation : rotation ≠ 0 := by
    rintro rfl
    cases hopen
  obtain ⟨fresh', hopen', hp, hfresh⟩ := recovers_fresh henv hrotation
  obtain rfl := Except.ok.inj (hopen'.symm.trans hopen)
  exact ⟨hp, _, hfresh⟩

/-- A ledger that was opened in an empty directory is live, with no events. -/
theorem live_fresh (henv : env.Lossless) {rotation : UInt64} {fresh : Ledger}
    (hopen : Ledger.openWithRotation env Root.empty rotation = .ok fresh) : Live env fresh [] := by
  obtain ⟨hp, img, hfresh⟩ := recovers_of_open_empty henv hopen
  exact ⟨hp, hfresh.history, .inl ⟨img, hfresh⟩⟩

end LiminalDB
