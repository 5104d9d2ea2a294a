import LiminalDB.Ledger.Ledger
import LiminalDB.Wal.Runs

/-! # Recovery

Runs of a ledger: appends with injected failures, snapshots and reopenings. `Recovers` is the
invariant that ties the log, the snapshot and the state together. The log may be one complete frame
ahead of the state, when an append failed behind its checksum, and the last snapshot was taken at the
same place of the log and of the history, or else one frame ahead. Each operation has one lemma that
says what it does to the invariant.

Without failures every reopening succeeds and gives back the state (`recovery_equals_live_state`), as
long as every event fits the 32-bit length prefix of its frame. The ledger does not check that:
`recovery_fails_oversize` is a run of one append after which the root does not open. -/

namespace LiminalDB

variable {env : Crates}

/-! ## Snapshots -/

/-- The file is a snapshot that passes its checks and carries the state and the offset. -/
def Verifies (env : Crates) (bytes : Bytes) (state : LedgerState) (offset : Offset) : Prop :=
  ∃ snapshot, loadAndVerifySnapshot env bytes = .ok snapshot ∧ snapshot.body.state = state ∧
    snapshot.body.walOffset.toOffset = offset

/-- A snapshot is always taken. It carries the state and the end of the log, and it passes the checks
of `load_and_verify_snapshot` once it is decoded. -/
theorem Ledger.takeSnapshot_eq (henv : env.Lossless) (ledger : Ledger) (createdAtMs : UInt64) :
    ∃ snapshot, ledger.takeSnapshot env createdAtMs = .ok snapshot ∧
      snapshot.body.state = ledger.state ∧
      snapshot.body.walOffset.toOffset = ledger.store.endOffset ∧
      ∀ bytes, env.snapshot.fromSlice bytes = .ok snapshot →
        loadAndVerifySnapshot env bytes = .ok snapshot := by
  obtain ⟨material, hmaterial⟩ := henv.projectionDigestMaterial ledger.state
  have hdigest : projectionDigest env ledger.state = .ok (sha256Ref env material) :=
    digestCbor_eq_ok.mpr ⟨material, hmaterial, rfl⟩
  let body : TransitionLedgerSnapshotBody :=
    { schema := snapshotSchema
      profile := profile
      walOffset := .ofOffset ledger.store.endOffset
      nextSequence := ledger.state.nextSequence
      headEventHash := ledger.state.headEventHash
      projections := ledger.state.projections
      recordOwners := ledger.state.recordOwners
      projectionDigest := sha256Ref env material
      createdAtMs := createdAtMs }
  obtain ⟨bodyBytes, hbody⟩ := henv.snapshotBody body
  have hbodyDigest : digestCbor env env.snapshotBody body = .ok (sha256Ref env bodyBytes) :=
    digestCbor_eq_ok.mpr ⟨bodyBytes, hbody, rfl⟩
  -- the two digests are those that `load_and_verify_snapshot` computes again
  refine ⟨⟨body, sha256Ref env bodyBytes⟩, ?_, rfl, rfl, fun bytes hback => ?_⟩
  · unfold Ledger.takeSnapshot
    exact result_bind_eq_ok.mpr ⟨_, hdigest, result_bind_eq_ok.mpr ⟨_, hbodyDigest, rfl⟩⟩
  · unfold loadAndVerifySnapshot
    refine result_bind_eq_ok.mpr ⟨⟨body, sha256Ref env bodyBytes⟩, by rw [hback]; rfl, ?_⟩
    refine result_bind_eq_ok.mpr ⟨⟨⟩, failIf_eq_ok.mpr (by simp [body]), ?_⟩
    refine result_bind_eq_ok.mpr ⟨_, hbodyDigest, ?_⟩
    refine result_bind_eq_ok.mpr ⟨⟨⟩, failIf_eq_ok.mpr (by simp), ?_⟩
    refine result_bind_eq_ok.mpr ⟨_, hdigest, ?_⟩
    exact result_bind_eq_ok.mpr ⟨⟨⟩, failIf_eq_ok.mpr (by simp [body]), rfl⟩

/-- The bytes of a snapshot verify. -/
theorem Ledger.encodeSnapshot_eq (henv : env.Lossless) (ledger : Ledger) (createdAtMs : UInt64) :
    ∃ encoded, ledger.encodeSnapshot env createdAtMs = .ok encoded ∧
      Verifies env encoded.1 ledger.state ledger.store.endOffset := by
  obtain ⟨snapshot, htake, hstate, hoffset, hload⟩ := ledger.takeSnapshot_eq henv createdAtMs
  obtain ⟨bytes, hbytes, hback⟩ := henv.snapshot snapshot
  have hvec : (env.snapshot.toVec snapshot).mapError TransitionLedgerError.encoding = .ok bytes := by
    rw [hbytes]
    rfl
  exact ⟨(bytes, _), result_bind_eq_ok.mpr ⟨snapshot, htake, result_bind_eq_ok.mpr ⟨bytes, hvec, rfl⟩⟩,
    snapshot, hload bytes hback, hstate, hoffset⟩

/-- `write_snapshot` leaves the new snapshot in the directory and touches nothing else. -/
theorem Ledger.writeSnapshot_eq (henv : env.Lossless) (ledger : Ledger) (createdAtMs : UInt64) :
    ∃ bytes info, ledger.writeSnapshot env createdAtMs =
        (.ok info, { ledger with snap := { file := some bytes } }) ∧
      Verifies env bytes ledger.state ledger.store.endOffset := by
  obtain ⟨⟨bytes, info⟩, henc, hver⟩ := ledger.encodeSnapshot_eq henv createdAtMs
  refine ⟨bytes, info, ?_, hver⟩
  unfold Ledger.writeSnapshot
  rw [henc]
  simp

/-- So does `write_snapshot_crash_safe`, whatever the directory held. -/
theorem Ledger.writeSnapshotCrashSafe_eq (henv : env.Lossless) (ledger : Ledger)
    (createdAtMs : UInt64) :
    ∃ bytes info, ledger.writeSnapshotCrashSafe env createdAtMs =
        (.ok info, { ledger with snap := { file := some bytes } }) ∧
      Verifies env bytes ledger.state ledger.store.endOffset := by
  -- the snapshot is written from the directory with the old one moved aside
  let snap := ledger.snap.recoverInterruptedSnapshotReplace
  let aside := if snap.file.isSome then { snap with file := none, rollback := snap.file } else snap
  obtain ⟨bytes, info, hwrite, hver⟩ :=
    Ledger.writeSnapshot_eq henv { ledger with snap := aside } createdAtMs
  refine ⟨bytes, info, ?_, hver⟩
  unfold Ledger.writeSnapshotCrashSafe
  simp only [aside, snap] at hwrite
  simp only [hwrite]
  rfl

/-! ## Runs of a ledger -/

/-- One step of a caller of the ledger. -/
inductive LedgerOp
  /-- `append(input)`, whose write is made to fail at a stage. -/
  | append (input : TransitionEventInput) (failpoint : AppendFailpoint)
  /-- `write_snapshot` -/
  | writeSnapshot (createdAtMs : UInt64)
  /-- `write_snapshot_crash_safe` -/
  | writeSnapshotCrashSafe (createdAtMs : UInt64)
  /-- Close the ledger and open its root again, with the given rotation size of the log. -/
  | reopen (rotation : UInt64)
  deriving DecidableEq, Repr

/-- The ledger after one step. Only an opening can fail to leave a ledger. -/
def Ledger.step (env : Crates) : LedgerOp → Ledger → Except TransitionLedgerError Ledger
  | .append input failpoint, ledger => .ok (ledger.append env input failpoint).2
  | .writeSnapshot createdAtMs, ledger => .ok (ledger.writeSnapshot env createdAtMs).2
  | .writeSnapshotCrashSafe createdAtMs, ledger =>
      .ok (ledger.writeSnapshotCrashSafe env createdAtMs).2
  | .reopen rotation, ledger => Ledger.openWithRotation env ledger.root rotation

/-- The ledger after a list of steps. -/
def Ledger.run (env : Crates) : List LedgerOp → Ledger → Except TransitionLedgerError Ledger
  | [], ledger => .ok ledger
  | op :: ops, ledger => do
      let ledger' ← ledger.step env op
      Ledger.run env ops ledger'

/-- The event that the input becomes, if the ledger accepts it, has an encoding whose length fits the
32-bit prefix of a frame; a rotation size is positive. -/
def LedgerOp.Fits (env : Crates) (ledger : Ledger) : LedgerOp → Prop
  | .append input _ => ledger.poisoned = false → ∀ event candidate bytes,
      prepareEvent env input ledger.state = .ok (event, candidate) →
      env.event.toVec event = .ok bytes → bytes.length < 2 ^ 32
  | .reopen rotation => rotation ≠ 0
  | _ => True

/-- Every step of the run fits, in the ledger it is made on. -/
def Ledger.FitsAlong (env : Crates) : List LedgerOp → Ledger → Prop
  | [], _ => True
  | op :: ops, ledger => op.Fits env ledger ∧
      ∀ ledger', ledger.step env op = .ok ledger' → Ledger.FitsAlong env ops ledger'

/-- Whether the log is ahead of the state after a step, by the event of a failed append: the append
gets to the log and fails there behind its complete frame. Reopening brings the two together. -/
def LedgerOp.ahead (env : Crates) (ledger : Ledger) (before : Bool) : LedgerOp → Bool
  | .append input failpoint =>
      before || (!ledger.poisoned && (ledger.append env input failpoint).2.poisoned
        && failpoint.completes)
  | .reopen _ => false
  | _ => before

/-- The same after a list of steps. -/
def Ledger.aheadAlong (env : Crates) : List LedgerOp → Ledger → Bool → Bool
  | [], _, before => before
  | op :: ops, ledger, before =>
      match ledger.step env op with
      | .ok ledger' => Ledger.aheadAlong env ops ledger' (op.ahead env ledger before)
      | .error _ => before

/-- The step takes a snapshot. -/
def LedgerOp.isSnapshot : LedgerOp → Bool
  | .writeSnapshot _ => true
  | .writeSnapshotCrashSafe _ => true
  | _ => false

/-- Either way to take a snapshot leaves the new one in the directory and touches nothing else. -/
theorem Ledger.step_of_isSnapshot (henv : env.Lossless) (ledger : Ledger) {op : LedgerOp}
    (hop : op.isSnapshot = true) :
    ∃ bytes, ledger.step env op = .ok { ledger with snap := { file := some bytes } } ∧
      Verifies env bytes ledger.state ledger.store.endOffset := by
  cases op with
  | append input failpoint => cases hop
  | reopen rotation => cases hop
  | writeSnapshot createdAtMs =>
      obtain ⟨bytes, info, hwrite, hver⟩ := ledger.writeSnapshot_eq henv createdAtMs
      refine ⟨bytes, ?_, hver⟩
      rw [Ledger.step, hwrite]
  | writeSnapshotCrashSafe createdAtMs =>
      obtain ⟨bytes, info, hwrite, hver⟩ := ledger.writeSnapshotCrashSafe_eq henv createdAtMs
      refine ⟨bytes, ?_, hver⟩
      rw [Ledger.step, hwrite]

/-! ## The invariant -/

/-- The snapshot holds the state after `taken` events, and its offset is behind `located` records. -/
def SnapshotAt (env : Crates) (img : WalImage) (events : List TransitionEvent) (bytes : Bytes)
    (taken located : Nat) : Prop :=
  ∃ mid offset, Verifies env bytes mid offset ∧ History env (events.take taken) mid ∧
    taken ≤ events.length ∧ img.Locates env.crc32 offset located

/-- A snapshot of the ledger stays where it is when the log grows and the history with it. -/
theorem SnapshotAt.mono {img img' : WalImage} {events : List TransitionEvent} {bytes : Bytes}
    {taken located : Nat} (h : SnapshotAt env img events bytes taken located)
    (hloc : ∀ {offset k}, img.Locates env.crc32 offset k → img'.Locates env.crc32 offset k)
    (more : List TransitionEvent) : SnapshotAt env img' (events ++ more) bytes taken located := by
  obtain ⟨mid, offset, hver, hmid, htaken, hlocated⟩ := h
  refine ⟨mid, offset, hver, ?_, ?_, hloc hlocated⟩
  · rw [List.take_append_of_le_length htaken]
    exact hmid
  · rw [List.length_append]
    exact Nat.le_add_right_of_le htaken

/-- The log of the ledger holds the events of its state, and then perhaps the event of a failed append
whose frame is complete. -/
structure Recovers (env : Crates) (ledger : Ledger) (img : WalImage) (events : List TransitionEvent)
    (pending : Option TransitionEvent) : Prop where
  /-- The files are those of the log. -/
  represents : ledger.store.Represents env.crc32 img
  /-- Nothing was ever removed from it. -/
  first_eq : img.first = 1
  /-- The records of the log. -/
  encoded : Encoded env (events ++ pending.toList) img.records
  /-- The state is that of the events. -/
  history : History env events ledger.state
  /-- The event ahead of the state was accepted in it. -/
  accepted : ∀ e ∈ pending, Accepted env ledger.state e
  /-- A usable ledger has nothing half done. -/
  usable : ledger.poisoned = false → img.tail = .clean ∧ pending = none
  /-- The snapshot is at one place of the log and of the history, or ahead in the log by the event
  of the failed append. -/
  snapshot : ∀ bytes ∈ ledger.snap.file, (∃ taken, SnapshotAt env img events bytes taken taken) ∨
    pending.isSome ∧ SnapshotAt env img events bytes events.length (events.length + 1)

/-- The state with the event that is ahead of it, if there is one. -/
def LedgerState.withPending (s : LedgerState) : Option TransitionEvent → LedgerState
  | none => s
  | some e => s.advance e

namespace Recovers

variable {ledger : Ledger} {img : WalImage} {events : List TransitionEvent}
  {pending : Option TransitionEvent}

/-- The history in the log. -/
theorem history_all (h : Recovers env ledger img events pending) :
    History env (events ++ pending.toList) (ledger.state.withPending pending) := by
  cases pending with
  | none =>
      rw [Option.toList_none, List.append_nil]
      exact h.history
  | some e => exact History.snoc_iff.mpr ⟨_, h.history, h.accepted e rfl, rfl⟩

/-! ### Reopening -/

/-- A snapshot that is at one place of the log and of the history leads to the whole history. -/
theorem replay_of_synced (henv : env.Lossless) (h : Recovers env ledger img events pending)
    {store : Store} (hstore : store.Represents env.crc32 (img.tear .clean)) {bytes : Bytes}
    {taken : Nat} (hsnap : SnapshotAt env img events bytes taken taken)
    (hfile : ledger.snap.file = some bytes) :
    snapshotRecovered env store ledger.snap = .ok (ledger.state.withPending pending) := by
  obtain ⟨mid, offset, ⟨snapshot, hload, rfl, rfl⟩, hmid, htaken, hloc⟩ := hsnap
  obtain ⟨mid', hmid', hrest⟩ := h.history_all.take taken
  -- the prefix of the log that the snapshot covers is a prefix of the history
  rw [List.take_append_of_le_length htaken] at hmid'
  have hsame : snapshot.body.state = mid' := Except.ok.inj (hmid.symm.trans hmid')
  have hreplay := hstore.replayFrom_eq henv rfl (hloc.tear .clean)
    (List.forall₂_drop taken h.encoded) snapshot.body.state
  unfold snapshotRecovered
  rw [hfile]
  refine result_bind_eq_ok.mpr ⟨snapshot, hload, ?_⟩
  rw [hreplay, hsame]
  exact hrest

/-- A snapshot that is ahead in the log misses the event it is ahead by. -/
theorem replay_of_ahead (henv : env.Lossless) (h : Recovers env ledger img events pending)
    {store : Store} (hstore : store.Represents env.crc32 (img.tear .clean)) {bytes : Bytes}
    (hsnap : SnapshotAt env img events bytes events.length (events.length + 1))
    (hfile : ledger.snap.file = some bytes) :
    snapshotRecovered env store ledger.snap = .ok ledger.state := by
  obtain ⟨mid, offset, ⟨snapshot, hload, rfl, rfl⟩, hmid, -, hloc⟩ := hsnap
  rw [List.take_length] at hmid
  have hsame : snapshot.body.state = ledger.state := Except.ok.inj (hmid.symm.trans h.history)
  -- there is nothing behind the offset
  have hlen : (events ++ pending.toList).length ≤ events.length + 1 := by
    cases pending <;> simp
  have hreplay := hstore.replayFrom_eq henv rfl (hloc.tear .clean)
    (List.forall₂_drop (events.length + 1) h.encoded) snapshot.body.state
  rw [List.drop_of_length_le hlen] at hreplay
  unfold snapshotRecovered
  rw [hfile]
  refine result_bind_eq_ok.mpr ⟨snapshot, hload, ?_⟩
  rw [hreplay, hsame]
  rfl

/-- The log opens, and its full replay is the whole history. -/
theorem full_replay (henv : env.Lossless) (h : Recovers env ledger img events pending)
    {rotation : UInt64} (hrotation : rotation ≠ 0) :
    ∃ store, Store.openWithRotation env.crc32 ledger.store.dataDir rotation = .ok store ∧
      store.Represents env.crc32 (img.tear .clean) ∧
      replayFrom env store Offset.start .default = .ok (ledger.state.withPending pending) := by
  obtain ⟨store, hopen, hstore, -⟩ := h.represents.openWithRotation hrotation
  refine ⟨store, hopen, hstore, ?_⟩
  have hstart := (WalImage.locates_start env.crc32 img h.first_eq).tear .clean
  rw [hstore.replayFrom_eq henv rfl hstart h.encoded]
  exact h.history_all

/-- **Reopening with a good snapshot, or none.** -/
theorem reopen_of_synced (henv : env.Lossless) (h : Recovers env ledger img events pending)
    (hsynced : ∀ bytes ∈ ledger.snap.file, ∃ taken, SnapshotAt env img events bytes taken taken)
    {rotation : UInt64} (hrotation : rotation ≠ 0) :
    ∃ store, Ledger.openWithRotation env ledger.root rotation =
        .ok ⟨store, ledger.snap, ledger.state.withPending pending, false⟩ ∧
      store.Represents env.crc32 (img.tear .clean) ∧
      snapshotRecovered env store ledger.snap = .ok (ledger.state.withPending pending) ∧
      replayFrom env store Offset.start .default = .ok (ledger.state.withPending pending) := by
  obtain ⟨store, hopen, hstore, hfull⟩ := h.full_replay henv hrotation
  -- without a snapshot both replays start at the same place
  have hrecovered : snapshotRecovered env store ledger.snap =
      .ok (ledger.state.withPending pending) := by
    cases hfile : ledger.snap.file with
    | none =>
        unfold snapshotRecovered
        rw [hfile]
        exact hfull
    | some bytes =>
        obtain ⟨taken, hsnap⟩ := hsynced bytes hfile
        exact h.replay_of_synced henv hstore hsnap hfile
  have hopened := Ledger.openWithRotation_eq ledger.root hopen hrecovered hfull
  rw [if_pos rfl] at hopened
  exact ⟨store, hopened, hstore, hrecovered, hfull⟩

/-- **Reopening with a snapshot that is ahead.** The two replays differ by the event. -/
theorem reopen_of_ahead (henv : env.Lossless) {e : TransitionEvent}
    (h : Recovers env ledger img events (some e)) {bytes : Bytes}
    (hsnap : SnapshotAt env img events bytes events.length (events.length + 1))
    (hfile : ledger.snap.file = some bytes) {rotation : UInt64} (hrotation : rotation ≠ 0) :
    Ledger.openWithRotation env ledger.root rotation = .error .replayProjectionMismatch := by
  obtain ⟨store, hopen, hstore, hfull⟩ := h.full_replay henv hrotation
  have hrecovered := h.replay_of_ahead henv hstore hsnap hfile
  have hopened := Ledger.openWithRotation_eq ledger.root hopen hrecovered hfull
  rw [hopened, if_neg]
  intro heq
  -- the sequence number tells them apart
  have hseq := congrArg LedgerState.nextSequence heq
  exact absurd hseq (Nat.ne_of_lt (Nat.lt_succ_self _))

/-- **One reopening.** If the root opens, the event that was ahead is now part of the state. -/
theorem reopen (henv : env.Lossless) (h : Recovers env ledger img events pending)
    {rotation : UInt64} (hrotation : rotation ≠ 0) {ledger' : Ledger}
    (hopen : Ledger.openWithRotation env ledger.root rotation = .ok ledger') :
    Recovers env ledger' (img.tear .clean) (events ++ pending.toList) none := by
  -- a snapshot that is ahead would have kept the root from opening
  have hsynced : ∀ bytes ∈ ledger.snap.file,
      ∃ taken, SnapshotAt env img events bytes taken taken := by
    intro bytes hbytes
    rcases h.snapshot bytes hbytes with hsynced | ⟨hpending, hahead⟩
    · exact hsynced
    · obtain ⟨e, rfl⟩ := Option.isSome_iff_exists.mp hpending
      have hfails := h.reopen_of_ahead henv hahead hbytes hrotation
      exact absurd (hfails.symm.trans hopen) (by simp)
  obtain ⟨store, hopened, hstore, -⟩ := h.reopen_of_synced henv hsynced hrotation
  obtain rfl := Except.ok.inj (hopened.symm.trans hopen)
  refine ⟨hstore, h.first_eq, ?_, h.history_all, by simp, fun _ => ⟨rfl, rfl⟩, ?_⟩
  · rw [Option.toList_none, List.append_nil]
    exact h.encoded
  · intro bytes hbytes
    obtain ⟨taken, hsnap⟩ := hsynced bytes hbytes
    exact .inl ⟨taken, hsnap.mono (fun hloc => hloc.tear .clean) pending.toList⟩

/-! ### Snapshots -/

/-- Where a snapshot is that is taken now. -/
theorem snapshotAt_now (h : Recovers env ledger img events pending) {bytes : Bytes}
    (hver : Verifies env bytes ledger.state ledger.store.endOffset) :
    SnapshotAt env img events bytes events.length (events.length + pending.toList.length) := by
  have hloc := WalImage.locates_endOffset env.crc32 img
  rw [← h.represents.endOffset_eq, ← h.encoded.length_eq, List.length_append] at hloc
  refine ⟨ledger.state, ledger.store.endOffset, hver, ?_, le_rfl, hloc⟩
  rw [List.take_length]
  exact h.history

/-- A new snapshot is ahead exactly when an event is. -/
theorem withSnapshot (h : Recovers env ledger img events pending) {bytes : Bytes}
    (hver : Verifies env bytes ledger.state ledger.store.endOffset) :
    Recovers env { ledger with snap := { file := some bytes } } img events pending := by
  refine ⟨h.represents, h.first_eq, h.encoded, h.history, h.accepted, h.usable, ?_⟩
  rintro _ ⟨⟩
  have hnow := h.snapshotAt_now hver
  cases pending with
  | none => exact .inl ⟨events.length, hnow⟩
  | some e => exact .inr ⟨rfl, hnow⟩

/-! ### Appending -/

end Recovers

/-- The event that a failed append leaves in the log ahead of the state. -/
def AppendFailpoint.ahead (failpoint : AppendFailpoint) (event : TransitionEvent) :
    Option TransitionEvent :=
  if failpoint.completes then some event else none

namespace Recovers

variable {ledger : Ledger} {img : WalImage} {events : List TransitionEvent}
  {pending : Option TransitionEvent}

/-- On a usable ledger the snapshot is not ahead. -/
theorem synced (h : Recovers env ledger img events none) :
    ∀ bytes ∈ ledger.snap.file, ∃ taken, SnapshotAt env img events bytes taken taken := by
  intro bytes hbytes
  rcases h.snapshot bytes hbytes with hsynced | ⟨hpending, -⟩
  · exact hsynced
  · cases hpending

section Append

variable {input : TransitionEventInput} {event : TransitionEvent} {candidate : LedgerState}
  {bytes : Bytes}

/-- **An append that succeeds** adds its event to the log and to the state. -/
theorem append_ok (h : Recovers env ledger img events none) (hp : ledger.poisoned = false)
    (hprep : prepareEvent env input ledger.state = .ok (event, candidate))
    (hbytes : env.event.toVec event = .ok bytes) (hlen : bytes.length < 2 ^ 32) :
    ∃ ledger', ledger.append env input .disabled = (.ok event, ledger') ∧
      ledger'.poisoned = false ∧ ledger'.state = candidate ∧
      Recovers env ledger' (img.append env.crc32 ledger.store.writer.rotation bytes .disabled)
        (events ++ [event]) none := by
  obtain ⟨-, hacc, rfl⟩ := prepareEvent_eq_ok.mp hprep
  obtain ⟨hres, hrep, -⟩ := h.represents.append (h.usable hp).1 hlen .disabled
  have hext := WalImage.Extends.of_append env.crc32 img ledger.store.writer.rotation bytes .disabled
  have henc : Encoded env events img.records := by simpa using h.encoded
  refine ⟨_, Ledger.append_of_stored hp hprep hbytes (hres.trans (if_pos rfl)), hp, rfl, hrep, ?_, ?_,
    ?_, by simp, fun _ => ⟨?_, rfl⟩, ?_⟩
  · rw [hext.first_eq, h.first_eq]
  · rw [hext.records_eq, Option.toList_none, List.append_nil]
    exact List.rel_append henc (.cons hbytes .nil)
  · exact History.snoc_iff.mpr ⟨_, h.history, hacc, rfl⟩
  · simp [WalImage.append, WalImage.push, (h.usable hp).1]
  · intro file hfile
    obtain ⟨taken, hsnap⟩ := h.synced file hfile
    exact .inl ⟨taken, hsnap.mono hext.locates [event]⟩

/-- **An append that fails** leaves the state and poisons the ledger; the log has the event exactly
when the failure came after its whole frame. -/
theorem append_failed (h : Recovers env ledger img events none) (hp : ledger.poisoned = false)
    (hprep : prepareEvent env input ledger.state = .ok (event, candidate))
    (hbytes : env.event.toVec event = .ok bytes) (hlen : bytes.length < 2 ^ 32)
    {failpoint : AppendFailpoint} (hfail : failpoint ≠ .disabled) :
    ∃ store img', img' = img.append env.crc32 ledger.store.writer.rotation bytes failpoint ∧
      ledger.append env input failpoint = (.error (.storage (.injected failpoint)),
        { ledger with store, poisoned := true }) ∧
      Recovers env { ledger with store, poisoned := true } img' events (failpoint.ahead event) ∧
      ∀ file ∈ ledger.snap.file, ∃ taken, SnapshotAt env img' events file taken taken := by
  obtain ⟨-, hacc, rfl⟩ := prepareEvent_eq_ok.mp hprep
  obtain ⟨hres, hrep, -⟩ := h.represents.append (h.usable hp).1 hlen failpoint
  have hext := WalImage.Extends.of_append env.crc32 img ledger.store.writer.rotation bytes failpoint
  have henc : Encoded env events img.records := by simpa using h.encoded
  have hsynced : ∀ file ∈ ledger.snap.file, ∃ taken, SnapshotAt env
      (img.append env.crc32 ledger.store.writer.rotation bytes failpoint) events file taken taken := by
    intro file hfile
    obtain ⟨taken, hsnap⟩ := h.synced file hfile
    have hkept := hsnap.mono hext.locates []
    rw [List.append_nil] at hkept
    exact ⟨taken, hkept⟩
  refine ⟨_, _, rfl, Ledger.append_of_not_stored hp hprep hbytes (hres.trans (if_neg hfail)),
    ⟨hrep, ?_, ?_, h.history, ?_, nofun, fun file hfile => .inl (hsynced file hfile)⟩, hsynced⟩
  · rw [hext.first_eq, h.first_eq]
  · rw [hext.records_eq]
    refine List.rel_append henc ?_
    -- a frame is stored exactly when the event is ahead
    cases failpoint with
    | disabled => exact absurd rfl hfail
    | beforeWrite => exact .nil
    | afterLengthWrite => exact .nil
    | afterPayloadWrite => exact .nil
    | afterWriteBeforeSync => exact .cons hbytes .nil
    | afterSyncBeforeAck => exact .cons hbytes .nil
  · intro e he
    unfold AppendFailpoint.ahead at he
    split at he
    · cases he
      exact hacc
    · cases he

end Append

/-! ### Steps and runs -/

/-- A failed append is ahead of the ledger exactly if its frame was completed. -/
theorem isSome_ahead (failpoint : AppendFailpoint) (event : TransitionEvent) :
    (failpoint.ahead event).isSome = failpoint.completes := by
  unfold AppendFailpoint.ahead
  cases failpoint.completes <;> rfl

/-- **One step.** Every step that fits keeps the invariant and everything that is in the log, and the
log is ahead of the state exactly when the step says so. -/
theorem step (henv : env.Lossless) (h : Recovers env ledger img events pending) {op : LedgerOp}
    (hfits : op.Fits env ledger) {ledger' : Ledger} (hstep : ledger.step env op = .ok ledger') :
    ∃ img' events' pending' added, Recovers env ledger' img' events' pending' ∧
      img.Extends env.crc32 img' added ∧ pending'.isSome = op.ahead env ledger pending.isSome := by
  -- A snapshot writes nothing to the log.
  have snapshot : op.isSnapshot = true → op.ahead env ledger pending.isSome = pending.isSome →
      ∃ img' events' pending' added, Recovers env ledger' img' events' pending' ∧
        img.Extends env.crc32 img' added ∧
        pending'.isSome = op.ahead env ledger pending.isSome := by
    intro hop hahead
    obtain ⟨bytes, hsnap, hver⟩ := ledger.step_of_isSnapshot henv hop
    obtain rfl := Except.ok.inj (hsnap.symm.trans hstep)
    exact ⟨img, events, pending, [], h.withSnapshot hver, .refl img, hahead.symm⟩
  cases op with
  | append input failpoint =>
      obtain rfl := Except.ok.inj hstep
      -- The input is turned down before the log, or it gets there.
      rcases ledger.append_cases input failpoint with
        ⟨e, he⟩ | ⟨hp, event, candidate, bytes, hprep, hbytes⟩
      · refine ⟨img, events, pending, [], ?_, .refl img, ?_⟩
        · rw [he]
          exact h
        · simp [LedgerOp.ahead, he]
      · -- the input gets to the log, so the ledger is usable and its log has no torn tail
        have hlen := hfits hp event candidate bytes hprep hbytes
        obtain rfl := (h.usable hp).2
        have hext := WalImage.Extends.of_append env.crc32 img ledger.store.writer.rotation bytes
          failpoint
        by_cases hfail : failpoint = .disabled
        · subst hfail
          obtain ⟨ledger', happend, hp', -, hnext⟩ := h.append_ok hp hprep hbytes hlen
          refine ⟨_, events ++ [event], none, _, ?_, hext, ?_⟩
          · rw [happend]
            exact hnext
          · simp [LedgerOp.ahead, happend, hp']
        · obtain ⟨store, img', rfl, happend, hnext, -⟩ :=
            h.append_failed hp hprep hbytes hlen hfail
          refine ⟨_, events, failpoint.ahead event, _, ?_, hext, ?_⟩
          · rw [happend]
            exact hnext
          · simp [LedgerOp.ahead, happend, hp, isSome_ahead]
  | writeSnapshot createdAtMs => exact snapshot rfl rfl
  | writeSnapshotCrashSafe createdAtMs => exact snapshot rfl rfl
  | reopen rotation =>
      exact ⟨_, _, _, [], h.reopen henv hfits hstep, .of_tear env.crc32 img .clean, rfl⟩

/-- **Every run.** -/
theorem run (henv : env.Lossless) {ops : List LedgerOp} (h : Recovers env ledger img events pending)
    (hfits : ledger.FitsAlong env ops) {last : Ledger} (hrun : ledger.run env ops = .ok last) :
    ∃ img' events' pending' added, Recovers env last img' events' pending' ∧
      img.Extends env.crc32 img' added ∧
      pending'.isSome = ledger.aheadAlong env ops pending.isSome := by
  induction ops generalizing ledger img events pending with
  | nil =>
      obtain rfl := Except.ok.inj hrun
      exact ⟨img, events, pending, [], h, .refl img, rfl⟩
  | cons op ops ih =>
      obtain ⟨ledger', hstep, hrest⟩ := result_bind_eq_ok.mp hrun
      obtain ⟨img', events', pending', added, hnext, hext, hahead⟩ := h.step henv hfits.1 hstep
      obtain ⟨img'', events'', pending'', added', hlast, hext', hahead'⟩ :=
        ih hnext (hfits.2 ledger' hstep) hrest
      refine ⟨img'', events'', pending'', _, hlast, hext.trans hext', ?_⟩
      rw [hahead', Ledger.aheadAlong, hstep, hahead]

end Recovers

/-- A new ledger. -/
theorem recovers_fresh (henv : env.Lossless) {rotation : UInt64} (hrotation : rotation ≠ 0) :
    ∃ fresh, Ledger.openWithRotation env Root.empty rotation = .ok fresh ∧
      fresh.poisoned = false ∧ Recovers env fresh WalImage.empty [] none := by
  obtain ⟨store, hstore, -, hopen⟩ := Ledger.openWithRotation_empty henv hrotation
  refine ⟨_, hopen, rfl, hstore, rfl, .nil, .nil, by simp, fun _ => ⟨rfl, rfl⟩, ?_⟩
  intro bytes hbytes
  cases hbytes

/-! ## Runs without failures -/

/-- The step is not made to fail. -/
def LedgerOp.Unfailing : LedgerOp → Prop
  | .append _ failpoint => failpoint = .disabled
  | _ => True

namespace Recovers

variable {ledger : Ledger} {img : WalImage} {events : List TransitionEvent}

/-- **One step without failures** goes through, and the ledger stays usable. -/
theorem step_unfailing (henv : env.Lossless) (h : Recovers env ledger img events none)
    (hp : ledger.poisoned = false) {op : LedgerOp} (hfits : op.Fits env ledger)
    (hop : op.Unfailing) :
    ∃ ledger' img' events', ledger.step env op = .ok ledger' ∧ ledger'.poisoned = false ∧
      Recovers env ledger' img' events' none := by
  have snapshot : op.isSnapshot = true → ∃ ledger' img' events',
      ledger.step env op = .ok ledger' ∧ ledger'.poisoned = false ∧
        Recovers env ledger' img' events' none := by
    intro hop
    obtain ⟨bytes, hsnap, hver⟩ := ledger.step_of_isSnapshot henv hop
    exact ⟨_, img, events, hsnap, hp, h.withSnapshot hver⟩
  cases op with
  | append input failpoint =>
      obtain rfl : failpoint = .disabled := hop
      rcases ledger.append_cases input .disabled with
        ⟨e, he⟩ | ⟨-, event, candidate, bytes, hprep, hbytes⟩
      · refine ⟨ledger, img, events, ?_, hp, h⟩
        rw [Ledger.step, he]
      · have hlen := hfits hp event candidate bytes hprep hbytes
        obtain ⟨ledger', happend, hp', -, hnext⟩ := h.append_ok hp hprep hbytes hlen
        refine ⟨ledger', _, _, ?_, hp', hnext⟩
        rw [Ledger.step, happend]
  | writeSnapshot createdAtMs => exact snapshot rfl
  | writeSnapshotCrashSafe createdAtMs => exact snapshot rfl
  | reopen rotation =>
      obtain ⟨store, hopen, -⟩ := h.reopen_of_synced henv h.synced hfits
      exact ⟨_, _, _, hopen, rfl, h.reopen henv hfits hopen⟩

/-- **Every run without failures** goes through. -/
theorem run_unfailing (henv : env.Lossless) {ops : List LedgerOp}
    (hops : ∀ op ∈ ops, op.Unfailing) (h : Recovers env ledger img events none)
    (hp : ledger.poisoned = false) (hfits : ledger.FitsAlong env ops) :
    ∃ last img' events', ledger.run env ops = .ok last ∧ last.poisoned = false ∧
      Recovers env last img' events' none := by
  induction ops generalizing ledger img events with
  | nil => exact ⟨ledger, img, events, rfl, hp, h⟩
  | cons op ops ih =>
      obtain ⟨ledger', img', events', hstep, hp', hnext⟩ :=
        h.step_unfailing henv hp hfits.1 (hops op List.mem_cons_self)
      obtain ⟨last, img'', events'', hrun, hplast, hlast⟩ :=
        ih (fun op hop => hops op (List.mem_cons_of_mem _ hop)) hnext hp' (hfits.2 ledger' hstep)
      exact ⟨last, img'', events'', result_bind_eq_ok.mpr ⟨ledger', hstep, hrun⟩, hplast, hlast⟩

end Recovers

/-- **Recovery equals live state.** A run on a new root, of accepted and rejected appends, snapshots
and reopenings with any rotation sizes, in which every event fits its frame, goes through; and
wherever it is stopped, opening the root succeeds with the state the ledger had, by the replay from
the snapshot as well as by the full replay. -/
theorem recovery_equals_live_state (henv : env.Lossless) {rotation : UInt64}
    (hrotation : rotation ≠ 0) {ops : List LedgerOp} (hops : ∀ op ∈ ops, op.Unfailing) :
    ∃ fresh, Ledger.openWithRotation env Root.empty rotation = .ok fresh ∧
      (fresh.FitsAlong env ops → ∃ last, fresh.run env ops = .ok last ∧
        ∀ rotation' : UInt64, rotation' ≠ 0 →
          ∃ reopened, Ledger.openWithRotation env last.root rotation' = .ok reopened ∧
            reopened.state = last.state ∧
            snapshotRecovered env reopened.store last.snap = .ok last.state ∧
            replayFrom env reopened.store Offset.start .default = .ok last.state) := by
  obtain ⟨fresh, hopen, hp, hfresh⟩ := recovers_fresh henv hrotation
  refine ⟨fresh, hopen, fun hfits => ?_⟩
  obtain ⟨last, img, events, hrun, -, hlast⟩ := hfresh.run_unfailing henv hops hp hfits
  refine ⟨last, hrun, fun rotation' hrotation' => ?_⟩
  obtain ⟨store, hreopen, -, hrecovered, hfull⟩ :=
    hlast.reopen_of_synced henv hlast.synced hrotation'
  exact ⟨_, hreopen, rfl, hrecovered, hfull⟩

/-! ### The size of an opening -/

/-- The encoding of the event of an opening on a new ledger has 623 bytes besides the identifier. -/
theorem length_enc_openingOf (tid : String) {hash : String} (hhash : IsRef hash) :
    (Codec.event.enc ⟨nextBody .default (openingOf tid), hash⟩).length =
      623 + (Codec.text.enc tid).length := by
  have hfixed : (Codec.text.enc eventSchema).length + (Codec.text.enc profile).length
      + (Codec.uint.enc 1).length + (Codec.text.enc "agent:deploy").length
      + (Codec.transitionRecordKind.enc .authorization).length + (Codec.links.enc {}).length
      + (Codec.dimensionsOpt.enc none).length + (Codec.flag.enc none).length
      + (Codec.u64.enc 1).length + (Codec.ref.enc none).length = 232 := by
    decide +kernel
  have hrecord : (Codec.text.enc (sampleRef 0xa1)).length = 73 :=
    length_text_of_isRef (isRef_digestText _)
  have hpayload : (Codec.text.enc (sampleRef 0xd0)).length = 73 :=
    length_text_of_isRef (isRef_digestText _)
  have hlast := length_text_of_isRef hhash
  rw [Codec.length_event]
  simp only [nextBody, openingOf, openingInput, LedgerState.default]
  omega

/-- What the write path makes of an opening on a new ledger. -/
theorem prepareEvent_openingOf {tid : String} (h : IsIdentifier tid) :
    ∃ event candidate, prepareEvent linkedCrates (openingOf tid) .default = .ok (event, candidate) ∧
      ∃ hash, IsRef hash ∧ event = ⟨nextBody .default (openingOf tid), hash⟩ := by
  obtain ⟨event, hinput, hacc, -⟩ := History.opening lossless_linkedCrates.eventBody h
  refine ⟨event, _, prepareEvent_eq_ok.mpr ⟨?_, hacc, rfl⟩, event.eventHash,
    isRef_of_digestCbor hacc.hash, ?_⟩
  · rw [hinput, (canonical_openingOf h).normalized_eq]
  · rw [← hinput, ← hacc.body_eq]

/-- An opening without verdicts fits its frame on every ledger that can count it. -/
theorem fits_of_opens {ledger : Ledger} {input : TransitionEventInput} (hcanonical : Canonical input)
    (hopens : Opens input) (hdimensions : input.dimensions = none)
    (hside : input.sideEffectCommitted = none) (hseq : ledger.state.nextSequence < 2 ^ 64)
    (hnames : (Codec.text.enc input.transitionId).length
      + (Codec.text.enc input.subjectId).length < 2 ^ 31) (failpoint : AppendFailpoint) :
    (LedgerOp.append input failpoint).Fits linkedCrates ledger := by
  intro hp event candidate bytes hprep hbytes
  obtain ⟨hinput, hacc, -⟩ := prepareEvent_eq_ok.mp hprep
  rw [hcanonical.normalized_eq] at hinput
  obtain rfl := Except.ok.inj hbytes
  have hfixed : (Codec.text.enc eventSchema).length + (Codec.text.enc profile).length
      + (Codec.transitionRecordKind.enc .authorization).length + (Codec.links.enc {}).length
      + (Codec.dimensionsOpt.enc none).length + (Codec.flag.enc none).length = 216 := by
    decide +kernel
  have hrecord := length_text_of_isRef hcanonical.recordRef
  have hpayload := length_text_of_isRef hcanonical.payloadDigest
  have hlast := length_text_of_isRef (isRef_of_digestCbor hacc.hash)
  have hcount := length_encHead_le hseq 0
  have htime := length_encHead_le input.capturedAtMs.toNat_lt 0
  have hprevious : (Codec.ref.enc event.body.previousEventHash).length ≤ 73 := by
    cases hprev : event.body.previousEventHash with
    | none => show 1 ≤ 73; omega
    | some head => exact (length_text_of_isRef (hacc.predecessor head hprev)).le
  rw [Codec.length_event]
  rw [hacc.body_eq, hinput] at hprevious ⊢
  simp only [nextBody, hopens.kind, hopens.links, hdimensions, hside] at hprevious ⊢
  change (Codec.u64.enc _).length ≤ 9 at htime
  change (Codec.uint.enc _).length ≤ 9 at hcount
  omega

/-- The opening of `transition-001` fits its frame on a new ledger. -/
theorem fits_openingInput {ledger : Ledger} (hstate : ledger.state = .default)
    (failpoint : AppendFailpoint) :
    (LedgerOp.append openingInput failpoint).Fits linkedCrates ledger := by
  refine fits_of_opens canonical_openingInput ⟨rfl, rfl⟩ rfl rfl ?_ ?_ failpoint
  · rw [hstate]
    decide
  · decide +kernel

/-- An opening, a snapshot and a reopening with a smaller rotation size. -/
theorem recovery_equals_live_state_opening :
    ∃ fresh last, Ledger.openWithRotation linkedCrates Root.empty 64 = .ok fresh ∧
      fresh.run linkedCrates [.append openingInput .disabled, .writeSnapshot 7, .reopen 16] =
        .ok last ∧
      ∃ reopened, Ledger.openWithRotation linkedCrates last.root 32 = .ok reopened ∧
        reopened.state = last.state ∧
        snapshotRecovered linkedCrates reopened.store last.snap = .ok last.state ∧
        replayFrom linkedCrates reopened.store Offset.start .default = .ok last.state := by
  obtain ⟨fresh, hopen, hruns⟩ := recovery_equals_live_state lossless_linkedCrates
    (by decide : (64 : UInt64) ≠ 0)
    (by simp [LedgerOp.Unfailing] :
      ∀ op ∈ [.append openingInput .disabled, .writeSnapshot 7, .reopen 16], LedgerOp.Unfailing op)
  obtain ⟨store, -, -, hopen'⟩ :=
    Ledger.openWithRotation_empty lossless_linkedCrates (by decide : (64 : UInt64) ≠ 0)
  obtain rfl := Except.ok.inj (hopen'.symm.trans hopen)
  obtain ⟨last, hrun, hreopen⟩ := hruns ⟨fits_openingInput rfl .disabled,
    fun _ _ => ⟨trivial, fun _ _ => ⟨(by decide : (16 : UInt64) ≠ 0), fun _ _ => trivial⟩⟩⟩
  exact ⟨_, last, hopen, hrun, hreopen 32 (by decide)⟩

/-! ### An event that does not fit -/

/-- An identifier of `n` letters. -/
def longId (n : Nat) : String := String.ofList (List.replicate n 'a')

/-- A long id takes one byte a letter. -/
theorem asBytes_longId (n : Nat) : asBytes (longId n) = List.replicate n 0x61 := by
  induction n with
  | zero => rfl
  | succ n ih =>
      rw [asBytes_eq, longId, String.toList_ofList] at ih ⊢
      rw [List.replicate_succ, List.flatMap_cons, ih, List.replicate_succ]
      rfl

/-- No blank at either end. -/
theorem isIdentifier_longId {n : Nat} (hn : 0 < n) : IsIdentifier (longId n) := by
  have hletter : isWhitespace 'a' = false := by decide
  constructor
  · intro hempty
    have hlen := congrArg (fun s : String => s.toList.length) hempty
    simp only [longId, String.toList_ofList, List.length_replicate] at hlen
    exact absurd hlen (Nat.ne_of_gt hn)
  · unfold trim longId
    rw [String.toList_ofList, List.dropWhile_eq_self_iff.mpr, List.rdropWhile_eq_self_iff.mpr]
    · simp [hletter]
    · simp [hletter]

/-- With an identifier of this length the event of an opening takes `2 ^ 32` bytes. -/
theorem length_enc_oversize {n : Nat} (hn : n + 628 = 2 ^ 32) {hash : String} (hhash : IsRef hash) :
    (Codec.event.enc ⟨nextBody .default (openingOf (longId n)), hash⟩).length = 2 ^ 32 := by
  have htext : (Codec.text.enc (longId n)).length = 5 + n := by
    show (encHead 3 (asBytes (longId n)).length ++ asBytes (longId n)).length = 5 + n
    rw [asBytes_longId, List.length_append, List.length_replicate, encHead, if_neg (by omega),
      if_neg (by omega), if_neg (by omega), if_pos (by omega), List.length_cons, length_toBeBytes]
  rw [length_enc_openingOf _ hhash, htext]
  omega

/-- Every encoded event starts with the head of a map of two entries and the key `body`. -/
theorem fromLeBytes_enc_event (event : TransitionEvent) :
    fromLeBytes (Codec.event.enc event) = 0x6f6264a2 := by
  have hfront : Codec.event.enc event = (encHead 5 2 ++ Codec.text.enc "body") ++
      (Codec.eventBody.enc event.body ++
        (Codec.text.enc "event_hash" ++ Codec.text.enc event.eventHash)) := by
    simp only [Codec.event, Codec.via, Codec.record, Codec.behind, Codec.field, Codec.pair,
      List.append_assoc]
  rw [hfront, fromLeBytes_append (by decide +kernel)]
  decide +kernel

/-- An opening whose event takes `2 ^ 32` bytes is recorded, and the root does not open any more. -/
theorem oversize_not_recovered {n : Nat} (hn : n + 628 = 2 ^ 32) :
    ∃ fresh last event,
      Ledger.openWithRotation linkedCrates Root.empty defaultSegmentSize = .ok fresh ∧
      fresh.append linkedCrates (openingOf (longId n)) .disabled = (.ok event, last) ∧
      Ledger.openWithRotation linkedCrates last.root defaultSegmentSize =
        .error (.storage (.checksumMismatchAt 2 0)) := by
  obtain ⟨store, hstore, hrot, hopen⟩ := Ledger.openWithRotation_empty lossless_linkedCrates
    (by decide : defaultSegmentSize ≠ 0)
  obtain ⟨event, candidate, hprep, hash, hhash, hevent⟩ :=
    prepareEvent_openingOf (isIdentifier_longId (n := n) (by omega))
  have hlen : (Codec.event.enc event).length = 2 ^ 32 := by
    rw [hevent]
    exact length_enc_oversize hn hhash
  -- the checksum of the empty record is zero, and an encoded event does not start with zeros
  have hcrc : (linkedCrates.crc32 []).toNat ≠ fromLeBytes (Codec.event.enc event) := by
    rw [fromLeBytes_enc_event]
    decide +kernel
  obtain ⟨offset, hoffset⟩ :=
    Store.append_disabled_isOk linkedCrates.crc32 store (Codec.event.enc event)
  refine ⟨_, _, event, hopen, Ledger.append_of_stored rfl hprep rfl hoffset, ?_⟩
  have hbricked := hstore.oversize hlen hcrc (by rw [hrot]; decide)
    (by decide : defaultSegmentSize ≠ 0)
  unfold Ledger.openWithRotation Ledger.root
  rw [hbricked]
  rfl

/-- The identifier with which that happens. -/
def oversizeId : String := longId 4294966668

/-- A run of one append without any failure, after which the root does not open. -/
theorem recovery_fails_oversize :
    ∃ fresh last,
      Ledger.openWithRotation linkedCrates Root.empty defaultSegmentSize = .ok fresh ∧
      fresh.run linkedCrates [.append (openingOf oversizeId) .disabled] = .ok last ∧
      Ledger.openWithRotation linkedCrates last.root defaultSegmentSize =
        .error (.storage (.checksumMismatchAt 2 0)) := by
  obtain ⟨fresh, last, event, hopen, happend, hbricked⟩ :=
    oversize_not_recovered (by decide : 4294966668 + 628 = 2 ^ 32)
  refine ⟨fresh, last, hopen, ?_, hbricked⟩
  rw [Ledger.run, Ledger.step, oversizeId, happend]
  rfl

end LiminalDB
