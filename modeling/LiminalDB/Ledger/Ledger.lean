import LiminalDB.Ledger.History
import LiminalDB.Wal.Writer

/-! # `TrustworthyTransitionLedger`

The ledger over its log and its snapshot file: `open`, `append`, `write_snapshot` and, from
`snapshot_durability.rs`, `write_snapshot_crash_safe`. What is on disk is a `Root`: the segments of
the log and the files of the snapshot directory. Closing a ledger leaves its root, and opening reads
it back: the snapshot-assisted replay and the full replay must agree.

The writer lock, the manifest and the paths in messages play no part in the state and are left out;
file operations other than the injected failures of the log succeed. -/

namespace LiminalDB

/-! ## The snapshot directory -/

/-- The files next to the snapshot: the snapshot itself, the `.tmp` sibling it is first written to
and the `.rollback` sibling that holds the previous one meanwhile. -/
structure SnapDir where
  /-- The snapshot file. -/
  file : Option Bytes := none
  /-- The temporary sibling. -/
  temporary : Option Bytes := none
  /-- The rollback sibling. -/
  rollback : Option Bytes := none
  deriving DecidableEq, Repr

namespace SnapDir

/-- `recover_interrupted_snapshot_replace`: an installed snapshot wins over a leftover rollback file,
a rollback file without a snapshot is put back, a leftover temporary is removed. -/
def recoverInterruptedSnapshotReplace (dir : SnapDir) : SnapDir :=
  let dir :=
    if dir.file.isSome then
      if dir.rollback.isSome then { dir with rollback := none } else dir
    else if dir.rollback.isSome then { dir with file := dir.rollback, rollback := none }
    else dir
  if dir.temporary.isSome then { dir with temporary := none } else dir

/-- `replace_snapshot_bytes_crash_safe`: write the temporary in two halves, move the old snapshot
aside, rename the temporary into place and remove the old one. -/
def replaceSnapshotBytesCrashSafe (bytes : Bytes) (dir : SnapDir) : SnapDir :=
  let dir := dir.recoverInterruptedSnapshotReplace
  let dir := if dir.temporary.isSome then { dir with temporary := none } else dir
  let midpoint := bytes.length / 2
  let dir := { dir with temporary := some (bytes.take midpoint) }
  let dir := { dir with temporary := dir.temporary.map (· ++ bytes.drop midpoint) }
  let dir :=
    if dir.file.isSome then
      let dir := if dir.rollback.isSome then { dir with rollback := none } else dir
      { dir with file := none, rollback := dir.file }
    else dir
  let dir := { dir with file := dir.temporary, temporary := none }
  if dir.rollback.isSome then { dir with rollback := none } else dir

/-- Whatever an interrupted replacement left behind, a replacement ends with the new snapshot alone
in the directory. -/
@[simp] theorem replaceSnapshotBytesCrashSafe_eq (bytes : Bytes) (dir : SnapDir) :
    dir.replaceSnapshotBytesCrashSafe bytes = { file := some bytes } := by
  obtain ⟨file, temporary, rollback⟩ := dir
  cases file <;> cases temporary <;> cases rollback <;>
    simp [replaceSnapshotBytesCrashSafe, recoverInterruptedSnapshotReplace]

end SnapDir

/-! ## The ledger -/

/-- What is on disk. -/
structure Root where
  /-- The segments of the log. -/
  data : WalDir
  /-- The snapshot directory. -/
  snap : SnapDir

/-- A root nothing was ever written to. -/
def Root.empty : Root := ⟨∅, {}⟩

/-- `TrustworthyTransitionLedger` -/
structure Ledger where
  /-- The open log. -/
  store : Store
  /-- The snapshot directory. -/
  snap : SnapDir
  /-- The projection of the history. -/
  state : LedgerState
  /-- An append failed and the log must be replayed before the next one. -/
  poisoned : Bool

/-- What a ledger leaves on disk. -/
def Ledger.root (ledger : Ledger) : Root := ⟨ledger.store.dataDir, ledger.snap⟩

variable (env : Crates)

/-! ### Opening -/

/-- The loop of `replay_from`: decode each record and apply it. -/
def replayRecords : List Bytes → LedgerState → Except TransitionLedgerError LedgerState
  | [], state => .ok state
  | bytes :: records, state => do
      let event ← (env.event.fromSlice bytes).mapError .encoding
      match applyEvent env event state with
      | .error e _ => .error e
      | .ok _ state' => replayRecords records state'

/-- `replay_from`. The reader delivers its error, if any, behind the records before it. -/
def replayFrom (store : Store) (offset : Offset) (state : LedgerState) :
    Except TransitionLedgerError LedgerState := do
  let (records, stop) ← (store.streamFrom env.crc32 offset).mapError .storage
  let state ← replayRecords env records state
  match stop with
  | some e => .error (.storage e)
  | none => .ok state

/-- `projection_digest`: the digest of all that the ledger projects. -/
def projectionDigest (state : LedgerState) : Except TransitionLedgerError String :=
  digestCbor env env.projectionDigestMaterial state

/-- `load_and_verify_snapshot`, on the bytes of the file. -/
def loadAndVerifySnapshot (bytes : Bytes) :
    Except TransitionLedgerError TransitionLedgerSnapshot := do
  let snapshot ← (env.snapshot.fromSlice bytes).mapError .encoding
  failIf (snapshot.body.schema ≠ snapshotSchema ∨ snapshot.body.profile ≠ profile)
    .snapshotProfileMismatch
  let digest ← digestCbor env env.snapshotBody snapshot.body
  failIf (digest ≠ snapshot.snapshotDigest) .snapshotDigestMismatch
  let digest ← projectionDigest env snapshot.body.state
  failIf (digest ≠ snapshot.body.projectionDigest) .snapshotProjectionDigestMismatch
  return snapshot

/-- The first half of `open`: the replay that starts from the snapshot, if there is one. -/
def snapshotRecovered (store : Store) (snap : SnapDir) :
    Except TransitionLedgerError LedgerState :=
  match snap.file with
  | some bytes => do
      let snapshot ← loadAndVerifySnapshot env bytes
      replayFrom env store snapshot.body.walOffset.toOffset snapshot.body.state
  | none => replayFrom env store Offset.start .default

/-- `TrustworthyTransitionLedger::open`, for a log with the given rotation size. -/
def Ledger.openWithRotation (root : Root) (rotation : UInt64) :
    Except TransitionLedgerError Ledger := do
  let store ← (Store.openWithRotation env.crc32 root.data rotation).mapError .storage
  let recovered ← snapshotRecovered env store root.snap
  let fullReplay ← replayFrom env store Offset.start .default
  failIf (recovered ≠ fullReplay) .replayProjectionMismatch
  return ⟨store, root.snap, fullReplay, false⟩

/-- `TrustworthyTransitionLedger::open`: the ledger over the files of a root, with segments of the usual
size. -/
def Ledger.open (root : Root) : Except TransitionLedgerError Ledger :=
  Ledger.openWithRotation env root defaultSegmentSize

/-! ### Appending -/

/-- `append`, with the stage at which the write is made to fail. -/
def Ledger.append (input : TransitionEventInput) (failpoint : AppendFailpoint) (ledger : Ledger) :
    Except TransitionLedgerError TransitionEvent × Ledger :=
  if ledger.poisoned then (.error .poisonedAfterStorageFailure, ledger)
  else
    match prepareEvent env input ledger.state with
    | .error e => (.error e, ledger)
    | .ok (event, candidate) =>
        match env.event.toVec event with
        | .error message => (.error (.encoding message), ledger)
        | .ok bytes =>
            match ledger.store.append env.crc32 bytes failpoint with
            | (.error e, store) => (.error (.storage e), { ledger with store, poisoned := true })
            | (.ok _, store) => (.ok event, { ledger with store, state := candidate })

/-! ### Snapshots -/

/-- `TransitionLedgerSnapshotInfo`, without the path. -/
structure SnapshotInfo where
  offset : Offset
  eventCount : Nat
  projectionCount : Nat
  snapshotDigest : String
  headEventHash : Option String
  projectionDigest : String
  deriving DecidableEq, Repr

/-- The snapshot of a ledger: its state and the end of its log. -/
def Ledger.takeSnapshot (createdAtMs : UInt64) (ledger : Ledger) :
    Except TransitionLedgerError TransitionLedgerSnapshot := do
  let projectionDigest ← projectionDigest env ledger.state
  let body : TransitionLedgerSnapshotBody :=
    { schema := snapshotSchema
      profile := profile
      walOffset := .ofOffset ledger.store.endOffset
      nextSequence := ledger.state.nextSequence
      headEventHash := ledger.state.headEventHash
      projections := ledger.state.projections
      recordOwners := ledger.state.recordOwners
      projectionDigest := projectionDigest
      createdAtMs := createdAtMs }
  let snapshotDigest ← digestCbor env env.snapshotBody body
  return ⟨body, snapshotDigest⟩

/-- The bytes of the snapshot and what the caller is told about it. -/
def Ledger.encodeSnapshot (createdAtMs : UInt64) (ledger : Ledger) :
    Except TransitionLedgerError (Bytes × SnapshotInfo) := do
  let snapshot ← ledger.takeSnapshot env createdAtMs
  let bytes ← (env.snapshot.toVec snapshot).mapError .encoding
  return (bytes,
    { offset := snapshot.body.walOffset.toOffset
      eventCount := ledger.state.nextSequence - 1
      projectionCount := ledger.state.projections.size
      snapshotDigest := snapshot.snapshotDigest
      headEventHash := snapshot.body.headEventHash
      projectionDigest := snapshot.body.projectionDigest })

/-- `write_snapshot`: the snapshot is encoded and put in the place of the last one. -/
def Ledger.writeSnapshot (createdAtMs : UInt64) (ledger : Ledger) :
    Except TransitionLedgerError SnapshotInfo × Ledger :=
  match ledger.encodeSnapshot env createdAtMs with
  | .error e => (.error e, ledger)
  | .ok (bytes, info) =>
      -- `atomic_write`
      (.ok info, { ledger with snap := ledger.snap.replaceSnapshotBytesCrashSafe bytes })

/-- `write_snapshot_crash_safe`: move the old snapshot aside, write the new one, and put the old one
back if that fails. -/
def Ledger.writeSnapshotCrashSafe (createdAtMs : UInt64) (ledger : Ledger) :
    Except TransitionLedgerError SnapshotInfo × Ledger :=
  let snap := ledger.snap.recoverInterruptedSnapshotReplace
  let snap := if snap.file.isSome then { snap with file := none, rollback := snap.file } else snap
  match Ledger.writeSnapshot env createdAtMs { ledger with snap } with
  | (.ok info, ledger) =>
      (.ok info, if ledger.snap.rollback.isSome then
        { ledger with snap := { ledger.snap with rollback := none } } else ledger)
  | (.error e, ledger) =>
      (.error e, if ledger.snap.file.isNone ∧ ledger.snap.rollback.isSome then
        { ledger with
          snap := { ledger.snap with file := ledger.snap.rollback, rollback := none } } else ledger)

/-! ## Replaying a log of events -/

/-- The log holds the events, each in its encoding. -/
def Encoded (events : List TransitionEvent) (records : List Bytes) : Prop :=
  List.Forall₂ (fun event bytes => env.event.toVec event = .ok bytes) events records

variable {env}

/-- Replaying encoded events applies them. -/
theorem replayRecords_eq (henv : env.Lossless) {events : List TransitionEvent}
    {records : List Bytes} (h : Encoded env events records) (state : LedgerState) :
    replayRecords env records state = applyEvents env events state := by
  induction h generalizing state with
  | nil => rfl
  | @cons event bytes events records hbytes _ ih =>
      obtain ⟨bytes', hbytes', hback⟩ := henv.event event
      -- the bytes in the log are those the decoder gives back
      rw [hbytes, Except.ok.injEq] at hbytes'
      subst hbytes'
      have hdecode : replayRecords env (bytes :: records) state =
          match applyEvent env event state with
          | .error e _ => .error e
          | .ok _ state' => replayRecords env records state' := by
        rw [replayRecords, hback]
        rfl
      rw [hdecode, applyEvents]
      cases applyEvent env event state with
      | error e t => rfl
      | ok u t => exact ih t

/-- Replaying from the offset of the `k`-th record of a clean log applies the events behind it. -/
theorem Store.Represents.replayFrom_eq (henv : env.Lossless) {store : Store} {img : WalImage}
    (h : store.Represents env.crc32 img) (hclean : img.tail = .clean) {offset : Offset} {k : Nat}
    (hloc : img.Locates env.crc32 offset k) {events : List TransitionEvent}
    (henc : Encoded env events (img.records.drop k)) (state : LedgerState) :
    replayFrom env store offset state = applyEvents env events state := by
  unfold replayFrom
  rw [h.streamFrom_eq hloc, hclean]
  show (do
    let state ← replayRecords env (img.records.drop k) state
    .ok state) = _
  rw [replayRecords_eq henv henc]
  cases applyEvents env events state <;> rfl

/-- Opening a root whose log opens and whose replays both go through: they must agree. -/
theorem Ledger.openWithRotation_eq (root : Root) {rotation : UInt64} {store : Store}
    {recovered full : LedgerState}
    (hopen : Store.openWithRotation env.crc32 root.data rotation = .ok store)
    (hrecovered : snapshotRecovered env store root.snap = .ok recovered)
    (hfull : replayFrom env store Offset.start .default = .ok full) :
    Ledger.openWithRotation env root rotation =
      if recovered = full then .ok ⟨store, root.snap, full, false⟩
      else .error .replayProjectionMismatch := by
  unfold Ledger.openWithRotation
  rw [hopen]
  show (do
    let recovered ← snapshotRecovered env store root.snap
    let fullReplay ← replayFrom env store Offset.start .default
    failIf (recovered ≠ fullReplay) .replayProjectionMismatch
    return (⟨store, root.snap, fullReplay, false⟩ : Ledger)) = _
  rw [hrecovered, hfull]
  by_cases h : recovered = full
  · rw [if_pos h]
    simp [bind, Except.bind, failIf, pure, Except.pure, h]
  · rw [if_neg h]
    simp [bind, Except.bind, failIf, h]

/-- What opening returns: the state of the full replay, with which the snapshot agrees. -/
theorem Ledger.openWithRotation_eq_ok {root : Root} {rotation : UInt64} {ledger : Ledger} :
    Ledger.openWithRotation env root rotation = .ok ledger ↔
      ∃ store full, Store.openWithRotation env.crc32 root.data rotation = .ok store ∧
        snapshotRecovered env store root.snap = .ok full ∧
        replayFrom env store Offset.start .default = .ok full ∧
        ledger = ⟨store, root.snap, full, false⟩ := by
  unfold Ledger.openWithRotation
  simp only [result_bind_eq_ok, mapError_eq_ok, failIf_eq_ok, not_not]
  constructor
  · rintro ⟨store, hopen, recovered, hrecovered, full, hfull, -, rfl, hledger⟩
    exact ⟨store, recovered, hopen, hrecovered, hfull, (Except.ok.inj hledger).symm⟩
  · rintro ⟨store, full, hopen, hrecovered, hfull, rfl⟩
    exact ⟨store, hopen, full, hrecovered, full, hfull, PUnit.unit, rfl, rfl⟩

/-- A new ledger: nothing in the log, nothing in the state. -/
theorem Ledger.openWithRotation_empty (henv : env.Lossless) {rotation : UInt64}
    (hrotation : rotation ≠ 0) :
    ∃ store, store.Represents env.crc32 WalImage.empty ∧ store.writer.rotation = rotation ∧
      Ledger.openWithRotation env Root.empty rotation = .ok ⟨store, {}, .default, false⟩ := by
  obtain ⟨store, hopen, hrep, hrot⟩ := LiminalDB.openWithRotation_empty env.crc32 hrotation
  have hreplay : replayFrom env store Offset.start .default = .ok .default :=
    hrep.replayFrom_eq henv rfl (WalImage.locates_start _ _ rfl) .nil _
  have hrecovered : snapshotRecovered env store Root.empty.snap = .ok .default := hreplay
  exact ⟨store, hrep, hrot,
    (Ledger.openWithRotation_eq .empty hopen hrecovered hreplay).trans (if_pos rfl)⟩

/-! ## The write path and the replay path agree -/

/-- A ledger that refuses an input before it gets to the log is left as it was. -/
theorem Ledger.append_of_rejected {ledger : Ledger} {input : TransitionEventInput}
    (h : ledger.poisoned = true ∨ ∃ e, prepareEvent env input ledger.state = .error e)
    (failpoint : AppendFailpoint) :
    ∃ e, ledger.append env input failpoint = (.error e, ledger) := by
  unfold Ledger.append
  rcases h with hp | ⟨e, he⟩
  · exact ⟨_, by rw [if_pos hp]⟩
  · by_cases hp : ledger.poisoned
    · exact ⟨_, by rw [if_pos hp]⟩
    · exact ⟨e, by rw [if_neg hp, he]⟩

/-- What an append can do: it is refused before anything is written, or it gets to the log with the
bytes of the event that was prepared. -/
theorem Ledger.append_cases (ledger : Ledger) (input : TransitionEventInput)
    (failpoint : AppendFailpoint) :
    (∃ e, ledger.append env input failpoint = (.error e, ledger)) ∨
      ledger.poisoned = false ∧ ∃ event candidate bytes,
        prepareEvent env input ledger.state = .ok (event, candidate) ∧
        env.event.toVec event = .ok bytes := by
  cases hp : ledger.poisoned with
  | true => exact .inl (Ledger.append_of_rejected (.inl hp) failpoint)
  | false =>
      cases hprep : prepareEvent env input ledger.state with
      | error e => exact .inl (Ledger.append_of_rejected (.inr ⟨e, hprep⟩) failpoint)
      | ok prepared =>
          obtain ⟨event, candidate⟩ := prepared
          cases hbytes : env.event.toVec event with
          | error message =>
              refine .inl ⟨.encoding message, ?_⟩
              simp only [Ledger.append, hp, hprep, hbytes, Bool.false_eq_true, if_false]
          | ok bytes => exact .inr ⟨rfl, event, candidate, bytes, rfl, hbytes⟩

section Prepared

variable {ledger : Ledger} {input : TransitionEventInput} {failpoint : AppendFailpoint}
  {event : TransitionEvent} {candidate : LedgerState} {bytes : Bytes}

/-- An append whose record is acknowledged moves the state. -/
theorem Ledger.append_of_stored (hp : ledger.poisoned = false)
    (hprep : prepareEvent env input ledger.state = .ok (event, candidate))
    (hbytes : env.event.toVec event = .ok bytes) {offset : Offset}
    (hstored : (ledger.store.append env.crc32 bytes failpoint).1 = .ok offset) :
    ledger.append env input failpoint =
      (.ok event, { ledger with
        store := (ledger.store.append env.crc32 bytes failpoint).2, state := candidate }) := by
  obtain ⟨store, hstore⟩ : ∃ store, ledger.store.append env.crc32 bytes failpoint =
      (.ok offset, store) := ⟨_, Prod.ext hstored rfl⟩
  simp only [Ledger.append, hp, hprep, hbytes, hstore, Bool.false_eq_true, if_false]

/-- An append whose record is not acknowledged poisons the ledger and leaves the state. -/
theorem Ledger.append_of_not_stored (hp : ledger.poisoned = false)
    (hprep : prepareEvent env input ledger.state = .ok (event, candidate))
    (hbytes : env.event.toVec event = .ok bytes) {e : StoreError}
    (hfailed : (ledger.store.append env.crc32 bytes failpoint).1 = .error e) :
    ledger.append env input failpoint =
      (.error (.storage e), { ledger with
        store := (ledger.store.append env.crc32 bytes failpoint).2, poisoned := true }) := by
  obtain ⟨store, hstore⟩ : ∃ store, ledger.store.append env.crc32 bytes failpoint =
      (.error e, store) := ⟨_, Prod.ext hfailed rfl⟩
  simp only [Ledger.append, hp, hprep, hbytes, hstore, Bool.false_eq_true, if_false]

/-- Without an injected failure the ledger records what the write path prepares. -/
theorem Ledger.append_disabled (henv : env.Lossless) (hp : ledger.poisoned = false)
    (hprep : prepareEvent env input ledger.state = .ok (event, candidate)) :
    ∃ store, ledger.append env input .disabled =
      (.ok event, { ledger with store, state := candidate }) := by
  obtain ⟨bytes, hbytes, -⟩ := henv.event event
  obtain ⟨offset, hoffset⟩ := Store.append_disabled_isOk env.crc32 ledger.store bytes
  exact ⟨_, Ledger.append_of_stored hp hprep hbytes hoffset⟩

end Prepared

/-- A call that is refused with another error than the storage's leaves the ledger as it was. -/
theorem Ledger.append_error_eq {ledger : Ledger} {input : TransitionEventInput}
    {failpoint : AppendFailpoint} {e : TransitionLedgerError}
    (h : (ledger.append env input failpoint).1 = .error e) (hstorage : e.isStorage = false) :
    (ledger.append env input failpoint).2 = ledger := by
  rcases ledger.append_cases input failpoint with
    ⟨e', he'⟩ | ⟨hp, event, candidate, bytes, hprep, hbytes⟩
  · rw [he']
  · cases hres : (ledger.store.append env.crc32 bytes failpoint).1 with
    | ok offset =>
        rw [Ledger.append_of_stored hp hprep hbytes hres] at h
        cases h
    | error e' =>
        rw [Ledger.append_of_not_stored hp hprep hbytes hres] at h
        cases h
        cases hstorage

/-- A successful append recorded what the write path prepared. -/
theorem Ledger.prepared_of_append {ledger : Ledger} {input : TransitionEventInput}
    {failpoint : AppendFailpoint} {event : TransitionEvent}
    (h : (ledger.append env input failpoint).1 = .ok event) :
    ∃ candidate, prepareEvent env input ledger.state = .ok (event, candidate) ∧
      (ledger.append env input failpoint).2.state = candidate := by
  rcases ledger.append_cases input failpoint with
    ⟨e', he'⟩ | ⟨hp, event', candidate, bytes, hprep, hbytes⟩
  · rw [he'] at h
    cases h
  · cases hres : (ledger.store.append env.crc32 bytes failpoint).1 with
    | ok offset =>
        rw [Ledger.append_of_stored hp hprep hbytes hres] at h ⊢
        cases h
        exact ⟨candidate, hprep, rfl⟩
    | error e' =>
        rw [Ledger.append_of_not_stored hp hprep hbytes hres] at h
        cases h

/-- **Write path and replay path agree** on what is a legal next event: in every state, `apply_event`
accepts an event exactly when a ledger in that state, given the event's own fields as input, appends
and returns that event, and both reach the same state. And what is rejected, other than by the
storage, changes neither the state nor the ledger, its flag and its log included. -/
theorem write_path_agrees_with_replay (henv : env.Lossless) {ledger : Ledger}
    (hp : ledger.poisoned = false) (event : TransitionEvent) :
    (∀ s', applyEvent env event ledger.state = .ok ⟨⟩ s' ↔
      (ledger.append env event.body.input .disabled).1 = .ok event ∧
        (ledger.append env event.body.input .disabled).2.state = s') ∧
    (∀ e t, applyEvent env event ledger.state = .error e t → t = ledger.state) ∧
    ∀ input failpoint e, (ledger.append env input failpoint).1 = .error e →
      e.isStorage = false → (ledger.append env input failpoint).2 = ledger := by
  refine ⟨fun s' => ?_, fun e t h => atomic_applyEvent event ledger.state e t h,
    fun input failpoint e h => Ledger.append_error_eq h⟩
  constructor
  · intro happly
    obtain ⟨hacc, rfl⟩ := applyEvent_eq_ok.mp happly
    -- the caller part of an accepted event is its own normal form
    have hprep : prepareEvent env event.body.input ledger.state =
        .ok (event, ledger.state.advance event) :=
      prepareEvent_eq_ok.mpr ⟨hacc.canonical.normalized_eq.symm, hacc, rfl⟩
    obtain ⟨store, happend⟩ := Ledger.append_disabled henv hp hprep
    rw [happend]
    exact ⟨rfl, rfl⟩
  · rintro ⟨hok, rfl⟩
    obtain ⟨candidate, hprep, hstate⟩ := Ledger.prepared_of_append hok
    obtain ⟨-, hacc, rfl⟩ := prepareEvent_eq_ok.mp hprep
    rw [hstate]
    exact hacc.applyEvent_eq

/-- The opening authorization on a new ledger, by both paths. -/
theorem write_path_agrees_with_replay_opening :
    ∃ (ledger : Ledger) (event : TransitionEvent) (s' : LedgerState), ledger.poisoned = false ∧
      applyEvent linkedCrates event ledger.state = .ok ⟨⟩ s' ∧
      (ledger.append linkedCrates openingInput .disabled).1 = .ok event ∧
      (ledger.append linkedCrates openingInput .disabled).2.state = s' := by
  obtain ⟨event, hinput, hacc, -⟩ := History.opening lossless_linkedCrates.eventBody
    canonical_openingInput.transitionId
  let ledger : Ledger := ⟨⟨⟨∅, defaultSegmentSize, 1, 0, 0⟩⟩, {}, .default, false⟩
  have happend := ((write_path_agrees_with_replay lossless_linkedCrates
    (rfl : ledger.poisoned = false) event).1 _).mp hacc.applyEvent_eq
  have hopening : openingOf openingInput.transitionId = openingInput := rfl
  rw [hinput, hopening] at happend
  exact ⟨ledger, event, _, rfl, hacc.applyEvent_eq, happend⟩

end LiminalDB
