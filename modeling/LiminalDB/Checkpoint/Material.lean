import LiminalDB.Checkpoint.Verify
import LiminalDB.Ledger.Invariants
import LiminalDB.Ledger.Recovery
import LiminalDB.Wal.Prefix

/-! # Checkpoint material

`checkpoint_material` compares what a snapshot reported with the ledger as it is now: the path, the
counts, the head and the digest of the projection. It takes the position in the log from the snapshot
without comparing it. `write_snapshot` reads that position from the log and everything else from
memory, and on a ledger that an append has poisoned behind its complete frame the two differ by one
event. `checkpoint_binds_prefix_iff` says that nothing else can go wrong. -/

namespace LiminalDB

/-- `TransitionLedgerSnapshotInfo`: what `write_snapshot` reports, with the path it wrote to. -/
structure TransitionLedgerSnapshotInfo extends SnapshotInfo where
  /-- The path of the snapshot file. -/
  path : String

variable (env : Crates)

/-- `checkpoint_material`, on a ledger with the given `snapshot_path`. -/
def Ledger.checkpointMaterial (snapshotPath storageRootIdentity : String)
    (snapshot : TransitionLedgerSnapshotInfo) (ledger : Ledger) :
    Except CheckpointError CheckpointMaterial := do
  validateCheckpointRef storageRootIdentity "storage_root_identity"
  validateCheckpointRef snapshot.snapshotDigest "snapshot_digest"
  let eventChainHead ← okOr ledger.state.headEventHash .missingLedgerHead
  validateCheckpointRef eventChainHead "event_chain_head"
  let projectionDigest ← (projectionDigest env ledger.state).mapError .ledger
  failIf (snapshot.path ≠ snapshotPath
      ∨ snapshot.eventCount ≠ ledger.state.nextSequence - 1
      ∨ snapshot.projectionCount ≠ ledger.state.projections.size
      ∨ snapshot.headEventHash ≠ some eventChainHead
      ∨ snapshot.projectionDigest ≠ projectionDigest) .snapshotStateMismatch
  return {
    ledgerProfile := ledgerProfile
    storageRootIdentity := storageRootIdentity
    eventChainHead := eventChainHead
    lastSequence := ledger.state.nextSequence - 1
    walSegment := snapshot.offset.segment
    walOffset := snapshot.offset.position
    projectionDigest := projectionDigest
    snapshotDigest := snapshot.snapshotDigest }

variable {env}

/-- The snapshot reported the state that the ledger has now. -/
structure SnapshotInfo.Matches (env : Crates) (info : SnapshotInfo) (state : LedgerState)
    (head : String) : Prop where
  /-- The number of events. -/
  eventCount : info.eventCount = state.nextSequence - 1
  /-- The number of projections. -/
  projectionCount : info.projectionCount = state.projections.size
  /-- The head it reported. -/
  headEventHash : info.headEventHash = some head
  /-- The head there is. -/
  stateHead : state.headEventHash = some head
  /-- The digest. -/
  projectionDigest : LiminalDB.projectionDigest env state = .ok info.projectionDigest

/-- The material of a snapshot. -/
def SnapshotInfo.material (info : SnapshotInfo) (storageRootIdentity head : String) :
    CheckpointMaterial where
  ledgerProfile := ledgerProfile
  storageRootIdentity := storageRootIdentity
  eventChainHead := head
  lastSequence := info.eventCount
  walSegment := info.offset.segment
  walOffset := info.offset.position
  projectionDigest := info.projectionDigest
  snapshotDigest := info.snapshotDigest

/-- **`checkpoint_material`** succeeds exactly where the snapshot matches. -/
theorem Ledger.checkpointMaterial_eq_ok {ledger : Ledger} {info : SnapshotInfo}
    {path storageRootIdentity : String} {material : CheckpointMaterial} :
    ledger.checkpointMaterial env path storageRootIdentity ⟨info, path⟩ = .ok material ↔
      IsRef storageRootIdentity ∧ IsRef info.snapshotDigest ∧
        ∃ head, IsRef head ∧ info.Matches env ledger.state head ∧
          material = info.material storageRootIdentity head := by
  unfold Ledger.checkpointMaterial
  simp only [result_bind_eq_ok, validateCheckpointRef_eq_ok, okOr_eq_ok, mapError_eq_ok,
    failIf_eq_ok, not_or, not_not, true_and]
  constructor
  · rintro ⟨-, hroot, -, hsnapshot, head, hhead, -, hheadRef, digest, hdigest, -,
      ⟨hcount, hprojections, hinfoHead, rfl⟩, hmaterial⟩
    refine ⟨hroot, hsnapshot, head, hheadRef, ⟨hcount, hprojections, hinfoHead, hhead, hdigest⟩, ?_⟩
    rw [← Except.ok.inj hmaterial, SnapshotInfo.material, hcount]
  · rintro ⟨hroot, hsnapshot, head, hheadRef, hmatches, rfl⟩
    refine ⟨(), hroot, (), hsnapshot, head, hmatches.stateHead, (), hheadRef, _,
      hmatches.projectionDigest, (),
      ⟨hmatches.eventCount, hmatches.projectionCount, hmatches.headEventHash, rfl⟩, ?_⟩
    rw [SnapshotInfo.material, hmatches.eventCount]
    rfl

/-! ## What a snapshot reports -/

/-- The snapshot reports the end of the log and the state in memory. -/
structure SnapshotInfo.Reports (env : Crates) (info : SnapshotInfo) (ledger : Ledger) : Prop where
  /-- The end of the log. -/
  offset : info.offset = ledger.store.endOffset
  /-- The number of events. -/
  eventCount : info.eventCount = ledger.state.nextSequence - 1
  /-- The number of projections. -/
  projectionCount : info.projectionCount = ledger.state.projections.size
  /-- The head. -/
  headEventHash : info.headEventHash = ledger.state.headEventHash
  /-- The digest of the projection. -/
  projectionDigest : LiminalDB.projectionDigest env ledger.state = .ok info.projectionDigest
  /-- The digest of the snapshot is a reference. -/
  snapshotDigest : IsRef info.snapshotDigest

/-- The report of an encoded snapshot says what the ledger holds. -/
theorem Ledger.encodeSnapshot_reports {ledger : Ledger} {createdAtMs : UInt64} {bytes : Bytes}
    {info : SnapshotInfo} (h : ledger.encodeSnapshot env createdAtMs = .ok (bytes, info)) :
    info.Reports env ledger := by
  obtain ⟨snapshot, htake, hrest⟩ := result_bind_eq_ok.mp h
  obtain ⟨bytes', -, hpair⟩ := result_bind_eq_ok.mp hrest
  obtain ⟨projection, hprojection, hrest⟩ := result_bind_eq_ok.mp htake
  obtain ⟨digest, hdigest, hsnapshot⟩ := result_bind_eq_ok.mp hrest
  obtain rfl := Except.ok.inj hsnapshot
  obtain ⟨-, rfl⟩ := Prod.mk.inj (Except.ok.inj hpair)
  exact ⟨rfl, rfl, rfl, rfl, hprojection, isRef_of_digestCbor hdigest⟩

/-- **`write_snapshot`** reports the ledger it is called on. -/
theorem Ledger.writeSnapshot_reports {ledger taken : Ledger} {createdAtMs : UInt64}
    {info : SnapshotInfo} (h : ledger.writeSnapshot env createdAtMs = (.ok info, taken)) :
    info.Reports env ledger := by
  unfold Ledger.writeSnapshot at h
  split at h
  · cases h
  · rename_i bytes info' henc
    obtain ⟨hinfo, -⟩ := Prod.mk.inj h
    obtain rfl := Except.ok.inj hinfo
    exact Ledger.encodeSnapshot_reports henc

/-- The body of a snapshot of the state at an offset. -/
def LedgerState.snapshotBody (state : LedgerState) (offset : Offset) (createdAtMs : UInt64)
    (projectionDigest : String) : TransitionLedgerSnapshotBody where
  schema := snapshotSchema
  profile := profile
  walOffset := .ofOffset offset
  nextSequence := state.nextSequence
  headEventHash := state.headEventHash
  projections := state.projections
  recordOwners := state.recordOwners
  projectionDigest := projectionDigest
  createdAtMs := createdAtMs

/-- The digest that `write_snapshot` reports is that of the body of the snapshot. -/
theorem Ledger.writeSnapshot_digest {ledger taken : Ledger} {createdAtMs : UInt64}
    {info : SnapshotInfo} (h : ledger.writeSnapshot env createdAtMs = (.ok info, taken)) :
    digestCbor env env.snapshotBody (ledger.state.snapshotBody ledger.store.endOffset createdAtMs
      info.projectionDigest) = .ok info.snapshotDigest := by
  unfold Ledger.writeSnapshot at h
  split at h
  · cases h
  · rename_i bytes info' henc
    obtain rfl := Except.ok.inj (Prod.mk.inj h).1
    obtain ⟨snapshot, htake, hrest⟩ := result_bind_eq_ok.mp henc
    obtain ⟨bytes', -, hpair⟩ := result_bind_eq_ok.mp hrest
    obtain ⟨projection, -, hrest⟩ := result_bind_eq_ok.mp htake
    obtain ⟨digest, hdigest, hsnapshot⟩ := result_bind_eq_ok.mp hrest
    obtain rfl := Except.ok.inj hsnapshot
    obtain ⟨-, rfl⟩ := Prod.mk.inj (Except.ok.inj hpair)
    exact hdigest

/-- While the state is the one the snapshot reported and has a head, there is material. -/
theorem SnapshotInfo.Reports.checkpointMaterial {info : SnapshotInfo} {ledger last : Ledger}
    (h : info.Reports env ledger) (hstate : last.state = ledger.state) {head : String}
    (hhead : ledger.state.headEventHash = some head) (hheadRef : IsRef head)
    {storageRootIdentity : String} (hroot : IsRef storageRootIdentity) (path : String) :
    last.checkpointMaterial env path storageRootIdentity ⟨info, path⟩ =
      .ok (info.material storageRootIdentity head) := by
  refine Ledger.checkpointMaterial_eq_ok.mpr
    ⟨hroot, h.snapshotDigest, head, hheadRef, ⟨?_, ?_, ?_, ?_, ?_⟩, rfl⟩
  · rw [hstate, h.eventCount]
  · rw [hstate, h.projectionCount]
  · rw [h.headEventHash, hhead]
  · rw [hstate, hhead]
  · rw [hstate, h.projectionDigest]

/-- The material can be signed if there is an event. -/
theorem SnapshotInfo.Reports.wellFormed_material {info : SnapshotInfo} {ledger : Ledger}
    (h : info.Reports env ledger) {storageRootIdentity head : String} (hroot : IsRef storageRootIdentity)
    (hhead : IsRef head) (hcount : ledger.state.nextSequence - 1 ≠ 0) :
    (info.material storageRootIdentity head).WellFormed where
  ledgerProfile := by
    show NotBlank ledgerProfile
    decide
  storageRootIdentity := hroot
  eventChainHead := hhead
  projectionDigest := isRef_of_digestCbor h.projectionDigest
  snapshotDigest := h.snapshotDigest
  lastSequence := by
    rw [SnapshotInfo.material, h.eventCount]
    exact hcount

/-! ## The prefix a checkpoint binds -/

/-- Replaying the records before the position in the material gives what the material says. -/
def CheckpointMaterial.BindsPrefix (env : Crates) (store : Store) (material : CheckpointMaterial) :
    Prop :=
  ∃ state, replayFrom env (store.before ⟨material.walSegment, material.walOffset⟩) Offset.start
      .default = .ok state ∧
    state.nextSequence - 1 = material.lastSequence ∧
    state.headEventHash = some material.eventChainHead ∧
    LiminalDB.projectionDigest env state = .ok material.projectionDigest

/-- Replaying what lies before the end that the log once had. -/
theorem Recovers.replayFrom_before (henv : env.Lossless) {ledger last : Ledger} {img img' : WalImage}
    {events events' : List TransitionEvent} {pending pending' : Option TransitionEvent}
    {added : List Bytes} (h : Recovers env ledger img events pending)
    (hext : img.Extends env.crc32 img' added) (hlast : Recovers env last img' events' pending') :
    replayFrom env (last.store.before ledger.store.endOffset) Offset.start .default =
      .ok (ledger.state.withPending pending) := by
  have hloc : img'.Locates env.crc32 ledger.store.endOffset img.records.length := by
    rw [h.represents.endOffset_eq]
    exact hext.locates (WalImage.locates_endOffset env.crc32 img)
  unfold replayFrom
  rw [hlast.represents.streamFrom_before hlast.first_eq hloc, hext.records_eq, List.take_left]
  show (do
    let state ← replayRecords env img.records .default
    .ok state) = _
  rw [replayRecords_eq henv h.encoded, h.history_all]
  rfl

/-- The material of a snapshot binds the log before it exactly if the log was not ahead of the state. -/
theorem Recovers.bindsPrefix_iff (henv : env.Lossless) {ledger last : Ledger} {img img' : WalImage}
    {events events' : List TransitionEvent} {pending pending' : Option TransitionEvent}
    {added : List Bytes} (h : Recovers env ledger img events pending)
    (hext : img.Extends env.crc32 img' added) (hlast : Recovers env last img' events' pending')
    {info : SnapshotInfo} (hreports : info.Reports env ledger) {path storageRootIdentity : String}
    {material : CheckpointMaterial}
    (hmaterial : last.checkpointMaterial env path storageRootIdentity ⟨info, path⟩ = .ok material) :
    material.BindsPrefix env last.store ↔ pending.isSome = false := by
  have hreplay := h.replayFrom_before henv hext hlast
  rw [← hreports.offset] at hreplay
  obtain ⟨-, -, head, -, hmatches, rfl⟩ := Ledger.checkpointMaterial_eq_ok.mp hmaterial
  cases pending with
  | none =>
      refine iff_of_true ⟨ledger.state, hreplay, hreports.eventCount.symm, ?_,
        hreports.projectionDigest⟩ rfl
      exact hreports.headEventHash.symm.trans hmatches.headEventHash
  | some e =>
      refine iff_of_false ?_ nofun
      rintro ⟨state, hstate, hcount, -⟩
      obtain rfl := Except.ok.inj (hreplay.symm.trans hstate)
      -- the event ahead is counted in the log only
      have hcount : ledger.state.nextSequence + 1 - 1 = ledger.state.nextSequence - 1 :=
        hcount.trans hreports.eventCount
      have hpos := h.history.invariant.sequence_owners
      omega

/-- **A checkpoint binds a real prefix of the log** exactly if the log was not ahead of the state when
its snapshot was taken: if no append of the run before it failed behind its complete frame, or the root
was opened again since. The ledger may go on in any way until `checkpoint_material` is called. -/
theorem checkpoint_binds_prefix_iff (henv : env.Lossless) {rotation : UInt64} (hrotation : rotation ≠ 0)
    {fresh ledger taken last : Ledger} {ops later : List LedgerOp} {createdAtMs : UInt64}
    {info : SnapshotInfo} {path storageRootIdentity : String} {material : CheckpointMaterial}
    (hopen : Ledger.openWithRotation env Root.empty rotation = .ok fresh)
    (hfits : fresh.FitsAlong env ops) (hrun : fresh.run env ops = .ok ledger)
    (htaken : ledger.writeSnapshot env createdAtMs = (.ok info, taken))
    (hfitsLater : taken.FitsAlong env later) (hlater : taken.run env later = .ok last)
    (hmaterial : last.checkpointMaterial env path storageRootIdentity ⟨info, path⟩ = .ok material) :
    material.BindsPrefix env last.store ↔ fresh.aheadAlong env ops false = false := by
  obtain ⟨fresh', hopen', -, hfresh⟩ := recovers_fresh henv hrotation
  obtain rfl := Except.ok.inj (hopen'.symm.trans hopen)
  obtain ⟨img, events, pending, -, hledger, -, hahead⟩ := hfresh.run henv hfits hrun
  -- the snapshot changes nothing but its file
  obtain ⟨bytes, info', hwrite, hver⟩ := ledger.writeSnapshot_eq henv createdAtMs
  obtain ⟨-, rfl⟩ := Prod.mk.inj (hwrite.symm.trans htaken)
  obtain ⟨img', events', pending', added, hlast, hext, -⟩ :=
    (hledger.withSnapshot hver).run henv hfitsLater hlater
  rw [hledger.bindsPrefix_iff henv hext hlast (Ledger.writeSnapshot_reports htaken) hmaterial, hahead]
  rfl

/-! ### A ledger of one event -/

/-- A new root with one acknowledged opening. -/
theorem exists_opened : ∃ fresh ledger event img,
    Ledger.openWithRotation linkedCrates Root.empty 64 = .ok fresh ∧ fresh.state = .default ∧
    fresh.append linkedCrates openingInput .disabled = (.ok event, ledger) ∧
    event.body.input = openingInput ∧ ledger.state = LedgerState.default.advance event ∧
    ledger.poisoned = false ∧ Recovers linkedCrates ledger img [event] none := by
  obtain ⟨store, hstore, -, hopen⟩ :=
    Ledger.openWithRotation_empty lossless_linkedCrates (by decide : (64 : UInt64) ≠ 0)
  obtain ⟨fresh, hopen', hp, hfresh⟩ :=
    recovers_fresh lossless_linkedCrates (by decide : (64 : UInt64) ≠ 0)
  obtain rfl := Except.ok.inj (hopen.symm.trans hopen')
  obtain ⟨event, hinput, -, hprep⟩ := History.nil.prepareEvent_of_admits lossless_linkedCrates
    ⟨canonical_openingInput, rfl, rfl, rfl⟩
  have hlen := fits_openingInput rfl .disabled hp event _ _ hprep rfl
  obtain ⟨ledger, happend, hp', hstate, hledger⟩ := hfresh.append_ok hp hprep rfl hlen
  exact ⟨_, ledger, event, _, hopen, rfl, happend, hinput, hstate, hp', hledger⟩

/-- A snapshot of a ledger of one event, and its material. -/
theorem exists_material {ledger : Ledger} {img : WalImage} {event : TransitionEvent}
    {pending : Option TransitionEvent} (h : Recovers linkedCrates ledger img [event] pending) :
    ∃ info taken material, ledger.writeSnapshot linkedCrates 7 = (.ok info, taken) ∧
      taken.checkpointMaterial linkedCrates "snapshot.cbor" (sampleRef 0x01)
        ⟨info, "snapshot.cbor"⟩ = .ok material := by
  obtain ⟨bytes, info, hwrite, -⟩ := ledger.writeSnapshot_eq lossless_linkedCrates 7
  obtain ⟨before, hbefore, hacc, hstate⟩ :=
    History.snoc_iff.mp (show History linkedCrates ([] ++ [event]) ledger.state from h.history)
  have hhead : ledger.state.headEventHash = some event.eventHash := by
    rw [hstate]
    rfl
  exact ⟨info, _, _, hwrite, (Ledger.writeSnapshot_reports hwrite).checkpointMaterial rfl hhead
    (isRef_of_digestCbor hacc.hash) (isRef_digestText _) _⟩

/-- The checkpoint of a ledger of one event. -/
theorem checkpoint_binds_prefix_opening :
    ∃ fresh ledger info taken material,
      Ledger.openWithRotation linkedCrates Root.empty 64 = .ok fresh ∧
      fresh.run linkedCrates [.append openingInput .disabled] = .ok ledger ∧
      ledger.writeSnapshot linkedCrates 7 = (.ok info, taken) ∧
      taken.checkpointMaterial linkedCrates "snapshot.cbor" (sampleRef 0x01)
        ⟨info, "snapshot.cbor"⟩ = .ok material ∧
      material.BindsPrefix linkedCrates taken.store := by
  obtain ⟨fresh, ledger, event, img, hopen, hstate, happend, -, -, hp, hledger⟩ := exists_opened
  obtain ⟨info, taken, material, hwrite, hmaterial⟩ := exists_material hledger
  have hstep : fresh.step linkedCrates (.append openingInput .disabled) = .ok ledger := by
    rw [Ledger.step, happend]
  have hrun : fresh.run linkedCrates [.append openingInput .disabled] = .ok ledger :=
    result_bind_eq_ok.mpr ⟨ledger, hstep, rfl⟩
  refine ⟨fresh, ledger, info, taken, material, hopen, hrun, hwrite, hmaterial, ?_⟩
  have hfits : fresh.FitsAlong linkedCrates [.append openingInput .disabled] :=
    ⟨fits_openingInput hstate .disabled, fun _ _ => trivial⟩
  have hnothing : taken.FitsAlong linkedCrates [] := trivial
  refine (checkpoint_binds_prefix_iff lossless_linkedCrates (by decide) hopen hfits hrun hwrite hnothing
    rfl hmaterial).mpr ?_
  rw [Ledger.aheadAlong, hstep]
  simp [Ledger.aheadAlong, LedgerOp.ahead, happend, hp]

/-- An authorization that opens another transition. -/
def secondInput : TransitionEventInput :=
  { openingInput with transitionId := "transition-002", recordRef := sampleRef 0xa2 }

/-- The second input of the sample is canonical. -/
theorem canonical_secondInput : Canonical secondInput where
  transitionId := ⟨by decide, by decide +kernel⟩
  subjectId := isIdentifier_agent
  recordRef := isRef_digestText _
  payloadDigest := isRef_digestText _
  refs := by simp [secondInput, openingInput, TransitionLinks.refs]
  observationRefs := rfl
  dimensions := nofun

/-- A second opening that is synced and not acknowledged. The ledger refuses appends from then on, but
not snapshots: the checkpoint says one event and points behind two. -/
theorem checkpoint_binds_no_prefix :
    ∃ fresh ledger info taken material,
      Ledger.openWithRotation linkedCrates Root.empty 64 = .ok fresh ∧
      fresh.run linkedCrates
        [.append openingInput .disabled, .append secondInput .afterSyncBeforeAck] = .ok ledger ∧
      ledger.writeSnapshot linkedCrates 7 = (.ok info, taken) ∧
      taken.checkpointMaterial linkedCrates "snapshot.cbor" (sampleRef 0x01)
        ⟨info, "snapshot.cbor"⟩ = .ok material ∧
      ¬ material.BindsPrefix linkedCrates taken.store := by
  obtain ⟨fresh, first, event, img, hopen, hstate, happend, hinput, hfirst, hp, hledger⟩ :=
    exists_opened
  -- the second opening is prepared
  have hadm : Admits first.state secondInput := by
    refine ⟨canonical_secondInput, ?_, ?_⟩
    · rw [hledger.history.fresh_iff, List.forall_mem_singleton, ← TransitionEventBody.input_recordRef,
        hinput]
      decide +kernel
    · have htid : secondInput.transitionId ≠ event.body.transitionId := by
        rw [show event.body.transitionId = openingInput.transitionId from
          congrArg (·.transitionId) hinput]
        decide
      rw [hfirst, LedgerState.advance_projection_of_ne _ _ htid]
      exact ⟨rfl, rfl⟩
  obtain ⟨second, -, -, hprep⟩ :=
    hledger.history.prepareEvent_of_admits lossless_linkedCrates hadm
  have hfits : (LedgerOp.append secondInput .afterSyncBeforeAck).Fits linkedCrates first := by
    refine fits_of_opens canonical_secondInput ⟨rfl, rfl⟩ rfl rfl ?_ ?_ _
    · rw [hfirst]
      exact (by decide : 2 < 2 ^ 64)
    · decide +kernel
  have hlen := hfits hp second _ _ hprep rfl
  obtain ⟨store, img', -, hfailed, hpoisoned, -⟩ := hledger.append_failed hp hprep rfl hlen
    (by decide : AppendFailpoint.afterSyncBeforeAck ≠ .disabled)
  obtain ⟨info, taken, material, hwrite, hmaterial⟩ := exists_material hpoisoned
  have hstep : fresh.step linkedCrates (.append openingInput .disabled) = .ok first := by
    rw [Ledger.step, happend]
  have hstep' : first.step linkedCrates (.append secondInput .afterSyncBeforeAck) =
      .ok { first with store, poisoned := true } := by
    rw [Ledger.step, hfailed]
  refine ⟨fresh, _, info, taken, material, hopen, result_bind_eq_ok.mpr ⟨first, hstep,
    result_bind_eq_ok.mpr ⟨_, hstep', rfl⟩⟩, hwrite, hmaterial, ?_⟩
  obtain ⟨bytes, info', hwrite', hver⟩ := Ledger.writeSnapshot_eq lossless_linkedCrates
    { first with store, poisoned := true } 7
  obtain ⟨-, rfl⟩ := Prod.mk.inj (hwrite'.symm.trans hwrite)
  rw [hpoisoned.bindsPrefix_iff lossless_linkedCrates (.refl img') (hpoisoned.withSnapshot hver)
    (Ledger.writeSnapshot_reports hwrite) hmaterial]
  exact Bool.noConfusion

end LiminalDB
