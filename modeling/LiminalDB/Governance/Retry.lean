import LiminalDB.Governance.Chain
import LiminalDB.Ledger.SnapshotReplace

/-! # Retrying a stopped call

A call that stops once its append has been issued may have left the event in the log. The ledger takes
no second event with the same record, so the same envelope then never gets a bundle.
`governance_retry_iff` says that this is the only obstacle: the envelope can be presented again exactly
if the append failed before its frame was complete. -/

namespace LiminalDB.Governance

/-! ## Roots -/

section Roots

variable {env : Crates}

/-- A root that is new, or that a run of a ledger left when it was closed. -/
def RootReachable (env : Crates) (root : Root) : Prop :=
  root = Root.empty ∨ ∃ ledger : Ledger, ledger.Reachable env ∧ root = ledger.root

/-- Opening such a root gives a usable ledger. -/
theorem RootReachable.recovers (henv : env.Lossless) {root : Root} (h : RootReachable env root)
    {ledger : Ledger} (hopen : Ledger.open env root = .ok ledger) :
    ledger.poisoned = false ∧ ∃ img events, Recovers env ledger img events none := by
  refine ⟨?_, ?_⟩
  · obtain ⟨store, full, -, -, -, rfl⟩ := Ledger.openWithRotation_eq_ok.mp hopen
    rfl
  · rcases h with rfl | ⟨closed, hclosed, rfl⟩
    · obtain ⟨fresh, hopen', -, hfresh⟩ :=
        recovers_fresh henv (by decide : defaultSegmentSize ≠ 0)
      obtain rfl := Except.ok.inj (hopen'.symm.trans hopen)
      exact ⟨_, _, hfresh⟩
    · obtain ⟨img, events, pending, hrecovers⟩ := hclosed.recovers henv
      exact ⟨_, _, hrecovers.reopen henv (by decide) hopen⟩

/-- Whatever is in the snapshot directory, a root that opens has the history of its log. -/
theorem state_of_open (henv : env.Lossless) {ledger opened : Ledger} {img : WalImage}
    {events : List TransitionEvent} {pending : Option TransitionEvent}
    (h : Recovers env ledger img events pending) {snap : SnapDir}
    (hopen : Ledger.open env ⟨ledger.store.dataDir, snap⟩ = .ok opened) :
    opened.state = ledger.state.withPending pending := by
  obtain ⟨store, full, hstore, -, hfull, rfl⟩ := Ledger.openWithRotation_eq_ok.mp hopen
  obtain ⟨store', hstore', -, hreplay⟩ := h.full_replay henv (by decide : defaultSegmentSize ≠ 0)
  obtain rfl := Except.ok.inj (hstore'.symm.trans hstore)
  exact Except.ok.inj (hfull.symm.trans hreplay)

/-- The root opens, and its log holds one event with the record. -/
def HoldsOnce (env : Crates) (root : Root) (reference : String) : Prop :=
  ∃ ledger records events, Ledger.open env root = .ok ledger ∧
    ledger.store.streamFrom env.crc32 Offset.start = .ok (records, none) ∧
    Encoded env events records ∧ events.countP (·.body.recordRef = reference) = 1

/-- The last event of a history has a record that no other event has. -/
theorem holdsOnce_of_recovers (henv : env.Lossless) {ledger : Ledger} {img : WalImage}
    {events : List TransitionEvent} {event : TransitionEvent}
    (h : Recovers env ledger img (events ++ [event]) none) :
    HoldsOnce env ledger.root event.body.recordRef := by
  obtain ⟨store, hopen, hstore, -⟩ := h.reopen_of_synced henv h.synced
    (by decide : defaultSegmentSize ≠ 0)
  have hstart := (WalImage.locates_start env.crc32 img h.first_eq).tear .clean
  have hencoded : Encoded env (events ++ [event]) img.records := by simpa using h.encoded
  refine ⟨_, img.records, events ++ [event], hopen, hstore.streamFrom_eq hstart, hencoded, ?_⟩
  obtain ⟨before, hbefore, hacc, -⟩ := History.snoc_iff.mp h.history
  have hnone : events.countP (·.body.recordRef = event.body.recordRef) = 0 :=
    List.countP_eq_zero.mpr fun e he => by simpa using hbefore.fresh_iff.mp hacc.fresh e he
  rw [List.countP_append, hnone, List.countP_singleton]
  simp

/-- The event of an envelope carries its reference. -/
theorem recordRef_of_prepareEvent {envelope : GovernanceTransitionEnvelope} {event : TransitionEvent}
    {state candidate : LedgerState}
    (hprep : prepareEvent env (eventInput envelope) state = .ok (event, candidate)) :
    event.body.recordRef = envelope.envelopeRef :=
  congrArg (·.recordRef) (prepareEvent_eq_ok.mp hprep).1

end Roots

/-! ## Stops -/

/-- Where a call can stop once its append has been issued. -/
inductive Stop
  /-- The append fails in the storage, at this stage, and poisons the ledger. -/
  | append (failpoint : AppendFailpoint)
  /-- `write_snapshot` fails, or the process dies in it, and leaves this in the snapshot directory. -/
  | snapshot (dir : SnapDir)
  /-- `checkpoint_material`, `sign` or what comes after them fails, or the process dies there. -/
  | bundle

/-- The directories that a stopped `write_snapshot` can leave. -/
def snapshotVisits (env : Crates) (createdAtMs : UInt64) (ledger : Ledger) : Set SnapDir :=
  match SnapDir.encodedBytes env createdAtMs ledger with
  | some bytes => (SnapDir.replaceSteps bytes).visits ledger.snap
  | none => {ledger.snap}

variable {env : GovernanceCrates}

/-- A call on `root` passes its first checks, opens the ledger, issues its append, and stops so that it
leaves `stopped` on disk. -/
def StopsAt (env : GovernanceCrates) (envelope : GovernanceTransitionEnvelope) (issuedAtMs : UInt64)
    (root : Root) (stop : Stop) (stopped : Root) : Prop :=
  precheck env envelope issuedAtMs = .ok () ∧
  ∃ ledger, Ledger.open env.toCrates root = .ok ledger ∧
    match stop with
    | .append failpoint =>
        (ledger.append env.toCrates (eventInput envelope) failpoint).2.poisoned = true ∧
          stopped = (ledger.append env.toCrates (eventInput envelope) failpoint).2.root
    | .snapshot dir =>
        ∃ event after, ledger.append env.toCrates (eventInput envelope) .disabled =
            (.ok event, after) ∧
          dir ∈ snapshotVisits env.toCrates issuedAtMs after ∧ stopped = ⟨after.store.dataDir, dir⟩
    | .bundle =>
        ∃ event after info last, ledger.append env.toCrates (eventInput envelope) .disabled =
            (.ok event, after) ∧
          after.writeSnapshot env.toCrates issuedAtMs = (.ok info, last) ∧ stopped = last.root

/-- The append fails before its frame is complete. -/
def Stop.beforeFrame : Stop → Bool
  | .append failpoint => !failpoint.completes
  | _ => false

/-- Presenting the envelope again on what the stopped call left: there is a bundle for it, and the log
then holds one event of it. -/
def Retries (env : GovernanceCrates) (envelope : GovernanceTransitionEnvelope)
    (signer : CheckpointSigner) (retriedAtMs : UInt64) (stopped : Root) : Prop :=
  ∃ bundle after, appendGovernanceCheckpoint env envelope signer retriedAtMs .disabled stopped =
      (.ok bundle, after) ∧ bundle.envelope = envelope ∧
    HoldsOnce env.toCrates after envelope.envelopeRef

section Retry

variable {envelope : GovernanceTransitionEnvelope} {signer : CheckpointSigner}
  {issuedAtMs retriedAtMs : UInt64} {root stopped : Root} {ledger : Ledger} {img : WalImage}
  {events : List TransitionEvent} {event : TransitionEvent}

/-- Once the log holds the event of an envelope, the envelope gets no bundle, whatever is in the
snapshot directory. -/
theorem not_retries_of_recorded (henv : env.Sound) {pending : Option TransitionEvent}
    (h : Recovers env.toCrates ledger img events pending) (hmem : event ∈ events ++ pending.toList)
    (hrecord : event.body.recordRef = envelope.envelopeRef) (snap : SnapDir) :
    ¬ Retries env envelope signer retriedAtMs ⟨ledger.store.dataDir, snap⟩ := by
  rintro ⟨bundle, after, hcall, -⟩
  obtain ⟨opened, event', candidate, hopen, hprep⟩ := prepared_of_append (congrArg Prod.fst hcall)
  rw [state_of_open henv.lossless h hopen] at hprep
  -- an accepted record is new
  have hfresh := (prepareEvent_eq_ok.mp hprep).2.1.fresh
  rw [recordRef_of_prepareEvent hprep] at hfresh
  exact h.history_all.fresh_iff.mp hfresh event hmem hrecord

/-- A call whose append was acknowledged has the event in its log. -/
theorem recovers_of_appended (h : Recovers env.toCrates ledger img events none)
    (hp : ledger.poisoned = false)
    (hfits : (LedgerOp.append (eventInput envelope) .disabled).Fits env.toCrates ledger)
    {after : Ledger}
    (happend : ledger.append env.toCrates (eventInput envelope) .disabled = (.ok event, after)) :
    ∃ img', Recovers env.toCrates after img' (events ++ [event]) none ∧
      event.body.recordRef = envelope.envelopeRef := by
  rcases ledger.append_cases (eventInput envelope) .disabled with
    ⟨e, he⟩ | ⟨-, event', candidate, bytes, hprep, hbytes⟩
  · rw [he] at happend
    cases happend
  · have hlen := hfits hp event' candidate bytes hprep hbytes
    obtain ⟨after', happend', -, -, hafter⟩ := h.append_ok hp hprep hbytes hlen
    obtain ⟨hevent, rfl⟩ := Prod.mk.inj (happend'.symm.trans happend)
    obtain rfl := Except.ok.inj hevent
    exact ⟨_, hafter, recordRef_of_prepareEvent hprep⟩

/-- A call whose append failed can be retried exactly if its frame is not complete. -/
theorem retries_failed_iff (henv : env.Sound) (h : Recovers env.toCrates ledger img events none)
    (hp : ledger.poisoned = false)
    (hfits : (LedgerOp.append (eventInput envelope) .disabled).Fits env.toCrates ledger)
    {failpoint : AppendFailpoint}
    (hpoisons : (ledger.append env.toCrates (eventInput envelope) failpoint).2.poisoned = true)
    (hsigner : signer.Usable) (henvelope : Presentable env envelope retriedAtMs) :
    Retries env envelope signer retriedAtMs
        (ledger.append env.toCrates (eventInput envelope) failpoint).2.root ↔
      failpoint.completes = false := by
  obtain ⟨hfail, event, candidate, bytes, hprep, hbytes⟩ := Ledger.append_poisons hp hpoisons
  have hlen := hfits hp event candidate bytes hprep hbytes
  obtain ⟨store, img', -, happend, hfailed, -⟩ := h.append_failed hp hprep hbytes hlen hfail
  rw [happend]
  cases hcompletes : failpoint.completes with
  | true =>
      have hahead : failpoint.ahead event = some event := if_pos hcompletes
      rw [hahead] at hfailed
      refine iff_of_false ?_ nofun
      exact not_retries_of_recorded henv hfailed (List.mem_append_right _ (by simp))
        (recordRef_of_prepareEvent hprep) _
  | false =>
      have hahead : failpoint.ahead event = none := if_neg (by simp [hcompletes])
      rw [hahead] at hfailed
      refine iff_of_true ?_ rfl
      -- the ledger opens as it was before the append, and accepts the envelope again
      obtain ⟨store', hopen, -⟩ := hfailed.reopen_of_synced henv.lossless hfailed.synced
        (by decide : defaultSegmentSize ≠ 0)
      have hopened := hfailed.reopen henv.lossless (by decide) hopen
      rw [Option.toList_none, List.append_nil] at hopened
      obtain ⟨bundle, last, img'', hcall, hof, -, hlast⟩ :=
        appendGovernanceCheckpoint_eq henv hsigner henvelope hopen rfl hopened hprep hbytes hlen
      refine ⟨bundle, last.root, hcall, hof, ?_⟩
      rw [← recordRef_of_prepareEvent hprep]
      exact holdsOnce_of_recovers henv.lossless hlast

/-- **A stopped call can be retried exactly if its append failed before its frame was complete.** Every
later stop leaves the event in the log and the envelope without a bundle for ever. -/
theorem governance_retry_iff (henv : env.Sound) (hroot : RootReachable env.toCrates root) {stop : Stop}
    (hstop : StopsAt env envelope issuedAtMs root stop stopped)
    (hfits : ∀ ledger, Ledger.open env.toCrates root = .ok ledger →
      (LedgerOp.append (eventInput envelope) .disabled).Fits env.toCrates ledger)
    {signerId keyId : String} {seed : List.Vector UInt8 32}
    (hsigner : CheckpointSigner.fromSeed signerId keyId seed = .ok signer)
    (hretried : envelope.body.capturedAtMs ≤ retriedAtMs) :
    Retries env envelope signer retriedAtMs stopped ↔ stop.beforeFrame = true := by
  obtain ⟨hprecheck, ledger, hopen, hstop⟩ := hstop
  obtain ⟨hp, img, events, hledger⟩ := hroot.recovers henv.lossless hopen
  obtain ⟨hvalid, hdigest, -⟩ := precheck_eq_ok.mp hprecheck
  cases stop with
  | append failpoint =>
      obtain ⟨hpoisons, rfl⟩ := hstop
      rw [retries_failed_iff henv hledger hp (hfits ledger hopen) hpoisons
        (CheckpointSigner.usable_of_fromSeed hsigner) ⟨hvalid, hdigest, hretried⟩, Stop.beforeFrame,
        Bool.not_eq_true']
  | snapshot dir =>
      obtain ⟨event, after, happend, -, rfl⟩ := hstop
      obtain ⟨img', hafter, hrecord⟩ :=
        recovers_of_appended hledger hp (hfits ledger hopen) happend
      exact iff_of_false (not_retries_of_recorded henv hafter (by simp) hrecord dir) nofun
  | bundle =>
      obtain ⟨event, after, info, last, happend, hwrite, rfl⟩ := hstop
      obtain ⟨img', hafter, hrecord⟩ :=
        recovers_of_appended hledger hp (hfits ledger hopen) happend
      -- the snapshot leaves the log as it is
      obtain ⟨bytes, info', hwrite', -⟩ := after.writeSnapshot_eq henv.lossless issuedAtMs
      obtain ⟨-, rfl⟩ := Prod.mk.inj (hwrite'.symm.trans hwrite)
      exact iff_of_false (not_retries_of_recorded henv hafter (by simp) hrecord _) nofun

end Retry

/-! ### A reservation that stops -/

/-- The reservation on a new root, up to its append. -/
theorem exists_issued (failpoint : AppendFailpoint) : ∃ ledger event candidate bytes,
    Ledger.open linkedCrates Root.empty = .ok ledger ∧ ledger.poisoned = false ∧
    Recovers linkedCrates ledger WalImage.empty [] none ∧
    prepareEvent linkedCrates (eventInput (envelopeOf reserveBody)) ledger.state =
      .ok (event, candidate) ∧
    linkedCrates.event.toVec event = .ok bytes ∧ bytes.length < 2 ^ 32 ∧
    (LedgerOp.append (eventInput (envelopeOf reserveBody)) failpoint).Fits linkedCrates ledger := by
  obtain ⟨store, -, -, hopen⟩ :=
    Ledger.openWithRotation_empty lossless_linkedCrates (by decide : defaultSegmentSize ≠ 0)
  obtain ⟨fresh, hopen', hp, hfresh⟩ :=
    recovers_fresh lossless_linkedCrates (by decide : defaultSegmentSize ≠ 0)
  obtain rfl := Except.ok.inj (hopen.symm.trans hopen')
  have hadm : Admits LedgerState.default (eventInput (envelopeOf reserveBody)) :=
    ⟨canonical_eventInput rfl, rfl, rfl, rfl⟩
  obtain ⟨event, -, -, hprep⟩ := History.nil.prepareEvent_of_admits lossless_linkedCrates hadm
  have hfits : (LedgerOp.append (eventInput (envelopeOf reserveBody)) failpoint).Fits linkedCrates
      ⟨store, {}, .default, false⟩ :=
    fits_eventInput (by decide : 1 < 2 ^ 64) reserveBody failpoint
  exact ⟨_, event, _, _, hopen, rfl, hfresh, hprep, rfl, hfits rfl event _ _ hprep rfl, hfits⟩

/-- The envelope of the reservation may be presented at its time. -/
theorem precheck_reserveBody :
    precheck linkedGovernanceCrates (envelopeOf reserveBody) 11 = .ok () :=
  precheck_eq_ok.mpr (presentable_envelopeOf validateBody_reserveBody (by decide))

/-- The append of a reservation fails behind its payload. -/
theorem governance_retry_torn :
    ∃ stopped, StopsAt linkedGovernanceCrates (envelopeOf reserveBody) 11 Root.empty
        (.append .afterPayloadWrite) stopped ∧
      Retries linkedGovernanceCrates (envelopeOf reserveBody) sampleSigner 20 stopped := by
  obtain ⟨ledger, event, candidate, bytes, hopen, hp, hledger, hprep, hbytes, hlen, hfits⟩ :=
    exists_issued .disabled
  obtain ⟨store, img', -, happend, -⟩ := hledger.append_failed hp hprep hbytes hlen
    (by decide : AppendFailpoint.afterPayloadWrite ≠ .disabled)
  have hstop : StopsAt linkedGovernanceCrates (envelopeOf reserveBody) 11 Root.empty
      (.append .afterPayloadWrite) _ :=
    ⟨precheck_reserveBody, ledger, hopen, congrArg (·.2.poisoned) happend, rfl⟩
  refine ⟨_, hstop, ?_⟩
  refine (governance_retry_iff sound_linkedGovernanceCrates (.inl rfl) hstop ?_
    fromSeed_sampleSigner (by decide : reserveBody.capturedAtMs ≤ 20)).mpr rfl
  intro opened hopened
  obtain rfl := Except.ok.inj (hopen.symm.trans hopened)
  exact hfits

/-- A reservation that is recorded and not answered can not be presented again. -/
theorem governance_retry_refused :
    ∃ stopped, StopsAt linkedGovernanceCrates (envelopeOf reserveBody) 11 Root.empty .bundle
        stopped ∧
      ¬ Retries linkedGovernanceCrates (envelopeOf reserveBody) sampleSigner 20 stopped := by
  obtain ⟨ledger, event, candidate, bytes, hopen, hp, hledger, hprep, hbytes, hlen, -⟩ :=
    exists_issued .disabled
  obtain ⟨after, happend, -, -, hafter⟩ := hledger.append_ok hp hprep hbytes hlen
  obtain ⟨file, info, hwrite, -⟩ := after.writeSnapshot_eq lossless_linkedCrates 11
  have hmem : event ∈ ([] ++ [event]) ++ (none : Option TransitionEvent).toList := by simp
  have hrefused : ¬ Retries linkedGovernanceCrates (envelopeOf reserveBody) sampleSigner 20
      ⟨after.store.dataDir, { file := some file }⟩ :=
    not_retries_of_recorded sound_linkedGovernanceCrates hafter hmem (recordRef_of_prepareEvent hprep) _
  exact ⟨_, ⟨precheck_reserveBody, ledger, hopen, event, after, info, _, happend, hwrite, rfl⟩,
    hrefused⟩

end LiminalDB.Governance
