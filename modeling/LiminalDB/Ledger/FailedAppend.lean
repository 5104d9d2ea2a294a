import LiminalDB.Ledger.Recovery

/-! # After a failed append

A failed write poisons the ledger, and from then on it refuses to append. It still takes snapshots,
of the state before the failed append and of the end of the log. Where the frame of the failed append
is complete the two do not belong together: the snapshot skips the event that the full replay finds,
and the root does not open any more. `failed_append_recovers_iff` says that this is the only way in
which a failed append bricks a ledger. -/

namespace LiminalDB

variable {env : Crates}

/-! ## Reachable ledgers -/

/-- The ledger can be reached from a new root by appends, made to fail or not, by snapshots and by
reopenings, all of which fit. -/
def Ledger.Reachable (env : Crates) (ledger : Ledger) : Prop :=
  ∃ (rotation : UInt64) (fresh : Ledger) (ops : List LedgerOp), rotation ≠ 0 ∧
    Ledger.openWithRotation env Root.empty rotation = .ok fresh ∧ fresh.FitsAlong env ops ∧
    fresh.run env ops = .ok ledger

/-- Every ledger that is reached recovers, by induction over the calls that have led to it. -/
theorem Ledger.Reachable.recovers (henv : env.Lossless) {ledger : Ledger}
    (h : ledger.Reachable env) : ∃ img events pending, Recovers env ledger img events pending := by
  obtain ⟨rotation, fresh, ops, hrotation, hopen, hfits, hrun⟩ := h
  obtain ⟨fresh', hopen', -, hfresh⟩ := recovers_fresh henv hrotation
  obtain rfl := Except.ok.inj (hopen'.symm.trans hopen)
  obtain ⟨img, events, pending, -, hlast, -⟩ := hfresh.run henv hfits hrun
  exact ⟨img, events, pending, hlast⟩

/-- The step is a call on the open ledger. -/
def LedgerOp.IsCall : LedgerOp → Prop
  | .reopen _ => False
  | _ => True

/-- The snapshot in the directory was taken at the end of the log. -/
def SnapshotNow (env : Crates) (snap : SnapDir) (img : WalImage) (events : List TransitionEvent)
    (pending : Option TransitionEvent) : Prop :=
  ∃ bytes, snap.file = some bytes ∧
    SnapshotAt env img events bytes events.length (events.length + pending.toList.length)

namespace Recovers

variable {ledger : Ledger} {img : WalImage} {events : List TransitionEvent}
  {pending : Option TransitionEvent}

/-- **One call on a poisoned ledger.** Appends do nothing; snapshots are taken. -/
theorem step_poisoned (henv : env.Lossless) (h : Recovers env ledger img events pending)
    (hp : ledger.poisoned = true) {op : LedgerOp} (hop : op.IsCall) :
    ∃ ledger', ledger.step env op = .ok ledger' ∧ ledger'.poisoned = true ∧
      ledger'.state = ledger.state ∧ Recovers env ledger' img events pending ∧
      (op.isSnapshot = false → ledger' = ledger) ∧
      (op.isSnapshot = true → SnapshotNow env ledger'.snap img events pending) := by
  cases hsnapshot : op.isSnapshot with
  | true =>
      obtain ⟨bytes, hstep, hver⟩ := ledger.step_of_isSnapshot henv hsnapshot
      exact ⟨_, hstep, hp, rfl, h.withSnapshot hver, nofun, fun _ => ⟨bytes, rfl, h.snapshotAt_now hver⟩⟩
  | false =>
      -- `append` is the only call that looks at the flag
      refine ⟨ledger, ?_, hp, rfl, h, fun _ => rfl, nofun⟩
      cases op with
      | append input failpoint =>
          obtain ⟨e, he⟩ := Ledger.append_of_rejected (.inl hp) failpoint
          rw [Ledger.step, he]
      | writeSnapshot createdAtMs => cases hsnapshot
      | writeSnapshotCrashSafe createdAtMs => cases hsnapshot
      | reopen rotation => exact absurd hop id

/-- **Every sequence of calls on a poisoned ledger.** -/
theorem run_poisoned (henv : env.Lossless) {calls : List LedgerOp}
    (hcalls : ∀ op ∈ calls, op.IsCall) (h : Recovers env ledger img events pending)
    (hp : ledger.poisoned = true) :
    ∃ last, ledger.run env calls = .ok last ∧ last.state = ledger.state ∧
      Recovers env last img events pending ∧
      ((∀ op ∈ calls, op.isSnapshot = false) → last = ledger) ∧
      (SnapshotNow env ledger.snap img events pending ∨ (∃ op ∈ calls, op.isSnapshot = true) →
        SnapshotNow env last.snap img events pending) := by
  induction calls generalizing ledger with
  | nil =>
      refine ⟨ledger, rfl, rfl, h, fun _ => rfl, ?_⟩
      rintro (hnow | ⟨op, hop, -⟩)
      · exact hnow
      · cases hop
  | cons op calls ih =>
      obtain ⟨ledger', hstep, hp', hstate, hnext, hsame, hnow⟩ :=
        h.step_poisoned henv hp (hcalls op List.mem_cons_self)
      obtain ⟨last, hrun, hlastState, hlast, hlastSame, hlastNow⟩ :=
        ih (fun op hop => hcalls op (List.mem_cons_of_mem _ hop)) hnext hp'
      refine ⟨last, result_bind_eq_ok.mpr ⟨ledger', hstep, hrun⟩, hlastState.trans hstate, hlast,
        ?_, ?_⟩
      · intro hnone
        rw [List.forall_mem_cons] at hnone
        rw [hlastSame hnone.2, hsame hnone.1]
      · intro hsome
        apply hlastNow
        -- the first call takes a snapshot, or leaves the directory as it was
        cases hsnapshot : op.isSnapshot with
        | true => exact .inl (hnow hsnapshot)
        | false =>
            rw [hsame hsnapshot]
            rcases hsome with hbefore | ⟨op', hop', hsnapshot'⟩
            · exact .inl hbefore
            · rcases List.mem_cons.mp hop' with rfl | hmem
              · rw [hsnapshot] at hsnapshot'
                cases hsnapshot'
              · exact .inr ⟨op', hmem, hsnapshot'⟩

end Recovers

/-- Opening the root of `last` succeeds with the state of `ledger`, or with that state extended by
exactly the event of `input`. -/
def RecoversFailed (env : Crates) (ledger : Ledger) (input : TransitionEventInput) (last : Ledger)
    (rotation : UInt64) : Prop :=
  ∃ reopened, Ledger.openWithRotation env last.root rotation = .ok reopened ∧
    (reopened.state = ledger.state ∨
      ∃ event, prepareEvent env input ledger.state = .ok (event, reopened.state))

/-- An append poisons a usable ledger exactly by getting to the log and failing there. -/
theorem Ledger.append_poisons {ledger : Ledger} {input : TransitionEventInput}
    {failpoint : AppendFailpoint} (hp : ledger.poisoned = false)
    (hpoisons : (ledger.append env input failpoint).2.poisoned = true) :
    failpoint ≠ .disabled ∧ ∃ event candidate bytes,
      prepareEvent env input ledger.state = .ok (event, candidate) ∧
      env.event.toVec event = .ok bytes := by
  rcases ledger.append_cases input failpoint with
    ⟨e, he⟩ | ⟨-, event, candidate, bytes, hprep, hbytes⟩
  · rw [he, hp] at hpoisons
    cases hpoisons
  · refine ⟨?_, event, candidate, bytes, hprep, hbytes⟩
    rintro rfl
    obtain ⟨offset, hoffset⟩ := Store.append_disabled_isOk env.crc32 ledger.store bytes
    rw [Ledger.append_of_stored hp hprep hbytes hoffset, hp] at hpoisons
    cases hpoisons

/-- **When a failed append does not brick the ledger.** On every reachable ledger, after an append
whose write fails at any stage, so that it poisons the ledger, and after any further calls, opening
the root recovers the state before the append or that state with its event, exactly when the frame
of the failed append is incomplete or none of the further calls takes a snapshot. -/
theorem failed_append_recovers_iff (henv : env.Lossless) {ledger : Ledger}
    (hreach : ledger.Reachable env) (hp : ledger.poisoned = false) {input : TransitionEventInput}
    {failpoint : AppendFailpoint} (hfits : (LedgerOp.append input failpoint).Fits env ledger)
    (hpoisons : (ledger.append env input failpoint).2.poisoned = true) {calls : List LedgerOp}
    (hcalls : ∀ op ∈ calls, op.IsCall) {rotation : UInt64} (hrotation : rotation ≠ 0) :
    ∃ last, (ledger.append env input failpoint).2.run env calls = .ok last ∧
      (RecoversFailed env ledger input last rotation ↔
        failpoint.completes = false ∨ ∀ op ∈ calls, op.isSnapshot = false) := by
  obtain ⟨img, events, pending, h⟩ := hreach.recovers henv
  obtain rfl := (h.usable hp).2
  obtain ⟨hfail, event, candidate, bytes, hprep, hbytes⟩ := Ledger.append_poisons hp hpoisons
  have hlen := hfits hp event candidate bytes hprep hbytes
  obtain ⟨store, img', -, happend, hfailed, hsynced⟩ := h.append_failed hp hprep hbytes hlen hfail
  obtain ⟨last, hrun, hstate, hlast, hsame, hnow⟩ := hfailed.run_poisoned henv hcalls rfl
  rw [happend]
  refine ⟨last, hrun, ?_⟩
  have hcandidate := (prepareEvent_eq_ok.mp hprep).2.2
  -- a snapshot that is not ahead lets the root open
  have opens : (∀ file ∈ last.snap.file, ∃ taken, SnapshotAt env img' events file taken taken) →
      RecoversFailed env ledger input last rotation := by
    intro hlastSynced
    obtain ⟨store', hopen, -⟩ := hlast.reopen_of_synced henv hlastSynced hrotation
    refine ⟨_, hopen, ?_⟩
    show last.state.withPending (failpoint.ahead event) = ledger.state ∨ ∃ event',
      prepareEvent env input ledger.state =
        .ok (event', last.state.withPending (failpoint.ahead event))
    rw [hstate]
    unfold AppendFailpoint.ahead
    cases failpoint.completes with
    | false => exact .inl rfl
    | true =>
        refine .inr ⟨event, ?_⟩
        rw [hprep, hcandidate]
        rfl
  constructor
  · -- a snapshot over a complete frame is one event ahead of the state it holds
    intro hrecovers
    by_contra hboth
    rw [not_or] at hboth
    obtain ⟨hcomplete, hsnapshot⟩ := hboth
    push Not at hsnapshot
    obtain ⟨op, hop, hsnap⟩ := hsnapshot
    have hahead : failpoint.ahead event = some event := if_pos (by simpa using hcomplete)
    rw [hahead] at hlast hnow
    obtain ⟨file, hfile, hat⟩ := hnow (.inr ⟨op, hop, by simpa using hsnap⟩)
    obtain ⟨reopened, hopen, -⟩ := hrecovers
    rw [hlast.reopen_of_ahead henv hat hfile hrotation] at hopen
    cases hopen
  · -- without a complete frame no snapshot can be ahead, and without a call none is new
    rintro (hincomplete | hnone)
    · have hahead : failpoint.ahead event = none := if_neg (by simp [hincomplete])
      rw [hahead] at hlast
      exact opens hlast.synced
    · apply opens
      rw [hsame hnone]
      exact hsynced

/-! ### The opening of a new ledger -/

/-- On a new ledger the opening of `transition-001` gets to the log, and fails there when it is made
to. -/
theorem failed_opening {rotation : UInt64} (hrotation : rotation ≠ 0) {failpoint : AppendFailpoint}
    (hfail : failpoint ≠ .disabled) :
    ∃ (fresh : Ledger) (store : Store) (img : WalImage) (event : TransitionEvent),
      Ledger.openWithRotation linkedCrates Root.empty rotation = .ok fresh ∧
      fresh.poisoned = false ∧ fresh.state = .default ∧
      fresh.append linkedCrates openingInput failpoint =
        (.error (.storage (.injected failpoint)), { fresh with store, poisoned := true }) ∧
      Recovers linkedCrates { fresh with store, poisoned := true } img [] (failpoint.ahead event) := by
  obtain ⟨store, -, -, hopen⟩ := Ledger.openWithRotation_empty lossless_linkedCrates hrotation
  obtain ⟨fresh, hopen', hp, hfresh⟩ := recovers_fresh lossless_linkedCrates hrotation
  obtain rfl := Except.ok.inj (hopen.symm.trans hopen')
  obtain ⟨event, candidate, hprep, -⟩ :=
    prepareEvent_openingOf canonical_openingInput.transitionId
  have hlen := fits_openingInput rfl failpoint hp event candidate _ hprep rfl
  obtain ⟨store', img, -, happend, hfailed, -⟩ := hfresh.append_failed hp hprep rfl hlen hfail
  exact ⟨_, store', img, event, hopen, rfl, rfl, happend, hfailed⟩

/-- A failed append without its checksum, and then two snapshots and a refused append: the state
before the append is recovered. -/
theorem failed_append_recovers_torn :
    ∃ fresh last, Ledger.openWithRotation linkedCrates Root.empty 64 = .ok fresh ∧
      (fresh.append linkedCrates openingInput .afterPayloadWrite).2.run linkedCrates
        [.writeSnapshot 7, .append openingInput .disabled, .writeSnapshotCrashSafe 8] = .ok last ∧
      RecoversFailed linkedCrates fresh openingInput last 32 := by
  obtain ⟨fresh, store, img, event, hopen, hp, hstate, happend, -⟩ :=
    failed_opening (by decide : (64 : UInt64) ≠ 0) (by decide : AppendFailpoint.afterPayloadWrite ≠ .disabled)
  obtain ⟨last, hrun, hiff⟩ := failed_append_recovers_iff lossless_linkedCrates
    ⟨64, fresh, [], by decide, hopen, trivial, rfl⟩ hp
    (fits_openingInput hstate .afterPayloadWrite) (by rw [happend])
    (by simp [LedgerOp.IsCall] : ∀ op ∈ [.writeSnapshot 7, .append openingInput .disabled,
      .writeSnapshotCrashSafe 8], LedgerOp.IsCall op) (by decide : (32 : UInt64) ≠ 0)
  exact ⟨fresh, last, hopen, hrun, hiff.mpr (.inl rfl)⟩

/-- A failed append whose frame is complete, and then a snapshot: the root does not open. -/
theorem failed_append_bricks :
    ∃ fresh last, Ledger.openWithRotation linkedCrates Root.empty defaultSegmentSize = .ok fresh ∧
      (fresh.append linkedCrates openingInput .afterSyncBeforeAck).1 =
        .error (.storage (.injected .afterSyncBeforeAck)) ∧
      (fresh.append linkedCrates openingInput .afterSyncBeforeAck).2.run linkedCrates
        [.writeSnapshot 7] = .ok last ∧
      Ledger.openWithRotation linkedCrates last.root defaultSegmentSize =
        .error .replayProjectionMismatch ∧
      ¬ RecoversFailed linkedCrates fresh openingInput last defaultSegmentSize := by
  obtain ⟨fresh, store, img, event, hopen, hp, hstate, happend, hfailed⟩ :=
    failed_opening (by decide : defaultSegmentSize ≠ 0)
      (by decide : AppendFailpoint.afterSyncBeforeAck ≠ .disabled)
  obtain ⟨last, hrun, -, hlast, -, hnow⟩ := hfailed.run_poisoned lossless_linkedCrates
    (by simp [LedgerOp.IsCall] : ∀ op ∈ [LedgerOp.writeSnapshot 7], op.IsCall) rfl
  obtain ⟨bytes, hfile, hat⟩ := hnow (.inr ⟨_, List.mem_singleton_self _, rfl⟩)
  have hmismatch := hlast.reopen_of_ahead lossless_linkedCrates hat hfile
    (by decide : defaultSegmentSize ≠ 0)
  refine ⟨fresh, last, hopen, ?_, ?_, hmismatch, ?_⟩
  · rw [happend]
  · rw [happend]
    exact hrun
  · rintro ⟨reopened, hreopen, -⟩
    rw [hmismatch] at hreopen
    cases hreopen

end LiminalDB
