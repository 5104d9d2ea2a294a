import LiminalDB.Ledger.Validate

/-! # Applying an event: `apply_event`

The state machine of the ledger, as the source writes it: checks with early returns, in-place updates
of the projection and of the owner index. `applyEvent_eq_ok` states once and for all what a
successful application is: the event is `Accepted` and the new state is `advance`. Every property of
runs is derived from it. `atomic_applyEvent` is the other half: a rejected event changes nothing. -/

namespace LiminalDB

variable (env : Crates)

/-- `ensure_owned_by`: a reference names a record that is there and belongs to the same transition and
subject. -/
def ensureOwnedBy (state : LedgerState) (reference transitionId subjectId : String) :
    Except TransitionLedgerError Unit := do
  let owner ← okOr state.recordOwners[reference]? (.missingParent reference)
  failIf (owner.transitionId ≠ transitionId ∨ owner.subjectId ≠ subjectId)
    (.crossTransitionReference reference)

/-- `expect_optional_ref`; the two `if let Some(reference)` are loops over the option. -/
def expectOptionalRef (state : LedgerState) (actual expected : Option String) (label : String)
    (event : TransitionEvent) : Except TransitionLedgerError Unit := do
  actual.toList.forM fun reference =>
    failIf (¬ state.recordOwners.contains reference) (.missingParent reference)
  failIf (actual ≠ expected) (.parentMismatch label)
  actual.toList.forM fun reference =>
    ensureOwnedBy state reference event.body.transitionId event.body.subjectId

/-- `expect_observation_set`: a record names exactly the observations of its transition, in their
order. -/
def expectObservationSet (state : LedgerState) (actual : List String)
    (current : TransitionProjection) (event : TransitionEvent) :
    Except TransitionLedgerError Unit := do
  failIf (actual ≠ current.observationRefs) .observationSetMismatch
  actual.forM fun reference =>
    ensureOwnedBy state reference event.body.transitionId event.body.subjectId

/-- `validate_side_effect`: a side effect that was committed is not denied afterwards. -/
def validateSideEffect (previous : Bool) (update : Option Bool) : Except TransitionLedgerError Unit :=
  failIf (previous ∧ update = some false) .sideEffectRollback

/-- `validate_monotonic_dimensions`: an execution that was observed is not taken back. -/
def validateMonotonicDimensions (previous update : Option TransitionDimensions) :
    Except TransitionLedgerError Unit :=
  match previous, update with
  | some previous, some update =>
      failIf (previous.execution = .observedExecuted ∧ update.execution ≠ .observedExecuted)
        .executionRollback
  | _, _ => .ok ()

/-- `update_projection_tail`: the transition ends with this event now, and has one event more. -/
def updateProjectionTail (projection : TransitionProjection) (event : TransitionEvent) :
    TransitionProjection :=
  { projection with
    lastSequence := event.body.sequence
    lastEventHash := event.eventHash
    eventCount := projection.eventCount + 1 }

/-- The two optional fields that every record kind updates the same way. -/
def updateVerdicts (projection : TransitionProjection) (event : TransitionEvent) :
    TransitionProjection :=
  -- an absent field keeps the verdict there is, and only `Some(true)` moves the flag
  let projection := match event.body.dimensions with
    | some dimensions => { projection with dimensions := some dimensions }
    | none => projection
  if event.body.sideEffectCommitted = some true then
    { projection with sideEffectCommitted := true }
  else projection

/-- Write a projection back under its transition. -/
def LedgerState.putProjection (state : LedgerState) (transitionId : String)
    (projection : TransitionProjection) : LedgerState :=
  { state with projections := state.projections.insert transitionId projection }

/-- The update half of `apply_authorization` on an existing transition. -/
def reauthorize (projection : TransitionProjection) (event : TransitionEvent) :
    TransitionProjection :=
  -- all evidence was gathered under the authorization that is superseded here
  let projection := { projection with
    authorizationRef := some event.body.recordRef
    authorizationEpoch := projection.authorizationEpoch + 1
    observationRefs := []
    responseIntegrityRef := none
    causalAuditRef := none
    continuitySnapshotRef := none }
  updateProjectionTail (updateVerdicts projection event) event

/-- The projection `apply_authorization` creates for a new transition. -/
def newProjection (event : TransitionEvent) : TransitionProjection :=
  { transitionId := event.body.transitionId
    subjectId := event.body.subjectId
    authorizationRef := some event.body.recordRef
    authorizationEpoch := 1
    observationRefs := []
    responseIntegrityRef := none
    causalAuditRef := none
    continuitySnapshotRef := none
    dimensions := event.body.dimensions
    sideEffectCommitted := event.body.sideEffectCommitted.getD false
    lastSequence := event.body.sequence
    lastEventHash := event.eventHash
    eventCount := 1 }

/-- `apply_authorization`: what an authorization does to the ledger, be it the first of its transition or
a later one. -/
def applyAuthorization (event : TransitionEvent) :
    EStateM TransitionLedgerError LedgerState PUnit := do
  let body := event.body
  ofResult (failIf (¬ body.links.observationRefs.isEmpty ∨ body.links.responseIntegrityRef.isSome
      ∨ body.links.causalAuditRef.isSome ∨ body.links.previousContinuityRef.isSome)
    (.invalidLinks body.kind))
  let state ← get
  match state.projections[body.transitionId]? with
  | some existing => do
      ofResult (failIf (existing.subjectId ≠ body.subjectId) (.subjectMismatch body.transitionId))
      let expected ← ofResult (okOr existing.authorizationRef
        (.missingAuthorization body.transitionId))
      ofResult (failIf (body.links.authorizationRef ≠ some expected)
        .reauthorizationWithoutSupersession)
      ofResult (ensureOwnedBy state expected body.transitionId body.subjectId)
      ofResult (validateMonotonicDimensions existing.dimensions body.dimensions)
      ofResult (validateSideEffect existing.sideEffectCommitted body.sideEffectCommitted)
      -- `get_mut` under the key that was just looked up
      modify (·.putProjection body.transitionId (reauthorize existing event))
  | none => do
      ofResult (failIf body.links.authorizationRef.isSome (.invalidLinks body.kind))
      modify (·.putProjection body.transitionId (newProjection event))

/-- The first `match` of `apply_dependent_record`: the links each record kind must carry. -/
def checkDependentLinks (state : LedgerState) (current : TransitionProjection)
    (event : TransitionEvent) : Except TransitionLedgerError Unit :=
  let links := event.body.links
  match event.body.kind with
  -- `unreachable!`: `apply_event` sends authorizations elsewhere
  | .authorization => .ok ()
  | .observation =>
      failIf (¬ links.observationRefs.isEmpty ∨ links.responseIntegrityRef.isSome
          ∨ links.causalAuditRef.isSome ∨ links.previousContinuityRef.isSome)
        (.invalidLinks event.body.kind)
  | .responseIntegrity => do
      expectObservationSet state links.observationRefs current event
      failIf (links.responseIntegrityRef.isSome ∨ links.causalAuditRef.isSome
          ∨ links.previousContinuityRef.isSome)
        (.invalidLinks event.body.kind)
  | .causalAudit => do
      expectObservationSet state links.observationRefs current event
      expectOptionalRef state links.responseIntegrityRef current.responseIntegrityRef
        "response_integrity_ref" event
      failIf (links.causalAuditRef.isSome ∨ links.previousContinuityRef.isSome)
        (.invalidLinks event.body.kind)
  | .continuitySnapshot => do
      expectObservationSet state links.observationRefs current event
      expectOptionalRef state links.responseIntegrityRef current.responseIntegrityRef
        "response_integrity_ref" event
      expectOptionalRef state links.causalAuditRef current.causalAuditRef "causal_audit_ref" event
      expectOptionalRef state links.previousContinuityRef current.continuitySnapshotRef
        "previous_continuity_ref" event

/-- The second `match` of `apply_dependent_record`: which pointers each record kind moves and which
it resets. -/
def recordDependent (projection : TransitionProjection) (event : TransitionEvent) :
    TransitionProjection :=
  match event.body.kind with
  | .authorization => projection
  | .observation =>
      { projection with
        observationRefs := sortDedup (projection.observationRefs ++ [event.body.recordRef])
        responseIntegrityRef := none
        causalAuditRef := none
        continuitySnapshotRef := none }
  | .responseIntegrity =>
      { projection with
        responseIntegrityRef := some event.body.recordRef
        causalAuditRef := none
        continuitySnapshotRef := none }
  | .causalAudit =>
      { projection with
        causalAuditRef := some event.body.recordRef
        continuitySnapshotRef := none }
  | .continuitySnapshot =>
      { projection with continuitySnapshotRef := some event.body.recordRef }

/-- `apply_dependent_record`: what any other record does to the transition that is opened by its
authorization. -/
def applyDependentRecord (event : TransitionEvent) :
    EStateM TransitionLedgerError LedgerState PUnit := do
  let body := event.body
  let state ← get
  let current ← ofResult (okOr state.projections[body.transitionId]?
    (.missingAuthorization body.transitionId))
  ofResult (failIf (current.subjectId ≠ body.subjectId) (.subjectMismatch body.transitionId))
  let expectedAuthorization ← ofResult (okOr current.authorizationRef
    (.missingAuthorization body.transitionId))
  ofResult (expectOptionalRef state body.links.authorizationRef (some expectedAuthorization)
    "authorization_ref" event)
  ofResult (checkDependentLinks state current event)
  ofResult (validateMonotonicDimensions current.dimensions body.dimensions)
  ofResult (validateSideEffect current.sideEffectCommitted body.sideEffectCommitted)
  modify (·.putProjection body.transitionId
    (updateProjectionTail (updateVerdicts (recordDependent current event) event) event))

/-- The `match` of `apply_event` on the record kind. -/
def applyRecord (event : TransitionEvent) : EStateM TransitionLedgerError LedgerState PUnit :=
  match event.body.kind with
  | .authorization => applyAuthorization event
  | _ => applyDependentRecord event

/-- The last three statements of `apply_event`: index the record, move the head, count. -/
def LedgerState.record (state : LedgerState) (event : TransitionEvent) : LedgerState :=
  { state with
    recordOwners := state.recordOwners.insert event.body.recordRef
      ⟨event.body.transitionId, event.body.subjectId, event.body.kind⟩
    headEventHash := some event.eventHash
    nextSequence := state.nextSequence + 1 }

/-- `apply_event`: the checks that all events have in common, then those of the record's own kind. -/
def applyEvent (event : TransitionEvent) : EStateM TransitionLedgerError LedgerState PUnit := do
  let body := event.body
  ofResult (validateEventBody body)
  ofResult (failIf (body.schema ≠ eventSchema ∨ body.profile ≠ profile) .eventProfileMismatch)
  let state ← get
  ofResult (failIf (body.sequence ≠ state.nextSequence)
    (.sequenceMismatch state.nextSequence body.sequence))
  ofResult (failIf (body.previousEventHash ≠ state.headEventHash) .previousEventHashMismatch)
  let digest ← ofResult (digestCbor env env.eventBody body)
  ofResult (failIf (digest ≠ event.eventHash) .eventHashMismatch)
  -- the source checks these two a second time
  ofResult (validateRef body.recordRef "record_ref")
  ofResult (validateRef body.payloadDigest "payload_digest")
  ofResult (failIf (state.recordOwners.contains body.recordRef)
    (.duplicateRecordReference body.recordRef))
  applyRecord event
  modify (·.record event)

/-! ## The checks, as conditions -/

/-- The record was introduced by the given transition of the given subject. -/
def LedgerState.Owns (state : LedgerState) (reference transitionId subjectId : String) : Prop :=
  ∃ owner, state.recordOwners[reference]? = some owner ∧ owner.transitionId = transitionId ∧
    owner.subjectId = subjectId

/-- The check of an owner succeeds if the ledger owns the reference for the transition and its subject. -/
@[simp] theorem ensureOwnedBy_eq_ok {state : LedgerState} {reference tid sid : String} {u : Unit} :
    ensureOwnedBy state reference tid sid = .ok u ↔ state.Owns reference tid sid := by
  unfold ensureOwnedBy LedgerState.Owns
  simp [result_bind_eq_ok, not_or]

/-- A slot that a record repeats has to be the one of its transition, and to be owned by it. -/
@[simp] theorem expectOptionalRef_eq_ok {state : LedgerState} {actual expected : Option String}
    {label : String} {event : TransitionEvent} {u : Unit} :
    expectOptionalRef state actual expected label event = .ok u ↔
      actual = expected ∧
        ∀ r ∈ actual, state.Owns r event.body.transitionId event.body.subjectId := by
  unfold expectOptionalRef
  simp only [result_bind_eq_ok, failIf_eq_ok, forM_eq_ok, ensureOwnedBy_eq_ok, Option.mem_toList,
    not_not, ne_eq]
  constructor
  · rintro ⟨-, -, -, heq, howns⟩
    exact ⟨heq, howns⟩
  · rintro ⟨heq, howns⟩
    refine ⟨(), fun r hr => ?_, (), heq, howns⟩
    -- the first test is implied by the last one
    obtain ⟨owner, howner, -⟩ := howns r hr
    rw [Std.ExtTreeMap.contains_iff_mem, Std.ExtTreeMap.mem_iff_isSome_getElem?, howner]
    rfl

/-- So do all observations. -/
@[simp] theorem expectObservationSet_eq_ok {state : LedgerState} {actual : List String}
    {current : TransitionProjection} {event : TransitionEvent} {u : Unit} :
    expectObservationSet state actual current event = .ok u ↔
      actual = current.observationRefs ∧
        ∀ r ∈ actual, state.Owns r event.body.transitionId event.body.subjectId := by
  unfold expectObservationSet
  simp only [result_bind_eq_ok, failIf_eq_ok, forM_eq_ok, ensureOwnedBy_eq_ok, not_not, ne_eq,
    exists_const]

/-- `side_effect_committed` does not go back from true to false. -/
@[simp] theorem validateSideEffect_eq_ok {previous : Bool} {update : Option Bool} {u : Unit} :
    validateSideEffect previous update = .ok u ↔ (previous = true → update ≠ some false) := by
  unfold validateSideEffect
  rw [failIf_eq_ok, not_and]

/-- `OBSERVED_EXECUTED` is not taken back. -/
def KeepsExecution (previous update : Option TransitionDimensions) : Prop :=
  ∀ d ∈ previous, d.execution = .observedExecuted → ∀ d' ∈ update, d'.execution = .observedExecuted

/-- The check of dimensions succeeds if what is known of an execution is kept. -/
@[simp] theorem validateMonotonicDimensions_eq_ok {previous update : Option TransitionDimensions}
    {u : Unit} :
    validateMonotonicDimensions previous update = .ok u ↔ KeepsExecution previous update := by
  unfold validateMonotonicDimensions KeepsExecution
  cases previous with
  | none => simp
  | some d =>
      cases update with
      | none => simp
      | some d' =>
          rw [failIf_eq_ok]
          simp

/-! ## What an accepted event is -/

/-- The links of a record fit the current projection: each kind cites exactly the current evidence
below it and nothing above it. -/
def LinksFit (current : TransitionProjection) (input : TransitionEventInput) : Prop :=
  match input.kind with
  | .authorization | .observation =>
      input.links.observationRefs = [] ∧ input.links.responseIntegrityRef = none ∧
        input.links.causalAuditRef = none ∧ input.links.previousContinuityRef = none
  | .responseIntegrity =>
      input.links.observationRefs = current.observationRefs ∧
        input.links.responseIntegrityRef = none ∧ input.links.causalAuditRef = none ∧
        input.links.previousContinuityRef = none
  | .causalAudit =>
      input.links.observationRefs = current.observationRefs ∧
        input.links.responseIntegrityRef = current.responseIntegrityRef ∧
        input.links.causalAuditRef = none ∧ input.links.previousContinuityRef = none
  | .continuitySnapshot =>
      input.links.observationRefs = current.observationRefs ∧
        input.links.responseIntegrityRef = current.responseIntegrityRef ∧
        input.links.causalAuditRef = current.causalAuditRef ∧
        input.links.previousContinuityRef = current.continuitySnapshotRef

/-- The record continues an existing transition. -/
structure Follows (current : TransitionProjection) (input : TransitionEventInput) : Prop where
  subject : current.subjectId = input.subjectId
  authorized : current.authorizationRef.isSome
  authorization : input.links.authorizationRef = current.authorizationRef
  links : LinksFit current input
  dimensions : KeepsExecution current.dimensions input.dimensions
  sideEffect : current.sideEffectCommitted = true → input.sideEffectCommitted ≠ some false

/-- The record opens a transition: an authorization that cites nothing. -/
structure Opens (input : TransitionEventInput) : Prop where
  kind : input.kind = .authorization
  links : input.links = {}

/-- The record is the next one of a transition whose projection, if any, is `current`. This is the
part of acceptance that looks at one transition only. -/
def NextOf : Option TransitionProjection → TransitionEventInput → Prop
  | none, input => Opens input
  | some current, input => Follows current input

/-- The projection after an accepted event. -/
def nextProjection (current : Option TransitionProjection) (event : TransitionEvent) :
    TransitionProjection :=
  match current with
  | none => newProjection event
  | some current =>
      match event.body.kind with
      | .authorization => reauthorize current event
      | _ => updateProjectionTail (updateVerdicts (recordDependent current event) event) event

/-- `event` is a legal next event in `state`. -/
structure Accepted (state : LedgerState) (event : TransitionEvent) : Prop where
  canonical : Canonical event.body.input
  predecessor : ∀ h ∈ event.body.previousEventHash, IsRef h
  schema : event.body.schema = eventSchema
  profile : event.body.profile = profile
  sequence : event.body.sequence = state.nextSequence
  previous : event.body.previousEventHash = state.headEventHash
  hash : digestCbor env env.eventBody event.body = .ok event.eventHash
  fresh : state.recordOwners[event.body.recordRef]? = none
  next : NextOf state.projections[event.body.transitionId]? event.body.input
  owned : ∀ r ∈ event.body.links.refs, state.Owns r event.body.transitionId event.body.subjectId

/-- The state after an accepted event. -/
def LedgerState.advance (state : LedgerState) (event : TransitionEvent) : LedgerState :=
  (state.putProjection event.body.transitionId
    (nextProjection state.projections[event.body.transitionId]? event)).record event

/-! ## The source accepts exactly this -/

/-- The links of a dependent record, checked kind by kind, are those that fit, all of them owned. -/
theorem checkDependentLinks_eq_ok {state : LedgerState} {current : TransitionProjection}
    {event : TransitionEvent} {u : Unit} (hkind : event.body.kind ≠ .authorization)
    (hauth : ∀ r ∈ event.body.links.authorizationRef,
      state.Owns r event.body.transitionId event.body.subjectId) :
    checkDependentLinks state current event = .ok u ↔
      LinksFit current event.body.input ∧ ∀ r ∈ event.body.links.refs,
        state.Owns r event.body.transitionId event.body.subjectId := by
  rw [forall_mem_refs]
  unfold checkDependentLinks LinksFit
  simp only [TransitionEventBody.input_kind, TransitionEventBody.input_links]
  -- a slot the kind must leave empty has nothing to own, the others are checked by the source
  cases hk : event.body.kind with
  | authorization => exact absurd hk hkind
  | observation =>
      simp only [failIf_eq_ok, not_or, not_not, List.isEmpty_iff, Option.not_isSome_iff_eq_none]
      constructor
      · rintro ⟨hobs, hri, hca, hpc⟩
        exact ⟨⟨hobs, hri, hca, hpc⟩, hauth, by simp [hri], by simp [hca], by simp [hpc],
          by simp [hobs]⟩
      · rintro ⟨h, -⟩
        exact h
  | responseIntegrity =>
      simp only [result_bind_eq_ok, expectObservationSet_eq_ok, failIf_eq_ok, not_or,
        Option.not_isSome_iff_eq_none]
      constructor
      · rintro ⟨-, ⟨hobs, howns⟩, hri, hca, hpc⟩
        exact ⟨⟨hobs, hri, hca, hpc⟩, hauth, by simp [hri], by simp [hca], by simp [hpc], howns⟩
      · rintro ⟨⟨hobs, hri, hca, hpc⟩, -, -, -, -, howns⟩
        exact ⟨(), ⟨hobs, howns⟩, hri, hca, hpc⟩
  | causalAudit =>
      simp only [result_bind_eq_ok, expectObservationSet_eq_ok, expectOptionalRef_eq_ok,
        failIf_eq_ok, not_or, Option.not_isSome_iff_eq_none]
      constructor
      · rintro ⟨-, ⟨hobs, howns⟩, -, ⟨hri, hriOwns⟩, hca, hpc⟩
        exact ⟨⟨hobs, hri, hca, hpc⟩, hauth, hriOwns, by simp [hca], by simp [hpc], howns⟩
      · rintro ⟨⟨hobs, hri, hca, hpc⟩, -, hriOwns, -, -, howns⟩
        exact ⟨(), ⟨hobs, howns⟩, (), ⟨hri, hriOwns⟩, hca, hpc⟩
  | continuitySnapshot =>
      simp only [result_bind_eq_ok, expectObservationSet_eq_ok, expectOptionalRef_eq_ok]
      constructor
      · rintro ⟨-, ⟨hobs, howns⟩, -, ⟨hri, hriOwns⟩, -, ⟨hca, hcaOwns⟩, hpc, hpcOwns⟩
        exact ⟨⟨hobs, hri, hca, hpc⟩, hauth, hriOwns, hcaOwns, hpcOwns, howns⟩
      · rintro ⟨⟨hobs, hri, hca, hpc⟩, -, hriOwns, hcaOwns, hpcOwns, howns⟩
        exact ⟨(), ⟨hobs, howns⟩, (), ⟨hri, hriOwns⟩, (), ⟨hca, hcaOwns⟩, hpc, hpcOwns⟩

/-- What `apply_authorization` and `apply_dependent_record` do when they succeed. -/
def Links (event : TransitionEvent) (s s' : LedgerState) : Prop :=
  NextOf s.projections[event.body.transitionId]? event.body.input ∧
    (∀ r ∈ event.body.links.refs, s.Owns r event.body.transitionId event.body.subjectId) ∧
    s' = s.putProjection event.body.transitionId
      (nextProjection s.projections[event.body.transitionId]? event)

/-- Applying an authorization succeeds exactly if it links, and leads to the state with its projection. -/
theorem applyAuthorization_eq_ok {event : TransitionEvent} {s s' : LedgerState} {u : PUnit}
    (hkind : event.body.kind = .authorization) :
    applyAuthorization event s = .ok u s' ↔ Links event s s' := by
  unfold applyAuthorization Links
  simp only [bind_eq_ok, ofResult_eq_ok, failIf_eq_ok, get_eq_ok, not_or, not_not, List.isEmpty_iff,
    Option.not_isSome_iff_eq_none]
  cases hcur : s.projections[event.body.transitionId]? with
  | none =>
      -- the two checks together leave no link at all
      constructor
      · rintro ⟨-, _, ⟨⟨hobs, hri, hca, hpc⟩, rfl⟩, _, _, ⟨rfl, rfl⟩, hrest⟩
        simp only [hcur, bind_eq_ok, ofResult_eq_ok, failIf_eq_ok, Option.not_isSome_iff_eq_none,
          modify_eq_ok] at hrest
        obtain ⟨-, _, ⟨hauth, rfl⟩, rfl⟩ := hrest
        have hlinks : event.body.links = {} := by
          cases hl : event.body.links
          simp_all
        exact ⟨⟨hkind, hlinks⟩, by simp [hlinks, TransitionLinks.refs], rfl⟩
      · rintro ⟨⟨-, hlinks⟩, -, rfl⟩
        rw [TransitionEventBody.input_links] at hlinks
        refine ⟨⟨⟩, s, ⟨by simp [hlinks], rfl⟩, s, s, ⟨rfl, rfl⟩, ?_⟩
        simp only [hcur, bind_eq_ok, ofResult_eq_ok, failIf_eq_ok, Option.not_isSome_iff_eq_none,
          modify_eq_ok]
        exact ⟨⟨⟩, s, ⟨by simp [hlinks], rfl⟩, rfl⟩
  | some current =>
      -- the one link left is the authorization that is superseded
      constructor
      · rintro ⟨-, _, ⟨⟨hobs, hri, hca, hpc⟩, rfl⟩, _, _, ⟨rfl, rfl⟩, hrest⟩
        simp only [hcur, bind_eq_ok, ofResult_eq_ok, failIf_eq_ok, okOr_eq_ok, ensureOwnedBy_eq_ok,
          validateMonotonicDimensions_eq_ok, validateSideEffect_eq_ok, modify_eq_ok, not_not,
          ne_eq] at hrest
        obtain ⟨-, _, ⟨hsubj, rfl⟩, expected, _, ⟨hexp, rfl⟩, -, _, ⟨hauth, rfl⟩, -, _, ⟨hown, rfl⟩,
          -, _, ⟨hdim, rfl⟩, -, _, ⟨hside, rfl⟩, rfl⟩ := hrest
        refine ⟨⟨hsubj, by simp [hexp], hauth.trans hexp.symm, ?_, hdim, hside⟩, ?_, ?_⟩
        · simp only [LinksFit, TransitionEventBody.input_kind, hkind]
          exact ⟨hobs, hri, hca, hpc⟩
        · rw [forall_mem_refs]
          exact ⟨by simpa [hauth] using hown, by simp [hri], by simp [hca], by simp [hpc],
            by simp [hobs]⟩
        · simp [nextProjection, hkind]
      · rintro ⟨⟨hsubj, hsome, hauth, hfit, hdim, hside⟩, howned, rfl⟩
        simp only [LinksFit, TransitionEventBody.input_kind, hkind] at hfit
        obtain ⟨expected, hexp⟩ := Option.isSome_iff_exists.mp hsome
        refine ⟨⟨⟩, s, ⟨hfit, rfl⟩, s, s, ⟨rfl, rfl⟩, ?_⟩
        simp only [hcur, bind_eq_ok, ofResult_eq_ok, failIf_eq_ok, okOr_eq_ok, ensureOwnedBy_eq_ok,
          validateMonotonicDimensions_eq_ok, validateSideEffect_eq_ok, modify_eq_ok, not_not,
          ne_eq]
        refine ⟨⟨⟩, s, ⟨hsubj, rfl⟩, expected, s, ⟨hexp, rfl⟩, ⟨⟩, s, ⟨hauth.trans hexp, rfl⟩,
          ⟨⟩, s, ⟨(forall_mem_refs.mp howned).1 expected (hauth.trans hexp), rfl⟩, ⟨⟩, s,
          ⟨hdim, rfl⟩, ⟨⟩, s, ⟨hside, rfl⟩, ?_⟩
        simp [nextProjection, hkind]

/-- Applying a dependent record succeeds exactly if it links, and leads to the state with the projection that
it continues. -/
theorem applyDependentRecord_eq_ok {event : TransitionEvent} {s s' : LedgerState} {u : PUnit}
    (hkind : event.body.kind ≠ .authorization) :
    applyDependentRecord event s = .ok u s' ↔ Links event s s' := by
  -- for these kinds `nextProjection` is the update half of the source
  have hnext : ∀ current, nextProjection (some current) event =
      updateProjectionTail (updateVerdicts (recordDependent current event) event) event := by
    intro current
    unfold nextProjection
    split
    · contradiction
    · split
      · contradiction
      · simp_all
  unfold applyDependentRecord Links
  simp only [bind_eq_ok, ofResult_eq_ok, failIf_eq_ok, okOr_eq_ok, get_eq_ok,
    expectOptionalRef_eq_ok, validateMonotonicDimensions_eq_ok, validateSideEffect_eq_ok,
    modify_eq_ok, not_not, ne_eq]
  constructor
  · rintro ⟨_, _, ⟨rfl, rfl⟩, current, _, ⟨hcur, rfl⟩, -, _, ⟨hsubj, rfl⟩, expected, _,
      ⟨hexp, rfl⟩, -, _, ⟨⟨hauth, hown⟩, rfl⟩, _, _, ⟨hlinks, rfl⟩, -, _, ⟨hdim, rfl⟩, -, _,
      ⟨hside, rfl⟩, rfl⟩
    obtain ⟨hfit, howned⟩ := (checkDependentLinks_eq_ok hkind hown).mp hlinks
    rw [hcur, hnext]
    exact ⟨⟨hsubj, by simp [hexp], hauth.trans hexp.symm, hfit, hdim, hside⟩, howned, rfl⟩
  · cases hcur : s.projections[event.body.transitionId]? with
    | none =>
        rintro ⟨hopens, -, -⟩
        exact absurd hopens.kind hkind
    | some current =>
        rintro ⟨⟨hsubj, hsome, hauth, hfit, hdim, hside⟩, howned, rfl⟩
        obtain ⟨expected, hexp⟩ := Option.isSome_iff_exists.mp hsome
        have hown := (forall_mem_refs.mp howned).1
        refine ⟨s, s, ⟨rfl, rfl⟩, current, s, ⟨hcur, rfl⟩, ⟨⟩, s, ⟨hsubj, rfl⟩, expected, s,
          ⟨hexp, rfl⟩, ⟨⟩, s, ⟨⟨hauth.trans hexp, hown⟩, rfl⟩, ⟨⟩, s,
          ⟨(checkDependentLinks_eq_ok hkind hown).mpr ⟨hfit, howned⟩, rfl⟩, ⟨⟩, s, ⟨hdim, rfl⟩,
          ⟨⟩, s, ⟨hside, rfl⟩, ?_⟩
        rw [hnext]

/-- Which of the two it is, is up to the kind of the record. -/
theorem applyRecord_eq (event : TransitionEvent) :
    applyRecord event = if event.body.kind = .authorization then applyAuthorization event
      else applyDependentRecord event := by
  unfold applyRecord
  cases event.body.kind <;> rfl

/-- Applying a record of any kind succeeds exactly if it links, and leads to the state that the links say. -/
theorem applyRecord_eq_ok {event : TransitionEvent} {s s' : LedgerState} {u : PUnit} :
    applyRecord event s = .ok u s' ↔ Links event s s' := by
  rw [applyRecord_eq]
  by_cases hkind : event.body.kind = .authorization
  · rw [if_pos hkind, applyAuthorization_eq_ok hkind]
  · rw [if_neg hkind, applyDependentRecord_eq_ok hkind]

variable {env}

/-- **What `apply_event` does.** It succeeds exactly on the accepted events, and then the state is
advanced by the event. -/
theorem applyEvent_eq_ok {event : TransitionEvent} {s s' : LedgerState} {u : PUnit} :
    applyEvent env event s = .ok u s' ↔ Accepted env s event ∧ s' = s.advance event := by
  have hfresh : ¬ s.recordOwners.contains event.body.recordRef = true ↔
      s.recordOwners[event.body.recordRef]? = none := by
    rw [Std.ExtTreeMap.contains_iff_mem, Std.ExtTreeMap.mem_iff_isSome_getElem?,
      Option.not_isSome_iff_eq_none]
  unfold applyEvent
  simp only [bind_eq_ok, ofResult_eq_ok, failIf_eq_ok, get_eq_ok, validateRef_eq_ok, modify_eq_ok,
    applyRecord_eq_ok, validateEventBody_eq_ok, not_or, not_not, ne_eq]
  -- no check writes, so every intermediate state is `s`; the repeated checks say nothing new
  constructor
  · rintro ⟨-, _, ⟨⟨hcan, hpred⟩, rfl⟩, -, _, ⟨⟨hschema, hprofile⟩, rfl⟩, _, _, ⟨rfl, rfl⟩, -, _,
      ⟨hseq, rfl⟩, -, _, ⟨hprev, rfl⟩, digest, _, ⟨hdigest, rfl⟩, -, _, ⟨rfl, rfl⟩, -, _, ⟨-, rfl⟩,
      -, _, ⟨-, rfl⟩, -, _, ⟨hnew, rfl⟩, -, _, ⟨hnext, howned, rfl⟩, rfl⟩
    exact ⟨⟨hcan, hpred, hschema, hprofile, hseq, hprev, hdigest, hfresh.mp hnew, hnext, howned⟩,
      rfl⟩
  · rintro ⟨⟨hcan, hpred, hschema, hprofile, hseq, hprev, hdigest, hnew, hnext, howned⟩, rfl⟩
    exact ⟨⟨⟩, s, ⟨⟨hcan, hpred⟩, rfl⟩, ⟨⟩, s, ⟨⟨hschema, hprofile⟩, rfl⟩, s, s, ⟨rfl, rfl⟩, ⟨⟩, s,
      ⟨hseq, rfl⟩, ⟨⟩, s, ⟨hprev, rfl⟩, event.eventHash, s, ⟨hdigest, rfl⟩, ⟨⟩, s, ⟨rfl, rfl⟩, ⟨⟩, s,
      ⟨hcan.recordRef, rfl⟩, ⟨⟩, s, ⟨hcan.payloadDigest, rfl⟩, ⟨⟩, s, ⟨hfresh.mpr hnew, rfl⟩, ⟨⟩, _,
      ⟨hnext, howned, rfl⟩, rfl⟩

/-- An accepted event is applied. -/
theorem Accepted.applyEvent_eq {event : TransitionEvent} {s : LedgerState}
    (h : Accepted env s event) : applyEvent env event s = .ok ⟨⟩ (s.advance event) :=
  applyEvent_eq_ok.mpr ⟨h, rfl⟩

/-! ## From an input to an event -/

/-- The body `append` builds from a normalised input: the ledger adds schema, profile, sequence
number and the hash of the predecessor. -/
def nextBody (state : LedgerState) (input : TransitionEventInput) : TransitionEventBody :=
  { schema := eventSchema
    profile := profile
    sequence := state.nextSequence
    transitionId := input.transitionId
    subjectId := input.subjectId
    kind := input.kind
    recordRef := input.recordRef
    payloadDigest := input.payloadDigest
    links := input.links
    dimensions := input.dimensions
    sideEffectCommitted := input.sideEffectCommitted
    capturedAtMs := input.capturedAtMs
    previousEventHash := state.headEventHash }

/-- The event `append` builds: the body and the hash of it all. -/
def buildEvent (env : Crates) (state : LedgerState) (input : TransitionEventInput) :
    Except TransitionLedgerError TransitionEvent := do
  let body := nextBody state input
  let eventHash ← digestCbor env env.eventBody body
  return ⟨body, eventHash⟩

/-- The part of `append` before anything is written: normalise, build the event and apply it to a
clone of the state. -/
def prepareEvent (env : Crates) (input : TransitionEventInput) (state : LedgerState) :
    Except TransitionLedgerError (TransitionEvent × LedgerState) := do
  let normalized ← normalizeInput input
  let event ← buildEvent env state normalized
  match applyEvent env event state with
  | .ok _ candidate => .ok (event, candidate)
  | .error e _ => .error e

/-- The body of an accepted event is determined by its caller part and by the state. -/
theorem Accepted.body_eq {event : TransitionEvent} {s : LedgerState} (h : Accepted env s event) :
    event.body = nextBody s event.body.input := by
  unfold nextBody
  rw [← h.sequence, ← h.previous, ← h.schema, ← h.profile]
  rfl

/-- **The write path.** An input is recorded as `event` exactly when that is an accepted event whose
caller part is the normal form of the input. -/
theorem prepareEvent_eq_ok {input : TransitionEventInput} {s s' : LedgerState}
    {event : TransitionEvent} :
    prepareEvent env input s = .ok (event, s') ↔
      event.body.input = input.normalized ∧ Accepted env s event ∧ s' = s.advance event := by
  unfold prepareEvent buildEvent
  simp only [result_bind_eq_ok, normalizeInput_eq_ok]
  constructor
  · rintro ⟨_, ⟨-, rfl⟩, event', ⟨hash, hhash, hevent⟩, happly⟩
    cases hevent
    split at happly
    · rename_i candidate hok
      cases happly
      exact ⟨rfl, applyEvent_eq_ok.mp hok⟩
    · cases happly
  · rintro ⟨hinput, hacc, rfl⟩
    refine ⟨_, ⟨hinput ▸ hacc.canonical, rfl⟩, event, ⟨event.eventHash, ?_⟩, ?_⟩
    · rw [← hinput, ← hacc.body_eq]
      exact ⟨hacc.hash, rfl⟩
    · rw [hacc.applyEvent_eq]

/-- What the ledger asks of a normalised input: that it is canonical, that its record is new, and
that it is the next one of its transition. -/
structure Admits (state : LedgerState) (input : TransitionEventInput) : Prop where
  canonical : Canonical input
  fresh : state.recordOwners[input.recordRef]? = none
  next : NextOf state.projections[input.transitionId]? input

/-- An accepted event carries an admitted input. -/
theorem Accepted.admits {event : TransitionEvent} {s : LedgerState} (h : Accepted env s event) :
    Admits s event.body.input :=
  ⟨h.canonical, h.fresh, h.next⟩

/-- An admitted input becomes an accepted event, where the head can be cited and the transition owns
the records cited. -/
theorem Admits.exists_accepted {input : TransitionEventInput} {s : LedgerState} (h : Admits s input)
    (hbody : ∀ body, ∃ bytes, env.eventBody body = .ok bytes)
    (hhead : ∀ head ∈ s.headEventHash, IsRef head)
    (howned : ∀ r ∈ input.links.refs, s.Owns r input.transitionId input.subjectId) :
    ∃ event, event.body.input = input ∧ Accepted env s event := by
  obtain ⟨bytes, hbytes⟩ := hbody (nextBody s input)
  refine ⟨⟨nextBody s input, sha256Ref env bytes⟩, rfl, ?_⟩
  exact ⟨h.canonical, hhead, rfl, rfl, rfl, rfl, digestCbor_eq_ok.mpr ⟨bytes, hbytes, rfl⟩, h.fresh,
    h.next, howned⟩

/-! ## A rejected event changes nothing -/

/-- An authorization that fails leaves the state as it was. -/
theorem atomic_applyAuthorization (event : TransitionEvent) : Atomic (applyAuthorization event) := by
  unfold applyAuthorization
  refine .bind_readOnly (.ofResult _) fun _ => .bind_readOnly .get fun state => ?_
  split
  · exact .bind_readOnly (.ofResult _) fun _ => .bind_readOnly (.ofResult _) fun _ =>
      .bind_readOnly (.ofResult _) fun _ => .bind_readOnly (.ofResult _) fun _ =>
      .bind_readOnly (.ofResult _) fun _ => .bind_readOnly (.ofResult _) fun _ =>
      (Total.modify _).atomic
  · exact .bind_readOnly (.ofResult _) fun _ => (Total.modify _).atomic

/-- So does a dependent record that fails. -/
theorem atomic_applyDependentRecord (event : TransitionEvent) :
    Atomic (applyDependentRecord event) := by
  unfold applyDependentRecord
  exact .bind_readOnly .get fun _ => .bind_readOnly (.ofResult _) fun _ =>
    .bind_readOnly (.ofResult _) fun _ => .bind_readOnly (.ofResult _) fun _ =>
    .bind_readOnly (.ofResult _) fun _ => .bind_readOnly (.ofResult _) fun _ =>
    .bind_readOnly (.ofResult _) fun _ => .bind_readOnly (.ofResult _) fun _ =>
    (Total.modify _).atomic

/-- A rejected event leaves the state as it was: all checks of `apply_event` come before its first
write. -/
theorem atomic_applyEvent (event : TransitionEvent) : Atomic (applyEvent env event) := by
  unfold applyEvent
  -- after the match on the kind nothing can fail any more
  refine .bind_readOnly (.ofResult _) fun _ => .bind_readOnly (.ofResult _) fun _ =>
    .bind_readOnly .get fun _ => .bind_readOnly (.ofResult _) fun _ =>
    .bind_readOnly (.ofResult _) fun _ => .bind_readOnly (.ofResult _) fun _ =>
    .bind_readOnly (.ofResult _) fun _ => .bind_readOnly (.ofResult _) fun _ =>
    .bind_readOnly (.ofResult _) fun _ => .bind_readOnly (.ofResult _) fun _ =>
    .bind_total ?_ fun _ => Total.modify _
  rw [applyRecord_eq]
  exact .ite (atomic_applyAuthorization event) (atomic_applyDependentRecord event)

end LiminalDB
