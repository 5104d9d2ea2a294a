import LiminalDB.Foundations.MapSum
import LiminalDB.Ledger.History

/-! # The representation invariant of `LedgerState`

The owner index, the projections, the head of the chain and the counters are written by different
functions. `LedgerInvariant` is what holds between them after every accepted history: every reference
in a projection is indexed under that transition, that subject and the kind of its slot; the counters
count; the head belongs to exactly one projection. It makes two error branches of `apply_event`
unreachable (`LedgerInvariant.raises_applyEvent`). -/

namespace LiminalDB

variable {env : Crates}

/-! ## Reading the state after an event -/

/-- The two verdict fields, in closed form. -/
theorem updateVerdicts_eq (p : TransitionProjection) (e : TransitionEvent) :
    updateVerdicts p e =
      { p with
        dimensions := e.body.dimensions.or p.dimensions
        sideEffectCommitted :=
          p.sideEffectCommitted || decide (e.body.sideEffectCommitted = some true) } := by
  unfold updateVerdicts
  cases e.body.dimensions <;> by_cases h : e.body.sideEffectCommitted = some true <;> simp [h]

namespace LedgerState

variable (s : LedgerState) (e : TransitionEvent)

/-- Every event takes the next sequence number. -/
@[simp] theorem advance_nextSequence : (s.advance e).nextSequence = s.nextSequence + 1 := rfl

/-- The event is the head of its ledger. -/
@[simp] theorem advance_headEventHash : (s.advance e).headEventHash = some e.eventHash := rfl

/-- The projection of its transition is the next one. -/
@[simp] theorem advance_projection_self :
    (s.advance e).projections[e.body.transitionId]? =
      some (nextProjection s.projections[e.body.transitionId]? e) :=
  Std.ExtTreeMap.getElem?_insert_self

/-- The projections of other transitions stay. -/
theorem advance_projection_of_ne {tid : String} (h : tid ≠ e.body.transitionId) :
    (s.advance e).projections[tid]? = s.projections[tid]? :=
  getElem?_insert_of_ne h

/-- Its record belongs to its transition and subject from then on. -/
@[simp] theorem advance_owner_self :
    (s.advance e).recordOwners[e.body.recordRef]? =
      some ⟨e.body.transitionId, e.body.subjectId, e.body.kind⟩ :=
  Std.ExtTreeMap.getElem?_insert_self

/-- The owners of other records stay. -/
theorem advance_owner_of_ne {r : String} (h : r ≠ e.body.recordRef) :
    (s.advance e).recordOwners[r]? = s.recordOwners[r]? :=
  getElem?_insert_of_ne h

variable {s e}

/-- A projection after an event is the next one of the event's transition, or an old one. -/
theorem advance_projection_cases {tid : String} {p : TransitionProjection}
    (h : (s.advance e).projections[tid]? = some p) :
    (tid = e.body.transitionId ∧ p = nextProjection s.projections[e.body.transitionId]? e) ∨
      (tid ≠ e.body.transitionId ∧ s.projections[tid]? = some p) := by
  by_cases htid : tid = e.body.transitionId
  · subst htid
    rw [advance_projection_self, Option.some.injEq] at h
    exact .inl ⟨rfl, h.symm⟩
  · rw [advance_projection_of_ne s e htid] at h
    exact .inr ⟨htid, h⟩

end LedgerState

/-- An indexed record stays indexed: the accepted event's own record is a new one. -/
theorem Accepted.owner_kept {s : LedgerState} {e : TransitionEvent} (h : Accepted env s e)
    {r : String} {owner : RecordOwner} (howner : s.recordOwners[r]? = some owner) :
    (s.advance e).recordOwners[r]? = some owner := by
  rw [LedgerState.advance_owner_of_ne s e, howner]
  rintro rfl
  rw [h.fresh] at howner
  cases howner

/-! ## The next projection -/

/-- The references of a projection with the kind of the slot each sits in. -/
def TransitionProjection.slots (p : TransitionProjection) : List (TransitionRecordKind × String) :=
  p.authorizationRef.toList.map (.authorization, ·) ++ p.observationRefs.map (.observation, ·)
    ++ p.responseIntegrityRef.toList.map (.responseIntegrity, ·)
    ++ p.causalAuditRef.toList.map (.causalAudit, ·)
    ++ p.continuitySnapshotRef.toList.map (.continuitySnapshot, ·)

section NextProjection

variable {p : TransitionProjection} {e : TransitionEvent}

/-- An event of an existing transition keeps its identity and counts itself. -/
theorem nextProjection_some_tail (p : TransitionProjection) (e : TransitionEvent) :
    (nextProjection (some p) e).transitionId = p.transitionId ∧
      (nextProjection (some p) e).subjectId = p.subjectId ∧
      (nextProjection (some p) e).eventCount = p.eventCount + 1 := by
  cases hk : e.body.kind <;>
    simp [nextProjection, hk, reauthorize, recordDependent, updateVerdicts_eq, updateProjectionTail]

/-- Whatever the transition, its last event is now this one. -/
theorem nextProjection_last (current : Option TransitionProjection) (e : TransitionEvent) :
    (nextProjection current e).lastSequence = e.body.sequence ∧
      (nextProjection current e).lastEventHash = e.eventHash := by
  cases current with
  | none => exact ⟨rfl, rfl⟩
  | some p => cases hk : e.body.kind <;> simp [nextProjection, hk, reauthorize, updateProjectionTail]

/-- The only new reference in a projection is the event's own record, in the slot of its kind. -/
theorem slots_nextProjection_some {x : TransitionRecordKind × String}
    (hx : x ∈ (nextProjection (some p) e).slots) :
    x ∈ p.slots ∨ x = (e.body.kind, e.body.recordRef) := by
  cases hk : e.body.kind <;>
    simp only [nextProjection, hk, reauthorize, recordDependent, updateVerdicts_eq,
      updateProjectionTail, TransitionProjection.slots, Option.toList_some, Option.toList_none,
      List.map_cons, List.map_nil, List.append_nil, List.mem_append, List.mem_map, List.mem_cons,
      List.not_mem_nil, or_false, mem_sortDedup] at hx ⊢ <;>
    grind

/-- A transition stays authorized. -/
theorem authorized_nextProjection_some (h : p.authorizationRef.isSome) (e : TransitionEvent) :
    (nextProjection (some p) e).authorizationRef.isSome := by
  cases hk : e.body.kind <;>
    simp [nextProjection, hk, reauthorize, recordDependent, updateVerdicts_eq,
      updateProjectionTail, h]

/-- The observation references stay strictly increasing. -/
theorem sorted_nextProjection_some (h : p.observationRefs.Pairwise (· < ·)) (e : TransitionEvent) :
    (nextProjection (some p) e).observationRefs.Pairwise (· < ·) := by
  cases hk : e.body.kind with
  | observation =>
      simp only [nextProjection, hk, recordDependent, updateVerdicts_eq, updateProjectionTail]
      exact sortDedup_pairwise _
  | authorization => simp [nextProjection, hk, reauthorize, updateVerdicts_eq, updateProjectionTail]
  | responseIntegrity =>
      simpa [nextProjection, hk, recordDependent, updateVerdicts_eq, updateProjectionTail] using h
  | causalAudit =>
      simpa [nextProjection, hk, recordDependent, updateVerdicts_eq, updateProjectionTail] using h
  | continuitySnapshot =>
      simpa [nextProjection, hk, recordDependent, updateVerdicts_eq, updateProjectionTail] using h

end NextProjection

/-! ## The invariant -/

/-- What holds between the parts of a reachable state. -/
structure LedgerInvariant (s : LedgerState) : Prop where
  /-- A projection is stored under its own transition. -/
  keyed : ∀ {tid : String} {p : TransitionProjection}, s.projections[tid]? = some p →
    p.transitionId = tid
  /-- Every reference held by a projection is indexed under that projection's transition and
  subject, with the kind of the slot it sits in. -/
  slots_owned : ∀ {tid : String} {p : TransitionProjection}, s.projections[tid]? = some p →
    ∀ kind r, (kind, r) ∈ p.slots →
      s.recordOwners[r]? = some ⟨p.transitionId, p.subjectId, kind⟩
  /-- Every transition has an authorization. -/
  authorized : ∀ {tid : String} {p : TransitionProjection}, s.projections[tid]? = some p →
    p.authorizationRef.isSome
  /-- The observation references are strictly increasing. -/
  observations_sorted : ∀ {tid : String} {p : TransitionProjection},
    s.projections[tid]? = some p → p.observationRefs.Pairwise (· < ·)
  /-- The sequence counts the indexed records. -/
  sequence_owners : s.nextSequence = 1 + s.recordOwners.size
  /-- The sequence counts the events of all transitions. -/
  sequence_events : s.nextSequence = 1 + valueSum TransitionProjection.eventCount s.projections
  /-- There is no head exactly when there is no event. -/
  head_none_iff : s.headEventHash = none ↔ s.nextSequence = 1
  /-- The head is the last event of the projection with the last sequence number. -/
  head_last : ∀ head, s.headEventHash = some head →
    ∃ (tid : String) (p : TransitionProjection), s.projections[tid]? = some p ∧
      p.lastSequence = s.nextSequence - 1 ∧ p.lastEventHash = head
  /-- No projection is ahead of the ledger. -/
  last_lt : ∀ {tid : String} {p : TransitionProjection}, s.projections[tid]? = some p →
    p.lastSequence < s.nextSequence
  /-- Different transitions have different last sequence numbers. -/
  last_injective : ∀ {tid tid' : String} {p p' : TransitionProjection},
    s.projections[tid]? = some p → s.projections[tid']? = some p' →
      p.lastSequence = p'.lastSequence → tid = tid'

/-- The empty state has no projections and no owners, so that there is nothing to violate. -/
theorem ledgerInvariant_default : LedgerInvariant .default where
  keyed h := by cases h
  slots_owned h := by cases h
  authorized h := by cases h
  observations_sorted h := by cases h
  sequence_owners := rfl
  sequence_events := rfl
  head_none_iff := iff_of_true rfl rfl
  head_last := nofun
  last_lt h := by cases h
  last_injective h := by cases h

section Step

variable {s : LedgerState} {e : TransitionEvent}

/-- What an accepted event finds: no projection and an opening record, or one and a record that
follows it. -/
theorem Accepted.next_cases (h : Accepted env s e) :
    (s.projections[e.body.transitionId]? = none ∧ Opens e.body.input) ∨
      ∃ p, s.projections[e.body.transitionId]? = some p ∧ Follows p e.body.input := by
  have hnext := h.next
  cases hcur : s.projections[e.body.transitionId]? with
  | none =>
      rw [hcur] at hnext
      exact .inl ⟨rfl, hnext⟩
  | some p =>
      rw [hcur] at hnext
      exact .inr ⟨p, rfl, hnext⟩

/-- The next projection keeps the per-projection part of the invariant. -/
theorem LedgerInvariant.next (hinv : LedgerInvariant s) (hacc : Accepted env s e) :
    let p := nextProjection s.projections[e.body.transitionId]? e
    p.transitionId = e.body.transitionId ∧ p.subjectId = e.body.subjectId ∧
      p.authorizationRef.isSome ∧ p.observationRefs.Pairwise (· < ·) ∧
      ∀ kind r, (kind, r) ∈ p.slots →
        (s.advance e).recordOwners[r]? = some ⟨e.body.transitionId, e.body.subjectId, kind⟩ := by
  rcases hacc.next_cases with ⟨hnone, hopens⟩ | ⟨p, hsome, hfollows⟩
  · -- a new transition has one slot, that of its authorization
    rw [hnone]
    refine ⟨rfl, rfl, rfl, List.Pairwise.nil, ?_⟩
    intro kind r hr
    obtain ⟨rfl, rfl⟩ : kind = .authorization ∧ r = e.body.recordRef := by
      simpa [nextProjection, newProjection, TransitionProjection.slots] using hr
    have hkind : e.body.kind = .authorization := hopens.kind
    rw [LedgerState.advance_owner_self, hkind]
  · rw [hsome]
    obtain ⟨htid, hsid, -⟩ := nextProjection_some_tail p e
    have hkey := hinv.keyed hsome
    have hsubj : p.subjectId = e.body.subjectId := hfollows.subject
    refine ⟨htid.trans hkey, hsid.trans hsubj,
      authorized_nextProjection_some (hinv.authorized hsome) e,
      sorted_nextProjection_some (hinv.observations_sorted hsome) e, ?_⟩
    -- each slot was there before, or is the one the event fills with its own record
    intro kind r hr
    rcases slots_nextProjection_some hr with hold | hnew
    · rw [hacc.owner_kept (hinv.slots_owned hsome kind r hold), hkey, hsubj]
    · cases hnew
      exact LedgerState.advance_owner_self s e

/-- **One step.** Every accepted event keeps the invariant. -/
theorem LedgerInvariant.advance (hinv : LedgerInvariant s) (hacc : Accepted env s e) :
    LedgerInvariant (s.advance e) := by
  obtain ⟨htid, hsid, hauth, hsorted, hslots⟩ := hinv.next hacc
  obtain ⟨hlastSeq, hlastHash⟩ := nextProjection_last s.projections[e.body.transitionId]? e
  rw [hacc.sequence] at hlastSeq
  constructor
  case keyed =>
    intro tid p hp
    rcases LedgerState.advance_projection_cases hp with ⟨rfl, rfl⟩ | ⟨-, hold⟩
    · exact htid
    · exact hinv.keyed hold
  case slots_owned =>
    intro tid p hp kind r hr
    rcases LedgerState.advance_projection_cases hp with ⟨rfl, rfl⟩ | ⟨-, hold⟩
    · rw [htid, hsid]
      exact hslots kind r hr
    · exact hacc.owner_kept (hinv.slots_owned hold kind r hr)
  case authorized =>
    intro tid p hp
    rcases LedgerState.advance_projection_cases hp with ⟨rfl, rfl⟩ | ⟨-, hold⟩
    · exact hauth
    · exact hinv.authorized hold
  case observations_sorted =>
    intro tid p hp
    rcases LedgerState.advance_projection_cases hp with ⟨rfl, rfl⟩ | ⟨-, hold⟩
    · exact hsorted
    · exact hinv.observations_sorted hold
  case sequence_owners =>
    have hfresh : e.body.recordRef ∉ s.recordOwners := by
      rw [Std.ExtTreeMap.mem_iff_isSome_getElem?, hacc.fresh]
      exact Bool.false_ne_true
    have hsize : (s.advance e).recordOwners.size = s.recordOwners.size + 1 :=
      Std.ExtTreeMap.size_insert.trans (if_neg hfresh)
    rw [LedgerState.advance_nextSequence, hsize, hinv.sequence_owners, Nat.add_assoc]
  case sequence_events =>
    -- one count goes up by one, from zero if the transition is new
    rw [LedgerState.advance_nextSequence, hinv.sequence_events]
    show _ = 1 + valueSum _ (s.projections.insert _ _)
    rcases hacc.next_cases with ⟨hnone, -⟩ | ⟨p, hsome, -⟩
    · rw [valueSum_insert_new _ hnone, hnone, Nat.add_assoc]
      rfl
    · have hsum := valueSum_insert_old (v := nextProjection (some p) e)
        TransitionProjection.eventCount hsome
      rw [(nextProjection_some_tail p e).2.2] at hsum
      rw [hsome]
      omega
  case head_none_iff =>
    rw [LedgerState.advance_headEventHash, LedgerState.advance_nextSequence]
    have hpos := hinv.sequence_owners
    exact iff_of_false nofun (by omega)
  case head_last =>
    intro head hhead
    cases hhead
    refine ⟨_, _, LedgerState.advance_projection_self s e, ?_, hlastHash⟩
    rw [hlastSeq]
    rfl
  case last_lt =>
    intro tid p hp
    rcases LedgerState.advance_projection_cases hp with ⟨rfl, rfl⟩ | ⟨-, hold⟩
    · rw [hlastSeq]
      exact Nat.lt_succ_self _
    · exact Nat.lt_succ_of_lt (hinv.last_lt hold)
  case last_injective =>
    -- the new last sequence number is larger than every old one
    intro tid tid' p p' hp hp' heq
    rcases LedgerState.advance_projection_cases hp with ⟨rfl, rfl⟩ | ⟨-, hold⟩ <;>
      rcases LedgerState.advance_projection_cases hp' with ⟨rfl, rfl⟩ | ⟨-, hold'⟩
    · rfl
    · have hlt := hinv.last_lt hold'
      omega
    · have hlt := hinv.last_lt hold
      omega
    · exact hinv.last_injective hold hold' heq

end Step

/-- **Every run.** The invariant holds after every accepted history. -/
theorem History.invariant {events : List TransitionEvent} {s : LedgerState}
    (h : History env events s) : LedgerInvariant s :=
  h.rec_on ledgerInvariant_default fun _ _ _ _ ih hacc => ih.advance hacc

/-! ## Error branches that are never taken -/

/-- The errors `apply_event` can raise in a reachable state: no existing transition lacks its
authorization, and no reference that equals the projection's own belongs to another transition. -/
def Reachable (s : LedgerState) (e : TransitionEvent) (error : TransitionLedgerError) : Prop :=
  (∀ tid, error = .missingAuthorization tid → s.projections[e.body.transitionId]? = none) ∧
    ∀ r, error ≠ .crossTransitionReference r

section Raises

variable {s : LedgerState} {e : TransitionEvent}

/-- Checking a reference raises no error that a reachable state rules out: it says that the text is no
reference, and nothing else. -/
theorem raises_validateRef (reference label : String) :
    Raises (Reachable s e) (validateRef reference label) :=
  .failIf fun _ => ⟨nofun, nofun⟩

/-- Nor does checking an optional reference, which is checked only if it is given. -/
theorem raises_validateOptionalRef (reference : Option String) (label : String) :
    Raises (Reachable s e) (validateOptionalRef reference label) := by
  cases reference with
  | none => exact .ok _
  | some r => exact raises_validateRef r label

/-- Nor does checking the body of an event, each of whose checks raises an error about the body alone. -/
theorem raises_validateEventBody (body : TransitionEventBody) :
    Raises (Reachable s e) (validateEventBody body) := by
  unfold validateEventBody validateCanonicalIdentifier
  exact .bind (.failIf fun _ => ⟨nofun, nofun⟩) fun _ _ =>
    .bind (.failIf fun _ => ⟨nofun, nofun⟩) fun _ _ =>
    .bind (raises_validateRef _ _) fun _ _ => .bind (raises_validateRef _ _) fun _ _ =>
    .bind (raises_validateOptionalRef _ _) fun _ _ =>
    .bind (raises_validateOptionalRef _ _) fun _ _ =>
    .bind (raises_validateOptionalRef _ _) fun _ _ =>
    .bind (raises_validateOptionalRef _ _) fun _ _ =>
    .bind (raises_validateOptionalRef _ _) fun _ _ =>
    .bind (.forM fun r _ => raises_validateRef r _) fun _ _ =>
    .bind (.failIf fun _ => ⟨nofun, nofun⟩) fun _ _ => .failIf fun _ => ⟨nofun, nofun⟩

/-- Nor does computing a digest, which fails only where the body cannot be encoded. -/
theorem raises_digestCbor {α : Type} (toVec : α → Except String Bytes) (value : α) :
    Raises (Reachable s e) (digestCbor env toVec value) := by
  unfold digestCbor
  cases toVec value with
  | ok bytes => exact .ok _
  | error message =>
      rintro _ ⟨⟩
      exact ⟨nofun, nofun⟩

/-- Nor does comparing dimensions with those known before. -/
theorem raises_validateMonotonicDimensions (previous update : Option TransitionDimensions) :
    Raises (Reachable s e) (validateMonotonicDimensions previous update) := by
  cases previous with
  | none => exact .ok _
  | some d =>
      cases update with
      | none => exact .ok _
      | some d' => exact .failIf fun _ => ⟨nofun, nofun⟩

/-- After the comparison with a reference the transition owns, `ensure_owned_by` does not fail. -/
theorem raises_expectOptionalRef {actual expected : Option String} (label : String)
    (howned : ∀ r ∈ expected, s.Owns r e.body.transitionId e.body.subjectId) :
    Raises (Reachable s e) (expectOptionalRef s actual expected label e) := by
  unfold expectOptionalRef
  refine .bind (.forM fun _ _ => .failIf fun _ => ⟨nofun, nofun⟩) fun _ _ =>
    .bind (.failIf fun _ => ⟨nofun, nofun⟩) fun _ heq => .forM fun r hr => ?_
  rw [failIf_eq_ok, not_not] at heq
  exact .of_ok (ensureOwnedBy_eq_ok.mpr (howned r (heq ▸ Option.mem_toList.mp hr)) : _ = Except.ok ())

/-- Comparing the observations of a record with those of its transition raises a mismatch at most; that a
projection names a record of another transition is ruled out. -/
theorem raises_expectObservationSet {actual : List String} {p : TransitionProjection}
    (howned : ∀ r ∈ p.observationRefs, s.Owns r e.body.transitionId e.body.subjectId) :
    Raises (Reachable s e) (expectObservationSet s actual p e) := by
  unfold expectObservationSet
  refine .bind (.failIf fun _ => ⟨nofun, nofun⟩) fun _ heq => .forM fun r hr => ?_
  rw [failIf_eq_ok, not_not] at heq
  exact .of_ok (ensureOwnedBy_eq_ok.mpr (howned r (heq ▸ hr)) : _ = Except.ok ())

end Raises

/-- The references of the slots, one field at a time. -/
theorem forall_mem_slots {p : TransitionProjection} {P : TransitionRecordKind → String → Prop} :
    (∀ kind r, (kind, r) ∈ p.slots → P kind r) ↔
      (∀ r ∈ p.authorizationRef, P .authorization r) ∧
      (∀ r ∈ p.observationRefs, P .observation r) ∧
      (∀ r ∈ p.responseIntegrityRef, P .responseIntegrity r) ∧
      (∀ r ∈ p.causalAuditRef, P .causalAudit r) ∧
      ∀ r ∈ p.continuitySnapshotRef, P .continuitySnapshot r := by
  simp only [TransitionProjection.slots, List.mem_append, List.mem_map, Option.mem_toList,
    Prod.mk.injEq]
  constructor
  · intro h
    exact ⟨fun r hr => h _ r (.inl (.inl (.inl (.inl ⟨r, hr, rfl, rfl⟩)))),
      fun r hr => h _ r (.inl (.inl (.inl (.inr ⟨r, hr, rfl, rfl⟩)))),
      fun r hr => h _ r (.inl (.inl (.inr ⟨r, hr, rfl, rfl⟩))),
      fun r hr => h _ r (.inl (.inr ⟨r, hr, rfl, rfl⟩)), fun r hr => h _ r (.inr ⟨r, hr, rfl, rfl⟩)⟩
  · rintro ⟨h₁, h₂, h₃, h₄, h₅⟩ kind r
      ((((⟨a, ha, rfl, rfl⟩ | ⟨a, ha, rfl, rfl⟩) | ⟨a, ha, rfl, rfl⟩) | ⟨a, ha, rfl, rfl⟩)
        | ⟨a, ha, rfl, rfl⟩)
    · exact h₁ a ha
    · exact h₂ a ha
    · exact h₃ a ha
    · exact h₄ a ha
    · exact h₅ a ha

namespace LedgerInvariant

variable {s : LedgerState} {e : TransitionEvent}

/-- A projection's references are owned by its transition, for every later check. -/
theorem owns (hinv : LedgerInvariant s) {tid : String} {p : TransitionProjection}
    (hp : s.projections[tid]? = some p) :
    ∀ kind r, (kind, r) ∈ p.slots → s.Owns r tid p.subjectId :=
  fun kind r hr => ⟨_, hinv.slots_owned hp kind r hr, hinv.keyed hp, rfl⟩

/-- Applying an authorization raises no error that a reachable state rules out. -/
theorem raises_applyAuthorization (hinv : LedgerInvariant s) :
    RaisesFrom (Reachable s e) (applyAuthorization e) s := by
  unfold applyAuthorization
  refine .bind_result (.failIf fun _ => ⟨nofun, nofun⟩) fun _ _ => .bind_get ?_
  cases hcur : s.projections[e.body.transitionId]? with
  | none =>
      exact .bind_result (.failIf fun _ => ⟨nofun, nofun⟩) fun _ _ => .modify _
  | some p =>
      refine .bind_result (.failIf fun _ => ⟨nofun, nofun⟩) fun _ hsubj => ?_
      rw [failIf_eq_ok, not_not] at hsubj
      obtain ⟨expected, hexp⟩ := Option.isSome_iff_exists.mp (hinv.authorized hcur)
      have hown : s.Owns expected e.body.transitionId e.body.subjectId :=
        hsubj ▸ (forall_mem_slots.mp (hinv.owns hcur)).1 expected hexp
      rw [hexp]
      exact .bind_result (.ok expected) fun expected' hexp' =>
        .bind_result (.failIf fun _ => ⟨nofun, nofun⟩) fun _ _ =>
        .bind_result (.of_ok (by cases hexp'; exact ensureOwnedBy_eq_ok.mpr hown : _ = Except.ok ()))
          fun _ _ =>
        .bind_result (raises_validateMonotonicDimensions _ _) fun _ _ =>
        .bind_result (.failIf fun _ => ⟨nofun, nofun⟩) fun _ _ => .modify _

/-- Nor does checking the links of a dependent record to the records before it. -/
theorem raises_checkDependentLinks (hinv : LedgerInvariant s) {p : TransitionProjection}
    (hcur : s.projections[e.body.transitionId]? = some p) (hsubj : p.subjectId = e.body.subjectId) :
    Raises (Reachable s e) (checkDependentLinks s p e) := by
  obtain ⟨-, hobs, hri, hca, hcs⟩ := forall_mem_slots.mp (hinv.owns hcur)
  rw [hsubj] at hobs hri hca hcs
  unfold checkDependentLinks
  cases e.body.kind with
  | authorization => exact .ok _
  | observation => exact .failIf fun _ => ⟨nofun, nofun⟩
  | responseIntegrity =>
      exact .bind (raises_expectObservationSet hobs) fun _ _ => .failIf fun _ => ⟨nofun, nofun⟩
  | causalAudit =>
      exact .bind (raises_expectObservationSet hobs) fun _ _ =>
        .bind (raises_expectOptionalRef _ hri) fun _ _ => .failIf fun _ => ⟨nofun, nofun⟩
  | continuitySnapshot =>
      exact .bind (raises_expectObservationSet hobs) fun _ _ =>
        .bind (raises_expectOptionalRef _ hri) fun _ _ =>
        .bind (raises_expectOptionalRef _ hca) fun _ _ => raises_expectOptionalRef _ hcs

/-- Nor does applying such a record: its transition has an authorization, and the records of its projection
are its own. -/
theorem raises_applyDependentRecord (hinv : LedgerInvariant s) :
    RaisesFrom (Reachable s e) (applyDependentRecord e) s := by
  unfold applyDependentRecord
  refine .bind_get (.bind_result (.okOr fun hnone => ⟨fun _ _ => hnone, nofun⟩) fun p hcur => ?_)
  rw [okOr_eq_ok] at hcur
  refine .bind_result (.failIf fun _ => ⟨nofun, nofun⟩) fun _ hsubj => ?_
  rw [failIf_eq_ok, not_not] at hsubj
  obtain ⟨expected, hexp⟩ := Option.isSome_iff_exists.mp (hinv.authorized hcur)
  have hown : ∀ r ∈ some expected, s.Owns r e.body.transitionId e.body.subjectId := by
    rw [← hexp, ← hsubj]
    exact (forall_mem_slots.mp (hinv.owns hcur)).1
  rw [hexp]
  refine .bind_result (.ok expected) fun expected' hexp' => ?_
  cases hexp'
  exact .bind_result (raises_expectOptionalRef _ hown) fun _ _ =>
    .bind_result (hinv.raises_checkDependentLinks hcur hsubj) fun _ _ =>
    .bind_result (raises_validateMonotonicDimensions _ _) fun _ _ =>
    .bind_result (.failIf fun _ => ⟨nofun, nofun⟩) fun _ _ => .modify _

/-- `apply_event` never finds an existing transition without authorization, and never a reference
that equals the projection's own and belongs to another transition. -/
theorem raises_applyEvent (hinv : LedgerInvariant s) :
    RaisesFrom (Reachable s e) (applyEvent env e) s := by
  unfold applyEvent
  refine .bind_result (raises_validateEventBody _) fun _ _ =>
    .bind_result (.failIf fun _ => ⟨nofun, nofun⟩) fun _ _ => .bind_get <|
    .bind_result (.failIf fun _ => ⟨nofun, nofun⟩) fun _ _ =>
    .bind_result (.failIf fun _ => ⟨nofun, nofun⟩) fun _ _ =>
    .bind_result (raises_digestCbor _ _) fun _ _ =>
    .bind_result (.failIf fun _ => ⟨nofun, nofun⟩) fun _ _ =>
    .bind_result (raises_validateRef _ _) fun _ _ =>
    .bind_result (raises_validateRef _ _) fun _ _ =>
    .bind_result (.failIf fun _ => ⟨nofun, nofun⟩) fun _ _ => .bind_total ?_ fun _ => .modify _
  rw [applyRecord_eq]
  split
  · exact hinv.raises_applyAuthorization
  · exact hinv.raises_applyDependentRecord

end LedgerInvariant

/-! ## Which inputs are recorded -/

/-- The references of the links sit in the slots of the projection they fit. -/
theorem Follows.mem_slots {p : TransitionProjection} {input : TransitionEventInput}
    (h : Follows p input) : ∀ r ∈ input.links.refs, ∃ kind, (kind, r) ∈ p.slots := by
  obtain ⟨hauth, hobs, hri, hca, hcs⟩ :=
    forall_mem_slots (P := fun _ r => ∃ kind, (kind, r) ∈ p.slots).mp fun kind _ hr => ⟨kind, hr⟩
  have hlinks := h.links
  unfold LinksFit at hlinks
  rw [forall_mem_refs, h.authorization]
  -- every link is empty or equal to a pointer of the projection
  cases hk : input.kind with
  | authorization =>
      rw [hk] at hlinks
      obtain ⟨h₁, h₂, h₃, h₄⟩ := hlinks
      rw [h₁, h₂, h₃, h₄]
      exact ⟨hauth, nofun, nofun, nofun, nofun⟩
  | observation =>
      rw [hk] at hlinks
      obtain ⟨h₁, h₂, h₃, h₄⟩ := hlinks
      rw [h₁, h₂, h₃, h₄]
      exact ⟨hauth, nofun, nofun, nofun, nofun⟩
  | responseIntegrity =>
      rw [hk] at hlinks
      obtain ⟨h₁, h₂, h₃, h₄⟩ := hlinks
      rw [h₁, h₂, h₃, h₄]
      exact ⟨hauth, nofun, nofun, nofun, hobs⟩
  | causalAudit =>
      rw [hk] at hlinks
      obtain ⟨h₁, h₂, h₃, h₄⟩ := hlinks
      rw [h₁, h₂, h₃, h₄]
      exact ⟨hauth, hri, nofun, nofun, hobs⟩
  | continuitySnapshot =>
      rw [hk] at hlinks
      obtain ⟨h₁, h₂, h₃, h₄⟩ := hlinks
      rw [h₁, h₂, h₃, h₄]
      exact ⟨hauth, hri, hca, hcs, hobs⟩

namespace History

variable {events : List TransitionEvent} {s : LedgerState}

/-- The events of a history are counted. -/
theorem nextSequence_eq (h : History env events s) : s.nextSequence = events.length + 1 := by
  refine h.rec_on rfl fun events before event _ ih _ => ?_
  rw [LedgerState.advance_nextSequence, ih, List.length_append, List.length_singleton]

/-- The head of a history can be cited as a predecessor. -/
theorem isRef_head (h : History env events s) : ∀ head ∈ s.headEventHash, IsRef head := by
  refine h.rec_on nofun fun events before event _ _ hacc => ?_
  rintro _ ⟨⟩
  exact isRef_of_digestCbor hacc.hash

/-- After a history the ledger admits exactly the inputs that become an accepted event: what its
transition cites of its own projection, it owns. -/
theorem exists_accepted_iff (h : History env events s) (henv : env.Lossless)
    {input : TransitionEventInput} :
    (∃ event, event.body.input = input ∧ Accepted env s event) ↔ Admits s input := by
  constructor
  · rintro ⟨event, rfl, hacc⟩
    exact hacc.admits
  · intro hadm
    -- the ownership checks follow from the equality checks and the invariant
    refine hadm.exists_accepted henv.eventBody h.isRef_head fun r hr => ?_
    have hnext := hadm.next
    cases hcur : s.projections[input.transitionId]? with
    | none =>
        rw [hcur] at hnext
        rw [hnext.links] at hr
        cases hr
    | some p =>
        rw [hcur] at hnext
        obtain ⟨kind, hslot⟩ := hnext.mem_slots r hr
        rw [← hnext.subject]
        exact h.invariant.owns hcur kind r hslot

/-- The write path accepts every admitted input as it is. -/
theorem prepareEvent_of_admits (h : History env events s) (henv : env.Lossless)
    {input : TransitionEventInput} (hadm : Admits s input) :
    ∃ event, event.body.input = input ∧ Accepted env s event ∧
      prepareEvent env input s = .ok (event, s.advance event) := by
  obtain ⟨event, hinput, hacc⟩ := (h.exists_accepted_iff henv).mpr hadm
  refine ⟨event, hinput, hacc, prepareEvent_eq_ok.mpr ⟨?_, hacc, rfl⟩⟩
  rw [hinput, hadm.canonical.normalized_eq]

/-- The owner index holds exactly the records of the history. -/
theorem fresh_iff (h : History env events s) {r : String} :
    s.recordOwners[r]? = none ↔ ∀ e ∈ events, e.body.recordRef ≠ r := by
  refine h.rec_on ?_ fun events before event _ ih hacc => ?_
  · exact iff_of_true rfl (by simp)
  · rw [List.forall_mem_append, List.forall_mem_singleton]
    by_cases hr : r = event.body.recordRef
    · subst hr
      simp
    · rw [LedgerState.advance_owner_of_ne before event hr, ih]
      exact (and_iff_left (Ne.symm hr)).symm

end History

/-- **The representation invariant of `LedgerState`.** After every accepted history: the invariant
holds; the head belongs to exactly one projection; every reference of a projection passes
`ensure_owned_by`; and no event makes `apply_event` report a missing authorization on an existing
transition or a cross-transition reference. -/
theorem ledgerState_representation {events : List TransitionEvent} {s : LedgerState}
    (h : History env events s) :
    LedgerInvariant s ∧
      (∀ head, s.headEventHash = some head →
        ∃ (tid : String) (p : TransitionProjection), s.projections[tid]? = some p ∧
          p.lastSequence = s.nextSequence - 1 ∧ p.lastEventHash = head ∧
          ∀ (tid' : String) (p' : TransitionProjection), s.projections[tid']? = some p' →
            p'.lastSequence = s.nextSequence - 1 → tid' = tid) ∧
      (∀ (tid : String) (p : TransitionProjection), s.projections[tid]? = some p →
        ∀ kind r, (kind, r) ∈ p.slots → ensureOwnedBy s r tid p.subjectId = .ok ()) ∧
      ∀ e error t, applyEvent env e s = .error error t → Reachable s e error := by
  have hinv := h.invariant
  refine ⟨hinv, ?_, ?_, fun e error t he => hinv.raises_applyEvent error t he⟩
  · intro head hhead
    obtain ⟨tid, p, hp, hlast, hhash⟩ := hinv.head_last head hhead
    refine ⟨tid, p, hp, hlast, hhash, fun tid' p' hp' hlast' => ?_⟩
    exact hinv.last_injective hp' hp (hlast'.trans hlast.symm)
  · intro tid p hp kind r hr
    exact ensureOwnedBy_eq_ok.mpr (hinv.owns hp kind r hr)

/-! ### A transition with all its evidence -/

/-- A record of `transition-001` that reports a committed, executed side effect. -/
def evidenceInput (kind : TransitionRecordKind) (record : UInt8) (links : TransitionLinks) :
    TransitionEventInput :=
  { openingInput with
    kind
    recordRef := sampleRef record
    links
    dimensions := some ⟨.valid, .observedExecuted, .verified, .valid, .continueSideEffect⟩
    sideEffectCommitted := some true }

/-- The records after the authorization, each with the current evidence it cites. -/
def evidenceInputs : List TransitionEventInput :=
  [evidenceInput .observation 0xb1 { authorizationRef := sampleRef 0xa1 },
   evidenceInput .responseIntegrity 0xc1
    { authorizationRef := sampleRef 0xa1, observationRefs := [sampleRef 0xb1] },
   evidenceInput .causalAudit 0xd1
    { authorizationRef := sampleRef 0xa1, observationRefs := [sampleRef 0xb1]
      responseIntegrityRef := sampleRef 0xc1 },
   evidenceInput .continuitySnapshot 0xe1
    { authorizationRef := sampleRef 0xa1, observationRefs := [sampleRef 0xb1]
      responseIntegrityRef := sampleRef 0xc1, causalAuditRef := sampleRef 0xd1 }]

/-- The inputs of the five events are as the ledger would make them itself. -/
theorem canonical_of_mem_evidenceInputs : ∀ input ∈ evidenceInputs, Canonical input := by
  have href : ∀ b, IsRef (sampleRef b) := fun b => isRef_digestText _
  intro input hinput
  simp only [evidenceInputs, List.mem_cons, List.not_mem_nil, or_false] at hinput
  rcases hinput with rfl | rfl | rfl | rfl <;>
    exact ⟨canonical_openingInput.transitionId, canonical_openingInput.subjectId, href _, href _,
      by simp [evidenceInput, TransitionLinks.refs, href], rfl, fun _ => rfl⟩

/-- An admitted input extends a history, by the event with the body that was built for it. -/
theorem History.extend {events : List TransitionEvent} {s : LedgerState} (h : History env events s)
    (henv : env.Lossless) {input : TransitionEventInput} (hadm : Admits s input) :
    ∃ hash, History env (events ++ [⟨nextBody s input, hash⟩]) (s.advance ⟨nextBody s input, hash⟩) := by
  obtain ⟨⟨body, hash⟩, rfl, hacc⟩ := (h.exists_accepted_iff henv).mpr hadm
  have hbody : body = nextBody s body.input := hacc.body_eq
  refine ⟨hash, snoc_iff.mpr ⟨s, h, ?_, rfl⟩⟩
  rw [← hbody]
  exact hacc

/-- One more record of `transition-001`. -/
theorem evidence_step {events : List TransitionEvent} {s : LedgerState} {p : TransitionProjection}
    (h : History linkedCrates events s) (hp : s.projections["transition-001"]? = some p)
    {input : TransitionEventInput} (hinput : input ∈ evidenceInputs) (hfollows : Follows p input)
    (hfresh : ∀ e ∈ events, e.body.recordRef ≠ input.recordRef) :
    ∃ hash, History linkedCrates (events ++ [⟨nextBody s input, hash⟩])
        (s.advance ⟨nextBody s input, hash⟩) ∧
      (s.advance ⟨nextBody s input, hash⟩).projections["transition-001"]? =
        some (nextProjection (some p) ⟨nextBody s input, hash⟩) := by
  have htid : input.transitionId = "transition-001" := by
    simp only [evidenceInputs, List.mem_cons, List.not_mem_nil, or_false] at hinput
    rcases hinput with rfl | rfl | rfl | rfl <;> rfl
  have hadm : Admits s input := by
    refine ⟨canonical_of_mem_evidenceInputs input hinput, h.fresh_iff.mpr hfresh, ?_⟩
    rw [htid, hp]
    exact hfollows
  obtain ⟨hash, hhist⟩ := h.extend lossless_linkedCrates hadm
  refine ⟨hash, hhist, ?_⟩
  have hself := LedgerState.advance_projection_self s ⟨nextBody s input, hash⟩
  rw [show (nextBody s input).transitionId = "transition-001" from htid, hp] at hself
  exact hself

/-- A history with one record of each kind, in which every verdict is current. -/
theorem exists_evidence_history :
    ∃ events s p, History linkedCrates events s ∧
      events.map (·.body.input) = openingInput :: evidenceInputs ∧
      s.projections["transition-001"]? = some p ∧ p.authorizationRef = some (sampleRef 0xa1) ∧
      p.observationRefs = [sampleRef 0xb1] ∧ p.responseIntegrityRef = some (sampleRef 0xc1) ∧
      p.causalAuditRef = some (sampleRef 0xd1) ∧ p.continuitySnapshotRef = some (sampleRef 0xe1) ∧
      p.sideEffectCommitted = true := by
  have hopen : Admits .default openingInput := ⟨canonical_openingInput, rfl, rfl, rfl⟩
  obtain ⟨hash₁, h₁⟩ := History.nil.extend lossless_linkedCrates hopen
  have hp₁ : (LedgerState.default.advance ⟨nextBody .default openingInput, hash₁⟩).projections[
      "transition-001"]? = some (newProjection ⟨nextBody .default openingInput, hash₁⟩) :=
    LedgerState.advance_projection_self .default _
  generalize LedgerState.default.advance ⟨nextBody .default openingInput, hash₁⟩ = s₁ at h₁ hp₁
  -- each record cites what the ones before it have made current
  have hkeeps : ∀ previous, KeepsExecution previous
      (some ⟨.valid, .observedExecuted, .verified, .valid, .continueSideEffect⟩) := by
    rintro previous _ - - _ ⟨⟩
    rfl
  obtain ⟨hash₂, h₂, hp₂⟩ := evidence_step h₁ hp₁ (.head _)
    ⟨rfl, rfl, rfl, ⟨rfl, rfl, rfl, rfl⟩, hkeeps _, by rintro _ ⟨⟩⟩
    (by simp [nextBody, openingInput, evidenceInput])
  generalize s₁.advance _ = s₂ at h₂ hp₂
  obtain ⟨hash₃, h₃, hp₃⟩ := evidence_step h₂ hp₂ (.tail _ (.head _))
    ⟨rfl, rfl, rfl, ⟨rfl, rfl, rfl, rfl⟩, hkeeps _, by rintro _ ⟨⟩⟩
    (by simp [nextBody, openingInput, evidenceInput])
  generalize s₂.advance _ = s₃ at h₃ hp₃
  obtain ⟨hash₄, h₄, hp₄⟩ := evidence_step h₃ hp₃ (.tail _ (.tail _ (.head _)))
    ⟨rfl, rfl, rfl, ⟨rfl, rfl, rfl, rfl⟩, hkeeps _, by rintro _ ⟨⟩⟩
    (by simp [nextBody, openingInput, evidenceInput])
  generalize s₃.advance _ = s₄ at h₄ hp₄
  obtain ⟨hash₅, h₅, hp₅⟩ := evidence_step h₄ hp₄ (.tail _ (.tail _ (.tail _ (.head _))))
    ⟨rfl, rfl, rfl, ⟨rfl, rfl, rfl, rfl⟩, hkeeps _, by rintro _ ⟨⟩⟩
    (by simp [nextBody, openingInput, evidenceInput])
  exact ⟨_, _, _, h₅, rfl, hp₅, rfl, rfl, rfl, rfl, rfl, rfl⟩

/-- The events that records make one after the other, each with its hash, from a sequence number and a head
on. -/
def eventsFrom : Nat → Option String → List (TransitionEventInput × String) → List TransitionEvent
  | _, _, [] => []
  | sequence, head, (input, hash) :: rest =>
      ⟨nextBody { LedgerState.default with nextSequence := sequence, headEventHash := head } input, hash⟩ ::
        eventsFrom (sequence + 1) (some hash) rest

/-- The events that are applied are determined by their records, where the hashes are those of the bodies. -/
theorem eq_eventsFrom {events : List TransitionEvent} {s s' : LedgerState}
    (h : applyEvents env events s = .ok s') {records : List (TransitionEventInput × String)}
    (hinputs : events.map (·.body.input) = records.map Prod.fst)
    (hhash : ∀ e ∈ eventsFrom s.nextSequence s.headEventHash records,
      digestCbor env env.eventBody e.body = .ok e.eventHash) :
    events = eventsFrom s.nextSequence s.headEventHash records := by
  induction events generalizing s records with
  | nil =>
      rw [List.map_nil, List.nil_eq, List.map_eq_nil_iff] at hinputs
      rw [hinputs, eventsFrom]
  | cons event events ih =>
      obtain ⟨hacc, hrest⟩ := applyEvents_cons_eq_ok.mp h
      obtain _ | ⟨⟨input, hash⟩, records⟩ := records
      · cases hinputs
      obtain ⟨hinput, hrecords⟩ := List.cons_eq_cons.mp hinputs
      obtain ⟨body, eventHash⟩ := event
      rw [eventsFrom, List.forall_mem_cons] at hhash
      -- The body is the one that the state asks for, so its hash is the given one.
      have hbody : body = nextBody { LedgerState.default with
          nextSequence := s.nextSequence, headEventHash := s.headEventHash } input := by
        rw [← show body.input = input from hinput]
        exact hacc.body_eq
      obtain rfl : eventHash = hash := by
        have hgiven := hhash.1
        rw [← hbody] at hgiven
        exact Except.ok.inj (hacc.hash.symm.trans hgiven)
      have htail := ih hrest hrecords hhash.2
      rw [eventsFrom, ← hbody]
      exact congrArg _ htail

/-- The hashes of those events. -/
def evidenceHashes : List String :=
  ["sha256:9cb375ab191496b619e15e0d81ce4242812a31c405f6a151cbafe281a90fc92c",
   "sha256:150ec0146b01d76b5f08e9444abd7b30c70fc730a0b92f0007b4b2ffc57aef8a",
   "sha256:0cf077937044ec52ca3d9413e491abe68c29b1b6a6ac136fec339ad281efa0fb",
   "sha256:90d49bd4ccbff576de5387ab409b099a8ce7d9c8bd90032eac1bce3f7e0e9ffc",
   "sha256:1a63e6b2c800f1fcc740b3b7117f577858e538d413e5621fee4885073bf6a7c8"]

/-- The events of that history. -/
def evidenceEvents : List TransitionEvent :=
  eventsFrom 1 none ((openingInput :: evidenceInputs).zip evidenceHashes)

/-- The hashes are the SHA-256 of the encoded bodies. -/
theorem digest_evidenceEvents : ∀ e ∈ evidenceEvents,
    digestText (Sha256.digest (Codec.eventBody.enc e.body)) = e.eventHash := by
  -- one digest is computed after the other
  refine List.forall_mem_cons.mpr ⟨?_, List.forall_mem_cons.mpr ⟨?_, List.forall_mem_cons.mpr ⟨?_,
    List.forall_mem_cons.mpr ⟨?_, List.forall_mem_cons.mpr ⟨?_, List.forall_mem_nil _⟩⟩⟩⟩⟩
  all_goals rw [digestText_digest]; decide +kernel

/-- So these are their hashes for the sample ledger. -/
theorem digestCbor_evidenceEvents : ∀ e ∈ evidenceEvents,
    digestCbor linkedCrates linkedCrates.eventBody e.body = .ok e.eventHash := fun e he =>
  digestCbor_eq_ok.mpr ⟨_, rfl, (digest_evidenceEvents e he).symm⟩

/-- Whoever has recorded that evidence has these events. -/
theorem eq_evidenceEvents {events : List TransitionEvent} {s : LedgerState}
    (h : History linkedCrates events s)
    (hinputs : events.map (·.body.input) = openingInput :: evidenceInputs) : events = evidenceEvents :=
  eq_eventsFrom h hinputs digestCbor_evidenceEvents

/-- Nobody reaches the head of that history by a part of it. -/
theorem head_commits_to_history_evidence :
    ∃ events s, History linkedCrates events s ∧
      events.map (·.body.input) = openingInput :: evidenceInputs ∧
      ∀ k s', History linkedCrates (events.take k) s' → s.headEventHash = s'.headEventHash →
        events = events.take k := by
  obtain ⟨events, s, -, h, hinputs, -⟩ := exists_evidence_history
  refine ⟨events, s, h, hinputs, fun k s' h' hhead => head_commits_to_history h h' ?_ hhead⟩
  have hnodup : (events.map TransitionEvent.eventHash).Nodup := by
    rw [eq_evidenceEvents h hinputs]
    decide
  refine (h.collisionFree hnodup).mono ?_
  rintro _ ⟨e, he, rfl⟩
  exact ⟨e, (List.mem_append.mp he).elim id List.mem_of_mem_take, rfl⟩

/-- The invariant after that history. -/
theorem ledgerState_representation_evidence :
    ∃ events s, History linkedCrates events s ∧
      events.map (·.body.input) = openingInput :: evidenceInputs ∧ LedgerInvariant s := by
  obtain ⟨events, s, p, h, hinputs, -⟩ := exists_evidence_history
  exact ⟨events, s, h, hinputs, (ledgerState_representation h).1⟩

end LiminalDB
