import LiminalDB.Ledger.Invariants

/-! # Evidence is current and nothing rolls back

Two properties of whole histories. Every verdict pointer of a projection names a record that saw
exactly the evidence that is current now (`current_evidence_not_stale`). And between any two points
of a history nothing that was established is taken back (`no_history_rollback`). -/

namespace LiminalDB

variable {env : Crates} {events : List TransitionEvent} {s : LedgerState}

/-! ## The records of a history -/

/-- Every event of a history is indexed under its record reference. -/
theorem History.owner_of_mem (h : History env events s) :
    ∀ e ∈ events, s.recordOwners[e.body.recordRef]? =
      some ⟨e.body.transitionId, e.body.subjectId, e.body.kind⟩ := by
  refine h.rec_on (by simp) fun events before event _ ih hacc e he => ?_
  rcases List.mem_append.mp he with he | he
  · exact hacc.owner_kept (ih e he)
  · rw [List.mem_singleton.mp he, LedgerState.advance_owner_self]

/-- No record reference is accepted twice. -/
theorem History.nodup_recordRefs (h : History env events s) :
    (events.map fun e => e.body.recordRef).Nodup := by
  refine h.rec_on List.nodup_nil fun events before event hbefore ih hacc => ?_
  rw [List.map_append, List.nodup_append]
  refine ⟨ih, List.nodup_singleton _, ?_⟩
  rintro r hr r' hr' rfl
  obtain ⟨e, he, rfl⟩ := List.mem_map.mp hr
  have howner := hbefore.owner_of_mem e he
  rw [List.map_singleton, List.mem_singleton] at hr'
  rw [hr', hacc.fresh] at howner
  cases howner

/-- The record reference determines the event. -/
theorem History.eq_of_recordRef_eq (h : History env events s) {e e' : TransitionEvent}
    (he : e ∈ events) (he' : e' ∈ events) (heq : e'.body.recordRef = e.body.recordRef) : e' = e :=
  List.inj_on_of_nodup_map h.nodup_recordRefs he' he heq

/-! ## Current evidence -/

/-- Some event of the history recorded `r` and satisfies `P`. -/
def Recorded (events : List TransitionEvent) (r : String) (P : TransitionEventBody → Prop) : Prop :=
  ∃ e ∈ events, e.body.recordRef = r ∧ P e.body

/-- The evidence a response-integrity record has seen is the current one of the projection. -/
def SawObservations (p : TransitionProjection) (body : TransitionEventBody) : Prop :=
  body.transitionId = p.transitionId ∧ body.links.authorizationRef = p.authorizationRef ∧
    body.links.observationRefs = p.observationRefs

/-- Every verdict pointer of the projection names a record of the right kind that saw the current
evidence below it. -/
structure Current (events : List TransitionEvent) (p : TransitionProjection) : Prop where
  responseIntegrity : ∀ r ∈ p.responseIntegrityRef, Recorded events r fun body =>
    body.kind = .responseIntegrity ∧ SawObservations p body
  causalAudit : ∀ r ∈ p.causalAuditRef, Recorded events r fun body =>
    body.kind = .causalAudit ∧ SawObservations p body ∧
      body.links.responseIntegrityRef = p.responseIntegrityRef
  continuitySnapshot : ∀ r ∈ p.continuitySnapshotRef, Recorded events r fun body =>
    body.kind = .continuitySnapshot ∧ SawObservations p body ∧
      body.links.responseIntegrityRef = p.responseIntegrityRef ∧
      body.links.causalAuditRef = p.causalAuditRef

/-- A longer history records what the shorter one did. -/
theorem Recorded.append {r : String} {P : TransitionEventBody → Prop} (h : Recorded events r P)
    (more : List TransitionEvent) : Recorded (events ++ more) r P := by
  obtain ⟨e, he, hr, hP⟩ := h
  exact ⟨e, List.mem_append_left _ he, hr, hP⟩

/-- What was current among some events has its records among more of them. -/
theorem Current.append {p : TransitionProjection} (h : Current events p)
    (more : List TransitionEvent) : Current (events ++ more) p :=
  ⟨fun r hr => (h.responseIntegrity r hr).append more, fun r hr => (h.causalAudit r hr).append more,
    fun r hr => (h.continuitySnapshot r hr).append more⟩

/-- The event just accepted is recorded. -/
theorem recorded_self {e : TransitionEvent} {P : TransitionEventBody → Prop} (h : P e.body) :
    Recorded (events ++ [e]) e.body.recordRef P :=
  ⟨e, by simp, rfl, h⟩

/-- **One step.** Each record kind resets exactly the pointers above it, so what is left is current
and what is set names this event. -/
theorem Current.next {p : TransitionProjection} {e : TransitionEvent} (h : Current events p)
    (htid : p.transitionId = e.body.transitionId) (hfollows : Follows p e.body.input) :
    Current (events ++ [e]) (nextProjection (some p) e) := by
  have hauth := hfollows.authorization
  have hlinks := hfollows.links
  simp only [LinksFit, TransitionEventBody.input_kind, TransitionEventBody.input_links]
    at hauth hlinks
  have hold := h.append [e]
  -- an authorization and an observation leave no verdict; each other kind keeps what it stands on
  cases hk : e.body.kind with
  | authorization =>
      simp only [nextProjection, hk, reauthorize, updateVerdicts_eq, updateProjectionTail]
      refine ⟨?_, ?_, ?_⟩ <;> rintro _ ⟨⟩
  | observation =>
      simp only [nextProjection, hk, recordDependent, updateVerdicts_eq, updateProjectionTail]
      refine ⟨?_, ?_, ?_⟩ <;> rintro _ ⟨⟩
  | responseIntegrity =>
      simp only [hk] at hlinks
      simp only [nextProjection, hk, recordDependent, updateVerdicts_eq, updateProjectionTail]
      refine ⟨?_, by rintro _ ⟨⟩, by rintro _ ⟨⟩⟩
      rintro _ ⟨⟩
      exact recorded_self ⟨hk, htid.symm, hauth, hlinks.1⟩
  | causalAudit =>
      simp only [hk] at hlinks
      simp only [nextProjection, hk, recordDependent, updateVerdicts_eq, updateProjectionTail]
      refine ⟨hold.responseIntegrity, ?_, by rintro _ ⟨⟩⟩
      rintro _ ⟨⟩
      exact recorded_self ⟨hk, ⟨htid.symm, hauth, hlinks.1⟩, hlinks.2.1⟩
  | continuitySnapshot =>
      simp only [hk] at hlinks
      simp only [nextProjection, hk, recordDependent, updateVerdicts_eq, updateProjectionTail]
      refine ⟨hold.responseIntegrity, hold.causalAudit, ?_⟩
      rintro _ ⟨⟩
      exact recorded_self ⟨hk, ⟨htid.symm, hauth, hlinks.1⟩, hlinks.2.1, hlinks.2.2.1⟩

/-- Every projection of a history is current. -/
theorem History.current (h : History env events s) :
    ∀ (tid : String) (p : TransitionProjection), s.projections[tid]? = some p →
      Current events p := by
  refine h.rec_on (fun _ _ hp => by cases hp)
    fun events before event hbefore ih hacc tid p hp => ?_
  rcases LedgerState.advance_projection_cases hp with ⟨rfl, rfl⟩ | ⟨-, hold⟩
  · rcases hacc.next_cases with ⟨hnone, -⟩ | ⟨p, hsome, hfollows⟩
    · rw [hnone]
      exact ⟨nofun, nofun, nofun⟩
    · rw [hsome]
      exact (ih _ p hsome).next (hbefore.invariant.keyed hsome) hfollows
  · exact (ih tid p hold).append [event]

/-- The unique accepted event with record reference `r` satisfies `P`. -/
def TheRecord (events : List TransitionEvent) (r : String) (P : TransitionEventBody → Prop) : Prop :=
  ∃ e ∈ events, e.body.recordRef = r ∧ (∀ e' ∈ events, e'.body.recordRef = r → e' = e) ∧ P e.body

/-- A record with some property is the only one under its reference, as no reference is recorded
twice. -/
theorem History.theRecord (h : History env events s) {r : String}
    {P : TransitionEventBody → Prop} (hrec : Recorded events r P) : TheRecord events r P := by
  obtain ⟨e, he, rfl, hP⟩ := hrec
  exact ⟨e, he, rfl, fun e' he' heq => h.eq_of_recordRef_eq he he' heq, hP⟩

/-- **Current evidence is never stale.** In every reachable state, for every projection: the response
integrity pointer names a record that saw exactly the current authorization and observations; the
causal audit pointer one that also saw the current response integrity; the continuity pointer one
that also saw the current causal audit. -/
theorem current_evidence_not_stale (h : History env events s) {tid : String}
    {p : TransitionProjection} (hp : s.projections[tid]? = some p) :
    (∀ r, p.responseIntegrityRef = some r → TheRecord events r fun body =>
      body.kind = .responseIntegrity ∧ body.transitionId = tid ∧
        body.links.authorizationRef = p.authorizationRef ∧
        body.links.observationRefs = p.observationRefs) ∧
    (∀ c, p.causalAuditRef = some c → TheRecord events c fun body =>
      body.kind = .causalAudit ∧ body.transitionId = tid ∧
        body.links.authorizationRef = p.authorizationRef ∧
        body.links.observationRefs = p.observationRefs ∧
        body.links.responseIntegrityRef = p.responseIntegrityRef) ∧
    (∀ c, p.continuitySnapshotRef = some c → TheRecord events c fun body =>
      body.kind = .continuitySnapshot ∧ body.transitionId = tid ∧
        body.links.authorizationRef = p.authorizationRef ∧
        body.links.observationRefs = p.observationRefs ∧
        body.links.responseIntegrityRef = p.responseIntegrityRef ∧
        body.links.causalAuditRef = p.causalAuditRef) := by
  have hcur := h.current tid p hp
  obtain rfl := h.invariant.keyed hp
  refine ⟨fun r hr => ?_, fun c hc => ?_, fun c hc => ?_⟩
  · exact h.theRecord (hcur.responseIntegrity r hr)
  · obtain ⟨e, he, her, hk, ⟨ht, ha, ho⟩, hri⟩ := hcur.causalAudit c hc
    exact h.theRecord ⟨e, he, her, hk, ht, ha, ho, hri⟩
  · obtain ⟨e, he, her, hk, ⟨ht, ha, ho⟩, hri, hca⟩ := hcur.continuitySnapshot c hc
    exact h.theRecord ⟨e, he, her, hk, ht, ha, ho, hri, hca⟩

/-- After one record of each kind, each of the three pointers names its record, and that record cites
the current evidence. -/
theorem current_evidence_not_stale_all_kinds :
    ∃ events s p, History linkedCrates events s ∧ s.projections["transition-001"]? = some p ∧
      (TheRecord events (sampleRef 0xc1) fun body =>
        body.kind = .responseIntegrity ∧ body.transitionId = "transition-001" ∧
          body.links.authorizationRef = p.authorizationRef ∧
          body.links.observationRefs = p.observationRefs) ∧
      (TheRecord events (sampleRef 0xd1) fun body =>
        body.kind = .causalAudit ∧ body.transitionId = "transition-001" ∧
          body.links.authorizationRef = p.authorizationRef ∧
          body.links.observationRefs = p.observationRefs ∧
          body.links.responseIntegrityRef = p.responseIntegrityRef) ∧
      TheRecord events (sampleRef 0xe1) fun body =>
        body.kind = .continuitySnapshot ∧ body.transitionId = "transition-001" ∧
          body.links.authorizationRef = p.authorizationRef ∧
          body.links.observationRefs = p.observationRefs ∧
          body.links.responseIntegrityRef = p.responseIntegrityRef ∧
          body.links.causalAuditRef = p.causalAuditRef := by
  obtain ⟨events, s, p, h, -, hp, -, -, hri, hca, hcs, -⟩ := exists_evidence_history
  obtain ⟨hfirst, hsecond, hthird⟩ := current_evidence_not_stale h hp
  exact ⟨events, s, p, h, hp, hfirst _ hri, hsecond _ hca, hthird _ hcs⟩

/-! ## No rollback -/

/-- The transition has been observed as executed. -/
def TransitionProjection.Executed (p : TransitionProjection) : Prop :=
  ∃ d ∈ p.dimensions, d.execution = .observedExecuted

/-- What a later projection of a transition keeps of an earlier one. -/
structure NoRollback (p later : TransitionProjection) : Prop where
  subject : later.subjectId = p.subjectId
  sideEffect : p.sideEffectCommitted = true → later.sideEffectCommitted = true
  dimensions : p.dimensions.isSome → later.dimensions.isSome
  executed : p.Executed → later.Executed
  epoch : p.authorizationEpoch ≤ later.authorizationEpoch
  count : p.eventCount ≤ later.eventCount
  /-- Within one authorization epoch the observation set only grows. -/
  observations : later.authorizationEpoch = p.authorizationEpoch →
    p.observationRefs ⊆ later.observationRefs

namespace NoRollback

/-- A projection does not roll itself back. -/
theorem refl (p : TransitionProjection) : NoRollback p p :=
  ⟨rfl, id, id, id, le_rfl, le_rfl, fun _ => List.Subset.refl _⟩

/-- Not rolling back goes on from one projection to the next. -/
theorem trans {p q r : TransitionProjection} (h : NoRollback p q) (h' : NoRollback q r) :
    NoRollback p r where
  subject := h'.subject.trans h.subject
  sideEffect := h'.sideEffect ∘ h.sideEffect
  dimensions := h'.dimensions ∘ h.dimensions
  executed := h'.executed ∘ h.executed
  epoch := h.epoch.trans h'.epoch
  count := h.count.trans h'.count
  observations heq := by
    -- the epoch in between is squeezed
    have hle := h.epoch
    have hle' := h'.epoch
    exact List.Subset.trans (h.observations (by omega)) (h'.observations (by omega))

/-- The verdict fields never go back. -/
theorem of_follows {p : TransitionProjection} {e : TransitionEvent} (h : Follows p e.body.input) :
    NoRollback p (nextProjection (some p) e) := by
  -- the verdict fields are updated alike by every kind
  have hside : p.sideEffectCommitted = true → (p.sideEffectCommitted ||
      decide (e.body.sideEffectCommitted = some true)) = true := by
    intro hp
    rw [hp, Bool.true_or]
  have hdim : p.dimensions.isSome → (e.body.dimensions.or p.dimensions).isSome := by
    intro hp
    cases hd : e.body.dimensions with
    | none => simpa using hp
    | some d => rfl
  have hexec : p.Executed →
      ∃ d ∈ e.body.dimensions.or p.dimensions, d.execution = .observedExecuted := by
    rintro ⟨d, hd, hex⟩
    cases hd' : e.body.dimensions with
    | none => exact ⟨d, by simpa using hd, hex⟩
    | some d' => exact ⟨d', rfl, h.dimensions d hd hex d' hd'⟩
  cases hk : e.body.kind with
  | authorization =>
      simp only [nextProjection, hk, reauthorize, updateVerdicts_eq, updateProjectionTail]
      -- the observations are dropped, but in a new epoch
      exact ⟨rfl, hside, hdim, hexec, Nat.le_succ _, Nat.le_succ _,
        fun heq => absurd heq (Nat.succ_ne_self _)⟩
  | observation =>
      simp only [nextProjection, hk, recordDependent, updateVerdicts_eq, updateProjectionTail]
      refine ⟨rfl, hside, hdim, hexec, le_rfl, Nat.le_succ _, fun _ r hr => ?_⟩
      exact mem_sortDedup.mpr (List.mem_append_left _ hr)
  | responseIntegrity =>
      simp only [nextProjection, hk, recordDependent, updateVerdicts_eq, updateProjectionTail]
      exact ⟨rfl, hside, hdim, hexec, le_rfl, Nat.le_succ _, fun _ => List.Subset.refl _⟩
  | causalAudit =>
      simp only [nextProjection, hk, recordDependent, updateVerdicts_eq, updateProjectionTail]
      exact ⟨rfl, hside, hdim, hexec, le_rfl, Nat.le_succ _, fun _ => List.Subset.refl _⟩
  | continuitySnapshot =>
      simp only [nextProjection, hk, recordDependent, updateVerdicts_eq, updateProjectionTail]
      exact ⟨rfl, hside, hdim, hexec, le_rfl, Nat.le_succ _, fun _ => List.Subset.refl _⟩

end NoRollback

/-- **One step.** After an accepted event every transition is still there, and has lost nothing. -/
theorem Accepted.noRollback {e : TransitionEvent} (h : Accepted env s e) {tid : String}
    {p : TransitionProjection} (hp : s.projections[tid]? = some p) :
    ∃ later, (s.advance e).projections[tid]? = some later ∧ NoRollback p later := by
  by_cases htid : tid = e.body.transitionId
  · subst htid
    refine ⟨_, LedgerState.advance_projection_self s e, ?_⟩
    rcases h.next_cases with ⟨hnone, -⟩ | ⟨q, hsome, hfollows⟩
    · rw [hnone] at hp
      cases hp
    · rw [hsome, Option.some.injEq] at hp
      subst hp
      rw [hsome]
      exact .of_follows hfollows
  · exact ⟨p, by rw [LedgerState.advance_projection_of_ne s e htid, hp], .refl p⟩

/-- **Every run.** The same from any state on, along any accepted list of events. -/
theorem applyEvents_noRollback {s' : LedgerState} (h : applyEvents env events s = .ok s')
    {tid : String} {p : TransitionProjection} (hp : s.projections[tid]? = some p) :
    ∃ later, s'.projections[tid]? = some later ∧ NoRollback p later := by
  induction events generalizing s p with
  | nil =>
      cases h
      exact ⟨p, hp, .refl p⟩
  | cons e events ih =>
      obtain ⟨hacc, hrest⟩ := applyEvents_cons_eq_ok.mp h
      obtain ⟨q, hq, hpq⟩ := hacc.noRollback hp
      obtain ⟨later, hlater, hqr⟩ := ih hrest hq
      exact ⟨later, hlater, hpq.trans hqr⟩

/-- The authorizations of one transition in a list of events. -/
def authorizations (tid : String) (events : List TransitionEvent) : Nat :=
  events.countP fun e => e.body.transitionId = tid ∧ e.body.kind = .authorization

/-- The epoch of a transition counts its authorizations. -/
theorem History.authorizationEpoch_eq (h : History env events s) :
    ∀ (tid : String),
      (s.projections[tid]?.map (·.authorizationEpoch)).getD 0 = authorizations tid events := by
  refine h.rec_on (fun _ => rfl) fun events before event hbefore ih hacc tid => ?_
  have hcount : authorizations tid (events ++ [event]) = authorizations tid events +
      if event.body.transitionId = tid ∧ event.body.kind = .authorization then 1 else 0 := by
    simp [authorizations, List.countP_append, List.countP_singleton]
  rw [hcount, ← ih tid]
  by_cases htid : tid = event.body.transitionId
  · subst htid
    rw [LedgerState.advance_projection_self]
    rcases hacc.next_cases with ⟨hnone, hopens⟩ | ⟨p, hsome, -⟩
    · have hkind : event.body.kind = .authorization := hopens.kind
      simp [hnone, hkind, nextProjection, newProjection]
    · rw [hsome]
      cases hk : event.body.kind <;>
        simp [nextProjection, hk, reauthorize, recordDependent, updateVerdicts_eq,
          updateProjectionTail]
  · rw [LedgerState.advance_projection_of_ne before event htid,
      if_neg fun hand => htid hand.1.symm, Nat.add_zero]

/-- **No history rollback.** Take any accepted history and two points `i ≤ j` of it. Every transition
present at `i` is present at `j`, with the same subject; a committed side effect, present dimensions
and an observed execution are still so; epoch and event count have not decreased, the epoch counts
the transition's authorizations, and within one epoch the observations have only grown. And no
record accepted before `i` is accepted again after it. -/
theorem no_history_rollback (h : History env events s) {i j : Nat} (hij : i ≤ j) :
    ∃ sᵢ sⱼ, History env (events.take i) sᵢ ∧ History env (events.take j) sⱼ ∧
      (∀ (tid : String) (p : TransitionProjection), sᵢ.projections[tid]? = some p →
        p.authorizationEpoch = authorizations tid (events.take i) ∧
        ∃ later, sⱼ.projections[tid]? = some later ∧ NoRollback p later) ∧
      ∀ e ∈ events.take i, ∀ e' ∈ events.drop i, e'.body.recordRef ≠ e.body.recordRef := by
  obtain ⟨sⱼ, hj, -⟩ := h.take j
  obtain ⟨sᵢ, hi, hrest⟩ := hj.take i
  rw [List.take_take, Nat.min_eq_left hij] at hi
  refine ⟨sᵢ, sⱼ, hi, hj, fun tid p hp => ⟨?_, applyEvents_noRollback hrest hp⟩, ?_⟩
  · -- a transition that is absent has no authorizations, which is why the count starts at zero
    have hepoch := hi.authorizationEpoch_eq tid
    rwa [hp] at hepoch
  · intro e he e' he' heq
    have hnodup := h.nodup_recordRefs
    rw [← List.take_append_drop i events, List.map_append, List.nodup_append] at hnodup
    exact hnodup.2.2 _ (List.mem_map_of_mem he) _ (List.mem_map_of_mem he') heq.symm

/-- Between the authorization and the last record of a transition. -/
theorem no_history_rollback_evidence :
    ∃ events s, History linkedCrates events s ∧ events.length = 5 ∧
      ∃ sᵢ sⱼ, History linkedCrates (events.take 1) sᵢ ∧ History linkedCrates (events.take 5) sⱼ ∧
        ∀ (tid : String) (p : TransitionProjection), sᵢ.projections[tid]? = some p →
          ∃ later, sⱼ.projections[tid]? = some later ∧ NoRollback p later := by
  obtain ⟨events, s, p, h, hinputs, -⟩ := exists_evidence_history
  obtain ⟨sᵢ, sⱼ, hi, hj, hkept, -⟩ := no_history_rollback h (by decide : 1 ≤ 5)
  have hlen : events.length = 5 := by
    rw [← List.length_map, hinputs]
    rfl
  exact ⟨events, s, h, hlen, sᵢ, sⱼ, hi, hj, fun tid p hp => (hkept tid p hp).2⟩

end LiminalDB
