import LiminalDB.Foundations.Interleaving
import LiminalDB.Ledger.Evidence
import LiminalDB.Ledger.Ledger

/-! # Transitions do not interfere

Acceptance consults the global owner index, the global sequence and the head of the chain. A `Track`
is what one transition is by itself: its projection without its position in the ledger, and the
records it has introduced. The ledger is a family of tracks (`splits_ledger`): an input is accepted
exactly when its own track admits it, moves its own track and no other. So the outcome of each
transition's inputs does not depend on how they are interleaved with the others'. -/

namespace LiminalDB

variable {env : Crates}

/-! ## One transition by itself -/

/-- The projection without the two fields that say where in the ledger its last event is. -/
def TransitionProjection.withoutPosition (p : TransitionProjection) : TransitionProjection :=
  { p with lastSequence := 0, lastEventHash := "" }

/-- One transition by itself. -/
structure Track where
  /-- Its projection, without its position in the ledger. -/
  projection : Option TransitionProjection
  /-- The records it has introduced. -/
  records : Set String

namespace Track

/-- What the transition asks of a normalised input. -/
structure Admits (track : Track) (input : TransitionEventInput) : Prop where
  canonical : Canonical input
  fresh : input.recordRef ∉ track.records
  next : NextOf track.projection input

/-- The transition after an admitted input. The position of the event is of no account. -/
def advance (track : Track) (input : TransitionEventInput) : Track where
  -- any event with this caller part will do
  projection := some
    (nextProjection track.projection ⟨nextBody .default input, ""⟩).withoutPosition
  records := insert input.recordRef track.records

open Classical in
/-- Offer an input to the transition, which takes it in its normal form or leaves it. -/
noncomputable def offer (input : TransitionEventInput) (track : Track) : Bool × Track :=
  if track.Admits input.normalized then (true, track.advance input.normalized) else (false, track)

end Track

/-- The track of a transition in a ledger state. -/
def LedgerState.track (s : LedgerState) (tid : String) : Track where
  projection := s.projections[tid]?.map TransitionProjection.withoutPosition
  records := {r | ∃ owner, s.recordOwners[r]? = some owner ∧ owner.transitionId = tid}

/-! ## The position is of no account -/

/-- Which record may come next does not depend on the position. -/
theorem nextOf_withoutPosition {current : Option TransitionProjection}
    {input : TransitionEventInput} :
    NextOf (current.map TransitionProjection.withoutPosition) input ↔ NextOf current input := by
  cases current with
  | none => exact Iff.rfl
  | some p =>
      constructor
      · intro h
        exact ⟨h.subject, h.authorized, h.authorization, h.links, h.dimensions, h.sideEffect⟩
      · intro h
        exact ⟨h.subject, h.authorized, h.authorization, h.links, h.dimensions, h.sideEffect⟩

/-- What an event does to the rest of the projection depends on its caller part alone. -/
theorem nextProjection_withoutPosition (current : Option TransitionProjection)
    (e : TransitionEvent) :
    (nextProjection current e).withoutPosition =
      (nextProjection (current.map TransitionProjection.withoutPosition)
        ⟨nextBody .default e.body.input, ""⟩).withoutPosition := by
  cases current with
  | none => rfl
  | some p =>
      have hkind : (nextBody .default e.body.input).kind = e.body.kind := rfl
      have hrecord : (nextBody .default e.body.input).recordRef = e.body.recordRef := rfl
      have hdims : (nextBody .default e.body.input).dimensions = e.body.dimensions := rfl
      have hside : (nextBody .default e.body.input).sideEffectCommitted =
          e.body.sideEffectCommitted := rfl
      cases hk : e.body.kind <;>
        simp [nextProjection, hkind, hk, reauthorize, recordDependent, updateVerdicts_eq,
          updateProjectionTail, hrecord, hdims, hside, TransitionProjection.withoutPosition]

/-! ## The ledger as a family of tracks -/

/-- The transition an input belongs to. -/
def TransitionEventInput.key (input : TransitionEventInput) : String := trim input.transitionId

/-- An input sequence for each transition. -/
abbrev Family : Type := String → List TransitionEventInput

/-- No two transitions of the family introduce the same record. -/
def Family.Distinct (family : Family) : Prop :=
  ∀ k k', k ≠ k' → ∀ i ∈ family k, ∀ j ∈ family k', i.recordRef ≠ j.recordRef

/-- The inputs are those of the family, each transition's in its own order. -/
def Family.Interleaves (family : Family) (inputs : List TransitionEventInput) : Prop :=
  ∀ k, inputs.filter (fun input => input.key = k) = family k

/-- The input belongs to the family. -/
def Family.Has (family : Family) (input : TransitionEventInput) : Prop :=
  input ∈ family input.key

/-- Everything in an interleaving of a family is from one of its members. -/
theorem Family.Interleaves.has {family : Family} {inputs : List TransitionEventInput}
    (h : family.Interleaves inputs) : ∀ input ∈ inputs, family.Has input := by
  intro input hinput
  unfold Family.Has
  rw [← h input.key]
  exact List.mem_filter.mpr ⟨hinput, by simp⟩

/-- `append` as a step that accepts or rejects. -/
def Ledger.offer (env : Crates) (input : TransitionEventInput) (ledger : Ledger) : Bool × Ledger :=
  let (result, ledger') := ledger.append env input .disabled
  (result.isOk, ledger')

/-- The ledger is usable and everything in it came from the family. -/
structure Fed (env : Crates) (family : Family) (ledger : Ledger) : Prop where
  poisoned_eq : ledger.poisoned = false
  history : ∃ events, History env events ledger.state ∧
    ∀ e ∈ events, ∃ input, family.Has input ∧ e.body.input = input.normalized

section Step

variable {family : Family} {ledger : Ledger} {input : TransitionEventInput}

/-- In a ledger fed from a family, the index has the record of an input exactly when its own
transition introduced it. -/
theorem Fed.fresh_iff (h : Fed env family ledger) (hdistinct : family.Distinct)
    (hinput : family.Has input) :
    ledger.state.recordOwners[input.recordRef]? = none ↔
      input.recordRef ∉ (ledger.state.track input.key).records := by
  obtain ⟨events, hhist, hfrom⟩ := h.history
  constructor
  · rintro hnone ⟨owner, howner, -⟩
    rw [hnone] at howner
    cases howner
  · intro hnot
    rw [hhist.fresh_iff]
    intro e he heq
    -- the earlier event with this record came from an input of the same transition
    obtain ⟨j, hj, hej⟩ := hfrom e he
    have hjref : j.recordRef = input.recordRef := by
      rw [← heq]
      exact (congrArg TransitionEventInput.recordRef hej).symm
    have hkey : j.key = input.key := by
      by_contra hne
      exact hdistinct _ _ hne j hj input hinput hjref
    apply hnot
    refine ⟨⟨e.body.transitionId, e.body.subjectId, e.body.kind⟩, ?_, ?_⟩
    · rw [← heq]
      exact hhist.owner_of_mem e he
    · rw [← hkey]
      exact congrArg TransitionEventInput.transitionId hej

/-- The ledger admits an input exactly when its track does. -/
theorem Fed.admits_iff (h : Fed env family ledger) (hdistinct : family.Distinct)
    (hinput : family.Has input) :
    Admits ledger.state input.normalized ↔
      (ledger.state.track input.key).Admits input.normalized := by
  have hfresh := h.fresh_iff hdistinct hinput
  constructor
  · intro hadm
    exact ⟨hadm.canonical, hfresh.mp hadm.fresh, nextOf_withoutPosition.mpr hadm.next⟩
  · intro hadm
    exact ⟨hadm.canonical, hfresh.mpr hadm.fresh, nextOf_withoutPosition.mp hadm.next⟩

/-- An event moves the track of its own transition. -/
theorem track_advance_self (s : LedgerState) (e : TransitionEvent) :
    (s.advance e).track e.body.transitionId =
      (s.track e.body.transitionId).advance e.body.input := by
  have hprojection := nextProjection_withoutPosition s.projections[e.body.transitionId]? e
  unfold LedgerState.track Track.advance
  rw [LedgerState.advance_projection_self, Option.map_some, hprojection]
  congr 1
  ext r
  by_cases hr : r = e.body.recordRef
  · subst hr
    simp
  · rw [Set.mem_insert_iff, Set.mem_ofPred_eq, LedgerState.advance_owner_of_ne s e hr]
    exact (or_iff_right hr).symm

/-- An accepted event leaves the other tracks alone. -/
theorem track_advance_of_ne {s : LedgerState} {e : TransitionEvent} (h : Accepted env s e)
    {tid : String} (hne : tid ≠ e.body.transitionId) : (s.advance e).track tid = s.track tid := by
  unfold LedgerState.track
  rw [LedgerState.advance_projection_of_ne s e hne]
  congr 1
  ext r
  -- the new entry of the index belongs to the other transition, and it replaces none
  by_cases hr : r = e.body.recordRef
  · subst hr
    rw [Set.mem_ofPred_eq, Set.mem_ofPred_eq, LedgerState.advance_owner_self, h.fresh]
    constructor
    · rintro ⟨owner, howner, htid⟩
      cases howner
      exact absurd htid.symm hne
    · rintro ⟨owner, howner, -⟩
      cases howner
  · rw [Set.mem_ofPred_eq, Set.mem_ofPred_eq, LedgerState.advance_owner_of_ne s e hr]

/-- What an input does to a ledger fed from a family: it is recorded, or nothing happens. -/
theorem Fed.offer_cases (henv : env.Lossless) (h : Fed env family ledger)
    (input : TransitionEventInput) :
    (∃ e store, e.body.input = input.normalized ∧ Accepted env ledger.state e ∧
      ledger.offer env input = (true, { ledger with store, state := ledger.state.advance e })) ∨
    (¬ Admits ledger.state input.normalized ∧ ledger.offer env input = (false, ledger)) := by
  obtain ⟨events, hhist, -⟩ := h.history
  unfold Ledger.offer
  cases hprep : prepareEvent env input ledger.state with
  | ok prepared =>
      obtain ⟨e, candidate⟩ := prepared
      obtain ⟨store, happend⟩ := Ledger.append_disabled henv h.poisoned_eq hprep
      obtain ⟨he, hacc, rfl⟩ := prepareEvent_eq_ok.mp hprep
      exact .inl ⟨e, store, he, hacc, by rw [happend]; rfl⟩
  | error error =>
      obtain ⟨error', happend⟩ := Ledger.append_of_rejected (.inr ⟨error, hprep⟩) .disabled
      -- an admitted input would have become an event
      refine .inr ⟨fun hadm => ?_, by rw [happend]; rfl⟩
      obtain ⟨e, he, hacc⟩ := (hhist.exists_accepted_iff henv).mpr hadm
      rw [prepareEvent_eq_ok.mpr ⟨he, hacc, rfl⟩] at hprep
      cases hprep

end Step

/-- **The ledger is a family of tracks.** -/
theorem splits_ledger (henv : env.Lossless) {family : Family} (hdistinct : family.Distinct) :
    Splits TransitionEventInput.key (Ledger.offer env) Track.offer
      (fun tid ledger => ledger.state.track tid) (Fed env family) family.Has where
  keeps := by
    intro ledger input h hinput
    rcases h.offer_cases henv input with ⟨e, store, he, hacc, hoffer⟩ | ⟨-, hoffer⟩
    · rw [hoffer]
      -- An event that is taken goes to the end of the history.
      obtain ⟨events, hhist, hfrom⟩ := h.history
      refine ⟨h.poisoned_eq, events ++ [e], History.snoc_iff.mpr ⟨_, hhist, hacc, rfl⟩, ?_⟩
      rw [List.forall_mem_append, List.forall_mem_singleton]
      exact ⟨hfrom, input, hinput, he⟩
    · rw [hoffer]
      exact h
  own := by
    intro ledger input h hinput
    unfold Track.offer
    rcases h.offer_cases henv input with ⟨e, store, he, hacc, hoffer⟩ | ⟨hnot, hoffer⟩
    · -- Whether it is taken depends on its own track only.
      have hadm := hacc.admits
      rw [he, h.admits_iff hdistinct hinput] at hadm
      have htid : e.body.transitionId = input.key := congrArg TransitionEventInput.transitionId he
      rw [hoffer, if_pos hadm, ← he, ← htid]
      exact congrArg (true, ·) (track_advance_self ledger.state e)
    · rw [h.admits_iff hdistinct hinput] at hnot
      rw [hoffer, if_neg hnot]
  frame := by
    intro ledger input tid h hinput hne
    rcases h.offer_cases henv input with ⟨e, store, he, hacc, hoffer⟩ | ⟨-, hoffer⟩
    · have htid : e.body.transitionId = input.key := congrArg TransitionEventInput.transitionId he
      rw [hoffer]
      exact track_advance_of_ne hacc (htid ▸ hne)
    · rw [hoffer]

/-- **Transitions do not interfere.** Take a family of input sequences, one for each transition, in
which no two transitions introduce the same record. However the family is interleaved on a new
ledger, and with whatever rotation size, the same inputs of each transition are accepted and
rejected, and its projection is the same at the end but for its position in the ledger. -/
theorem transitions_do_not_interfere (henv : env.Lossless) {family : Family}
    (hdistinct : family.Distinct) {xs ys : List TransitionEventInput} (hxs : family.Interleaves xs)
    (hys : family.Interleaves ys) {rotation rotation' : UInt64} (hrotation : rotation ≠ 0)
    (hrotation' : rotation' ≠ 0) :
    ∃ ledger ledger', Ledger.openWithRotation env Root.empty rotation = .ok ledger ∧
      Ledger.openWithRotation env Root.empty rotation' = .ok ledger' ∧
      ∀ (tid : String),
        (feed (Ledger.offer env) xs ledger).1.filter (fun answer => answer.1.key = tid) =
          (feed (Ledger.offer env) ys ledger').1.filter (fun answer => answer.1.key = tid) ∧
        (feed (Ledger.offer env) xs ledger).2.state.projections[tid]?.map
            TransitionProjection.withoutPosition =
          (feed (Ledger.offer env) ys ledger').2.state.projections[tid]?.map
            TransitionProjection.withoutPosition := by
  obtain ⟨store, -, -, hopen⟩ := Ledger.openWithRotation_empty henv hrotation
  obtain ⟨store', -, -, hopen'⟩ := Ledger.openWithRotation_empty henv hrotation'
  refine ⟨_, _, hopen, hopen', fun tid => ?_⟩
  have hfed : ∀ store, Fed env family ⟨store, {}, .default, false⟩ :=
    fun store => ⟨rfl, [], .nil, by simp⟩
  obtain ⟨hanswers, htrack⟩ := (splits_ledger henv hdistinct).feed_congr tid (hfed store)
    (hfed store') hxs.has hys.has rfl ((hxs tid).trans (hys tid).symm)
  exact ⟨hanswers, congrArg Track.projection htrack⟩

/-- An authorization that opens a second transition, with blanks around its identifier. -/
def otherOpeningInput : TransitionEventInput :=
  { openingInput with transitionId := " transition-002 ", recordRef := sampleRef 0xa2 }

/-- The first observation of `transition-001`. -/
def observationInput : TransitionEventInput :=
  evidenceInput .observation 0xb1 { authorizationRef := sampleRef 0xa1 }

/-- Two transitions, with the opening of the second before and after the observation of the first. -/
theorem transitions_do_not_interfere_two :
    ∃ ledger ledger', Ledger.openWithRotation linkedCrates Root.empty 64 = .ok ledger ∧
      Ledger.openWithRotation linkedCrates Root.empty defaultSegmentSize = .ok ledger' ∧
      ∀ (tid : String),
        (feed (Ledger.offer linkedCrates) [openingInput, otherOpeningInput, observationInput]
            ledger).1.filter (fun answer => answer.1.key = tid) =
          (feed (Ledger.offer linkedCrates) [openingInput, observationInput, otherOpeningInput]
            ledger').1.filter (fun answer => answer.1.key = tid) ∧
        (feed (Ledger.offer linkedCrates) [openingInput, otherOpeningInput, observationInput]
            ledger).2.state.projections[tid]?.map TransitionProjection.withoutPosition =
          (feed (Ledger.offer linkedCrates) [openingInput, observationInput, otherOpeningInput]
            ledger').2.state.projections[tid]?.map TransitionProjection.withoutPosition := by
  have hkey : openingInput.key = "transition-001" := canonical_openingInput.transitionId.2
  have hkey' : observationInput.key = "transition-001" := canonical_openingInput.transitionId.2
  have hother : otherOpeningInput.key = "transition-002" := by decide +kernel
  let family : Family := fun tid =>
    if tid = "transition-001" then [openingInput, observationInput]
    else if tid = "transition-002" then [otherOpeningInput] else []
  -- which records each transition introduces
  have hmem : ∀ k, ∀ i ∈ family k,
      (k = "transition-001" ∧ (i.recordRef = sampleRef 0xa1 ∨ i.recordRef = sampleRef 0xb1)) ∨
        (k = "transition-002" ∧ i.recordRef = sampleRef 0xa2) := by
    intro k i hi
    simp only [family] at hi
    split at hi
    · rcases List.mem_pair.mp hi with rfl | rfl
      · exact .inl ⟨‹_›, .inl rfl⟩
      · exact .inl ⟨‹_›, .inr rfl⟩
    · split at hi
      · rw [List.mem_singleton.mp hi]
        exact .inr ⟨‹_›, rfl⟩
      · cases hi
  have hdistinct : family.Distinct := by
    intro k k' hne i hi j hj heq
    rcases hmem k i hi with ⟨rfl, hri⟩ | ⟨rfl, hri⟩ <;>
      rcases hmem k' j hj with ⟨rfl, hrj⟩ | ⟨rfl, hrj⟩
    · exact hne rfl
    · rcases hri with hri | hri <;> simp [hri, hrj] at heq
    · rcases hrj with hrj | hrj <;> simp [hri, hrj] at heq
    · exact hne rfl
  have hinterleaves : ∀ inputs, inputs = [openingInput, otherOpeningInput, observationInput] ∨
      inputs = [openingInput, observationInput, otherOpeningInput] →
        family.Interleaves inputs := by
    intro inputs hinputs tid
    by_cases h₁ : tid = "transition-001"
    · subst h₁
      rcases hinputs with rfl | rfl <;> simp [family, hkey, hkey', hother]
    · by_cases h₂ : tid = "transition-002"
      · subst h₂
        rcases hinputs with rfl | rfl <;> simp [family, hkey, hkey', hother]
      · rcases hinputs with rfl | rfl <;>
          simp [family, hkey, hkey', hother, h₁, h₂, Ne.symm h₁, Ne.symm h₂]
  exact transitions_do_not_interfere lossless_linkedCrates hdistinct (hinterleaves _ (.inl rfl))
    (hinterleaves _ (.inr rfl)) (by decide) (by decide)

end LiminalDB
