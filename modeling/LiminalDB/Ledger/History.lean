import LiminalDB.Foundations.HashChain
import LiminalDB.Ledger.Apply
import LiminalDB.Ledger.Linked

/-! # Accepted histories

`applyEvents` is the loop of `replay_from` over decoded events. A `History` is a list of events it
accepts from the default state, with the state it reaches; `History.rec_on` is the induction along
the run that all invariants use. The first one is the hash chain: the head hash commits to the whole
history. -/

namespace LiminalDB

variable (env : Crates)

/-- Apply events one after the other and stop at the first that is rejected. -/
def applyEvents : List TransitionEvent → LedgerState → Except TransitionLedgerError LedgerState
  | [], state => .ok state
  | event :: events, state =>
      match applyEvent env event state with
      | .error e _ => .error e
      | .ok _ state' => applyEvents events state'

/-- `events` is accepted from the default state and leads to `state`. -/
def History (events : List TransitionEvent) (state : LedgerState) : Prop :=
  applyEvents env events .default = .ok state

variable {env}

/-- Events apply if the first is accepted, and the others apply after it. -/
theorem applyEvents_cons_eq_ok {event : TransitionEvent} {events : List TransitionEvent}
    {s s' : LedgerState} :
    applyEvents env (event :: events) s = .ok s' ↔
      Accepted env s event ∧ applyEvents env events (s.advance event) = .ok s' := by
  rw [applyEvents]
  cases h : applyEvent env event s with
  | error e t =>
      have hnot : ¬ Accepted env s event := by
        intro hacc
        rw [hacc.applyEvent_eq] at h
        cases h
      simp [hnot]
  | ok u t =>
      obtain ⟨hacc, rfl⟩ := applyEvent_eq_ok.mp h
      simp [hacc]

/-- They apply if the first of them do, and then the rest in the state reached. -/
theorem applyEvents_append_eq_ok {before after : List TransitionEvent} {s s' : LedgerState} :
    applyEvents env (before ++ after) s = .ok s' ↔
      ∃ mid, applyEvents env before s = .ok mid ∧ applyEvents env after mid = .ok s' := by
  induction before generalizing s with
  | nil => simp [applyEvents]
  | cons event before ih =>
      rw [List.cons_append, applyEvents_cons_eq_ok, ih]
      constructor
      · rintro ⟨hacc, mid, hbefore, hafter⟩
        exact ⟨mid, applyEvents_cons_eq_ok.mpr ⟨hacc, hbefore⟩, hafter⟩
      · rintro ⟨mid, hbefore, hafter⟩
        obtain ⟨hacc, hbefore⟩ := applyEvents_cons_eq_ok.mp hbefore
        exact ⟨hacc, mid, hbefore, hafter⟩

namespace History

variable {events : List TransitionEvent} {state : LedgerState}

/-- The empty history. -/
theorem nil : History env [] .default := rfl

/-- The last event of a history was accepted in the state before it. -/
theorem snoc_iff {event : TransitionEvent} :
    History env (events ++ [event]) state ↔
      ∃ before, History env events before ∧ Accepted env before event ∧
        state = before.advance event := by
  unfold History
  rw [applyEvents_append_eq_ok]
  refine exists_congr fun before => and_congr_right fun _ => ?_
  rw [applyEvents_cons_eq_ok, applyEvents, Except.ok.injEq, eq_comm]

/-- **Induction along a run.** What holds of the default state and is kept by every accepted event
holds after every history. -/
@[elab_as_elim]
theorem rec_on {P : List TransitionEvent → LedgerState → Prop} (h : History env events state)
    (nil : P [] .default)
    (snoc : ∀ events before event, History env events before → P events before →
      Accepted env before event → P (events ++ [event]) (before.advance event)) :
    P events state := by
  induction events using List.reverseRecOn generalizing state with
  | nil =>
      cases h
      exact nil
  | append_singleton events event ih =>
      obtain ⟨before, hbefore, hacc, rfl⟩ := snoc_iff.mp h
      exact snoc events before event hbefore (ih hbefore) hacc

/-- Every prefix of a history is a history. -/
theorem take (h : History env events state) (i : Nat) :
    ∃ mid, History env (events.take i) mid ∧ applyEvents env (events.drop i) mid = .ok state := by
  have hsplit : applyEvents env (events.take i ++ events.drop i) .default = .ok state := by
    rw [List.take_append_drop]
    exact h
  exact applyEvents_append_eq_ok.mp hsplit

/-! ## The hash chain -/

/-- The events of a history are chained by their hashes, up to the head of the state. -/
theorem chain (h : History env events state) :
    Chain (fun e : TransitionEvent => e.body.previousEventHash) TransitionEvent.eventHash events
      state.headEventHash := by
  refine h.rec_on .nil fun events before event _ ih hacc => ?_
  rw [← hacc.previous] at ih
  exact .snoc ih

/-- Every event of a history carries the digest of its body. -/
theorem digest_eq (h : History env events state) :
    ∀ e ∈ events, digestCbor env env.eventBody e.body = .ok e.eventHash := by
  refine h.rec_on (by simp) fun events before event _ ih hacc e he => ?_
  rcases List.mem_append.mp he with he | he
  · exact ih e he
  · rw [List.mem_singleton.mp he]
    exact hacc.hash

end History

/-- SHA-256 over the CBOR of event bodies has no collision among the given bodies. (Into 32 bytes it
cannot be injective on all bodies there are.) -/
def CollisionFree (env : Crates) (bodies : Set TransitionEventBody) : Prop :=
  ∀ a ∈ bodies, ∀ b ∈ bodies,
    (env.eventBody a).map env.sha256 = (env.eventBody b).map env.sha256 → a = b

/-- Fewer bodies have no more collisions. -/
theorem CollisionFree.mono {bodies bodies' : Set TransitionEventBody} (hfree : CollisionFree env bodies')
    (hsub : bodies ⊆ bodies') : CollisionFree env bodies :=
  fun a ha b hb => hfree a (hsub ha) b (hsub hb)

/-- Equal event hashes mean equal events, where there is no collision. -/
theorem eq_of_eventHash_eq {bodies : Set TransitionEventBody} (hfree : CollisionFree env bodies)
    {a b : TransitionEvent} (ha : a.body ∈ bodies) (hb : b.body ∈ bodies)
    (hda : digestCbor env env.eventBody a.body = .ok a.eventHash)
    (hdb : digestCbor env env.eventBody b.body = .ok b.eventHash)
    (heq : a.eventHash = b.eventHash) : a = b := by
  obtain ⟨bytesA, hbytesA, hhashA⟩ := digestCbor_eq_ok.mp hda
  obtain ⟨bytesB, hbytesB, hhashB⟩ := digestCbor_eq_ok.mp hdb
  have hsha : env.sha256 bytesA = env.sha256 bytesB :=
    digestText_injective (hhashA.symm.trans (heq.trans hhashB))
  have hbody : a.body = b.body :=
    hfree _ ha _ hb (by rw [hbytesA, hbytesB]; exact congrArg Except.ok hsha)
  cases a
  cases b
  simp_all

/-- A history whose events have different hashes is free of collisions. -/
theorem History.collisionFree {events : List TransitionEvent} {state : LedgerState}
    (h : History env events state) (hnodup : (events.map TransitionEvent.eventHash).Nodup) :
    CollisionFree env {body | ∃ e ∈ events, e.body = body} := by
  rintro _ ⟨a, ha, rfl⟩ _ ⟨b, hb, rfl⟩ heq
  obtain ⟨bytesA, hbytesA, hhashA⟩ := digestCbor_eq_ok.mp (h.digest_eq a ha)
  obtain ⟨bytesB, hbytesB, hhashB⟩ := digestCbor_eq_ok.mp (h.digest_eq b hb)
  rw [hbytesA, hbytesB] at heq
  have hsha : env.sha256 bytesA = env.sha256 bytesB := Except.ok.inj heq
  have hhash : a.eventHash = b.eventHash := by
    rw [hhashA, hhashB, sha256Ref, sha256Ref, hsha]
  exact congrArg _ (List.inj_on_of_nodup_map hnodup ha hb hhash)

/-- **The head hash commits to the whole history.** Two accepted histories with the same head are
the same list of events, whatever their lengths. -/
theorem head_commits_to_history {events events' : List TransitionEvent} {state state' : LedgerState}
    (h : History env events state) (h' : History env events' state')
    (hfree : CollisionFree env {body | ∃ e ∈ events ++ events', e.body = body})
    (hhead : state.headEventHash = state'.headEventHash) : events = events' := by
  have hchain' := h'.chain
  rw [← hhead] at hchain'
  refine h.chain.eq_of_head_eq hchain' fun a ha b hb heq => ?_
  exact eq_of_eventHash_eq hfree ⟨a, List.mem_append_left _ ha, rfl⟩
    ⟨b, List.mem_append_right _ hb, rfl⟩ (h.digest_eq a ha) (h'.digest_eq b hb) heq

/-- The reference of a message, computed on numbers. -/
theorem digestText_digest (message : Bytes) : digestText (Sha256.digest message) =
    "sha256:" ++ String.ofList (((Sha256.digestNat message).flatMap (toBeBytes 4)).flatMap hexByte) := by
  rw [digestText, Sha256.toList_digest]

/-- A reference with the same byte 32 times. -/
def sampleRef (b : UInt8) : String := digestText (.replicate 32 b)

/-- The sample references of different bytes are different. -/
@[simp] theorem sampleRef_inj {a b : UInt8} : sampleRef a = sampleRef b ↔ a = b := by
  refine ⟨fun h => ?_, congrArg sampleRef⟩
  have hvec := congrArg List.Vector.toList (digestText_injective h)
  simpa using hvec

/-- The encoding of a reference has 73 bytes. -/
theorem length_text_of_isRef {r : String} (h : IsRef r) : (Codec.text.enc r).length = 73 := by
  show (encHead 3 (asBytes r).length ++ asBytes r).length = 73
  rw [h.1, List.length_append, h.1]
  rfl

/-- An authorization that opens the transition `transition-001`. -/
def openingInput : TransitionEventInput where
  transitionId := "transition-001"
  subjectId := "agent:deploy"
  kind := .authorization
  recordRef := sampleRef 0xa1
  payloadDigest := sampleRef 0xd0
  links := {}
  dimensions := none
  sideEffectCommitted := none
  capturedAtMs := 1

/-- The same for any transition. -/
def openingOf (tid : String) : TransitionEventInput := { openingInput with transitionId := tid }

/-- The subject of the samples is an identifier. -/
theorem isIdentifier_agent : IsIdentifier "agent:deploy" := ⟨by decide, by decide +kernel⟩

/-- The authorization that opens a transition is canonical, if the id of that is an identifier. -/
theorem canonical_openingOf {tid : String} (h : IsIdentifier tid) : Canonical (openingOf tid) where
  transitionId := h
  subjectId := isIdentifier_agent
  recordRef := isRef_digestText _
  payloadDigest := isRef_digestText _
  refs := by simp [openingOf, openingInput, TransitionLinks.refs]
  observationRefs := rfl
  dimensions := nofun

/-- So is that of the sample. -/
theorem canonical_openingInput : Canonical openingInput :=
  canonical_openingOf ⟨by decide, by decide +kernel⟩

/-- An opening authorization is the first event of a history. -/
theorem History.opening (hbody : ∀ body, ∃ bytes, env.eventBody body = .ok bytes) {tid : String}
    (htid : IsIdentifier tid) :
    ∃ e, e.body.input = openingOf tid ∧ Accepted env .default e ∧
      History env [e] (LedgerState.default.advance e) := by
  obtain ⟨e, hinput, hacc⟩ := Admits.exists_accepted (s := .default)
    ⟨canonical_openingOf htid, rfl, rfl, rfl⟩ hbody nofun
    (by simp [openingOf, openingInput, TransitionLinks.refs])
  have h : History env ([] ++ [e]) (LedgerState.default.advance e) :=
    snoc_iff.mpr ⟨_, .nil, hacc, rfl⟩
  exact ⟨e, hinput, hacc, h⟩

end LiminalDB
