import LiminalDB.Field.Cooldowns
import LiminalDB.Field.Queries

/-! # What views answer, over whole runs

A session is a field with all that it has answered so far: the replies to commands of LQL, and the events of
its views. Seen from there, every event belongs to a subscription that stands (`views_answer_subscriptions`),
the events of one subscription keep its distance, and none of them is late (`views_on_schedule`). -/

namespace LiminalDB

variable {F : Type}

/-! ## Sessions -/

/-- The call moves the clock. -/
def FieldCall.isTick : FieldCall F → Bool
  | .tickAll .. => true
  | _ => false

/-- A call of a field with its views, its garden and its variants. The seeds come from `Seed::new`. -/
inductive QueryCall (F : Type)
  | lql (visits : LqlVisits F) (ast : LqlAst F)
  | tick (visits : TickVisits F) (variation : NodeId → F) (dtMs : UInt64)
  | field (call : FieldCall F) (still : call.isTick = false)
  | recordReflexSnapshot (neighbors : List (String × F)) (snapshot : ReflexSnapshot F)
  | upsertVariant (variant : Variant F)
  | registerPendulum (pendulum : Pendulum F)
  | observeVariant (variantId : String) (evidence : F)
  | plantSeed (kind : SeedKind) (target : String) (ttlMs : UInt32) (ns : String)
  | abortSeed (id : UInt64)

/-- What a session answers, and when. -/
inductive Logged (F : Type)
  | reply (nowMs : UInt64) (result : Except LqlError (LqlExecResult F))
  | answer (nowMs : UInt64) (event : ViewEvent F)

/-- A field with what it has answered, oldest first. -/
structure Session (F : Type) where
  field : QueryField F
  log : List (Logged F)

namespace Session

variable [FloatLike F]

/-- What a call makes of a session. A reflex snapshot whose computation overflows is not recorded. -/
def call (platform : Platform F) (exp : F → F) (session : Session F) : QueryCall F → Session F
  | .lql visits ast =>
      let executed := session.field.execLql platform exp visits ast
      ⟨executed.2, session.log ++ [.reply session.field.nowMs executed.1]⟩
  | .tick visits variation dtMs =>
      let ticked := session.field.tickAll platform visits variation dtMs
      ⟨ticked.2, session.log ++ ticked.1.map (.answer ticked.2.nowMs)⟩
  | .field call _ =>
      { session with
        field := { session.field with toClusterField := session.field.toClusterField.call platform call } }
  | .recordReflexSnapshot neighbors snapshot =>
      match session.field.recordReflexSnapshot neighbors snapshot with
      | some recorded => { session with field := { session.field with toReflexField := recorded.2 } }
      | none => session
  | .upsertVariant variant =>
      { session with
        field := { session.field with variantLayer := session.field.variantLayer.upsertVariant variant } }
  | .registerPendulum pendulum =>
      { session with
        field := { session.field with variantLayer := session.field.variantLayer.registerPendulum pendulum } }
  | .observeVariant variantId evidence =>
      { session with
        field := { session.field with
          variantLayer := (session.field.variantLayer.observeVariant variantId evidence).2 } }
  | .plantSeed kind target ttlMs ns =>
      { session with
        field := { session.field with
          seedGarden := session.field.seedGarden.plant (Seed.new kind target ttlMs ns session.field.nowMs) } }
  | .abortSeed id =>
      { session with field := { session.field with seedGarden := session.field.seedGarden.abort id } }

/-- A run from a new field. -/
def run (platform : Platform F) (exp : F → F) (calls : List (QueryCall F)) : Session F :=
  calls.foldl (call platform exp) ⟨.new, []⟩

end Session

/-! ## What a log says about views -/

/-- The subscriptions that stand, with the times of their beginning. -/
abbrev Standing (F : Type) := ViewId → Option (UInt64 × LqlSubscribeResult F)

/-- What an entry of the log changes about the subscriptions. -/
def Logged.settle (standing : Standing F) : Logged F → Standing F
  | .reply nowMs (.ok ⟨some (.subscribe result), _⟩) => Function.update standing result.id (some (nowMs, result))
  | .reply _ (.ok ⟨some (.unsubscribe result), _⟩) => Function.update standing result.id none
  | _ => standing

/-- The subscriptions that stand after a log. -/
def standing (log : List (Logged F)) : Standing F := log.foldl Logged.settle fun _ => none

/-- The entry is the reply to a `SUBSCRIBE`. -/
def Logged.subscribes : Logged F → Bool
  | .reply _ (.ok ⟨some (.subscribe _), _⟩) => true
  | _ => false

/-- The events of views, with their times. -/
def answers (log : List (Logged F)) : List (UInt64 × ViewEvent F) :=
  log.filterMap fun
    | .answer nowMs event => some (nowMs, event)
    | .reply .. => none

/-- An entry is right after what is logged before it: a new subscription gets the next number, an
`UNSUBSCRIBE` says whether there was one, and an event answers a subscription that stands. -/
def Logged.Right (before : List (Logged F)) : Logged F → Prop
  | .reply _ (.ok ⟨some (.subscribe result), _⟩) => result.id.toNat = before.countP Logged.subscribes + 1
  | .reply _ (.ok ⟨some (.unsubscribe result), _⟩) => result.removed = (standing before result.id).isSome
  | .answer _ event => ∃ (since : UInt64) (result : LqlSubscribeResult F),
      standing before event.id = some (since, result) ∧ event.pattern = result.pattern ∧
        event.window = result.windowMs ∧ event.every = result.everyMs ∧ event.filter = result.filter
  | _ => True

/-- What stands after a log is what stood after its first part, settled by the rest. -/
theorem standing_append (before after : List (Logged F)) :
    standing (before ++ after) = after.foldl Logged.settle (standing before) := by
  rw [standing, List.foldl_append, standing]

/-- Answers neither begin nor end a subscription. -/
@[simp] theorem standing_append_answers (log : List (Logged F)) (nowMs : UInt64) (events : List (ViewEvent F)) :
    standing (log ++ events.map (.answer nowMs)) = standing log := by
  rw [standing_append, List.foldl_map]
  exact list_foldl_keeps id (fun _ _ => rfl) events (standing log)

/-! ## The invariant of a session -/

/-- The view that a subscription makes, without the time of its last answer. -/
def LqlSubscribeResult.view (result : LqlSubscribeResult F) : ViewRegistry.View F :=
  ⟨result.id, result.pattern, result.windowMs, result.everyMs, 0, result.filter⟩

/-- What a log and a registry say alike about an answer: its time, its view and its distance. -/
def ViewRegistry.View.stamp (view : ViewRegistry.View F) : UInt64 × ViewId × UInt32 :=
  (view.lastEmit, view.id, view.everyMs)

/-- What a run keeps of the views of a session and its log. -/
structure Session.Sound (session : Session F) : Prop where
  accum_lt : session.field.viewTickAccum.toNat < 500
  accum_le : session.field.viewTickAccum.toNat ≤ session.field.nowMs.toNat
  nextId : session.field.views.nextId.toNat = session.log.countP Logged.subscribes + 1
  /-- The views are those of the subscriptions that stand. -/
  subscribed : ∀ id, session.field.views.subscribed id =
    (standing session.log id).map fun entry => entry.2.view
  /-- A view remembers one of its answers, or when it began. -/
  remembers : ∀ (id : ViewId) (view : ViewRegistry.View F), session.field.views.views[id]? = some view →
    (∃ event, (view.lastEmit, event) ∈ answers session.log ∧ event.id = id) ∨
      ∃ since result, standing session.log id = some (since, result) ∧
        view.lastEmit = saturatingSub since view.everyMs.toUInt64
  scheduled : ∃ given : List (ViewRegistry.View F),
    given.map ViewRegistry.View.stamp = (answers session.log).map (fun e => (e.1, e.2.id, e.2.every)) ∧
      session.field.views.Scheduled session.field.nowMs session.field.viewTickAccum given
  right : ∀ before entry after, session.log = before ++ entry :: after → entry.Right before

section Steps

variable [FloatLike F] {platform : Platform F} {exp : F → F} {session after : Session F}

/-! ## The clock -/

/-- Only a tick moves the clock. -/
theorem nowMs_call {field : ClusterField F} {call : FieldCall F} (still : call.isTick = false) :
    (field.call platform call).nowMs = field.nowMs := by
  have hnotes {after : ClusterField F} (h : after.notes = field.notes) : after.nowMs = field.nowMs :=
    congrArg Notes.nowMs h
  cases call with
  | tickAll visits variation dtMs => cases still
  | routeImpulse visits imp =>
      obtain ⟨counters, hreact⟩ := @ClusterField.notes_react F _ platform field visits imp
      have hrouted := @ClusterField.notes_routeImpulse F _ platform field visits imp
      rw [hreact] at hrouted
      have hrecord (notes : Notes F) (recording : String × NodeId × UInt32) :
          (notes.recordTokenHit platform imp.strength recording).nowMs = notes.nowMs := rfl
      exact (congrArg Notes.nowMs hrouted).trans (list_foldl_keeps Notes.nowMs hrecord _ _)
  | removeReflex id =>
      show (field.removeReflex id).nowMs = field.nowMs
      unfold ClusterField.removeReflex
      split <;> rfl
  | addRoot seed => exact hnotes (ClusterField.notes_spawn _)
  | trimLowEnergy visits dozes dies => exact hnotes (ClusterField.notes_trimLowEnergy visits dozes dies)
  | injectSeedVariation visits shift energy coin baseSeed =>
      exact hnotes (ClusterField.notes_injectSeedVariation visits shift energy coin baseSeed)
  | runDreamCycle visits tookMs => exact hnotes (ClusterField.notes_runDreamCycle visits tookMs)
  | runCollectiveDream groups cfg nowMs tookMs =>
      exact hnotes (ClusterField.notes_runCollectiveDream tookMs groups cfg nowMs)
  | awakenNow visits => exact hnotes (ClusterField.notes_awakenNow visits)
  | applyMirrorEpoch visits epoch scale maxOps protectSalience =>
      exact hnotes (ClusterField.notes_applyMirrorEpoch visits epoch scale maxOps protectSalience)
  | _ => rfl

/-- A tick moves the clock of the field by its length. -/
theorem nowMs_tickAll (visits : TickVisits F) (variation : NodeId → F) (field : QueryField F) (dtMs : UInt64) :
    (field.tickAll platform visits variation dtMs).2.nowMs = saturatingAdd field.nowMs dtMs :=
  congrArg Notes.nowMs (ClusterField.notes_tickAll visits.field variation dtMs)

/-- Recording a snapshot of reflexes does not move the clock. -/
theorem nowMs_recordReflexSnapshot {field : ReflexField F} {neighbors : List (String × F)}
    {snapshot : ReflexSnapshot F} {recorded : Option (ReflexReport F) × ReflexField F}
    (h : field.recordReflexSnapshot neighbors snapshot = some recorded) : recorded.2.nowMs = field.nowMs := by
  simp only [ReflexField.recordReflexSnapshot] at h
  split at h
  · cases h
    rfl
  · split at h
    · cases h
      rfl
    · split at h
      · cases h
      · cases h
        exact nowMs_applyAction _ _ _

/-! ## What calls make of the invariant -/

/-- A new session is sound: it has no views and an empty log. -/
theorem sound_new : (⟨.new, []⟩ : Session F).Sound where
  accum_lt := by
    show (0 : UInt64).toNat < 500
    decide
  accum_le := le_rfl
  nextId := rfl
  subscribed id := by
    show (Option.map _ (ViewRegistry.new : ViewRegistry F).views[id]?) = _
    rw [ViewRegistry.new, Std.ExtTreeMap.getElem?_empty]
    rfl
  remembers id view h := by
    have h : (ViewRegistry.new : ViewRegistry F).views[id]? = some view := h
    rw [ViewRegistry.new, Std.ExtTreeMap.getElem?_empty] at h
    cases h
  scheduled := ⟨[], rfl, ViewRegistry.scheduled_new⟩
  right before entry after h := by
    have hlength := congrArg List.length h
    simp at hlength

omit [FloatLike F] in
/-- A call that leaves the views, the clocks and the log alone. -/
theorem Session.Sound.congr (h : session.Sound) (hviews : after.field.views = session.field.views)
    (haccum : after.field.viewTickAccum = session.field.viewTickAccum)
    (hnow : after.field.nowMs = session.field.nowMs) (hlog : after.log = session.log) : after.Sound where
  accum_lt := haccum ▸ h.accum_lt
  accum_le := haccum ▸ hnow ▸ h.accum_le
  nextId := hviews ▸ hlog ▸ h.nextId
  subscribed := hviews ▸ hlog ▸ h.subscribed
  remembers := hviews ▸ hlog ▸ h.remembers
  scheduled := hviews ▸ haccum ▸ hnow ▸ hlog ▸ h.scheduled
  right := hlog ▸ h.right

omit [FloatLike F] in
/-- A reply that is not about views. -/
theorem Session.Sound.reply (h : session.Sound) (nowMs : UInt64) {result : Except LqlError (LqlExecResult F)}
    (hviews : after.field.views = session.field.views)
    (haccum : after.field.viewTickAccum = session.field.viewTickAccum)
    (hnow : after.field.nowMs = session.field.nowMs) (hlog : after.log = session.log ++ [.reply nowMs result])
    (hsettle : ∀ standing : Standing F, Logged.settle standing (.reply nowMs result) = standing)
    (hsubscribes : (Logged.reply nowMs result).subscribes = false)
    (hright : ∀ before, (Logged.reply nowMs result).Right before) : after.Sound where
  accum_lt := haccum ▸ h.accum_lt
  accum_le := haccum ▸ hnow ▸ h.accum_le
  nextId := by
    rw [hviews, hlog, List.countP_append, List.countP_singleton, hsubscribes]
    exact h.nextId
  subscribed id := by
    rw [hviews, hlog, standing_append]
    exact (h.subscribed id).trans (by rw [List.foldl_cons, List.foldl_nil, hsettle])
  remembers id view hview := by
    rw [hviews] at hview
    rw [hlog, standing_append, List.foldl_cons, List.foldl_nil, hsettle, answers, List.filterMap_append]
    simpa [answers] using h.remembers id view hview
  scheduled := by
    rw [hviews, haccum, hnow, hlog, answers, List.filterMap_append]
    simpa [answers] using h.scheduled
  right := by
    rw [hlog]
    exact forall_split_append_singleton.mpr ⟨h.right, hright session.log⟩

omit [FloatLike F] in
/-- A reply is no answer of a view. -/
@[simp] theorem answers_append_reply (log : List (Logged F)) (nowMs : UInt64)
    (result : Except LqlError (LqlExecResult F)) : answers (log ++ [.reply nowMs result]) = answers log := by
  simp [answers]

omit [FloatLike F] in
/-- One more entry settles what stood before it. -/
theorem standing_append_singleton (log : List (Logged F)) (entry : Logged F) :
    standing (log ++ [entry]) = entry.settle (standing log) := standing_append log [entry]

omit [FloatLike F] in
/-- The reply to a `SUBSCRIBE` makes its subscription stand from its time on. -/
@[simp] theorem settle_subscribe (standing : Standing F) (nowMs : UInt64) (result : LqlSubscribeResult F)
    (events : List (LqlEvent F)) : Logged.settle standing (.reply nowMs (.ok ⟨some (.subscribe result), events⟩)) =
      Function.update standing result.id (some (nowMs, result)) := rfl

omit [FloatLike F] in
/-- The reply to an `UNSUBSCRIBE` ends the subscription that it names. -/
@[simp] theorem settle_unsubscribe (standing : Standing F) (nowMs : UInt64) (result : LqlUnsubscribeResult)
    (events : List (LqlEvent F)) : Logged.settle standing (.reply nowMs (.ok ⟨some (.unsubscribe result), events⟩)) =
      Function.update standing result.id none := rfl

omit [FloatLike F] in
/-- A subscription gets a view that stands for it, under the next id, and the session stays sound. -/
theorem Session.Sound.subscribe (h : session.Sound) (pattern : String) (windowMs : UInt32) {everyMs : UInt32}
    (hevery : 0 < everyMs.toNat) (filter : ViewFilter F) {events : List (LqlEvent F)}
    (hroom : session.log.countP Logged.subscribes + 2 < 2 ^ 64) :
    Session.Sound
      ⟨{ session.field with
          views := (session.field.views.addView pattern windowMs everyMs session.field.nowMs filter).2 },
        session.log ++ [.reply session.field.nowMs
          (.ok ⟨some (.subscribe ⟨session.field.views.nextId, pattern, windowMs, everyMs, filter⟩), events⟩)]⟩ := by
  have hnext := h.nextId
  -- There is room for one more id.
  have hlt : session.field.views.nextId.toNat + 1 < 2 ^ 64 := by omega
  obtain ⟨given, hgiven, hscheduled⟩ := h.scheduled
  have hviews := @ViewRegistry.getElem?_addView F session.field.views pattern windowMs everyMs
    session.field.nowMs filter
  constructor
  · exact h.accum_lt
  · exact h.accum_le
  · show (session.field.views.nextId + 1).toNat = _
    rw [UInt64.toNat_add, List.countP_append, List.countP_singleton]
    simp only [Logged.subscribes, if_pos]
    have hone : (1 : UInt64).toNat = 1 := rfl
    omega
  · intro id
    rw [ViewRegistry.subscribed, hviews, standing_append_singleton, settle_subscribe]
    -- The view that is added is the one that was asked for, and the others stay.
    by_cases hid : session.field.views.nextId = id
    · subst hid
      simp [LqlSubscribeResult.view, ViewRegistry.View.subscription]
    · rw [if_neg hid, Function.update_of_ne (Ne.symm hid)]
      exact h.subscribed id
  · intro id view hview
    rw [answers_append_reply, standing_append_singleton, settle_subscribe]
    -- A new view has not answered yet, and its time runs from its subscription.
    replace hview := (hviews id).symm.trans hview
    split at hview
    · rename_i hid
      subst hid
      cases hview
      exact Or.inr ⟨session.field.nowMs, _, Function.update_self _ _ _, rfl⟩
    · rename_i hid
      refine (h.remembers id view hview).imp_right ?_
      rintro ⟨since, result, hstands, htime⟩
      exact ⟨since, result, (Function.update_of_ne (Ne.symm hid) _ _).trans hstands, htime⟩
  · refine ⟨given, ?_, hscheduled.addView pattern windowMs hevery filter hlt⟩
    rw [answers_append_reply, hgiven]
  · exact forall_split_append_singleton.mpr ⟨h.right, hnext⟩

omit [FloatLike F] in
/-- With the subscription its view ends, and the session stays sound. -/
theorem Session.Sound.unsubscribe (h : session.Sound) (id : ViewId) {events : List (LqlEvent F)} :
    Session.Sound
      ⟨{ session.field with views := (session.field.views.removeView id).2 },
        session.log ++ [.reply session.field.nowMs
          (.ok ⟨some (.unsubscribe ⟨id, (session.field.views.removeView id).1⟩), events⟩)]⟩ := by
  obtain ⟨given, hgiven, hscheduled⟩ := h.scheduled
  have hviews := @ViewRegistry.getElem?_removeView F session.field.views id
  constructor
  · exact h.accum_lt
  · exact h.accum_le
  · show session.field.views.nextId.toNat = _
    rw [List.countP_append, List.countP_singleton]
    exact h.nextId
  · intro other
    rw [ViewRegistry.subscribed, hviews, standing_append_singleton, settle_unsubscribe]
    -- The view that is taken away is the one that was named.
    by_cases hid : id = other
    · subst hid
      simp
    · rw [if_neg hid, Function.update_of_ne (Ne.symm hid)]
      exact h.subscribed other
  · intro other view hview
    rw [answers_append_reply, standing_append_singleton, settle_unsubscribe]
    replace hview := (hviews other).symm.trans hview
    split at hview
    · cases hview
    · rename_i hid
      refine (h.remembers other view hview).imp_right ?_
      rintro ⟨since, result, hstands, htime⟩
      exact ⟨since, result, (Function.update_of_ne (Ne.symm hid) _ _).trans hstands, htime⟩
  · refine ⟨given, ?_, hscheduled.removeView id⟩
    rw [answers_append_reply, hgiven]
  · refine forall_split_append_singleton.mpr ⟨h.right, ?_⟩
    show session.field.views.views.contains id = (standing session.log id).isSome
    -- The reply says whether there was such a view, and so does the log.
    have hsubscribed := congrArg Option.isSome (h.subscribed id)
    rw [ViewRegistry.subscribed, Option.isSome_map, Option.isSome_map] at hsubscribed
    rw [← hsubscribed, Std.ExtTreeMap.isSome_getElem?_eq_contains]

omit [FloatLike F] in
/-- Events of subscriptions that stand are right, one after the other. -/
theorem forall_split_append_answers {log : List (Logged F)} (nowMs : UInt64) {events : List (ViewEvent F)}
    (hlog : ∀ before entry after, log = before ++ entry :: after → entry.Right before)
    (hevents : ∀ event ∈ events, (Logged.answer nowMs event).Right log) :
    ∀ before entry after, log ++ events.map (.answer nowMs) = before ++ entry :: after → entry.Right before := by
  induction events using List.reverseRecOn with
  | nil => simpa using hlog
  | append_singleton events event ih =>
      have hbefore := ih fun e he => hevents e (List.mem_append_left _ he)
      rw [List.map_append, List.map_singleton, ← List.append_assoc]
      refine forall_split_append_singleton.mpr ⟨hbefore, ?_⟩
      have hright := hevents event (List.mem_append_right _ List.mem_cons_self)
      simpa only [Logged.Right, standing_append_answers] using hright

omit [FloatLike F] in
/-- The answers of a tick are added, each with its time. -/
theorem answers_append_answers (log : List (Logged F)) (nowMs : UInt64) (events : List (ViewEvent F)) :
    answers (log ++ events.map (.answer nowMs)) = answers log ++ events.map fun event => (nowMs, event) := by
  rw [answers, List.filterMap_append, List.filterMap_map]
  exact congrArg _ (List.filterMap_eq_map' ▸ rfl)

omit [FloatLike F] in
/-- A check of the views at a later time, with the statistics that it hands out. -/
theorem Session.Sound.answer (h : session.Sound) {nowMs accum : UInt64} (orders : UInt64 → Order ViewId)
    (stats : ViewRegistry.View F → ViewStats F) (hlater : session.field.nowMs.toNat ≤ nowMs.toNat)
    (hpassed : nowMs.toNat + session.field.viewTickAccum.toNat ≤ session.field.nowMs.toNat + accum.toNat)
    (hle : accum.toNat ≤ nowMs.toNat)
    (hviews : after.field.views = (session.field.views.checkViews orders nowMs accum).2.2)
    (haccum : after.field.viewTickAccum = (session.field.views.checkViews orders nowMs accum).2.1)
    (hnow : after.field.nowMs = nowMs)
    (hlog : after.log = session.log ++ ((session.field.views.checkViews orders nowMs accum).1.map fun view =>
      ViewRegistry.buildEvent view (stats view)).map (.answer nowMs)) : after.Sound := by
  obtain ⟨given, hgiven, hscheduled⟩ := h.scheduled
  obtain ⟨hchecked, hlt, hdrained⟩ := (hscheduled.advance hlater hpassed).checkViews orders
  obtain ⟨hnext, hkept, htaken⟩ :=
    @ViewRegistry.subscribed_checkViews F session.field.views orders nowMs accum
  constructor
  · exact haccum ▸ hlt
  · rw [haccum, hnow]
    exact hdrained.trans hle
  · rw [hviews, hnext, hlog, List.countP_append, List.countP_map]
    have hnone : (List.map (fun view => ViewRegistry.buildEvent view (stats view))
        (session.field.views.checkViews orders nowMs accum).1).countP
          (Logged.subscribes ∘ Logged.answer nowMs) = 0 := List.countP_eq_zero.mpr fun _ _ => by simp [Logged.subscribes]
    rw [hnone]
    exact h.nextId
  · intro id
    rw [hviews, hkept, hlog, standing_append_answers]
    exact h.subscribed id
  · intro id view hview
    rw [hviews] at hview
    rw [hlog, standing_append_answers, answers_append_answers]
    rcases ViewRegistry.answered_or_kept orders nowMs accum hview with hnew | hold
    · obtain ⟨htime, -⟩ := htaken view hnew
      have hid := (hchecked.ids id view hview).1
      refine Or.inl ⟨ViewRegistry.buildEvent view (stats view), List.mem_append_right _ ?_, hid⟩
      rw [htime, List.map_map]
      exact List.mem_map_of_mem hnew
    · refine (h.remembers id view hold).imp_left ?_
      rintro ⟨event, hevent, hid⟩
      exact ⟨event, List.mem_append_left _ hevent, hid⟩
  · refine ⟨given ++ (session.field.views.checkViews orders nowMs accum).1, ?_, ?_⟩
    · rw [hlog, answers_append_answers, List.map_append, List.map_append, hgiven, List.map_map, List.map_map]
      refine congrArg _ (List.map_congr_left fun view hview => ?_)
      show (view.lastEmit, view.id, view.everyMs) = (nowMs, view.id, view.everyMs)
      rw [(htaken view hview).1]
    · rw [hviews, haccum, hnow]
      exact hchecked
  · rw [hlog]
    refine forall_split_append_answers nowMs h.right ?_
    intro event hevent
    obtain ⟨view, hview, rfl⟩ := List.mem_map.mp hevent
    obtain ⟨-, id, hsubscribed⟩ := htaken view hview
    -- The answered view is that of a subscription that stands.
    obtain ⟨old, hold, hsame⟩ := Option.map_eq_some_iff.mp hsubscribed
    have hid : view.id = id := (congrArg ViewRegistry.View.id hsame).symm.trans (hscheduled.ids id old hold).1
    rw [h.subscribed id] at hsubscribed
    obtain ⟨⟨since, result⟩, hstands, heq⟩ := Option.map_eq_some_iff.mp hsubscribed
    refine ⟨since, result, ?_, ?_, ?_, ?_, ?_⟩
    · show standing session.log view.id = _
      rw [hid, hstands]
    · exact (congrArg ViewRegistry.View.pattern heq).symm
    · exact (congrArg ViewRegistry.View.windowMs heq).symm
    · exact (congrArg ViewRegistry.View.everyMs heq).symm
    · exact (congrArg ViewRegistry.View.filter heq).symm

/-- A tick answers subscriptions that stand. -/
theorem Session.Sound.tick (h : session.Sound) (visits : TickVisits F) (variation : NodeId → F) (dtMs : UInt64) :
    (session.call platform exp (.tick visits variation dtMs)).Sound := by
  have hnow := @nowMs_tickAll F _ platform visits variation session.field dtMs
  have hlt := h.accum_lt
  have hle := h.accum_le
  have hmax := (session.field.nowMs).toNat_lt
  have hclock : (session.field.toClusterField.tickAll platform visits.field variation dtMs).nowMs.toNat =
      min (session.field.nowMs.toNat + dtMs.toNat) (2 ^ 64 - 1) :=
    (congrArg UInt64.toNat hnow).trans (FeedbackRun.toNat_saturatingAdd _ _)
  refine h.answer visits.views _ ?_ ?_ ?_ rfl rfl rfl rfl
  · omega
  · rw [FeedbackRun.toNat_saturatingAdd]
    omega
  · rw [FeedbackRun.toNat_saturatingAdd]
    omega

/-- The command is about views. -/
def LqlAst.aboutViews : LqlAst F → Bool
  | .subscribe .. | .unsubscribe _ => true
  | _ => false

/-- A command that is not about views: what it leaves alone, and that its reply is not about views either. -/
theorem execLql_frame (visits : LqlVisits F) (field : QueryField F) {ast : LqlAst F} (hast : ast.aboutViews = false) :
    ((field.execLql platform exp visits ast).2.views = field.views ∧
      (field.execLql platform exp visits ast).2.viewTickAccum = field.viewTickAccum ∧
      (field.execLql platform exp visits ast).2.nowMs = field.nowMs) ∧
    (∀ (standing : Standing F) nowMs, Logged.settle standing
      (.reply nowMs (field.execLql platform exp visits ast).1) = standing) ∧
    (∀ nowMs, (Logged.reply nowMs (field.execLql platform exp visits ast).1).subscribes = false) ∧
    ∀ nowMs before, (Logged.reply nowMs (field.execLql platform exp visits ast).1).Right before := by
  cases ast with
  | subscribe pattern windowMs everyMs filter => cases hast
  | unsubscribe id => cases hast
  | commit variantId =>
      simp only [QueryField.execLql]
      split
      · exact ⟨⟨rfl, rfl, rfl⟩, fun _ _ => rfl, fun _ => rfl, fun _ _ => trivial⟩
      · refine ⟨?_, fun _ _ => rfl, fun _ => rfl, fun _ _ => trivial⟩
        unfold QueryField.plantVariantSeeds
        split
        · exact ⟨rfl, rfl, rfl⟩
        · exact ⟨rfl, rfl, rfl⟩
  | pivot source target reason =>
      simp only [QueryField.execLql]
      split
      · exact ⟨⟨rfl, rfl, rfl⟩, fun _ _ => rfl, fun _ => rfl, fun _ _ => trivial⟩
      · exact ⟨⟨rfl, rfl, rfl⟩, fun _ _ => rfl, fun _ => rfl, fun _ _ => trivial⟩
  | defuse pendulumId drain =>
      simp only [QueryField.execLql]
      split
      · exact ⟨⟨rfl, rfl, rfl⟩, fun _ _ => rfl, fun _ => rfl, fun _ _ => trivial⟩
      · exact ⟨⟨rfl, rfl, rfl⟩, fun _ _ => rfl, fun _ => rfl, fun _ _ => trivial⟩
  | _ => exact ⟨⟨rfl, rfl, rfl⟩, fun _ _ => rfl, fun _ => rfl, fun _ _ => trivial⟩

omit [FloatLike F] in
/-- The distance between two views is positive: a missing one is a second, and one below 200 ms is raised to
that. -/
theorem lqlEvery_pos (everyMs : Option UInt32) : 0 < (QueryField.lqlEvery everyMs).toNat := by
  simp only [QueryField.lqlEvery]
  split
  · decide
  · rename_i hle
    have hle : ¬ (everyMs.getD 1000).toNat < (200 : UInt32).toNat := hle
    have hvalue : (200 : UInt32).toNat = 200 := rfl
    omega

/-- The call is a `SUBSCRIBE`. -/
def QueryCall.subscribes : QueryCall F → Bool
  | .lql _ (.subscribe ..) => true
  | _ => false

/-- Any call. -/
theorem Session.Sound.call (h : session.Sound) (call : QueryCall F)
    (hroom : call.subscribes = true → session.log.countP Logged.subscribes + 2 < 2 ^ 64) :
    (session.call platform exp call).Sound := by
  cases call with
  | lql visits ast =>
      by_cases hast : ast.aboutViews = false
      · obtain ⟨⟨hviews, haccum, hnow⟩, hsettle, hsubscribes, hright⟩ :=
          @execLql_frame F _ platform exp visits session.field ast hast
        exact h.reply _ hviews haccum hnow rfl (fun standing => hsettle standing _) (hsubscribes _) (hright _)
      · cases ast with
        | subscribe pattern windowMs everyMs filter =>
            exact h.subscribe pattern (ClusterField.lqlWindow windowMs) (lqlEvery_pos everyMs) filter (hroom rfl)
        | unsubscribe id => exact h.unsubscribe id
        | _ => exact absurd rfl hast
  | tick visits variation dtMs => exact h.tick visits variation dtMs
  | field call still => exact h.congr rfl rfl (nowMs_call still) rfl
  | recordReflexSnapshot neighbors snapshot =>
      simp only [Session.call]
      split
      · rename_i recorded hrecorded
        exact h.congr rfl rfl (nowMs_recordReflexSnapshot hrecorded) rfl
      · exact h
  | _ => exact h.congr rfl rfl rfl rfl

/-- A call adds a subscription to the log exactly if it is a `SUBSCRIBE`. -/
theorem countP_subscribes_call (session : Session F) (call : QueryCall F) :
    (session.call platform exp call).log.countP Logged.subscribes =
      session.log.countP Logged.subscribes + if call.subscribes then 1 else 0 := by
  cases call with
  | lql visits ast =>
      show List.countP Logged.subscribes (session.log ++ [_]) = _
      rw [List.countP_append, List.countP_singleton]
      by_cases hast : ast.aboutViews = false
      · obtain ⟨-, -, hsubscribes, -⟩ := @execLql_frame F _ platform exp visits session.field ast hast
        rw [hsubscribes]
        cases ast with
        | subscribe pattern windowMs everyMs filter => cases hast
        | _ => rfl
      · cases ast with
        | subscribe pattern windowMs everyMs filter => rfl
        | unsubscribe id => rfl
        | _ => exact absurd rfl hast
  | tick visits variation dtMs =>
      show List.countP Logged.subscribes (session.log ++ _) = _
      rw [List.countP_append, List.countP_map]
      exact congrArg _ (List.countP_eq_zero.mpr fun _ _ => by simp [Logged.subscribes])
  | recordReflexSnapshot neighbors snapshot =>
      simp only [Session.call]
      split
      · rfl
      · rfl
  | _ => rfl

/-- What a run keeps, as long as there are ids left for its subscriptions. -/
theorem sound_run (calls : List (QueryCall F)) (hroom : calls.countP QueryCall.subscribes + 1 < 2 ^ 64) :
    (Session.run platform exp calls).Sound ∧
      (Session.run platform exp calls).log.countP Logged.subscribes = calls.countP QueryCall.subscribes := by
  induction calls using List.reverseRecOn with
  | nil => exact ⟨sound_new, rfl⟩
  | append_singleton calls call ih =>
      rw [List.countP_append, List.countP_singleton] at hroom ⊢
      obtain ⟨hsound, hcount⟩ := ih (by omega)
      rw [Session.run, List.foldl_append, List.foldl_cons, List.foldl_nil, ← Session.run]
      refine ⟨hsound.call call fun hcall => ?_, ?_⟩
      · rw [if_pos hcall] at hroom
        omega
      · rw [countP_subscribes_call, hcount]

end Steps

/-! ## The results -/

section Results

variable [FloatLike F]

/-- In every run the events of a subscription keep its distance, and none of them is late: a subscription that
stands has been answered within its distance and the 500 ms of the view clock, or it is so young that it need
not be. -/
theorem views_on_schedule (platform : Platform F) (exp : F → F) (calls : List (QueryCall F))
    (hroom : calls.countP QueryCall.subscribes + 1 < 2 ^ 64) :
    ((answers (Session.run platform exp calls).log).Pairwise fun earlier later => earlier.2.id = later.2.id →
        earlier.1.toNat + later.2.every.toNat ≤ later.1.toNat) ∧
      ∀ (id : ViewId) (since : UInt64) (result : LqlSubscribeResult F),
        standing (Session.run platform exp calls).log id = some (since, result) →
          (∃ nowMs event, (nowMs, event) ∈ answers (Session.run platform exp calls).log ∧ event.id = id ∧
            (Session.run platform exp calls).field.nowMs.toNat < nowMs.toNat + result.everyMs.toNat + 500) ∨
          (Session.run platform exp calls).field.nowMs.toNat < max since.toNat result.everyMs.toNat + 500 := by
  obtain ⟨hsound, -⟩ := @sound_run F _ platform exp calls hroom
  obtain ⟨given, hgiven, hscheduled⟩ := hsound.scheduled
  constructor
  · have hspaced : (given.map ViewRegistry.View.stamp).Pairwise fun earlier later => earlier.2.1 = later.2.1 →
        earlier.1.toNat + later.2.2.toNat ≤ later.1.toNat := List.pairwise_map.mpr hscheduled.spaced
    rw [hgiven] at hspaced
    exact List.pairwise_map.mp hspaced
  · intro id since result hstands
    -- The subscription has a view, which is not late.
    have hview := hsound.subscribed id
    rw [hstands] at hview
    obtain ⟨view, hview, hsame⟩ := Option.map_eq_some_iff.mp hview
    have hevery : view.everyMs = result.everyMs := congrArg ViewRegistry.View.everyMs hsame
    have hprompt := hscheduled.prompt id view hview
    have hlt := hsound.accum_lt
    rw [hevery] at hprompt
    rcases hsound.remembers id view hview with ⟨event, hevent, hid⟩ | ⟨began, subscribed, hbegan, htime⟩
    · exact Or.inl ⟨view.lastEmit, event, hevent, hid, by omega⟩
    · rw [hstands] at hbegan
      cases hbegan
      rw [htime, hevery, toNat_saturatingSub, UInt32.toNat_toUInt64] at hprompt
      exact Or.inr (by omega)

/-- A subscription at a distance of 300 ms that stands, and is answered by two ticks of 600 ms each. -/
def standingViewCalls : List (QueryCall ℚ) :=
  [.field (.addRoot "cpu/load") rfl, .lql ⟨.listed, .listed⟩ (.subscribe "cpu" none (some 300) ⟨none, none, none⟩),
    .tick ⟨.listed, fun _ => .listed, .listed⟩ (fun _ => 0) 600,
    .tick ⟨.listed, fun _ => .listed, .listed⟩ (fun _ => 0) 600]

/-- The two answers keep their distance, and the subscription, which stands, was answered in time. -/
theorem views_on_schedule_standingViewCalls :
    let session := Session.run (ClusterField.constantPlatform ℚ 0.5) id standingViewCalls
    (answers session.log).map (fun answer => (answer.1, answer.2.id, answer.2.every)) =
        [(600, 1, 300), (1200, 1, 300)] ∧
      ((answers session.log).Pairwise fun earlier later => earlier.2.id = later.2.id →
        earlier.1.toNat + later.2.every.toNat ≤ later.1.toNat) ∧
      ∃ since result, standing session.log 1 = some (since, result) ∧
        ((∃ nowMs event, (nowMs, event) ∈ answers session.log ∧ event.id = 1 ∧
            session.field.nowMs.toNat < nowMs.toNat + result.everyMs.toNat + 500) ∨
          session.field.nowMs.toNat < max since.toNat result.everyMs.toNat + 500) := by
  have hstands : (standing (Session.run (ClusterField.constantPlatform ℚ 0.5) id standingViewCalls).log 1).isSome := by
    decide +kernel
  obtain ⟨⟨since, result⟩, hstanding⟩ := Option.isSome_iff_exists.mp hstands
  obtain ⟨hspaced, hprompt⟩ :=
    views_on_schedule (ClusterField.constantPlatform ℚ 0.5) id standingViewCalls (by decide)
  exact ⟨by decide +kernel, hspaced, since, result, hstanding, hprompt 1 since result hstanding⟩

/-- In every run the ids of views count the subscriptions, an `UNSUBSCRIBE` says whether it ended one, and every
event is that of a subscription that stands at its time, as it was asked for. -/
theorem views_answer_subscriptions (platform : Platform F) (exp : F → F) (calls : List (QueryCall F))
    (hroom : calls.countP QueryCall.subscribes + 1 < 2 ^ 64) :
    ∀ before entry after, (Session.run platform exp calls).log = before ++ entry :: after → entry.Right before :=
  (@sound_run F _ platform exp calls hroom).1.right

/-- A view that is answered once, and given up. -/
def sampleViewCalls : List (QueryCall ℚ) :=
  [.field (.addRoot "cpu/load") rfl, .lql ⟨.listed, .listed⟩ (.subscribe "cpu" none (some 300) ⟨none, none, none⟩),
    .tick ⟨.listed, fun _ => .listed, .listed⟩ (fun _ => 0) 600, .lql ⟨.listed, .listed⟩ (.unsubscribe 1),
    .tick ⟨.listed, fun _ => .listed, .listed⟩ (fun _ => 0) 600]

/-- In the sample nothing in the log is wrong, be it the reply to the `UNSUBSCRIBE` or an answer. -/
theorem views_answer_subscriptions_sampleViewCalls :
    ¬ ∃ before entry after, (Session.run (ClusterField.constantPlatform ℚ 0.5) id sampleViewCalls).log =
      before ++ entry :: after ∧ ¬ entry.Right before := by
  rintro ⟨before, entry, after, hlog, hwrong⟩
  exact hwrong (views_answer_subscriptions (ClusterField.constantPlatform ℚ 0.5) id sampleViewCalls (by decide)
    before entry after hlog)

end Results

end LiminalDB
