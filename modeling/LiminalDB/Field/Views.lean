import LiminalDB.Field.Lql

/-! # Views: `views.rs` and the view clock of a tick

A view is a query that is answered again and again. A tick asks for the views that are due once for every
500 ms that have passed (`checkViews`). `Scheduled` is what holds of a registry, the clocks and all that has
been handed out: the answers of one view are at least its `every_ms` apart, and no answer is later than that
by more than what waits in the view clock. -/

namespace LiminalDB

variable {F : Type}

/-- `ViewId`: the number of a view. -/
abbrev ViewId := UInt64

/-- `View`: a pattern that is answered every so often, over a window and through a filter. -/
structure ViewRegistry.View (F : Type) where
  id : ViewId
  pattern : String
  windowMs : UInt32
  everyMs : UInt32
  lastEmit : UInt64
  filter : ViewFilter F

/-- `should_emit`: whether its period has gone by since it was answered last. -/
def ViewRegistry.View.shouldEmit (self : ViewRegistry.View F) (nowMs : UInt64) : Bool :=
  self.everyMs.toUInt64 ≤ saturatingSub nowMs self.lastEmit

/-- `ViewRegistry`: the views under their ids, and the next id. -/
structure ViewRegistry (F : Type) where
  nextId : ViewId
  views : Std.ExtTreeMap ViewId (ViewRegistry.View F) compare

/-- The object that `build_event` writes as JSON. -/
structure ViewEvent (F : Type) where
  id : ViewId
  pattern : String
  window : UInt32
  every : UInt32
  filter : ViewFilter F
  stats : ViewStats F

namespace ViewRegistry

/-- `ViewRegistry::new`: no views, with one as the first id. -/
def new : ViewRegistry F := ⟨1, ∅⟩

/-- `add_view`: the view gets the next id, and is due at once. -/
def addView (self : ViewRegistry F) (pattern : String) (windowMs everyMs : UInt32) (nowMs : UInt64)
    (filter : ViewFilter F) : ViewId × ViewRegistry F :=
  let id := self.nextId
  let lastEmit := saturatingSub nowMs everyMs.toUInt64
  let view := { id, pattern, windowMs, everyMs, lastEmit, filter }
  (id, { nextId := self.nextId + 1, views := self.views.insert id view })

/-- `remove_view`: whether there was such a view, which is gone now. -/
def removeView (self : ViewRegistry F) (id : ViewId) : Bool × ViewRegistry F :=
  (self.views.contains id, { self with views := self.views.erase id })

/-- What `take_due` makes of a view. -/
def answered (nowMs : UInt64) (view : View F) : View F :=
  if view.shouldEmit nowMs then { view with lastEmit := nowMs } else view

/-- `take_due`, which visits the views in any order. -/
def takeDue (order : Order ViewId) (self : ViewRegistry F) (nowMs : UInt64) :
    List (View F) × ViewRegistry F :=
  ((order.arrange self.views.keys).filterMap fun id =>
      (self.views[id]?.filter fun view => view.shouldEmit nowMs).map (answered nowMs),
    { self with views := self.views.map fun _ view => answered nowMs view })

/-- `build_event`: the answer to a view, with what it was asked for. -/
def buildEvent (view : View F) (stats : ViewStats F) : ViewEvent F :=
  { id := view.id, pattern := view.pattern, window := view.windowMs, every := view.everyMs,
    filter := view.filter, stats }

/-- The loop of a tick over `view_tick_accum`: the views that are due, what is left in the accumulator, and
the registry. Each round visits the views in an order of its own. -/
def checkViews (orders : UInt64 → Order ViewId) (nowMs : UInt64) (self : ViewRegistry F) (accum : UInt64) :
    List (View F) × UInt64 × ViewRegistry F :=
  if 500 ≤ accum then
    let taken := self.takeDue (orders accum) nowMs
    let rest := taken.2.checkViews orders nowMs (accum - 500)
    (taken.1 ++ rest.1, rest.2)
  else ([], accum, self)
termination_by accum.toNat
decreasing_by
  rename_i hdue
  rw [UInt64.toNat_sub_of_le _ _ hdue]
  have hle := UInt64.le_iff_toNat_le.mp hdue
  have hsome : (500 : UInt64).toNat = 500 := rfl
  omega

/-! ## One operation -/

section Operations

variable {self : ViewRegistry F}

/-- Adding a view enters it under the next id, due at once, and touches no other. -/
theorem getElem?_addView (pattern : String) (windowMs everyMs : UInt32) (nowMs : UInt64) (filter : ViewFilter F)
    (id : ViewId) : (self.addView pattern windowMs everyMs nowMs filter).2.views[id]? =
      if self.nextId = id then
        some ⟨self.nextId, pattern, windowMs, everyMs, saturatingSub nowMs everyMs.toUInt64, filter⟩
      else self.views[id]? := by
  rw [addView, Std.ExtTreeMap.getElem?_insert]
  simp only [Std.compare_eq_iff_eq]

/-- Removing a view takes it away, and touches no other. -/
theorem getElem?_removeView (id other : ViewId) :
    (self.removeView id).2.views[other]? = if id = other then none else self.views[other]? := by
  rw [removeView, Std.ExtTreeMap.getElem?_erase]
  simp only [Std.compare_eq_iff_eq]

/-- Taking the due views marks each of them as answered now, in whichever order they are taken. -/
theorem getElem?_takeDue (order : Order ViewId) (nowMs : UInt64) (id : ViewId) :
    (self.takeDue order nowMs).2.views[id]? = (self.views[id]?).map (answered nowMs) := by
  rw [takeDue, Std.ExtTreeMap.getElem?_map]

/-- What is taken are the views that are due, each with the time of its answer. -/
theorem mem_takeDue {order : Order ViewId} {nowMs : UInt64} {taken : View F} :
    taken ∈ (self.takeDue order nowMs).1 ↔
      ∃ (id : ViewId) (view : View F), self.views[id]? = some view ∧ view.shouldEmit nowMs = true ∧
        taken = { view with lastEmit := nowMs } := by
  simp only [takeDue, List.mem_filterMap, Order.mem_arrange, Std.ExtTreeMap.mem_keys, Option.map_eq_some_iff,
    Option.filter_eq_some_iff]
  constructor
  · rintro ⟨id, -, view, ⟨hview, hdue⟩, rfl⟩
    exact ⟨id, view, hview, hdue, if_pos hdue⟩
  · rintro ⟨id, view, hview, hdue, rfl⟩
    have hmem : id ∈ self.views := by
      rw [Std.ExtTreeMap.mem_iff_isSome_getElem?, hview]
      rfl
    exact ⟨id, hmem, view, ⟨hview, hdue⟩, if_pos hdue⟩

/-- A view is due once its distance has passed since its last answer, counted in natural numbers. -/
theorem shouldEmit_iff {view : View F} {nowMs : UInt64} : view.shouldEmit nowMs = true ↔
    view.everyMs.toNat ≤ nowMs.toNat - view.lastEmit.toNat := by
  rw [View.shouldEmit, decide_eq_true_eq, UInt64.le_iff_toNat_le, toNat_saturatingSub, UInt32.toNat_toUInt64]

/-- A view is answered if it is due, and else left as it is. -/
theorem answered_cases (nowMs : UInt64) (view : View F) :
    (view.shouldEmit nowMs = true ∧ answered nowMs view = { view with lastEmit := nowMs }) ∨
      (view.shouldEmit nowMs = false ∧ answered nowMs view = view) := by
  unfold answered
  cases view.shouldEmit nowMs with
  | true => exact Or.inl ⟨rfl, rfl⟩
  | false => exact Or.inr ⟨rfl, rfl⟩

/-- An answer does not change the id of a view. -/
@[simp] theorem id_answered (nowMs : UInt64) (view : View F) : (answered nowMs view).id = view.id := by
  rcases answered_cases nowMs view with ⟨-, h⟩ | ⟨-, h⟩ <;> rw [h]

end Operations

/-! ## The schedule -/

/-- What holds of a registry whose views come from LQL, with the clock, the view clock and all the answers
so far, oldest first. -/
structure Scheduled (registry : ViewRegistry F) (nowMs accum : UInt64) (log : List (View F)) : Prop where
  ids : ∀ (id : ViewId) (view : View F), registry.views[id]? = some view →
    view.id = id ∧ id.toNat < registry.nextId.toNat ∧ 0 < view.everyMs.toNat
  /-- A view was last answered in the past. -/
  begun : ∀ (id : ViewId) (view : View F), registry.views[id]? = some view → view.lastEmit.toNat ≤ nowMs.toNat
  /-- No view is later than what waits in the view clock. -/
  prompt : ∀ (id : ViewId) (view : View F), registry.views[id]? = some view →
    nowMs.toNat ≤ view.lastEmit.toNat + view.everyMs.toNat + accum.toNat
  given : ∀ answer ∈ log, answer.id.toNat < registry.nextId.toNat
  /-- A view remembers the last of its answers. -/
  last : ∀ (id : ViewId) (view : View F), registry.views[id]? = some view → ∀ answer ∈ log, answer.id = id →
    answer.lastEmit.toNat ≤ view.lastEmit.toNat
  /-- The answers of one view keep their distance. -/
  spaced : log.Pairwise fun earlier later => earlier.id = later.id →
    earlier.lastEmit.toNat + later.everyMs.toNat ≤ later.lastEmit.toNat

section Schedule

variable {self : ViewRegistry F} {nowMs accum : UInt64} {log : List (View F)}

/-- A new registry has no views and has given no answers. -/
theorem scheduled_new : (new : ViewRegistry F).Scheduled 0 0 [] where
  ids id view h := by
    rw [new, Std.ExtTreeMap.getElem?_empty] at h
    cases h
  begun id view h := by
    rw [new, Std.ExtTreeMap.getElem?_empty] at h
    cases h
  prompt id view h := by
    rw [new, Std.ExtTreeMap.getElem?_empty] at h
    cases h
  given _ h := by cases h
  last _ _ _ _ h := by cases h
  spaced := List.Pairwise.nil

/-- A new view counts as answered one distance ago. -/
theorem Scheduled.addView (h : self.Scheduled nowMs accum log) (pattern : String) (windowMs : UInt32)
    {everyMs : UInt32} (hevery : 0 < everyMs.toNat) (filter : ViewFilter F)
    (hroom : self.nextId.toNat + 1 < 2 ^ 64) :
    (self.addView pattern windowMs everyMs nowMs filter).2.Scheduled nowMs accum log := by
  have hnext : (self.addView pattern windowMs everyMs nowMs filter).2.nextId.toNat = self.nextId.toNat + 1 := by
    show (self.nextId + 1).toNat = _
    rw [UInt64.toNat_add]
    exact Nat.mod_eq_of_lt hroom
  have hback : (saturatingSub nowMs everyMs.toUInt64).toNat = nowMs.toNat - everyMs.toNat :=
    toNat_saturatingSub nowMs everyMs.toUInt64
  constructor
  · intro id view hview
    rw [getElem?_addView] at hview
    rw [hnext]
    split at hview
    · rename_i heq
      subst heq
      cases hview
      exact ⟨rfl, Nat.lt_succ_self _, hevery⟩
    · obtain ⟨hid, hlt, hpos⟩ := h.ids id view hview
      exact ⟨hid, Nat.lt_succ_of_lt hlt, hpos⟩
  · intro id view hview
    rw [getElem?_addView] at hview
    split at hview
    · cases hview
      -- The new view goes by a last event one distance ago, or at the start of time.
      show (saturatingSub nowMs everyMs.toUInt64).toNat ≤ nowMs.toNat
      omega
    · exact h.begun id view hview
  · intro id view hview
    rw [getElem?_addView] at hview
    split at hview
    · cases hview
      show nowMs.toNat ≤ (saturatingSub nowMs everyMs.toUInt64).toNat + everyMs.toNat + accum.toNat
      omega
    · exact h.prompt id view hview
  · intro answer hanswer
    rw [hnext]
    exact Nat.lt_succ_of_lt (h.given answer hanswer)
  · intro id view hview answer hanswer heq
    rw [getElem?_addView] at hview
    split at hview
    · -- The id is new: nothing was handed out under it.
      rename_i hnew
      have hlt := h.given answer hanswer
      rw [heq, ← hnew] at hlt
      exact absurd hlt (Nat.lt_irrefl _)
    · exact h.last id view hview answer hanswer heq
  · exact h.spaced

/-- Removing a view keeps the schedule of the others. -/
theorem Scheduled.removeView (h : self.Scheduled nowMs accum log) (id : ViewId) :
    (self.removeView id).2.Scheduled nowMs accum log := by
  have hold {other : ViewId} {view : View F} (hview : (self.removeView id).2.views[other]? = some view) :
      self.views[other]? = some view := by
    rw [getElem?_removeView] at hview
    split at hview
    · cases hview
    · exact hview
  exact
    { ids := fun other view hview => h.ids other view (hold hview)
      begun := fun other view hview => h.begun other view (hold hview)
      prompt := fun other view hview => h.prompt other view (hold hview)
      given := h.given
      last := fun other view hview => h.last other view (hold hview)
      spaced := h.spaced }

/-- Time passes: the clock moves on no further than the view clock does. -/
theorem Scheduled.advance (h : self.Scheduled nowMs accum log) {nowMs' accum' : UInt64}
    (hnow : nowMs.toNat ≤ nowMs'.toNat) (haccum : nowMs'.toNat + accum.toNat ≤ nowMs.toNat + accum'.toNat) :
    self.Scheduled nowMs' accum' log where
  ids := h.ids
  begun id view hview := (h.begun id view hview).trans hnow
  prompt id view hview := by
    have := h.prompt id view hview
    omega
  given := h.given
  last := h.last
  spaced := h.spaced

/-- A check leaves no view that is late, however little is left in the view clock. -/
theorem Scheduled.takeDue (h : self.Scheduled nowMs accum log) (order : Order ViewId) (accum' : UInt64) :
    (self.takeDue order nowMs).2.Scheduled nowMs accum' (log ++ (self.takeDue order nowMs).1) := by
  -- A view of the new registry is an old one, answered or not.
  have hold {id : ViewId} {view' : View F} (hview : (self.takeDue order nowMs).2.views[id]? = some view') :
      ∃ view, self.views[id]? = some view ∧ ((view.shouldEmit nowMs = true ∧
        view' = { view with lastEmit := nowMs }) ∨ (view.shouldEmit nowMs = false ∧ view' = view)) := by
    rw [getElem?_takeDue] at hview
    obtain ⟨view, hbefore, rfl⟩ := Option.map_eq_some_iff.mp hview
    exact ⟨view, hbefore, answered_cases nowMs view⟩
  constructor
  · intro id view' hview
    obtain ⟨view, hbefore, ⟨-, rfl⟩ | ⟨-, rfl⟩⟩ := hold hview
    · exact h.ids id view hbefore
    · exact h.ids id view' hbefore
  · intro id view' hview
    obtain ⟨view, hbefore, ⟨-, rfl⟩ | ⟨-, rfl⟩⟩ := hold hview
    · exact le_rfl
    · exact h.begun id view' hbefore
  · intro id view' hview
    obtain ⟨view, -, ⟨-, rfl⟩ | ⟨hdue, rfl⟩⟩ := hold hview
    · show nowMs.toNat ≤ nowMs.toNat + view.everyMs.toNat + accum'.toNat
      omega
    · rw [Bool.eq_false_iff, ne_eq, shouldEmit_iff] at hdue
      omega
  · intro answer hanswer
    rcases List.mem_append.mp hanswer with hanswer | hanswer
    · exact h.given answer hanswer
    · obtain ⟨id, view, hview, -, rfl⟩ := mem_takeDue.mp hanswer
      obtain ⟨hid, hlt, -⟩ := h.ids id view hview
      exact hid ▸ hlt
  · intro id view' hview answer hanswer heq
    obtain ⟨view, hbefore, hcases⟩ := hold hview
    rcases List.mem_append.mp hanswer with hanswer | hanswer
    · have hlast := h.last id view hbefore answer hanswer heq
      rcases hcases with ⟨-, rfl⟩ | ⟨-, rfl⟩
      · exact hlast.trans (h.begun id view hbefore)
      · exact hlast
    · -- What has just been taken is what the view remembers.
      obtain ⟨id', taken, htaken, hdue, rfl⟩ := mem_takeDue.mp hanswer
      obtain rfl : id' = id := (h.ids id' taken htaken).1.symm.trans heq
      rw [hbefore] at htaken
      cases htaken
      rcases hcases with ⟨-, rfl⟩ | ⟨hnot, -⟩
      · exact le_rfl
      · rw [hdue] at hnot
        cases hnot
  · rw [List.pairwise_append]
    refine ⟨h.spaced, ?_, ?_⟩
    · -- Each view is visited once.
      have hkeys : (order.arrange self.views.keys).Pairwise fun id other => id ≠ other :=
        (order.perm _).nodup_iff.mpr self.views.nodup_keys
      refine List.pairwise_filterMap.mpr (hkeys.imp fun {id other} hne earlier hearlier later hlater heq => ?_)
      obtain ⟨view, hview, rfl⟩ := Option.map_eq_some_iff.mp hearlier
      obtain ⟨view', hview', rfl⟩ := Option.map_eq_some_iff.mp hlater
      rw [id_answered, id_answered] at heq
      have hid := (h.ids id view (Option.filter_eq_some_iff.mp hview).1).1
      have hother := (h.ids other view' (Option.filter_eq_some_iff.mp hview').1).1
      exact absurd (hid.symm.trans (heq.trans hother)) hne
    · intro earlier hearlier later hlater heq
      obtain ⟨id, view, hview, hdue, rfl⟩ := mem_takeDue.mp hlater
      obtain ⟨hid, -, hpos⟩ := h.ids id view hview
      have hlast := h.last id view hview earlier hearlier (heq.trans hid)
      have hbegun := h.begun id view hview
      rw [shouldEmit_iff] at hdue
      show earlier.lastEmit.toNat + view.everyMs.toNat ≤ nowMs.toNat
      omega

/-- The rounds of a tick leave less than 500 ms in the view clock. -/
theorem Scheduled.checkViews (h : self.Scheduled nowMs accum log) (orders : UInt64 → Order ViewId) :
    (self.checkViews orders nowMs accum).2.2.Scheduled nowMs (self.checkViews orders nowMs accum).2.1
        (log ++ (self.checkViews orders nowMs accum).1) ∧
      (self.checkViews orders nowMs accum).2.1.toNat < 500 ∧
      (self.checkViews orders nowMs accum).2.1.toNat ≤ accum.toNat := by
  induction self, accum using checkViews.induct orders nowMs generalizing log with
  | case1 self accum hround taken =>
      rename_i ih
      obtain ⟨hrest, hlt, hle⟩ := ih (h.takeDue (orders accum) (accum - 500))
      rw [UInt64.toNat_sub_of_le _ _ hround] at hle
      rw [checkViews.eq_def, if_pos hround]
      rw [List.append_assoc] at hrest
      exact ⟨hrest, hlt, hle.trans (Nat.sub_le _ _)⟩
  | case2 self accum hend =>
      rw [checkViews.eq_def, if_neg hend, List.append_nil]
      exact ⟨h, UInt64.not_le.mp hend, le_rfl⟩

end Schedule

/-! ## What a tick leaves alone -/

/-- A view without the time of its last answer: what was subscribed to. -/
def View.subscription (view : View F) : View F := { view with lastEmit := 0 }

section Frame

variable {self : ViewRegistry F}

/-- An answer does not change what a view has subscribed to. -/
@[simp] theorem subscription_answered (nowMs : UInt64) (view : View F) :
    (answered nowMs view).subscription = view.subscription := by
  rcases answered_cases nowMs view with ⟨-, h⟩ | ⟨-, h⟩ <;> rw [h]
  rfl

/-- What a tick keeps of a registry. -/
def subscribed (self : ViewRegistry F) (id : ViewId) : Option (View F) :=
  (self.views[id]?).map View.subscription

/-- Taking the due views changes no subscription. -/
theorem subscribed_takeDue (order : Order ViewId) (nowMs : UInt64) (id : ViewId) :
    (self.takeDue order nowMs).2.subscribed id = self.subscribed id := by
  simp only [subscribed, getElem?_takeDue, Option.map_map]
  congr 1
  funext view
  exact subscription_answered nowMs view

/-- A tick changes no subscription, and answers those there are at its time. -/
theorem subscribed_checkViews (orders : UInt64 → Order ViewId) (nowMs accum : UInt64) :
    (self.checkViews orders nowMs accum).2.2.nextId = self.nextId ∧
      (∀ id, (self.checkViews orders nowMs accum).2.2.subscribed id = self.subscribed id) ∧
      ∀ answer ∈ (self.checkViews orders nowMs accum).1, answer.lastEmit = nowMs ∧
        ∃ id, self.subscribed id = some answer.subscription := by
  induction self, accum using checkViews.induct orders nowMs with
  | case1 self accum hround taken ih =>
      obtain ⟨hnext, hsame, hanswers⟩ := ih
      rw [checkViews.eq_def, if_pos hround]
      refine ⟨hnext, fun id => (hsame id).trans (subscribed_takeDue (orders accum) nowMs id), ?_⟩
      intro answer hanswer
      rcases List.mem_append.mp hanswer with hanswer | hanswer
      · obtain ⟨id, view, hview, -, rfl⟩ := mem_takeDue.mp hanswer
        refine ⟨rfl, id, ?_⟩
        rw [subscribed, hview]
        rfl
      · obtain ⟨htime, id, hid⟩ := hanswers answer hanswer
        exact ⟨htime, id, (subscribed_takeDue (orders accum) nowMs id).symm.trans hid⟩
  | case2 self accum hend =>
      rw [checkViews.eq_def, if_neg hend]
      exact ⟨rfl, fun _ => rfl, fun _ h => nomatch h⟩

/-- A view that a tick leaves behind has just been answered, or is as it was. -/
theorem answered_or_kept (orders : UInt64 → Order ViewId) (nowMs accum : UInt64) {id : ViewId} {view : View F}
    (hview : (self.checkViews orders nowMs accum).2.2.views[id]? = some view) :
    view ∈ (self.checkViews orders nowMs accum).1 ∨ self.views[id]? = some view := by
  induction self, accum using checkViews.induct orders nowMs with
  | case1 self accum hround taken ih =>
      rw [checkViews.eq_def, if_pos hround] at hview ⊢
      rcases ih hview with hlater | hround
      · exact Or.inl (List.mem_append_right _ hlater)
      · rw [getElem?_takeDue] at hround
        obtain ⟨before, hbefore, rfl⟩ := Option.map_eq_some_iff.mp hround
        rcases answered_cases nowMs before with ⟨hdue, heq⟩ | ⟨-, heq⟩
        · exact Or.inl (List.mem_append_left _ (mem_takeDue.mpr ⟨id, before, hbefore, hdue, heq⟩))
        · rw [heq]
          exact Or.inr hbefore
  | case2 self accum hend =>
      rw [checkViews.eq_def, if_neg hend] at hview
      exact Or.inr hview

end Frame

end ViewRegistry

end LiminalDB
