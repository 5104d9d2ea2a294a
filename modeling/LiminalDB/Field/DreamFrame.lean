import LiminalDB.Field.LinkDreams
import LiminalDB.Field.Links

/-! # What a dream leaves alone: `run_dream`

A dream scores and prunes links between cells that are not protected, and an end of a pruned link that is left
without any gets one new link. Whatever else happens to a field in a dream, the links and the scores of its
protected cells are those from before (`runDream_spares`). -/

namespace LiminalDB

variable {F : Type} [FloatLike F]

namespace ClusterField

variable {before self after : ClusterField F} {cfg : DreamConfig F}

/-- Whether a dream protects a cell, if there is one. -/
def guarded (cfg : DreamConfig F) (self : ClusterField F) (id : NodeId) : Bool :=
  self.cells[id]?.any fun cell =>
    decide (cfg.protectSalience ≤ cell.salience) || (cfg.adrenoProtect && cell.adrenoTag)

/-- A link is protected if one of its ends is guarded. -/
theorem shouldProtect_eq (u v : NodeId) :
    self.shouldProtect cfg u v = (guarded cfg self u || guarded cfg self v) := by
  unfold shouldProtect guarded
  rw [List.any_cons, List.any_cons, List.any_nil, Bool.or_false]

/-! ## Links -/

omit [FloatLike F] in
/-- A link that is there is pruned, and no other. -/
theorem linked_alterCell_unlink (source target x y : NodeId) :
    (self.alterCell source (·.unlink target)).linked x y =
      (self.linked x y && !decide (x = source ∧ y = target)) := by
  unfold alterCell
  cases hcell : self.cells[source]? with
  | none =>
      by_cases heq : x = source
      · have hnone : self.linked x y = false := by
          unfold linked
          rw [heq, hcell]
        rw [hnone, Bool.false_and]
      · simp [heq]
  | some cell =>
      dsimp only
      rw [linked_setCell]
      split
      · rename_i heq
        have hlinks : self.linked x y = cell.links.contains y := by
          unfold linked
          rw [heq, hcell]
        have hunlink : (cell.unlink target).links.contains y = (!decide (y = target) && cell.links.contains y) := by
          unfold NodeCell.unlink
          rw [Std.ExtTreeSet.contains_erase, Bool.eq_iff_iff]
          simp [Std.LawfulEqCmp.compare_eq_iff_eq, eq_comm (a := target)]
        rw [hunlink, hlinks, Bool.and_comm]
        simp [heq]
      · rename_i hne
        simp [hne]

/-! ## What has changed so far -/

/-- What decides whether a dream protects a cell. -/
def mood (cell : NodeCell F) : F × Bool := (cell.salience, cell.adrenoTag)

omit [FloatLike F] in
/-- Writing a cell of the same mood changes no mood. -/
theorem mood_setCell {id : NodeId} {cell : NodeCell F} (hcell : self.cells[id]? = some cell)
    {changed : NodeCell F} (hmood : mood changed = mood cell) (other : NodeId) :
    ((self.setCell id changed).cells[other]?).map mood = (self.cells[other]?).map mood := by
  by_cases heq : other = id
  · subst heq
    rw [hcell, setCell, Std.ExtTreeMap.getElem?_insert_self, Option.map_some, Option.map_some, hmood]
  · rw [getElem?_setCell_of_ne heq]

/-- What a dream has changed so far: a link or a score only between cells that are not protected, or a new link
that is the only one of such a cell. -/
structure Spared (cfg : DreamConfig F) (before after : ClusterField F) : Prop where
  mood : ∀ id : NodeId, (after.cells[id]?).map mood = (before.cells[id]?).map mood
  changed : ∀ x y,
    after.linked x y = before.linked x y ∧ after.linkScores (x, y) = before.linkScores (x, y) ∨
      guarded cfg before x = false ∧ guarded cfg before y = false ∨
        guarded cfg before x = false ∧ before.linked x y = false ∧ ∀ z, after.linked x z = true ↔ z = y

/-- A field has spared what it has left as it was. -/
theorem Spared.refl (cfg : DreamConfig F) (self : ClusterField F) : Spared cfg self self :=
  ⟨fun _ => rfl, fun _ _ => Or.inl ⟨rfl, rfl⟩⟩

/-- A field that is spared has the same guarded cells as before. -/
theorem Spared.guarded_eq (h : Spared cfg before after) (id : NodeId) :
    guarded cfg after id = guarded cfg before id := by
  have hmood (self : ClusterField F) : guarded cfg self id = ((self.cells[id]?).map ClusterField.mood).any fun seen =>
      decide (cfg.protectSalience ≤ seen.1) || (cfg.adrenoProtect && seen.2) := by
    rw [Option.any_map]
    rfl
  rw [hmood, hmood, h.mood]

/-- What changes a score or a link of two cells that are not protected, and nothing else, may go on. -/
theorem Spared.of_pair (h : Spared cfg before self) {source target : NodeId}
    (hsource : guarded cfg before source = false) (htarget : guarded cfg before target = false)
    (hmood : ∀ id : NodeId, (after.cells[id]?).map ClusterField.mood = (self.cells[id]?).map ClusterField.mood)
    (hsame : ∀ x y, (x, y) ≠ (source, target) →
      after.linked x y = self.linked x y ∧ after.linkScores (x, y) = self.linkScores (x, y))
    (hthere : self.linked source target = true) : Spared cfg before after := by
  refine ⟨fun id => (hmood id).trans (h.mood id), fun x y => ?_⟩
  by_cases hpair : (x, y) = (source, target)
  · obtain ⟨rfl, rfl⟩ := Prod.mk.inj hpair
    exact Or.inr (Or.inl ⟨hsource, htarget⟩)
  · obtain ⟨hlinked, hscore⟩ := hsame x y hpair
    rcases h.changed x y with hold | hfree | ⟨hx, hbefore, honly⟩
    · exact Or.inl ⟨hlinked.trans hold.1, hscore.trans hold.2⟩
    · exact Or.inr (Or.inl hfree)
    · -- The only link of a cell is not the one that changes.
      refine Or.inr (Or.inr ⟨hx, hbefore, fun z => ?_⟩)
      have hne : x ≠ source := by
        rintro rfl
        exact hpair (Prod.ext rfl ((honly target).mp hthere).symm)
      rw [(hsame x z fun heq => hne (Prod.mk.inj heq).1).1]
      exact honly z

/-- A delta in the journal touches nothing that is to be spared. -/
theorem Spared.of_emit (h : Spared cfg before self) (delta : EventDelta F) : Spared cfg before (self.emit delta) :=
  ⟨h.mood, h.changed⟩

/-- The score of a link may be adjusted, if neither end is guarded. -/
theorem Spared.adjust (h : Spared cfg before self) {source target : NodeId}
    (hsource : guarded cfg before source = false) (htarget : guarded cfg before target = false) (delta : F) :
    Spared cfg before (self.adjustLinkScore source target delta).1 := by
  unfold adjustLinkScore
  split
  · rename_i hlinked
    exact h.of_pair hsource htarget (fun _ => rfl) (fun x y hpair => ⟨rfl, if_neg hpair⟩) hlinked
  · exact h

/-- Such a link may also be pruned. -/
theorem Spared.pruneLink (h : Spared cfg before self) {source target : NodeId}
    (hsource : guarded cfg before source = false) (htarget : guarded cfg before target = false) :
    Spared cfg before (self.pruneLink source target).1 := by
  unfold ClusterField.pruneLink
  split
  · rename_i hlinked
    refine h.of_pair hsource htarget (fun id => ?_) (fun x y hpair => ⟨?_, ?_⟩) hlinked
    · show ((self.alterCell source (·.unlink target)).cells[id]?).map ClusterField.mood = _
      unfold alterCell
      cases hcell : self.cells[source]? with
      | none => rfl
      | some cell =>
          have hmood : ClusterField.mood (cell.unlink target) = ClusterField.mood cell := rfl
          exact mood_setCell hcell hmood id
    · refine (linked_alterCell_unlink source target x y).trans ?_
      rw [decide_eq_false fun heq => hpair (Prod.ext heq.1 heq.2), Bool.not_false, Bool.and_true]
    · refine (if_neg hpair).trans ?_
      unfold alterCell
      split <;> rfl
  · exact h

omit [FloatLike F] in
/-- A lonely cell is linked to nothing. -/
theorem linked_of_lonely {id : NodeId} {cell : NodeCell F} (hcell : self.cells[id]? = some cell)
    (hlonely : cell.links.isEmpty = true) (other : NodeId) : self.linked id other = false := by
  unfold linked
  rw [hcell]
  exact contains_of_lonely hlonely other

omit [FloatLike F] in
/-- The one link of a cell that was lonely. -/
theorem linked_link_of_lonely {id : NodeId} {cell : NodeCell F} (hlonely : cell.links.isEmpty = true)
    (target other : NodeId) : (self.setCell id (cell.link target)).linked id other = true ↔ other = target := by
  rw [linked_setCell, if_pos rfl]
  unfold NodeCell.link
  dsimp only
  rw [Std.ExtTreeSet.isEmpty_iff.mp hlonely, Std.ExtTreeSet.contains_insert]
  simp [Std.LawfulEqCmp.compare_eq_iff_eq, eq_comm (a := target)]

/-- A lonely cell gets one new link. -/
theorem Spared.linkLonely (h : Spared cfg before self) {id : NodeId} (hid : guarded cfg before id = false)
    {cell : NodeCell F} (hcell : self.cells[id]? = some cell) (hlonely : cell.links.isEmpty = true)
    (target : NodeId) : Spared cfg before ((self.setCell id (cell.link target)).registerLink id target) := by
  have hnone := linked_of_lonely hcell hlonely
  have hone (other : NodeId) := @linked_link_of_lonely F self id cell hlonely target other
  have hother {x : NodeId} (hx : x ≠ id) (y : NodeId) :
      (self.setCell id (cell.link target)).linked x y = self.linked x y := by
    rw [linked_setCell, if_neg hx]
  have hmood : ClusterField.mood (cell.link target) = ClusterField.mood cell := rfl
  refine ⟨fun other => (mood_setCell hcell hmood other).trans (h.mood other), fun x y => ?_⟩
  show (self.setCell id (cell.link target)).linked x y = before.linked x y ∧
      (if (x, y) = (id, target) then (self.linkScores (x, y)).or (some 1.0) else self.linkScores (x, y)) =
        before.linkScores (x, y) ∨
    guarded cfg before x = false ∧ guarded cfg before y = false ∨
      guarded cfg before x = false ∧ before.linked x y = false ∧
        ∀ z, (self.setCell id (cell.link target)).linked x z = true ↔ z = y
  -- The pair was as before, or had free ends, or is the only link that its source has got.
  rcases h.changed x y with ⟨hlinked, hscore⟩ | hfree | ⟨hx, hbefore, honly⟩
  · by_cases hpair : (x, y) = (id, target)
    · obtain ⟨rfl, rfl⟩ := Prod.mk.inj hpair
      exact Or.inr (Or.inr ⟨hid, hlinked.symm.trans (hnone y), hone⟩)
    · refine Or.inl ⟨?_, (if_neg hpair).trans hscore⟩
      by_cases hx : x = id
      · subst hx
        have hnot : (self.setCell x (cell.link target)).linked x y = false :=
          Bool.eq_false_iff.mpr fun htrue => hpair (Prod.ext rfl ((hone y).mp htrue))
        rw [hnot, ← hlinked, hnone]
      · rw [hother hx, hlinked]
  · exact Or.inr (Or.inl hfree)
  · -- A cell with a link is not lonely.
    have hne : x ≠ id := by
      rintro rfl
      exact absurd ((honly y).mpr rfl) (by rw [hnone]; exact Bool.false_ne_true)
    exact Or.inr (Or.inr ⟨hx, hbefore, fun z => by rw [hother hne]; exact honly z⟩)

/-- A cell that is not guarded may be rewired. -/
theorem Spared.rewireLonely (visits : Visits F) (h : Spared cfg before self) {id : NodeId}
    (hid : guarded cfg before id = false) : Spared cfg before (self.rewireLonely visits id).1 := by
  unfold ClusterField.rewireLonely
  cases hcell : self.cells[id]? with
  | none => exact h
  | some cell =>
      dsimp only
      split
      · rename_i hlonely
        cases self.nearest visits id cell with
        | none => exact h
        | some target => exact Spared.of_emit (Spared.of_emit (h.linkLonely hid hcell hlonely target) _) _
      · exact h

/-! ## A dream -/

/-- The ends of a link that a dream picks are not protected. -/
theorem unguarded_of_pickDirection (h : Spared cfg before self) {u v source target : NodeId}
    (hprotect : ¬ self.shouldProtect cfg u v = true) (hdirection : self.pickDirection u v = some (source, target)) :
    guarded cfg before source = false ∧ guarded cfg before target = false := by
  rw [shouldProtect_eq, h.guarded_eq, h.guarded_eq, Bool.not_eq_true, Bool.or_eq_false_iff] at hprotect
  rcases pickDirection_cases hdirection with heq | heq
  · obtain ⟨rfl, rfl⟩ := Prod.mk.inj heq
    exact hprotect
  · obtain ⟨rfl, rfl⟩ := Prod.mk.inj heq
    exact hprotect.symm

/-- Strengthening a pair leaves out the pairs that are protected. -/
theorem spared_strengthen {acc : Dreaming F} (h : Spared cfg before acc.field) (pair : PairStat F) :
    Spared cfg before (strengthen cfg acc pair).field := by
  unfold strengthen
  split
  · exact h
  · split
    · exact h
    · rename_i hprotect
      split
      · exact h
      · dsimp only
        split
        · rename_i source target hdirection
          obtain ⟨hsource, htarget⟩ := unguarded_of_pickDirection h hprotect hdirection
          have hadjusted := h.adjust hsource htarget 0.15
          split
          · exact hadjusted.of_emit _
          · exact hadjusted
        · exact h

/-- Pruning a link that is not protected spares what is to be spared, the rewiring of its ends included. -/
theorem spared_prune (visits : Visits F) {acc : Dreaming F} (h : Spared cfg before acc.field) {source target : NodeId}
    (hsource : guarded cfg before source = false) (htarget : guarded cfg before target = false) :
    Spared cfg before (prune visits acc source target).field := by
  unfold prune
  split
  · have hpruned := h.pruneLink hsource htarget
    dsimp only
    split
    · unfold rewire
      split
      · exact hpruned.of_emit _
      · have hemitted := hpruned.of_emit (.dreamPrune source target)
        exact (hemitted.rewireLonely visits hsource).rewireLonely visits htarget
    · exact h
  · exact h

/-- Weakening a pair leaves out the pairs that are protected. -/
theorem spared_weaken (visits : Visits F) {acc : Dreaming F} (h : Spared cfg before acc.field) (pair : PairStat F) :
    Spared cfg before (weaken visits cfg acc pair).field := by
  unfold weaken
  split
  · exact h
  · split
    · exact h
    · rename_i hprotect
      split
      · exact h
      · dsimp only
        split
        · rename_i source target hdirection
          obtain ⟨hsource, htarget⟩ := unguarded_of_pickDirection h hprotect hdirection
          have hadjusted := h.adjust hsource htarget (-0.2)
          split
          · exact spared_prune visits (hadjusted.of_emit _) hsource htarget
          · exact hadjusted
        · exact h

/-- What a dream has changed when it is over. -/
theorem spared_runDream (visits : Visits F) (tookMs : UInt32) (self : ClusterField F) (cfg : DreamConfig F)
    (nowMs : UInt64) : Spared cfg self (self.runDream visits tookMs cfg nowMs) := by
  have hstart := Spared.refl cfg self
  unfold runDream
  dsimp only
  split
  · exact hstart
  · have hstrong (pairs : List (PairStat F)) (acc : Dreaming F) (hacc : Spared cfg self acc.field) :
        Spared cfg self (pairs.foldl (strengthen cfg) acc).field :=
      List.foldlRecOn (motive := fun acc : Dreaming F => Spared cfg self acc.field) pairs _ hacc
        fun _ hacc pair _ => spared_strengthen hacc pair
    have hweak (pairs : List (PairStat F)) (acc : Dreaming F) (hacc : Spared cfg self acc.field) :
        Spared cfg self (pairs.foldl (weaken visits cfg) acc).field :=
      List.foldlRecOn (motive := fun acc : Dreaming F => Spared cfg self acc.field) pairs _ hacc
        fun _ hacc pair _ => spared_weaken visits hacc pair
    generalize sortBy (fun a b : PairStat F => FloatLike.partialCmp b.freq a.freq)
      (self.collectRecentPairs visits cfg.windowMs) = pairs
    generalize sortBy (fun a b : PairStat F => FloatLike.partialCmp a.freq b.freq) pairs = bottom
    generalize pairs.take (shareOf pairs.length cfg.strengthenTopPct) = top
    generalize bottom.take (shareOf pairs.length cfg.weakenBottomPct) = low
    have hover := hweak low _ (hstrong top ⟨self, ⟨0, 0, 0, 0, 0, 0⟩, cfg.maxOpsPerCycle, []⟩ hstart)
    exact ⟨hover.mood, hover.changed⟩

/-- A dream leaves protected cells alone: they keep their links, the links from and to them stay with their
scores, and a link or a score changes only between cells that are not protected, or with a new link that is the
only one of such a cell. -/
theorem runDream_spares (visits : Visits F) (tookMs : UInt32) (self : ClusterField F) (cfg : DreamConfig F)
    (nowMs : UInt64) :
    let after := self.runDream visits tookMs cfg nowMs
    (∀ (id : NodeId) (cell : NodeCell F), self.cells[id]? = some cell →
        (cfg.protectSalience ≤ cell.salience ∨ cfg.adrenoProtect = true ∧ cell.adrenoTag = true) →
        ∃ changed, after.cells[id]? = some changed ∧ changed.links = cell.links) ∧
      (∀ x y, guarded cfg self x = true ∨ guarded cfg self y = true → self.linked x y = true →
        after.linked x y = true ∧ after.linkScores (x, y) = self.linkScores (x, y)) ∧
      ∀ x y, after.linked x y ≠ self.linked x y ∨ after.linkScores (x, y) ≠ self.linkScores (x, y) →
        guarded cfg self x = false ∧ guarded cfg self y = false ∨
          guarded cfg self x = false ∧ self.linked x y = false ∧ ∀ z, after.linked x z = true ↔ z = y := by
  intro after
  have hspared := spared_runDream visits tookMs self cfg nowMs
  -- A guarded cell gains and loses no link.
  have hkept {x : NodeId} (hx : guarded cfg self x = true) (y : NodeId) : after.linked x y = self.linked x y := by
    rcases hspared.changed x y with hsame | hfree | hnew
    · exact hsame.1
    · exact absurd (hx.symm.trans hfree.1) Bool.noConfusion
    · exact absurd (hx.symm.trans hnew.1) Bool.noConfusion
  refine ⟨fun id cell hcell hprotected => ?_, fun x y hguarded hlinked => ?_, fun x y hchanged => ?_⟩
  · have hguarded : guarded cfg self id = true := by
      unfold guarded
      rw [hcell, Option.any_some, Bool.or_eq_true, Bool.and_eq_true, decide_eq_true_eq]
      exact hprotected
    have hmood := hspared.mood id
    rw [hcell, Option.map_some] at hmood
    obtain ⟨changed, hchanged, -⟩ := Option.map_eq_some_iff.mp hmood
    refine ⟨changed, hchanged, Std.ExtTreeSet.ext_contains fun y => ?_⟩
    have hlinked := hkept hguarded y
    unfold linked at hlinked
    rwa [hchanged, hcell] at hlinked
  · rcases hspared.changed x y with hsame | ⟨hx, hy⟩ | ⟨-, hnew, -⟩
    · exact ⟨hsame.1.trans hlinked, hsame.2⟩
    · rw [hx, hy] at hguarded
      exact absurd hguarded (by decide)
    · exact absurd (hlinked.symm.trans hnew) Bool.noConfusion
  · exact (hspared.changed x y).resolve_left fun hsame => hchanged.elim (· hsame.1) (· hsame.2)

end ClusterField

end LiminalDB
