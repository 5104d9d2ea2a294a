import LiminalDB.Field.DreamFrame
import LiminalDB.Field.Topology

/-! # The budget of a dream: `run_dream`

A dream has a number of operations to spend. It looks whether any is left before it weakens a link, but not
before it prunes that link, nor does it look for two when it rewires both ends; a saturating subtraction hides
what it overdraws (`runDream_budget_iff`). That is one operation at most (`runDream_budget_succ`), and none at all
when the budget has four for each pair that is weakened (`runDream_budget_of_room`). -/

namespace LiminalDB

variable {F : Type} [FloatLike F]

/-- The operations that a report tells of. -/
def DreamReport.spent (report : DreamReport) : ℕ :=
  report.strengthened.toNat + report.weakened.toNat + report.pruned.toNat + report.rewired.toNat

namespace ClusterField

open FloatLike (partialCmp)

variable {self : ClusterField F} {cfg : DreamConfig F} {acc : Dreaming F} {pair : PairStat F}

/-! ## The report -/

/-- The pairs of a dream, those that answered together most often first. -/
def dreamPairs (visits : Visits F) (self : ClusterField F) (cfg : DreamConfig F) : List (PairStat F) :=
  sortBy (fun a b => partialCmp b.freq a.freq) (self.collectRecentPairs visits cfg.windowMs)

/-- The pairs that a dream strengthens. -/
def topPairs (visits : Visits F) (self : ClusterField F) (cfg : DreamConfig F) : List (PairStat F) :=
  let pairs := self.dreamPairs visits cfg
  pairs.take (shareOf pairs.length cfg.strengthenTopPct)

/-- The pairs that a dream weakens. -/
def bottomPairs (visits : Visits F) (self : ClusterField F) (cfg : DreamConfig F) : List (PairStat F) :=
  let pairs := self.dreamPairs visits cfg
  (sortBy (fun a b => partialCmp a.freq b.freq) pairs).take (shareOf pairs.length cfg.weakenBottomPct)

/-- A dream that has strengthened its pairs. -/
def strengthened (visits : Visits F) (self : ClusterField F) (cfg : DreamConfig F) : Dreaming F :=
  (self.topPairs visits cfg).foldl (strengthen cfg) ⟨self, ⟨0, 0, 0, 0, 0, 0⟩, cfg.maxOpsPerCycle, []⟩

/-- The report that `run_dream` returns. -/
def dreamReport (visits : Visits F) (tookMs : UInt32) (self : ClusterField F) (cfg : DreamConfig F) : DreamReport :=
  if cfg.maxOpsPerCycle = 0 then ⟨0, 0, 0, 0, 0, 0⟩
  else if (self.collectRecentPairs visits cfg.windowMs).isEmpty then ⟨0, 0, 0, 0, 0, tookMs⟩
  else
    { ((self.bottomPairs visits cfg).foldl (weaken visits cfg) (self.strengthened visits cfg)).report with tookMs }

/-- A dream records the report that it returns, if there was anything to dream of. -/
theorem runDream_eq (visits : Visits F) (tookMs : UInt32) (self : ClusterField F) (cfg : DreamConfig F)
    (nowMs : UInt64) : self.runDream visits tookMs cfg nowMs =
      if cfg.maxOpsPerCycle = 0 ∨ (self.collectRecentPairs visits cfg.windowMs).isEmpty = true then self
      else ((self.bottomPairs visits cfg).foldl (weaken visits cfg)
        (self.strengthened visits cfg)).field.recordDreamReport nowMs (self.dreamReport visits tookMs cfg) := by
  unfold runDream dreamReport
  dsimp only
  by_cases hops : cfg.maxOpsPerCycle = 0
  · rw [if_pos (by simp [hops]), if_pos (Or.inl hops)]
  · by_cases hpairs : (self.collectRecentPairs visits cfg.windowMs).isEmpty = true
    · rw [if_pos (by simp [hpairs]), if_pos (Or.inr hpairs)]
    · rw [if_neg (by simp [hops, hpairs]), if_neg (by simp [hops, hpairs]), if_neg hops, if_neg hpairs]
      rfl

/-! ## What overdraws the budget -/

/-- The link that a dream prunes when it comes to a pair: one that it weakens and finds weak. -/
def prunedLink (cfg : DreamConfig F) (acc : Dreaming F) (pair : PairStat F) : Option (NodeId × NodeId) :=
  if acc.field.shouldProtect cfg pair.u pair.v || acc.touched.contains (pair.u, pair.v) then none
  else (acc.field.pickDirection pair.u pair.v).filter fun e =>
    (acc.field.adjustLinkScore e.1 e.2 (-0.2)).2 &&
      decide ((acc.field.adjustLinkScore e.1 e.2 (-0.2)).1.linkScore e.1 e.2 ≤ 0.25)

/-- Whether a link is the only one of its source, and its target has none. -/
def lonelyEnds (self : ClusterField F) (e : NodeId × NodeId) : Bool :=
  (self.cells[e.1]?.any fun cell => (cell.unlink e.2).links.isEmpty) &&
    self.cells[e.2]?.any fun cell => cell.links.isEmpty

/-- Whether a dream overdraws its budget when it comes to a pair: it prunes a link with one operation left, or
with three left one whose ends both need another. -/
def overdraws (cfg : DreamConfig F) (acc : Dreaming F) (pair : PairStat F) : Bool :=
  (prunedLink cfg acc pair).any fun e =>
    acc.opsRemaining = 1 || (acc.opsRemaining = 3 && acc.field.lonelyEnds e)

/-! ## Rewiring -/

/-- A cell has a nearest other one, if there is any that it has no link to. -/
theorem nearest_isSome (visits : Visits F) {id other : NodeId} {cell candidate : NodeCell F}
    (hother : self.cells[other]? = some candidate) (hne : other ≠ id) (hnew : cell.links.contains other = false) :
    (self.nearest visits id cell).isSome = true := by
  unfold nearest
  rw [Option.isSome_map]
  have hmem : other ∈ visits.cells.arrange self.cells.keys := by
    rw [Order.mem_arrange, Std.ExtTreeMap.mem_keys, Std.ExtTreeMap.mem_iff_isSome_getElem?, hother]
    rfl
  revert hmem
  generalize visits.cells.arrange self.cells.keys = ids
  -- Once there is a best cell, there stays one.
  suffices hall : ∀ (ids : List NodeId) (start : Option (NodeId × F)), start.isSome = true ∨ other ∈ ids →
      (ids.foldl _ start).isSome = true from fun hmem => hall ids none (Or.inr hmem)
  intro ids
  induction ids with
  | nil => exact fun start hstart => hstart.resolve_right List.not_mem_nil
  | cons first ids ih =>
      intro start hstart
      refine ih _ ?_
      rcases hstart with hsome | hmem
      · left
        obtain ⟨best, rfl⟩ := Option.isSome_iff_exists.mp hsome
        dsimp only
        split
        · split
          · rfl
          · split <;> rfl
        · rfl
      · rcases List.mem_cons.mp hmem with rfl | hrest
        · left
          dsimp only
          rw [hother]
          dsimp only
          rw [if_neg (by simp [hne, hnew])]
          split
          · split <;> rfl
          · rfl
        · exact Or.inr hrest

/-- A cell is rewired if it has no links and there is another cell. -/
theorem rewireLonely_count (visits : Visits F) (id : NodeId) :
    (self.rewireLonely visits id).2.toNat ≤ 1 ∧ ((self.rewireLonely visits id).2.toNat = 1 ↔
      ∃ cell, self.cells[id]? = some cell ∧ cell.links.isEmpty = true ∧
        (self.nearest visits id cell).isSome = true) := by
  unfold rewireLonely
  cases hcell : self.cells[id]? with
  | none => exact ⟨Nat.zero_le _, by simp⟩
  | some cell =>
      dsimp only
      by_cases hlonely : cell.links.isEmpty = true
      · rw [if_pos hlonely]
        cases hnearest : self.nearest visits id cell with
        | none => exact ⟨Nat.zero_le _, by simp [hnearest]⟩
        | some target =>
            exact ⟨le_rfl, iff_of_true rfl ⟨cell, rfl, hlonely, by rw [hnearest]; rfl⟩⟩
      · rw [if_neg hlonely]
        refine ⟨Nat.zero_le _, iff_of_false Nat.zero_ne_one ?_⟩
        rintro ⟨other, hother, hempty, -⟩
        obtain rfl := Option.some.inj hother
        exact hlonely hempty

/-- The new links of the ends of a link. -/
def rewirings (visits : Visits F) (self : ClusterField F) (source target : NodeId) : ℕ :=
  (self.rewireLonely visits source).2.toNat + ((self.rewireLonely visits source).1.rewireLonely visits target).2.toNat

/-- Rewiring a lonely cell touches no cell but this one. -/
theorem cells_rewireLonely_of_ne (visits : Visits F) {id other : NodeId} (h : other ≠ id) :
    (self.rewireLonely visits id).1.cells[other]? = self.cells[other]? := by
  unfold rewireLonely
  cases hcell : self.cells[id]? with
  | none => rfl
  | some cell =>
      dsimp only
      split
      · cases self.nearest visits id cell with
        | none => rfl
        | some target => exact getElem?_setCell_of_ne h _
      · rfl

omit [FloatLike F] in
/-- A link is one of a cell that is there. -/
theorem exists_of_linked {x y : NodeId} (h : self.linked x y = true) :
    ∃ cell, self.cells[x]? = some cell ∧ cell.links.contains y = true := by
  unfold linked at h
  cases hcell : self.cells[x]? with
  | none => rw [hcell] at h; exact absurd h Bool.false_ne_true
  | some cell => exact ⟨cell, rfl, by rw [hcell] at h; exact h⟩

/-- A cell that was rewired has a link. -/
theorem linked_rewireLonely (visits : Visits F) {id : NodeId} (h : (self.rewireLonely visits id).2.toNat = 1) :
    ∃ target, (self.rewireLonely visits id).1.linked id target = true := by
  obtain ⟨cell, hcell, hlonely, hnearest⟩ := (rewireLonely_count visits id).2.mp h
  obtain ⟨target, htarget⟩ := Option.isSome_iff_exists.mp hnearest
  refine ⟨target, ?_⟩
  unfold rewireLonely
  simp only [hcell, hlonely, htarget, if_true]
  refine (linked_setCell id (cell.link target) id target).trans ?_
  rw [if_pos rfl]
  exact Std.ExtTreeSet.contains_insert_self

/-- Both ends of a link that is pruned are rewired if it is the only one of its source, and its target has none. -/
theorem rewirings_eq_two_iff (visits : Visits F) {pruned : ClusterField F} {source target : NodeId}
    (hlinked : self.linked source target = true) (hcells : pruned.cells = (self.pruneLink source target).1.cells) :
    rewirings visits pruned source target = 2 ↔ self.lonelyEnds (source, target) = true := by
  obtain ⟨cell, hcell, hcontains⟩ := exists_of_linked hlinked
  have hpruned : pruned.cells = (self.setCell source (cell.unlink target)).cells := by
    rw [hcells]
    unfold pruneLink alterCell
    rw [if_pos hlinked, hcell]
    rfl
  have hsource : pruned.cells[source]? = some (cell.unlink target) := by
    rw [hpruned, setCell, Std.ExtTreeMap.getElem?_insert_self]
  have hother {id : NodeId} (hne : id ≠ source) : pruned.cells[id]? = self.cells[id]? := by
    rw [hpruned, getElem?_setCell_of_ne hne]
  have hfirst := @rewireLonely_count F _ pruned visits source
  have hsecond := @rewireLonely_count F _ (pruned.rewireLonely visits source).1 visits target
  unfold rewirings lonelyEnds
  rw [hcell, Option.any_some, Bool.and_eq_true, Option.any_eq_true]
  constructor
  · intro htwo
    have hone : (pruned.rewireLonely visits source).2.toNat = 1 := by omega
    obtain ⟨lonely, hlonely, hempty, -⟩ := hfirst.2.mp hone
    obtain ⟨other, hthere, hnone, -⟩ := hsecond.2.mp (by omega)
    obtain rfl := Option.some.inj (hsource.symm.trans hlonely)
    refine ⟨hempty, ?_⟩
    by_cases hloop : target = source
    · -- The source has a new link by now.
      subst hloop
      obtain ⟨link, hlink⟩ := linked_rewireLonely visits hone
      obtain ⟨rewired, hrewired, hnew⟩ := exists_of_linked hlink
      obtain rfl := Option.some.inj (hthere.symm.trans hrewired)
      exact absurd hnew (Bool.eq_false_iff.mp (contains_of_lonely hnone _))
    · rw [cells_rewireLonely_of_ne visits hloop, hother hloop] at hthere
      exact ⟨other, hthere, hnone⟩
  · -- Both ends are lonely: the source finds the target, and the target some other cell.
    rintro ⟨hempty, other, hthere, hnone⟩
    have hne : target ≠ source := by
      rintro rfl
      obtain rfl := Option.some.inj (hcell.symm.trans hthere)
      exact absurd hcontains (Bool.eq_false_iff.mp (contains_of_lonely hnone _))
    have hone : (pruned.rewireLonely visits source).2.toNat = 1 := by
      refine hfirst.2.mpr ⟨_, hsource, hempty, ?_⟩
      exact nearest_isSome visits ((hother hne).trans hthere) hne (contains_of_lonely hempty _)
    obtain ⟨link, hlink⟩ := linked_rewireLonely visits hone
    obtain ⟨rewired, hrewired, -⟩ := exists_of_linked hlink
    have htwo : ((pruned.rewireLonely visits source).1.rewireLonely visits target).2.toNat = 1 := by
      refine hsecond.2.mpr ⟨other, ?_, hnone,
        nearest_isSome visits hrewired (Ne.symm hne) (contains_of_lonely hnone _)⟩
      rw [cells_rewireLonely_of_ne visits hne, hother hne, hthere]
    omega

/-- Rewiring the two ends of a link makes two new links at most. -/
theorem rewirings_le (visits : Visits F) (source target : NodeId) : rewirings visits self source target ≤ 2 :=
  Nat.add_le_add (rewireLonely_count visits source).1 (rewireLonely_count visits target).1

/-! ## Counting -/

/-- A difference that saturates is that of natural numbers. -/
theorem toNat_saturatingSub32 (a b : UInt32) : (saturatingSub32 a b).toNat = a.toNat - b.toNat := by
  unfold saturatingSub32
  split
  · rename_i hlt
    have hlt : a.toNat < b.toNat := hlt
    rw [UInt32.toNat_zero]
    omega
  · rename_i hle
    exact UInt32.toNat_sub_of_le a b (UInt32.not_lt.mp hle)

/-- A sum that does not overflow is that of natural numbers. -/
theorem toNat_saturatingAdd32 {a b : UInt32} (h : a.toNat + b.toNat < 2 ^ 32) :
    (saturatingAdd32 a b).toNat = a.toNat + b.toNat := by
  have hsum : (a + b).toNat = a.toNat + b.toNat := by
    rw [UInt32.toNat_add, Nat.mod_eq_of_lt h]
  unfold saturatingAdd32
  rw [if_neg (by rw [UInt32.lt_iff_toNat_lt, hsum]; omega), hsum]

/-- So is a successor. -/
theorem toNat_succ32 {n : UInt32} (h : n.toNat + 1 < 2 ^ 32) : (n + 1).toNat = n.toNat + 1 := by
  rw [UInt32.toNat_add, UInt32.toNat_one, Nat.mod_eq_of_lt h]

/-- What rewiring spends. -/
theorem spent_rewire (visits : Visits F) (source target : NodeId) (hops : acc.opsRemaining ≠ 0)
    (hcount : acc.report.rewired.toNat + 2 < 2 ^ 32) :
    (rewire visits acc source target).report.spent = acc.report.spent + rewirings visits acc.field source target ∧
      (rewire visits acc source target).opsRemaining.toNat =
        acc.opsRemaining.toNat - rewirings visits acc.field source target := by
  have hle : rewirings visits acc.field source target ≤ 2 := rewirings_le visits source target
  have hsum : (acc.field.rewireLonely visits source).2.toNat +
      ((acc.field.rewireLonely visits source).1.rewireLonely visits target).2.toNat =
        rewirings visits acc.field source target := rfl
  unfold rewire
  rw [if_neg hops]
  dsimp only
  constructor
  · unfold DreamReport.spent
    dsimp only
    rw [UInt32.toNat_add, UInt32.toNat_add, hsum, Nat.mod_eq_of_lt (by omega), Nat.mod_eq_of_lt (by omega)]
    omega
  · rw [toNat_saturatingSub32, toNat_saturatingAdd32 (by omega), hsum]

/-- What a dream has left after its budget has grown smaller by what it spends: `spent` of the operations are gone,
and where these are more than there were, all of them. -/
structure Pays (acc after : Dreaming F) (spent : ℕ) : Prop where
  report : after.report.spent = acc.report.spent + spent
  opsRemaining : after.opsRemaining.toNat = acc.opsRemaining.toNat - spent

omit [FloatLike F] in
/-- Two steps after one another spend what both of them spend. -/
theorem Pays.trans {middle after : Dreaming F} {first second : ℕ} (h : Pays acc middle first)
    (hafter : Pays middle after second) : Pays acc after (first + second) := by
  obtain ⟨hreport, hleft⟩ := h
  obtain ⟨hreport', hleft'⟩ := hafter
  exact ⟨by omega, by omega⟩

/-- Pruning spends one operation, and rewiring what it does, if it comes to that. -/
theorem pays_prune (visits : Visits F) {source target : NodeId} (hlinked : acc.field.linked source target = true)
    (hweak : acc.field.linkScore source target ≤ 0.25) (hpruned : acc.report.pruned.toNat + 1 < 2 ^ 32)
    (hrewired : 1 < acc.opsRemaining.toNat → acc.report.rewired.toNat + 2 < 2 ^ 32) :
    ∃ rewired ≤ 2, (rewired = 2 ↔ acc.field.lonelyEnds (source, target) = true) ∧
      Pays acc (prune visits acc source target) (1 + if acc.opsRemaining.toNat ≤ 1 then 0 else rewired) := by
  have hlink : (acc.field.pruneLink source target).2 = true := by
    unfold pruneLink
    rw [if_pos hlinked]
  refine ⟨rewirings visits ((acc.field.pruneLink source target).1.emit (.dreamPrune source target)) source target,
    rewirings_le visits source target, rewirings_eq_two_iff visits hlinked rfl, ?_⟩
  unfold prune
  rw [if_pos hweak]
  dsimp only
  rw [if_pos hlink]
  -- What is left after the link is pruned, and before its ends are rewired.
  generalize hmiddle : ({ acc with
    field := (acc.field.pruneLink source target).1.emit (.dreamPrune source target)
    opsRemaining := saturatingSub32 acc.opsRemaining 1
    report := { acc.report with pruned := acc.report.pruned + 1 } } : Dreaming F) = middle
  have hspent : middle.report.spent = acc.report.spent + 1 := by
    rw [← hmiddle]
    unfold DreamReport.spent
    dsimp only
    rw [toNat_succ32 hpruned]
    omega
  have hops : middle.opsRemaining.toNat = acc.opsRemaining.toNat - 1 := by
    rw [← hmiddle]
    exact toNat_saturatingSub32 _ _
  have hfield : middle.field = (acc.field.pruneLink source target).1.emit (.dreamPrune source target) := by
    rw [← hmiddle]
  -- The pruning may have used up the last operation.
  by_cases hlast : acc.opsRemaining.toNat ≤ 1
  · have hzero : middle.opsRemaining = 0 := UInt32.toNat_inj.mp (by rw [hops, UInt32.toNat_zero]; omega)
    rw [if_pos hlast, rewire, if_pos hzero]
    exact ⟨hspent, hops⟩
  · have hmore : middle.opsRemaining ≠ 0 := by
      intro hzero
      rw [hzero, UInt32.toNat_zero] at hops
      omega
    have hcount : middle.report.rewired.toNat + 2 < 2 ^ 32 := by
      rw [← hmiddle]
      exact hrewired (Nat.lt_of_not_le hlast)
    obtain ⟨hrewire, hleft⟩ := spent_rewire visits source target hmore hcount
    rw [if_neg hlast, ← hfield]
    exact ⟨by omega, by omega⟩

/-- A dream that has just weakened a link, and may prune it. -/
structure Weakened (acc middle : Dreaming F) (source target : NodeId) : Prop where
  pays : Pays acc middle 1
  pruned : middle.report.pruned = acc.report.pruned
  rewired : middle.report.rewired = acc.report.rewired
  cells : middle.field.cells = acc.field.cells
  linked : acc.field.linked source target = true
  weak : middle.field.linkScore source target ≤ 0.25

omit [FloatLike F] in
/-- A dream picks a link that is there. -/
theorem linked_of_pickDirection {u v source target : NodeId} (h : self.pickDirection u v = some (source, target)) :
    self.linked source target = true := by
  unfold pickDirection at h
  split at h
  · rename_i hforth
    obtain ⟨rfl, rfl⟩ := Prod.mk.inj (Option.some.inj h)
    exact hforth
  · split at h
    · rename_i hback
      obtain ⟨rfl, rfl⟩ := Prod.mk.inj (Option.some.inj h)
      exact hback
    · cases h

/-- Adjusting the score of a link touches no cell, so what a dream finds lonely stays so. -/
theorem cells_adjustLinkScore (source target : NodeId) (delta : F) :
    (self.adjustLinkScore source target delta).1.cells = self.cells := by
  unfold adjustLinkScore
  split <;> rfl

/-- When it comes to a pair a dream prunes no link and pays for what it weakens, or it weakens and then prunes. -/
theorem weaken_cases (visits : Visits F) (hops : acc.opsRemaining ≠ 0)
    (hcount : acc.report.weakened.toNat + 1 < 2 ^ 32) :
    (prunedLink cfg acc pair = none ∧ ∃ spent ≤ 1, Pays acc (weaken visits cfg acc pair) spent) ∨
      ∃ source target middle, prunedLink cfg acc pair = some (source, target) ∧
        Weakened acc middle source target ∧
        weaken visits cfg acc pair = prune visits middle source target := by
  have hfree {after : Dreaming F} (hreport : after.report.spent = acc.report.spent)
      (hleft : after.opsRemaining = acc.opsRemaining) : Pays acc after 0 := ⟨hreport, by rw [hleft]; rfl⟩
  unfold weaken prunedLink
  rw [if_neg hops]
  simp only [Bool.or_eq_true, List.contains_iff_mem]
  by_cases hprotect : acc.field.shouldProtect cfg pair.u pair.v = true
  · -- A protected pair is passed over.
    rw [if_pos hprotect, if_pos (Or.inl hprotect)]
    exact Or.inl ⟨rfl, 0, Nat.zero_le _, hfree rfl rfl⟩
  · by_cases htouched : (pair.u, pair.v) ∈ acc.touched
    · -- So is a pair that has been dealt with.
      rw [if_neg hprotect, if_pos htouched, if_pos (Or.inr htouched)]
      exact Or.inl ⟨rfl, 0, Nat.zero_le _, hfree rfl rfl⟩
    · rw [if_neg hprotect, if_neg htouched, if_neg (not_or.mpr ⟨hprotect, htouched⟩)]
      cases hdirection : acc.field.pickDirection pair.u pair.v with
      | none => exact Or.inl ⟨rfl, 0, Nat.zero_le _, hfree rfl rfl⟩
      | some e =>
          obtain ⟨source, target⟩ := e
          have hlinked := linked_of_pickDirection hdirection
          dsimp only
          rw [Option.filter_some]
          dsimp only
          by_cases hchanged : (acc.field.adjustLinkScore source target (-0.2)).2 = true
          · rw [if_pos hchanged, hchanged, Bool.true_and]
            generalize hmiddle : ({ acc with
              field := (acc.field.adjustLinkScore source target (-0.2)).1.emit (.dreamWeaken source target
                ((acc.field.adjustLinkScore source target (-0.2)).1.linkScore source target) pair.freq pair.avgStrength)
              opsRemaining := saturatingSub32 acc.opsRemaining 1
              report := { acc.report with weakened := acc.report.weakened + 1 }
              touched := (pair.u, pair.v) :: acc.touched } : Dreaming F) = middle
            have hcells : middle.field.cells = acc.field.cells := by
              rw [← hmiddle]
              exact cells_adjustLinkScore source target _
            have hscore : middle.field.linkScore source target =
                (acc.field.adjustLinkScore source target (-0.2)).1.linkScore source target := by
              rw [← hmiddle]
              rfl
            have hpays : Pays acc middle 1 := by
              refine ⟨?_, ?_⟩
              · rw [← hmiddle]
                unfold DreamReport.spent
                dsimp only
                rw [toNat_succ32 hcount]
                omega
              · rw [← hmiddle]
                exact toNat_saturatingSub32 _ _
            by_cases hweak : (acc.field.adjustLinkScore source target (-0.2)).1.linkScore source target ≤ 0.25
            · -- The link has become weak enough to be pruned.
              rw [if_pos (decide_eq_true hweak)]
              refine Or.inr ⟨source, target, middle, rfl, ⟨hpays, ?_, ?_, hcells, hlinked, hscore ▸ hweak⟩, rfl⟩
              · rw [← hmiddle]
              · rw [← hmiddle]
            · rw [if_neg (by simp [hweak]), prune, if_neg (hscore ▸ hweak)]
              exact Or.inl ⟨rfl, 1, le_rfl, hpays⟩
          · -- A score that does not change costs nothing.
            rw [if_neg hchanged, Bool.eq_false_iff.mpr hchanged, Bool.false_and, if_neg Bool.false_ne_true]
            exact Or.inl ⟨rfl, 0, Nat.zero_le _, hfree rfl rfl⟩

/-! ## The budget -/

/-- What a dream has spent and what it has left add up to its budget. -/
def Balanced (budget : UInt32) (acc : Dreaming F) : Prop :=
  acc.report.spent + acc.opsRemaining.toNat = budget.toNat

/-- It has spent one operation more than its budget, and has none left. -/
def Overdrawn (budget : UInt32) (acc : Dreaming F) : Prop :=
  acc.opsRemaining = 0 ∧ acc.report.spent = budget.toNat + 1

variable {budget : UInt32}

omit [FloatLike F] in
/-- A step that spends no more than is left keeps the balance. -/
theorem Pays.balanced {after : Dreaming F} {spent : ℕ} (h : Pays acc after spent) (hbalanced : Balanced budget acc)
    (hle : spent ≤ acc.opsRemaining.toNat) : Balanced budget after := by
  obtain ⟨hreport, hleft⟩ := h
  unfold Balanced at hbalanced ⊢
  omega

/-- Strengthening a pair keeps to the budget. -/
theorem balanced_strengthen (h : Balanced budget acc) (pair : PairStat F) :
    Balanced budget (strengthen cfg acc pair) := by
  have hbudget := budget.toNat_lt
  have hsum : acc.report.spent + acc.opsRemaining.toNat = budget.toNat := h
  unfold strengthen
  split
  · exact h
  · rename_i hops
    have hpos : acc.opsRemaining.toNat ≠ 0 := fun hzero => hops (UInt32.toNat_inj.mp hzero)
    split
    · exact h
    · split
      · exact h
      · dsimp only
        split
        · split
          · have hspent : acc.report.spent = acc.report.strengthened.toNat + acc.report.weakened.toNat +
              acc.report.pruned.toNat + acc.report.rewired.toNat := rfl
            unfold Balanced DreamReport.spent
            dsimp only
            rw [toNat_succ32 (by omega), toNat_saturatingSub32, UInt32.toNat_one]
            omega
          · exact h
        · exact h

/-- A pair costs a dream no more than four operations, and more than there are left, then by one, if and only if
it overdraws the budget. -/
theorem weaken_pays (visits : Visits F) (h : Balanced budget acc) (pair : PairStat F) :
    ∃ spent ≤ 4, Pays acc (weaken visits cfg acc pair) spent ∧
      if overdraws cfg acc pair = true then spent = acc.opsRemaining.toNat + 1
      else spent ≤ acc.opsRemaining.toNat := by
  by_cases hops : acc.opsRemaining = 0
  · have hstop : weaken visits cfg acc pair = acc := by
      unfold weaken
      rw [if_pos hops]
    have hnot : overdraws cfg acc pair = false := by
      unfold overdraws
      rw [hops]
      cases prunedLink cfg acc pair <;> rfl
    rw [hnot, hstop]
    exact ⟨0, Nat.zero_le _, ⟨rfl, rfl⟩, Nat.zero_le _⟩
  · have hpos : acc.opsRemaining.toNat ≠ 0 := fun hzero => hops (UInt32.toNat_inj.mp hzero)
    have hbudget := budget.toNat_lt
    have hsum : acc.report.spent + acc.opsRemaining.toNat = budget.toNat := h
    have hspent : acc.report.spent = acc.report.strengthened.toNat + acc.report.weakened.toNat +
      acc.report.pruned.toNat + acc.report.rewired.toNat := rfl
    rcases @weaken_cases F _ cfg acc pair visits hops (by omega) with
      ⟨hnone, spent, hle, hpays⟩ | ⟨source, target, middle, hsome, hweakened, hprune⟩
    · rw [overdraws, hnone, Option.any_none]
      exact ⟨spent, by omega, hpays, show spent ≤ acc.opsRemaining.toNat by omega⟩
    · obtain ⟨hpays, hpruned, hrewired, hcells, hlinked, hweak⟩ := hweakened
      have hmiddle : middle.field.linked source target = true := by
        unfold linked at hlinked ⊢
        rwa [hcells]
      have hleft := hpays.opsRemaining
      obtain ⟨rewired, hle, htwo, hafter⟩ := pays_prune visits hmiddle hweak (by rw [hpruned]; omega)
        (by rw [hrewired]; omega)
      have hlonely : middle.field.lonelyEnds (source, target) = acc.field.lonelyEnds (source, target) := by
        unfold lonelyEnds
        rw [hcells]
      rw [hlonely] at htwo
      have hone : acc.opsRemaining = 1 ↔ acc.opsRemaining.toNat = 1 := UInt32.toNat_inj.symm
      have hthree : acc.opsRemaining = 3 ↔ acc.opsRemaining.toNat = 3 := UInt32.toNat_inj.symm
      -- The two ways to overdraw, in numbers.
      have hover : overdraws cfg acc pair = true ↔
          acc.opsRemaining.toNat = 1 ∨ acc.opsRemaining.toNat = 3 ∧ rewired = 2 := by
        rw [overdraws, hsome, Option.any_some, Bool.or_eq_true, Bool.and_eq_true, decide_eq_true_eq, decide_eq_true_eq,
          hone, hthree, htwo]
      -- With two left there is one to prune with and none to rewire, with four there is one for each.
      rw [hprune]
      refine ⟨_, ?_, hpays.trans hafter, ?_⟩
      · split <;> omega
      · split
        · rename_i hoverdraws
          rcases hover.mp hoverdraws with hlast | ⟨hlast, hboth⟩
          · rw [if_pos (by omega)]
            omega
          · rw [if_neg (by omega)]
            omega
        · rename_i hkeeps
          rw [hover, not_or, not_and] at hkeeps
          split <;> omega

/-- Weakening a pair keeps to the budget, or overdraws it by one. -/
theorem balanced_weaken (visits : Visits F) (h : Balanced budget acc) :
    if overdraws cfg acc pair = true then Overdrawn budget (weaken visits cfg acc pair)
    else Balanced budget (weaken visits cfg acc pair) := by
  obtain ⟨spent, -, hpays, hspent⟩ := @weaken_pays F _ cfg acc budget visits h pair
  by_cases hover : overdraws cfg acc pair = true
  · have hsum : acc.report.spent + acc.opsRemaining.toNat = budget.toNat := h
    have hreport := hpays.report
    have hleft := hpays.opsRemaining
    rw [if_pos hover] at hspent ⊢
    exact ⟨UInt32.toNat_inj.mp (by rw [UInt32.toNat_zero]; omega), by omega⟩
  · rw [if_neg hover] at hspent ⊢
    exact hpays.balanced h hspent

/-! ## A whole dream -/

/-- A dream that has no operations left passes over the pairs that it would weaken. -/
theorem foldl_weaken_idle (visits : Visits F) (hops : acc.opsRemaining = 0) (pairs : List (PairStat F)) :
    pairs.foldl (weaken visits cfg) acc = acc := by
  induction pairs with
  | nil => rfl
  | cons pair pairs ih =>
      have hstop : weaken visits cfg acc pair = acc := by
        unfold weaken
        rw [if_pos hops]
      rw [List.foldl_cons, hstop, ih]

/-- It passes over those that it would strengthen as well. -/
theorem foldl_strengthen_idle (hops : acc.opsRemaining = 0) (pairs : List (PairStat F)) :
    pairs.foldl (strengthen cfg) acc = acc := by
  induction pairs with
  | nil => rfl
  | cons pair pairs ih =>
      have hstop : strengthen cfg acc pair = acc := by
        unfold strengthen
        rw [if_pos hops]
      rw [List.foldl_cons, hstop, ih]

/-- The budget is kept as long as no pair overdraws it: one that does is the last. -/
theorem spent_foldl_weaken (visits : Visits F) (h : Balanced budget acc) (pairs : List (PairStat F)) :
    (pairs.foldl (weaken visits cfg) acc).report.spent ≤ budget.toNat ↔
      ∀ front pair back, pairs = front ++ pair :: back →
        overdraws cfg (front.foldl (weaken visits cfg) acc) pair = false := by
  induction pairs generalizing acc with
  | nil =>
      have hsum : acc.report.spent + acc.opsRemaining.toNat = budget.toNat := h
      refine iff_of_true ?_ fun front pair back hsplit => by simp at hsplit
      rw [List.foldl_nil]
      omega
  | cons first pairs ih =>
      have hstep := @balanced_weaken F _ cfg acc first budget visits h
      rw [List.foldl_cons]
      -- Once the budget is overdrawn, nothing is left to do and it stays overdrawn.
      by_cases hover : overdraws cfg acc first = true
      · rw [if_pos hover] at hstep
        rw [foldl_weaken_idle visits hstep.1]
        refine iff_of_false ?_ fun hall => ?_
        · rw [hstep.2]
          omega
        · exact absurd (hover.symm.trans (hall [] first pairs rfl)) Bool.noConfusion
      · rw [if_neg hover] at hstep
        rw [ih hstep]
        constructor
        · intro hall front pair back hsplit
          cases front with
          | nil =>
              obtain ⟨rfl, rfl⟩ := List.cons.inj hsplit
              exact Bool.eq_false_iff.mpr hover
          | cons head front =>
              obtain ⟨rfl, rfl⟩ := List.cons.inj hsplit
              exact hall front pair back rfl
        · intro hall front pair back hsplit
          exact hall (first :: front) pair back (by rw [hsplit, List.cons_append])

/-- The budget is never overdrawn by more than one: a pair that does it leaves nothing. -/
theorem spent_foldl_weaken_le (visits : Visits F) (h : Balanced budget acc) (pairs : List (PairStat F)) :
    (pairs.foldl (weaken visits cfg) acc).report.spent ≤ budget.toNat + 1 := by
  induction pairs generalizing acc with
  | nil =>
      have hsum : acc.report.spent + acc.opsRemaining.toNat = budget.toNat := h
      rw [List.foldl_nil]
      omega
  | cons pair pairs ih =>
      have hstep := @balanced_weaken F _ cfg acc pair budget visits h
      rw [List.foldl_cons]
      by_cases hover : overdraws cfg acc pair = true
      · rw [if_pos hover] at hstep
        rw [foldl_weaken_idle visits hstep.1]
        exact hstep.2.le
      · rw [if_neg hover] at hstep
        exact ih hstep

/-- With four operations for each pair the budget is kept. -/
theorem spent_foldl_weaken_of_room (visits : Visits F) (h : Balanced budget acc) (pairs : List (PairStat F))
    (hroom : 4 * pairs.length ≤ acc.opsRemaining.toNat) :
    (pairs.foldl (weaken visits cfg) acc).report.spent ≤ budget.toNat := by
  induction pairs generalizing acc with
  | nil =>
      have hsum : acc.report.spent + acc.opsRemaining.toNat = budget.toNat := h
      rw [List.foldl_nil]
      omega
  | cons pair pairs ih =>
      rw [List.length_cons] at hroom
      obtain ⟨spent, hle, hpays, -⟩ := @weaken_pays F _ cfg acc budget visits h pair
      have hleft := hpays.opsRemaining
      exact ih (hpays.balanced h (by omega)) (by omega)

/-- After strengthening, which spends one operation at a time, the balance holds. -/
theorem balanced_strengthened (visits : Visits F) : Balanced cfg.maxOpsPerCycle (self.strengthened visits cfg) := by
  unfold strengthened
  generalize self.topPairs visits cfg = pairs
  have hstart : Balanced cfg.maxOpsPerCycle
      (⟨self, ⟨0, 0, 0, 0, 0, 0⟩, cfg.maxOpsPerCycle, []⟩ : Dreaming F) := Nat.zero_add _
  exact List.foldlRecOn (motive := fun acc : Dreaming F => Balanced cfg.maxOpsPerCycle acc) pairs _ hstart
    fun _ hacc pair _ => balanced_strengthen hacc pair

/-- A strengthened pair costs one operation. -/
theorem opsRemaining_strengthen (pair : PairStat F) :
    acc.opsRemaining.toNat ≤ (strengthen cfg acc pair).opsRemaining.toNat + 1 := by
  unfold strengthen
  split
  · exact Nat.le_succ _
  · split
    · exact Nat.le_succ _
    · split
      · exact Nat.le_succ _
      · dsimp only
        split
        · split
          · dsimp only
            rw [toNat_saturatingSub32, UInt32.toNat_one]
            omega
          · exact Nat.le_succ _
        · exact Nat.le_succ _

/-- Strengthening spends no more than one operation for each pair. -/
theorem opsRemaining_foldl_strengthen (pairs : List (PairStat F)) :
    acc.opsRemaining.toNat ≤ (pairs.foldl (strengthen cfg) acc).opsRemaining.toNat + pairs.length := by
  induction pairs generalizing acc with
  | nil => exact le_rfl
  | cons pair pairs ih =>
      have hfirst := @opsRemaining_strengthen F _ cfg acc pair
      have hrest := @ih (strengthen cfg acc pair)
      rw [List.foldl_cons, List.length_cons]
      omega

/-- Where there is nothing to dream of the report tells of nothing. -/
theorem spent_dreamReport (visits : Visits F) (tookMs : UInt32) :
    (self.dreamReport visits tookMs cfg).spent =
      ((self.bottomPairs visits cfg).foldl (weaken visits cfg) (self.strengthened visits cfg)).report.spent := by
  unfold dreamReport
  by_cases hops : cfg.maxOpsPerCycle = 0
  · have hstart : self.strengthened visits cfg = ⟨self, ⟨0, 0, 0, 0, 0, 0⟩, cfg.maxOpsPerCycle, []⟩ :=
      foldl_strengthen_idle hops _
    rw [if_pos hops, hstart, foldl_weaken_idle visits hops]
  · rw [if_neg hops]
    by_cases hpairs : (self.collectRecentPairs visits cfg.windowMs).isEmpty = true
    · have hnone : self.dreamPairs visits cfg = [] := by
        unfold dreamPairs
        rw [List.isEmpty_iff.mp hpairs]
        rfl
      have hbottom : self.bottomPairs visits cfg = [] := by
        unfold bottomPairs
        rw [hnone]
        exact List.take_nil
      have htop : self.topPairs visits cfg = [] := by
        unfold topPairs
        rw [hnone]
        exact List.take_nil
      rw [if_pos hpairs, hbottom]
      unfold strengthened
      rw [htop]
      rfl
    · rw [if_neg hpairs]
      rfl

/-- A dream keeps to its budget if and only if it comes to no pair with one operation left and prunes its link,
and to none with three left whose link it prunes and both of whose ends it rewires. -/
theorem runDream_budget_iff (visits : Visits F) (tookMs : UInt32) (self : ClusterField F) (cfg : DreamConfig F) :
    (self.dreamReport visits tookMs cfg).spent ≤ cfg.maxOpsPerCycle.toNat ↔
      ∀ front pair back, self.bottomPairs visits cfg = front ++ pair :: back →
        overdraws cfg (front.foldl (weaken visits cfg) (self.strengthened visits cfg)) pair = false := by
  rw [spent_dreamReport]
  exact spent_foldl_weaken visits (balanced_strengthened visits) _

/-- On the inputs alone: a dream keeps to its budget if this has an operation for each of the pairs that it
strengthens, and four for each of those that it weakens. -/
theorem runDream_budget_of_room (visits : Visits F) (tookMs : UInt32) (self : ClusterField F) (cfg : DreamConfig F)
    (hroom : (self.topPairs visits cfg).length + 4 * (self.bottomPairs visits cfg).length ≤
      cfg.maxOpsPerCycle.toNat) :
    (self.dreamReport visits tookMs cfg).spent ≤ cfg.maxOpsPerCycle.toNat := by
  have hleft : cfg.maxOpsPerCycle.toNat ≤
      (self.strengthened visits cfg).opsRemaining.toNat + (self.topPairs visits cfg).length :=
    @opsRemaining_foldl_strengthen F _ cfg ⟨self, ⟨0, 0, 0, 0, 0, 0⟩, cfg.maxOpsPerCycle, []⟩ _
  rw [spent_dreamReport]
  exact spent_foldl_weaken_of_room visits (balanced_strengthened visits) _ (by omega)

/-- Whatever the inputs, a dream overdraws its budget by no more than one operation. -/
theorem runDream_budget_succ (visits : Visits F) (tookMs : UInt32) (self : ClusterField F) (cfg : DreamConfig F) :
    (self.dreamReport visits tookMs cfg).spent ≤ cfg.maxOpsPerCycle.toNat + 1 := by
  rw [spent_dreamReport]
  exact spent_foldl_weaken_le visits (balanced_strengthened visits) _

/-- A dream over any one pair, with so many operations. -/
def tightConfig (maxOps : UInt32) : DreamConfig ℚ := ⟨15, 3000, 0, 1, 2, true, maxOps⟩

/-- A cell and its bud answer together, and three dreams weaken the link between them. -/
def dreamCalls : List (FieldCall ℚ) :=
  [.addRoot "cpu", .injectSeedVariation .listed 0 0 (fun _ => true) "cpu",
    .routeImpulse .listed ⟨.query, "cpu", 0.5, 0, []⟩, .setDreamConfig (tightConfig 1), .runDreamCycle .listed 0,
    .runDreamCycle .listed 0, .runDreamCycle .listed 0]

/-- The fourth dream weakens and prunes the link with one operation, and with three it rewires both ends as well. -/
theorem not_runDream_budget_dreamCalls :
    let self := dreamCalls.foldl (call (constantPlatform ℚ 0.5)) new
    self.dreamCfg.maxOpsPerCycle.toNat = 1 ∧ (self.dreamReport .listed 0 self.dreamCfg).spent = 2 ∧
      (self.dreamReport .listed 0 (tightConfig 3)).spent = 4 := by
  decide +kernel

end ClusterField

end LiminalDB
