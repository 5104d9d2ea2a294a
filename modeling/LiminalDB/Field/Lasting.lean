import LiminalDB.Field.LinkTicks
import LiminalDB.Field.Notes

/-! # What lasts

A property of a cell at a time that nothing ends, neither what a tick does to the cell (`Ages`) nor what else befalls
it (`Lasts`), holds of every cell in every state of a run (`everywhere_run`). Where it says of the last tick of every
cell that it is one, a field that ticks is empty (`tickAll_deserts`). -/

namespace LiminalDB

variable {F : Type} [FloatLike F]

open FloatLike (clamp)

/-! ## Rules -/

/-- A tick ends the property for no cell that lives. -/
structure Ages (P : UInt64 → NodeCell F → Prop) : Prop where
  alive : ∀ {now cell}, P now cell → cell.state ≠ .dead
  aged : ∀ {now cell} (dtMs : UInt64) (scale shift drive : F), P now cell →
    P (saturatingAdd now dtMs) ((cell.tick dtMs scale shift).driftAffinity drive)
  divided : ∀ {now cell parent child} (variation : F), P now cell →
    cell.maybeDivide variation = (parent, some child) → P now parent ∧ ∀ id corePattern, P now
      { child with id, seed := { child.seed with corePattern }, lastResponseMs := now }
  linked : ∀ {now cell} (links : Std.ExtTreeSet NodeId compare), P now cell → P now { cell with links }
  rested : ∀ {now cell} (shift : F), P now cell → (cell.maybeSleepOrDie now shift).1.state ≠ .dead →
    P now (cell.maybeSleepOrDie now shift).1

/-- Nothing does that gives a cell no energy. -/
structure Endures (P : UInt64 → NodeCell F → Prop) : Prop extends Ages P where
  dozed : ∀ {now cell} (dozes dies : Bool), P now cell → (ClusterField.doze now dozes dies cell).state ≠ .dead →
    P now (ClusterField.doze now dozes dies cell)
  aligned : ∀ {now cell} (weight centroid : F), P now cell → P now (ClusterField.aligned weight centroid cell).1
  mirrored : ∀ {now cell} (kind : EpochKind) (scale : F), P now cell → P now (ClusterField.mirrored kind scale cell)

/-- Nothing at all does, and new cells have the property: a bud has it when `draw` holds of its energy. -/
structure Lasts (platform : Platform F) (draw : F → Prop) (P : UInt64 → NodeCell F → Prop) : Prop extends
    Endures P where
  root : ∀ now id seed, P now (.fromSeed id (createSeed platform seed))
  seeded : ∀ now id seed x, P now
    { NodeCell.fromSeed id (createSeed platform seed) with
      affinity := clamp x 0.0 1.0, seed := { createSeed platform seed with affinity := clamp x 0.0 1.0 } }
  budded : ∀ now id seed corePattern x energy, draw energy → P now
    { NodeCell.fromSeed id (createSeed platform seed) with
      affinity := clamp x 0.0 1.0
      seed := { createSeed platform seed with affinity := clamp x 0.0 1.0, corePattern }
      energy := 0.5 + energy
      lastResponseMs := now }
  woken : ∀ {now cell}, P now cell → P now
    { cell with state := .idle, energy := FloatLike.max cell.energy 0.3, lastResponseMs := now }
  ingested : ∀ {now cell} (imp : Impulse F), P now cell → P now (cell.ingest platform imp now).1 ∧
    P now { (cell.ingest platform imp now).1 with lastResponseMs := now }
  awakened : ∀ {now cell} (cfg : AwakeningConfig F) (magnitude amount : F), P now cell → P now
    ({ cell with energy := ClusterField.awakened cfg magnitude cell.energy }.bumpSalience amount)

/-- A call that gives no cell energy. -/
def FieldCall.isQuiet : FieldCall F → Bool
  | .addRoot _ | .routeImpulse .. | .injectSeedVariation .. | .awakenNow _ => false
  | _ => true

/-- What holds of the energy that a bud draws. -/
def FieldCall.Drawn (draw : F → Prop) : FieldCall F → Prop
  | .injectSeedVariation _ _ energy _ _ => draw energy
  | _ => True

namespace ClusterField

variable {platform : Platform F} {P : UInt64 → NodeCell F → Prop} {draw : F → Prop} {self self' : ClusterField F}

/-! ## Cells -/

omit [FloatLike F] in
/-- The property holds of every cell now. -/
def Everywhere (P : UInt64 → NodeCell F → Prop) (self : ClusterField F) : Prop :=
  ∀ (id : NodeId) (cell : NodeCell F), self.cells[id]? = some cell → P self.nowMs cell

omit [FloatLike F] in
/-- The cells and the time. -/
def moment (self : ClusterField F) : Std.ExtTreeMap NodeId (NodeCell F) compare × UInt64 := (self.cells, self.nowMs)

omit [FloatLike F] in
/-- A property of all cells at a time depends on the cells and the clock of a field alone. -/
theorem everywhere_congr (h : self'.moment = self.moment) (hself : Everywhere P self) : Everywhere P self' := by
  obtain ⟨hcells, hnow⟩ := Prod.mk.inj h
  intro id cell hcell
  rw [hnow]
  exact hself id cell (hcells ▸ hcell)

omit [FloatLike F] in
/-- A cell with the property may replace another one, or be new, at the time that the field shows. -/
theorem everywhere_setCell {cell : NodeCell F} (hself : Everywhere P self) (id : NodeId) (hcell : P self.nowMs cell) :
    Everywhere P (self.setCell id cell) := by
  intro other found hfound
  by_cases heq : other = id
  · subst heq
    rw [setCell, Std.ExtTreeMap.getElem?_insert_self] at hfound
    cases hfound
    exact hcell
  · rw [getElem?_setCell_of_ne heq] at hfound
    exact hself other found hfound

omit [FloatLike F] in
/-- A change that keeps the property at the time of the field may be made to any cell, there or not. -/
theorem everywhere_alterCell {change : NodeCell F → NodeCell F} (hself : Everywhere P self) (id : NodeId)
    (hchange : ∀ cell, P self.nowMs cell → P self.nowMs (change cell)) : Everywhere P (self.alterCell id change) := by
  unfold alterCell
  split
  · rename_i cell hcell
    exact everywhere_setCell hself id (hchange cell (hself id cell hcell))
  · exact hself

/-- Attaching a cell writes it into the field; what follows, indexing and links, shows neither in the cells
nor in the clock. -/
theorem moment_attachCell (cell : NodeCell F) :
    (self.attachCell platform cell).moment = (self.setCell cell.id cell).moment :=
  indexing_keeps moment (fun _ _ => rfl) (fun _ _ _ => rfl) platform (self.setCell cell.id cell) cell.id

/-- Rebuilding the index changes neither a cell nor the clock, so that no property of cells is touched. -/
theorem moment_rebuildIndex : (self.rebuildIndex platform).moment = self.moment :=
  list_foldl_keeps moment (indexing_keeps moment (fun _ _ => rfl) (fun _ _ _ => rfl) platform)
    self.cells.keys { self with index := fun _ => [] }

/-- A cell that has the property when it is attached joins cells that have it. -/
theorem everywhere_attachCell {cell : NodeCell F} (hself : Everywhere P self) (hcell : P self.nowMs cell) :
    Everywhere P (self.attachCell platform cell) :=
  everywhere_congr (moment_attachCell cell) (everywhere_setCell hself cell.id hcell)

/-- The same of a cell that is spawned, which takes the next id before it is attached. -/
theorem everywhere_spawn {cell : NodeCell F} (hself : Everywhere P self) (hcell : P self.nowMs cell) :
    Everywhere P (self.spawn platform cell) :=
  @everywhere_attachCell F _ platform P { self with nextId := self.nextId + 1 } cell hself hcell

/-- A property that does not look at links survives a new one, which is written into its source. -/
theorem everywhere_addLink (hP : Ages P) (hself : Everywhere P self) (source target : NodeId) :
    Everywhere P (self.addLink source target) := by
  unfold addLink
  split
  · rename_i cell hcell
    split
    · exact hself
    · exact everywhere_congr rfl (everywhere_setCell hself source (hP.linked _ (hself source cell hcell)))
  · exact hself

omit [FloatLike F] in
/-- Deltas that are emitted change the journal only, so that every cell keeps the property. -/
theorem everywhere_foldl_emit (deltas : List (EventDelta F)) (hself : Everywhere P self) :
    Everywhere P (deltas.foldl emit self) := by
  refine everywhere_congr (list_foldl_keeps moment (fun _ _ => ?_) deltas self) hself
  rfl


/-! ## Ticks -/

/-- Ageing moves the clock by the length of the tick, and stops it at the last number that it can show. -/
theorem nowMs_agedCells (visits : Visits F) (dtMs : UInt64) :
    (self.agedCells visits dtMs).field.nowMs = saturatingAdd self.nowMs dtMs :=
  congrArg Notes.nowMs
    (list_foldl_keeps (fun acc : Batch F => acc.field.notes) (notes_ageCell dtMs _) _ ⟨self.startTick dtMs, []⟩)

/-- Ageing keeps the cells there are. -/
theorem mem_of_agedCells {visits : Visits F} {dtMs : UInt64} {id : NodeId} {cell : NodeCell F}
    (hcell : (self.agedCells visits dtMs).field.cells[id]? = some cell) :
    ∃ before : NodeCell F, self.cells[id]? = some before ∧ cell = self.agedBy dtMs before := by
  by_cases hid : id ∈ visits.cells.arrange self.cells.keys
  · rw [getElem?_agedCells visits dtMs hid] at hcell
    obtain ⟨before, hbefore, haged⟩ := Option.map_eq_some_iff.mp hcell
    exact ⟨before, hbefore, haged.symm⟩
  · have hkept := look_foldl_of_forall_ne (fun id => id) (fun acc : Batch F => (acc.field.cells[·]?))
      (getElem?_ageCell_of_ne dtMs (self.startTick dtMs).noradrenalineActive)
      (fun other hother (heq : id = other) => hid (heq ▸ hother)) ⟨self.startTick dtMs, []⟩
    have hkept : (self.agedCells visits dtMs).field.cells[id]? = self.cells[id]? := hkept
    rw [hkept] at hcell
    exact absurd (mem_arrange_keys.mpr ⟨cell, hcell⟩) hid

/-- A property that lasts while cells age holds of every cell when all have aged, at the new time. -/
theorem everywhere_agedCells (hP : Ages P) (hself : Everywhere P self) (visits : Visits F) (dtMs : UInt64) :
    Everywhere P (self.agedCells visits dtMs).field := by
  intro id cell hcell
  obtain ⟨before, hbefore, rfl⟩ := mem_of_agedCells hcell
  rw [nowMs_agedCells]
  exact hP.aged dtMs _ _ _ (hself id before hbefore)

/-- The property holds of every cell, and of those that wait to be attached. -/
structure Dividing.Carries (P : UInt64 → NodeCell F → Prop) (acc : Dividing F) : Prop where
  field : Everywhere P acc.field
  newCells : ∀ new ∈ acc.newCells, P acc.field.nowMs new.2

/-- A property that ages is handed down to the child of a dividing cell, and the parent keeps it. -/
theorem carries_divideCell (hP : Ages P) {acc : Dividing F} (h : acc.Carries P) (variation : NodeId → F)
    (id : NodeId) : (divideCell variation acc id).Carries P := by
  unfold divideCell
  split
  · rename_i cell hcell
    split
    · rename_i parent child hdivided
      obtain ⟨hparent, hchild⟩ := hP.divided (variation id) (h.field id cell hcell) hdivided
      refine ⟨everywhere_congr rfl (everywhere_setCell h.field id hparent), fun new hnew => ?_⟩
      rcases List.mem_append.mp hnew with hold | hnew
      · exact h.newCells new hold
      · cases List.mem_singleton.mp hnew
        exact hchild _ _
    · exact h
  · exact h

/-- A child that has the property is attached, and its link to it is written into the parent. -/
theorem everywhere_attachChild (hP : Ages P) {acc : Batch F} {new : NodeId × NodeCell F}
    (hacc : Everywhere P acc.field) (hnew : P acc.field.nowMs new.2) :
    Everywhere P (attachChild platform acc new).field := by
  have hlinked : Everywhere P (linkChild acc new.1 new.2.id).field := by
    rw [linkChild_addLink]
    exact everywhere_addLink hP hacc new.1 new.2.id
  have hnow : (linkChild acc new.1 new.2.id).field.nowMs = acc.field.nowMs := by
    rw [linkChild_addLink]
    exact congrArg Notes.nowMs (notes_addLink new.1 new.2.id)
  exact everywhere_attachCell hlinked (hnow.symm ▸ hnew)

/-- After the growth of a tick every cell has the property, those that were born in it among them. -/
theorem everywhere_growCells (hP : Ages P) (hself : Everywhere P self) (visits : Visits F) (variation : NodeId → F)
    (dtMs : UInt64) : Everywhere P ((self.startTick dtMs).growCells platform visits variation dtMs).field := by
  rw [growCells_startTick]
  have hcarries : (self.dividedCells visits variation dtMs).Carries P := by
    have haged : Everywhere P (self.agedCells visits dtMs).field.expireHormone :=
      everywhere_congr rfl (everywhere_agedCells hP hself visits dtMs)
    exact List.foldlRecOn _ _ ⟨haged, fun new hnew => by cases hnew⟩
      fun acc hacc id _ => carries_divideCell hP hacc variation id
  generalize self.dividedCells visits variation dtMs = divided at hcarries ⊢
  -- The clock stands while the new cells are attached.
  have hattached := List.foldlRecOn
    (motive := fun acc : Batch F => Everywhere P acc.field ∧ acc.field.nowMs = divided.field.nowMs)
    (b := ⟨divided.field, divided.pending⟩) divided.newCells (attachChild platform) ⟨hcarries.field, rfl⟩
    fun acc hacc new hnew => by
      obtain ⟨hall, hnow⟩ := hacc
      have hstill := congrArg Notes.nowMs (@notes_attachChild F _ platform acc new)
      exact ⟨everywhere_attachChild hP hall (hnow.symm ▸ hcarries.newCells new hnew), hstill.trans hnow⟩
  exact hattached.1

/-- The property, but of the dead. -/
def Living (P : UInt64 → NodeCell F → Prop) (now : UInt64) (cell : NodeCell F) : Prop :=
  cell.state ≠ .dead → P now cell

/-- The last loop of a tick keeps the property in the cells that live; those that it lets die may lose it. -/
theorem everywhere_restCell (hP : Ages P) (hormone : Option (NoradrenalineEffect F)) {acc : Resting F}
    (hacc : Everywhere (Living P) acc.field) (id : NodeId) :
    Everywhere (Living P) (restCell hormone acc id).field := by
  cases hcell : acc.field.cells[id]? with
  | none =>
      have hsame : restCell hormone acc id = acc := by
        unfold restCell
        rw [hcell]
      rw [hsame]
      exact hacc
  | some cell =>
      rw [(restCell_of_some hormone hcell).1]
      refine everywhere_setCell hacc id fun hlives => ?_
      refine hP.rested _ (hacc id cell hcell fun hdead => hlives ?_) hlives
      -- A dead cell rests as it is.
      have hsame : cell.maybeSleepOrDie acc.field.nowMs (acc.field.sleepShift hormone cell) = (cell, false) :=
        if_pos hdead
      rw [hsame]
      exact hdead

/-- Burying the dead leaves the living cells and the clock. -/
theorem moment_bury (purge : List NodeId) : (self.bury platform purge).moment = self.living.moment := by
  unfold bury
  refine (list_foldl_keeps moment (fun _ _ => ?_) purge _).trans ?_
  · rfl
  · split
    · exact moment_rebuildIndex
    · rfl

omit [FloatLike F] in
/-- What was known of the living cells holds of all cells when only the living are left. -/
theorem everywhere_living (hself : Everywhere (Living P) self) : Everywhere P self.living := by
  intro id cell hcell
  have hfound : (self.cells[id]?).filter (fun cell => cell.state ≠ .dead) = some cell :=
    (cells_living self id).symm.trans hcell
  obtain ⟨hthere, hlives⟩ := Option.filter_eq_some_iff.mp hfound
  exact hself id cell hthere (of_decide_eq_true hlives)

/-- What a tick leaves of the cells that have rested. -/
theorem moment_tickAll (visits : Visits F) (variation : NodeId → F) (dtMs : UInt64) :
    (self.tickAll platform visits variation dtMs).moment =
      ((self.startTick dtMs).tickCells platform visits variation dtMs).field.living.moment := by
  have hclosed := list_foldl_keeps moment (fun (s : ClusterField F) (d : EventDelta F) =>
    (rfl : (s.emit d).moment = s.moment))
  exact (hclosed _ _).trans (moment_bury _)

/-- A whole tick keeps a property that ages: it starts, ages and grows the cells, puts some to rest and buries
the dead. -/
theorem everywhere_tickAll (hP : Ages P) (hself : Everywhere P self) (visits : Visits F) (variation : NodeId → F)
    (dtMs : UInt64) : Everywhere P (self.tickAll platform visits variation dtMs) := by
  refine everywhere_congr (moment_tickAll visits variation dtMs) (everywhere_living ?_)
  unfold tickCells
  refine List.foldlRecOn (motive := fun acc : Resting F => Everywhere (Living P) acc.field) _ _ ?_
    fun acc hacc id _ => everywhere_restCell hP _ hacc id
  exact fun id cell hcell _ => everywhere_growCells hP hself visits variation dtMs id cell hcell

/-! ## The last tick -/

/-- A cell without enough energy does not divide, and nothing changes when it is asked to. -/
theorem divideCell_of_weak {acc : Dividing F} {id : NodeId}
    (h : ∀ cell : NodeCell F, acc.field.cells[id]? = some cell → cell.energy ≤ 0.8) (variation : NodeId → F) :
    divideCell variation acc id = acc := by
  unfold divideCell
  split
  · rename_i cell hcell
    have hnone : cell.maybeDivide (variation id) = (cell, none) := by
      unfold NodeCell.maybeDivide
      rw [if_pos]
      rw [decide_eq_true (h cell hcell), Bool.or_true]
    rw [hnone]
  · rfl

/-- Where the property says of every cell that it dies, a tick leaves none. -/
theorem tickAll_deserts (hP : Ages P) (hself : Everywhere P self) (visits : Visits F) (variation : NodeId → F)
    (dtMs : UInt64) (hlast : ∀ cell, P (saturatingAdd self.nowMs dtMs) cell →
      cell.energy ≤ 0.8 ∧ expires (saturatingAdd self.nowMs dtMs) cell = true) (id : NodeId) :
    (self.tickAll platform visits variation dtMs).cells[id]? = none := by
  have haged := everywhere_agedCells hP hself visits dtMs
  have hnow := @nowMs_agedCells F _ self visits dtMs
  -- No cell is strong enough to divide.
  have hdivided : self.dividedCells visits variation dtMs =
      ⟨(self.agedCells visits dtMs).field.expireHormone, (self.agedCells visits dtMs).pending, []⟩ := by
    refine List.foldlRecOn (motive := (· = _)) _ (divideCell variation) rfl ?_
    rintro acc rfl id -
    refine divideCell_of_weak (fun cell hcell => ?_) variation
    exact (hlast cell (hnow ▸ haged id cell hcell)).1
  have hgrown : ((self.startTick dtMs).growCells platform visits variation dtMs).field =
      (self.agedCells visits dtMs).field.expireHormone := by
    rw [growCells_startTick, hdivided]
    rfl
  have hmoment := congrArg Prod.fst (@moment_tickAll F _ platform self visits variation dtMs)
  have hmoment : (self.tickAll platform visits variation dtMs).cells =
      ((self.startTick dtMs).tickCells platform visits variation dtMs).field.living.cells := hmoment
  rw [hmoment]
  refine (cells_living _ id).trans ?_
  rw [Option.filter_eq_none_iff]
  intro cell hcell
  unfold tickCells at hcell
  set grown := (self.startTick dtMs).growCells platform visits variation dtMs
  have hkept := (keeps_restCells (self.startTick dtMs).noradrenalineActive
    (visits.cells.arrange (self.startTick dtMs).cells.keys)
    (⟨rfl, fun _ => rfl⟩ : Resting.Keeps ⟨grown.field, grown.pending, []⟩ ⟨grown.field, grown.pending, []⟩)).label id
  have hmarks : Resting.Marks ((visits.cells.arrange (self.startTick dtMs).cells.keys).foldl
      (restCell (self.startTick dtMs).noradrenalineActive) ⟨grown.field, grown.pending, []⟩) := by
    refine List.foldlRecOn _ _ (fun id cell hcell => ?_) fun acc hacc id _ => marks_restCell _ hacc id
    refine iff_of_false (hP.alive (haged id cell ?_)) List.not_mem_nil
    rw [hgrown] at hcell
    exact hcell
  have hpurged := mem_purge_restCells (self.startTick dtMs).noradrenalineActive
    (nodup_arrange_keys visits (self.startTick dtMs)) ⟨grown.field, grown.pending, []⟩ id
  -- The cell was there before, and dies.
  rw [hcell, Option.map_some] at hkept
  obtain ⟨before, hbefore, -⟩ := Option.map_eq_some_iff.mp hkept.symm
  have hbefore : (self.agedCells visits dtMs).field.cells[id]? = some before := by
    rw [← hbefore, hgrown]
    rfl
  obtain ⟨first, hfirst, -⟩ := mem_of_agedCells hbefore
  have hexpires := (hlast before (hnow ▸ haged id before hbefore)).2
  have hdead : cell.state = .dead := by
    refine (hmarks id cell hcell).mpr (hpurged.mpr (Or.inr ⟨mem_arrange_keys.mpr ⟨first, hfirst⟩, ?_⟩))
    have hfound : grown.field.cells[id]? = some before := by
      rw [hgrown]
      exact hbefore
    have hclock : grown.field.nowMs = saturatingAdd self.nowMs dtMs := by
      rw [hgrown]
      exact hnow
    show (grown.field.cells[id]?).any (expires grown.field.nowMs) = true
    rw [hfound, hclock]
    exact hexpires
  simp [hdead]

/-! ## Trimming, dreams and mirror epochs -/

/-- What `trim_low_energy` leaves are the cells it retains, at the time that the field already showed. -/
theorem moment_trimLowEnergy (visits : Visits F) (dozes dies : NodeId → Bool) :
    (self.trimLowEnergy platform visits dozes dies).moment = (self.retained dozes dies).moment := by
  unfold trimLowEnergy
  refine (list_foldl_keeps moment (fun _ _ => ?_) _ _).trans ?_
  · rfl
  · split
    · exact moment_rebuildIndex
    · rfl

/-- A property that endures holds of all the cells that trimming retains, those that it has put to sleep
included. -/
theorem everywhere_trimLowEnergy (hP : Endures P) (hself : Everywhere P self) (visits : Visits F)
    (dozes dies : NodeId → Bool) : Everywhere P (self.trimLowEnergy platform visits dozes dies) := by
  refine everywhere_congr (moment_trimLowEnergy visits dozes dies) fun id cell hcell => ?_
  have hfound := (cells_retained dozes dies id).symm.trans hcell
  obtain ⟨hdozed, hretained⟩ := Option.filter_eq_some_iff.mp hfound
  obtain ⟨before, hbefore, rfl⟩ := Option.map_eq_some_iff.mp hdozed
  exact hP.dozed _ _ (hself id before hbefore) (state_of_isRetained hretained)

/-- The score of a link is no part of a cell, so that moving it keeps every property of cells. -/
theorem everywhere_adjustLinkScore (hself : Everywhere P self) (source target : NodeId) (delta : F) :
    Everywhere P (self.adjustLinkScore source target delta).1 := by
  unfold adjustLinkScore
  split
  · exact hself
  · exact hself

/-- A lonely cell gets a link to the nearest one, which a property that ages does not mind. -/
theorem everywhere_rewireLonely (hP : Ages P) (hself : Everywhere P self) (visits : Visits F) (id : NodeId) :
    Everywhere P (self.rewireLonely visits id).1 := by
  unfold rewireLonely
  split
  · rename_i cell hcell
    split
    · split
      · exact everywhere_congr rfl (everywhere_setCell hself id (hP.linked _ (hself id cell hcell)))
      · exact hself
    · exact hself
  · exact hself

/-- Strengthening a pair moves a score and counts in the report, and no cell changes by it. -/
theorem everywhere_strengthen (cfg : DreamConfig F) {acc : Dreaming F} (hacc : Everywhere P acc.field)
    (pair : PairStat F) : Everywhere P (strengthen cfg acc pair).field := by
  unfold strengthen
  split
  · exact hacc
  · split
    · exact hacc
    · split
      · exact hacc
      · dsimp only
        split
        · rename_i source target _
          have hadjusted := everywhere_adjustLinkScore hacc source target 0.15
          split
          · exact everywhere_congr rfl hadjusted
          · exact hadjusted
        · exact hacc

/-- Both ends of a pruned link may be rewired, one after the other, and the cells keep the property. -/
theorem everywhere_rewire (hP : Ages P) (visits : Visits F) {acc : Dreaming F} (hacc : Everywhere P acc.field)
    (source target : NodeId) : Everywhere P (rewire visits acc source target).field := by
  unfold rewire
  split
  · exact hacc
  · exact everywhere_rewireLonely hP (everywhere_rewireLonely hP hacc visits source) visits target

/-- A weak link is taken from its source before the ends are rewired; a property that ages looks at neither.
-/
theorem everywhere_prune (hP : Ages P) (visits : Visits F) {acc : Dreaming F} (hacc : Everywhere P acc.field)
    (source target : NodeId) : Everywhere P (prune visits acc source target).field := by
  unfold prune
  split
  · have hpruned : Everywhere P (acc.field.pruneLink source target).1 := by
      unfold pruneLink
      split
      · exact everywhere_congr rfl
          (everywhere_alterCell hacc source fun cell hcell => hP.linked _ hcell)
      · exact hacc
    dsimp only
    split
    · exact everywhere_rewire hP visits (everywhere_congr rfl hpruned) source target
    · exact hacc
  · exact hacc

/-- Weakening a pair moves a score and may prune the link of the pair, which the cells survive with the
property. -/
theorem everywhere_weaken (hP : Ages P) (visits : Visits F) (cfg : DreamConfig F) {acc : Dreaming F}
    (hacc : Everywhere P acc.field) (pair : PairStat F) : Everywhere P (weaken visits cfg acc pair).field := by
  unfold weaken
  split
  · exact hacc
  · split
    · exact hacc
    · split
      · exact hacc
      · dsimp only
        split
        · rename_i source target _
          have hadjusted := everywhere_adjustLinkScore hacc source target (-0.2)
          split
          · exact everywhere_prune hP visits (everywhere_congr rfl hadjusted) source target
          · exact hadjusted
        · exact hacc

/-- By induction over the strong and then over the weak pairs, a dream keeps the property of all cells. -/
theorem everywhere_runDream (hP : Ages P) (hself : Everywhere P self) (visits : Visits F) (tookMs : UInt32)
    (cfg : DreamConfig F) (nowMs : UInt64) : Everywhere P (self.runDream visits tookMs cfg nowMs) := by
  unfold runDream
  dsimp only
  split
  · exact hself
  · refine everywhere_congr rfl ?_
    refine List.foldlRecOn (motive := fun acc : Dreaming F => Everywhere P acc.field) _ _ ?_
      fun acc hacc pair _ => everywhere_weaken hP visits cfg hacc pair
    exact List.foldlRecOn (motive := fun acc : Dreaming F => Everywhere P acc.field) _ _ hself
      fun acc hacc pair _ => everywhere_strengthen cfg hacc pair

/-- A dream cycle is one dream or none, so that it keeps what a dream keeps. -/
theorem everywhere_runDreamCycle (hP : Ages P) (hself : Everywhere P self) (visits : Visits F) (tookMs : UInt32) :
    Everywhere P (self.runDreamCycle visits tookMs) := by
  unfold runDreamCycle
  split
  · exact hself
  · exact everywhere_congr rfl (everywhere_runDream hP hself visits tookMs self.dreamCfg self.nowMs)

/-- A node of a group comes nearer to the centre of it, within bounds that the property endures. -/
theorem everywhere_shareNode (hP : Endures P) (weight centroid : F) (tokens : List String) {acc : Sharing F}
    (hacc : Everywhere P acc.field) (node : NodeId) :
    Everywhere P (shareNode weight centroid tokens acc node).field := by
  unfold shareNode
  split
  · rename_i cell hcell
    have hset := everywhere_setCell hacc node (hP.aligned weight centroid (hacc node cell hcell))
    exact List.foldlRecOn (motive := fun acc : Sharing F => Everywhere P acc.field) tokens _ hset
      fun acc hacc token _ => hacc
  · exact hacc

/-- A link of a group grows by its score only, and the cells stay as they are. -/
theorem everywhere_alignLink (weight : F) {acc : Sharing F} (hacc : Everywhere P acc.field)
    (source target : NodeId) : Everywhere P (alignLink weight acc source target).field := by
  have hadjusted := everywhere_adjustLinkScore hacc source target weight
  unfold alignLink
  dsimp only
  split
  · exact everywhere_congr rfl hadjusted
  · exact hadjusted

/-- Sharing within one group aligns its nodes, which the property endures, and then its links. -/
theorem everywhere_shareTokens (hP : Endures P) (hself : Everywhere P self) (nodes : List NodeId)
    (tokens : List String) (weightXfer : F) :
    Everywhere P (self.shareTokens platform nodes tokens weightXfer).field := by
  unfold shareTokens
  split
  · exact hself
  · refine everywhere_congr (list_foldl_keeps moment (fun _ _ => ?_) _ _) ?_
    · rfl
    · refine List.foldlRecOn (motive := fun acc : Sharing F => Everywhere P acc.field) _ _ ?_
        fun acc hacc pair _ => everywhere_alignLink _ (everywhere_alignLink _ hacc pair.1 pair.2) pair.2 pair.1
      exact List.foldlRecOn (motive := fun acc : Sharing F => Everywhere P acc.field) nodes _ hself
        fun acc hacc node _ => everywhere_shareNode hP _ _ _ hacc node

/-- A collective dream shares within one group after the other, and every cell endures it. -/
theorem everywhere_runCollectiveDream (hP : Endures P) (hself : Everywhere P self) (tookMs : UInt32)
    (groups : List SyncGroup) (cfg : SyncConfig F) (nowMs : UInt64) :
    Everywhere P (self.runCollectiveDream platform tookMs groups cfg nowMs) := by
  unfold runCollectiveDream
  split
  · exact hself
  · refine everywhere_congr rfl ?_
    exact List.foldlRecOn (motive := fun acc : ClusterField F × SyncReport => Everywhere P acc.1) groups _ hself
      fun acc hacc group _ => everywhere_shareTokens hP hacc group.nodes group.tokens cfg.weightXfer

/-- A mirrored epoch scales the affinity, and one of an awakening the metabolism, of the cells that it picks;
the property endures both. -/
theorem everywhere_applyMirrorEpoch (hP : Endures P) (hself : Everywhere P self) (visits : Visits F)
    (epoch : Epoch F) (scale : F) (maxOps : UInt32) (protectSalience : F) :
    Everywhere P (self.applyMirrorEpoch visits epoch scale maxOps protectSalience) :=
  List.foldlRecOn (motive := Everywhere P) _ _ hself fun _ hacc id _ =>
    everywhere_alterCell hacc id fun _ hcell => hP.mirrored epoch.kind scale hcell

/-! ## Impulses -/

/-- A cell that is woken gets a little energy and is active again, which a lasting property allows for. -/
theorem everywhere_wake (hP : Lasts platform draw P) (hself : Everywhere P self) (id : NodeId) :
    Everywhere P (self.wake id) := by
  unfold wake
  split
  · rename_i cell hcell
    split
    · exact everywhere_congr rfl (everywhere_setCell hself id (hP.woken (hself id cell hcell)))
    · exact hself
  · exact hself

/-- A reflex may spawn a seed, wake cells or boost links: each of these is one of the cases of a lasting
property. -/
theorem everywhere_fireReflex (hP : Lasts platform draw P) (hself : Everywhere P self) (visits : Visits F)
    (rule : ReflexRule F) (matched : UInt16) (token : String) :
    Everywhere P (self.fireReflex platform visits rule matched token) := by
  have hfired : Everywhere P (self.emit (.reflexFire rule.id self.nowMs matched)) := hself
  unfold fireReflex
  cases rule.action with
  | emitHint hint => exact hfired
  | spawnSeed seed affinityShift => exact everywhere_spawn hfired (hP.seeded _ _ seed _)
  | wakeSleeping count =>
      exact List.foldlRecOn (motive := Everywhere P) _ wake hfired fun _ hacc id _ => everywhere_wake hP hacc id
  | boostLinks factor top =>
      dsimp only [performBoostLinks]
      split
      · exact hfired
      · refine everywhere_congr (list_foldl_keeps moment (fun _ _ => ?_) _ _) hfired
        rfl

/-- By induction over the reflexes that are due, all of them fire and the cells keep the property. -/
theorem everywhere_fireAll (hP : Lasts platform draw P) (hself : Everywhere P self) (visits : Visits F)
    (token : String) (due : List (ReflexRule F × UInt16)) :
    Everywhere P (self.fireAll platform visits token due) :=
  List.foldlRecOn (motive := Everywhere P) due _ hself fun _ hacc due _ =>
    everywhere_fireReflex hP hacc visits due.1 due.2 token

/-- By induction over the tokens of an impulse, its reflexes keep the property, those that they set off
included. -/
theorem everywhere_processReflexes (hP : Lasts platform draw P) (visits : Visits F) (imp : Impulse F)
    (tokens : List String) (fired : List ReflexId) (self : ClusterField F) (hself : Everywhere P self) :
    Everywhere P (processReflexes platform visits imp self tokens fired) := by
  induction tokens generalizing self fired with
  | nil => exact hself
  | cons token tokens ih =>
      refine ih _ _ (everywhere_fireAll hP ?_ visits _ _)
      exact everywhere_congr rfl hself

/-- An impulse first takes hold as a hormone, if it is one, and then sets off the reflexes of its tokens; the
cells keep the property through both. -/
theorem everywhere_react (hP : Lasts platform draw P) (hself : Everywhere P self) (visits : Visits F)
    (imp : Impulse F) : Everywhere P (self.react platform visits imp) := by
  refine everywhere_processReflexes hP visits imp _ _ _ ?_
  unfold feelHormone
  split
  · exact hself
  · exact hself

/-- A cell that takes in an impulse is changed by `ingest`, and may be stamped with the time, as a lasting
property allows. -/
theorem everywhere_ingestAt (hP : Lasts platform draw P) (imp : Impulse F) {acc : Responses F}
    (hacc : Everywhere P acc.field) (id : NodeId) : Everywhere P (ingestAt platform imp acc id).field := by
  unfold ingestAt
  split
  · rename_i cell hcell
    obtain ⟨hignores, hresponds⟩ := hP.ingested imp (hacc id cell hcell)
    dsimp only
    split
    · exact everywhere_setCell hacc id hresponds
    · exact everywhere_setCell hacc id hignores
  · exact hacc

omit [FloatLike F] in
/-- What an impulse leaves in the tables of routes shows neither in the cells nor in the clock. -/
theorem moment_recordRouteSequence (visits : Visits F) (nodes : List NodeId) :
    (self.recordRouteSequence visits nodes).moment = self.moment := by
  fun_induction recordRouteSequence visits self nodes with
  | case1 self source target rest self' ih =>
      refine ih.trans ?_
      show self'.moment = self.moment
      unfold self'
      split <;> rfl
  | case2 => rfl

/-- A whole impulse keeps a lasting property: its reflexes fire, the best cells take it in, and its route is
recorded. -/
theorem everywhere_routeImpulse (hP : Lasts platform draw P) (hself : Everywhere P self) (visits : Visits F)
    (imp : Impulse F) : Everywhere P (self.routeImpulse platform visits imp) := by
  have hingested := List.foldlRecOn (motive := fun acc : Responses F => Everywhere P acc.field)
    ((self.react platform visits imp).targets visits (tokenize platform imp.pattern) imp) (ingestAt platform imp)
    (b := ⟨self.react platform visits imp, [], []⟩) (everywhere_react hP hself visits imp)
    fun _ hacc id _ => everywhere_ingestAt hP imp hacc id
  unfold routeImpulse
  refine everywhere_foldl_emit _ (everywhere_congr ?_ hingested)
  -- What is recorded of the responses does not touch the cells.
  refine (list_foldl_keeps moment (fun s token => ?_) _ _).trans
    ((list_foldl_keeps moment (fun _ _ => ?_) _ _).trans (moment_recordRouteSequence visits _))
  · refine list_foldl_keeps moment (fun _ _ => ?_) _ s
    rfl
  · rfl

/-! ## Buds and awakenings -/

/-- A bud whose energy is one of those that may be drawn has the property, and is linked without losing it. -/
theorem everywhere_injectSeedVariation (hP : Lasts platform draw P) (hself : Everywhere P self) (visits : Visits F)
    (shift : F) {energy : F} (hdraw : draw energy) (coin : NodeId → Bool) (baseSeed : String) :
    Everywhere P (self.injectSeedVariation platform visits shift energy coin baseSeed) := by
  have hlinked (bud : NodeId) (acc : ClusterField F × List NodeId) (hacc : Everywhere P acc.1) (id : NodeId) :
      Everywhere P (linkBud coin bud acc id).1 := by
    unfold linkBud
    split
    · rename_i cell hcell
      split
      · exact everywhere_setCell hacc id (hP.linked _ (hacc id cell hcell))
      · exact hacc
    · exact hacc
  unfold injectSeedVariation
  split
  · exact hself
  · refine everywhere_congr ((list_foldl_keeps moment (fun _ _ => ?_) _ _).trans
      (list_foldl_keeps moment (fun _ _ => ?_) _ _)) ?_
    · rfl
    · rfl
    · refine List.foldlRecOn (motive := fun acc : ClusterField F × List NodeId => Everywhere P acc.1) _ _ ?_
        fun acc hacc id _ => hlinked _ acc hacc id
      exact everywhere_spawn hself (hP.budded _ _ _ _ _ energy hdraw)

/-- An awakening gives a cell under tension energy and salience, as a lasting property allows, or leaves it
alone. -/
theorem everywhere_awakenCell (hP : Lasts platform draw P) (hself : Everywhere P self) (cfg : AwakeningConfig F)
    (tension : Tension F) : Everywhere P (awakenCell cfg self tension) := by
  unfold awakenCell
  split
  · rename_i cell hcell
    split
    · exact hself
    · dsimp only
      split
      · have hset := everywhere_setCell hself tension.node
          (hP.awakened cfg tension.magnitude (cfg.salienceBoost * (1.0 + tension.magnitude))
            (hself tension.node cell hcell))
        refine everywhere_congr ?_ hset
        unfold emitEnergyState
        split <;> rfl
      · exact hself
  · exact hself

/-- By induction over the tensions of the model, an awakening keeps the property of all cells. -/
theorem everywhere_awaken (hP : Lasts platform draw P) (hself : Everywhere P self) (model : ResonantModel F)
    (cfg : AwakeningConfig F) (trs : TrsState F) : Everywhere P (self.awaken model cfg trs).1 := by
  unfold awaken
  split
  · exact hself
  · exact List.foldlRecOn (motive := Everywhere P) _ _ hself fun _ hacc tension _ =>
      everywhere_awakenCell hP hacc cfg tension

/-- `awaken_now` is one awakening with the model that it builds, and keeps what an awakening keeps. -/
theorem everywhere_awakenNow (hP : Lasts platform draw P) (hself : Everywhere P self) (visits : Visits F) :
    Everywhere P (self.awakenNow visits) := by
  have hrebuilt : Everywhere P (self.rebuildResonantModel visits).1 := by
    unfold rebuildResonantModel
    dsimp only
    split
    · exact hself
    · exact hself
  exact everywhere_awaken hP hrebuilt _ _ _

/-! ## Calls -/

/-- A quiet call keeps what endures. -/
theorem everywhere_call_of_quiet (hP : Endures P) (hself : Everywhere P self) {c : FieldCall F}
    (hquiet : c.isQuiet = true) : Everywhere P (self.call platform c) := by
  cases c with
  | addRoot | routeImpulse | injectSeedVariation | awakenNow => cases hquiet
  | tickAll visits variation dtMs => exact everywhere_tickAll hP.toAges hself visits variation dtMs
  | trimLowEnergy visits dozes dies => exact everywhere_trimLowEnergy hP hself visits dozes dies
  | runDreamCycle visits tookMs => exact everywhere_runDreamCycle hP.toAges hself visits tookMs
  | runCollectiveDream groups cfg nowMs tookMs =>
      exact everywhere_runCollectiveDream hP hself tookMs groups cfg nowMs
  | applyMirrorEpoch visits epoch scale maxOps protectSalience =>
      exact everywhere_applyMirrorEpoch hP hself visits epoch scale maxOps protectSalience
  | removeReflex id =>
      show Everywhere P (self.removeReflex id)
      unfold removeReflex
      split
      · exact hself
      · exact hself
  | _ => exact hself

/-- Every call keeps what lasts. -/
theorem everywhere_call (hP : Lasts platform draw P) (hself : Everywhere P self) {c : FieldCall F}
    (hdrawn : c.Drawn draw) : Everywhere P (self.call platform c) := by
  by_cases hquiet : c.isQuiet = true
  · exact everywhere_call_of_quiet hP.toEndures hself hquiet
  · cases c with
    | addRoot seed => exact everywhere_spawn hself (hP.root _ _ seed)
    | routeImpulse visits imp => exact everywhere_routeImpulse hP hself visits imp
    | injectSeedVariation visits shift energy coin baseSeed =>
        exact everywhere_injectSeedVariation hP hself visits shift hdrawn coin baseSeed
    | awakenNow visits => exact everywhere_awakenNow hP hself visits
    | _ => exact absurd rfl hquiet

/-- In a run whose draws are allowed, by induction over its calls, every cell has the lasting property at the
end. -/
theorem everywhere_run (hP : Lasts platform draw P) (calls : List (FieldCall F))
    (hdrawn : ∀ c ∈ calls, c.Drawn draw) : Everywhere P (run platform calls) := by
  refine List.foldlRecOn (motive := Everywhere P) calls (call platform) (fun id cell hcell => ?_)
    fun _ hacc c hc => everywhere_call hP hacc (hdrawn c hc)
  rw [new, Std.ExtTreeMap.getElem?_empty] at hcell
  cases hcell

end ClusterField

end LiminalDB
