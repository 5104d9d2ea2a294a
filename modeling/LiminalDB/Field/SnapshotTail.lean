import LiminalDB.Field.Snapshot
import LiminalDB.Field.Topology

/-! # A snapshot and the deltas after it

What a delta does to the persisted part of a field depends on that part alone (`persisted_applyDelta`), so
a restored field follows the original one through every tail as soon as it agrees with it at the split.
It does so exactly where nothing that a snapshot leaves out has moved. -/

namespace LiminalDB

variable {F Bytes : Type}

/-- What snapshot and tail are to reproduce of a field. -/
structure Persisted (F : Type) where
  cells : Std.ExtTreeMap NodeId (NodeCell F) compare
  rules : Std.ExtTreeMap ReflexId (ReflexRule F) compare
  nowMs : UInt64
  nextId : NodeId
  nextReflexId : ReflexId
  trs : TrsState F
  harmony : HarmonyTuning F
  dreamCfg : DreamConfig F
  syncCfg : SyncConfig F
  awakeningCfg : AwakeningConfig F
  linkScores : NodeId × NodeId → Option F
  routeBias : String × NodeId → Option F
  lastBuild : Option ModelFrame
  lastApplied : Option String

namespace ClusterField

/-- The persisted part of a field. -/
def persisted (self : ClusterField F) : Persisted F :=
  { cells := self.cells
    rules := self.rules
    nowMs := self.nowMs
    nextId := self.nextId
    nextReflexId := self.nextReflexId
    trs := self.trs
    harmony := self.harmony
    dreamCfg := self.dreamCfg
    syncCfg := self.syncCfg
    awakeningCfg := self.awakeningCfg
    linkScores := self.linkScores
    routeBias := self.routeBias
    lastBuild := self.resonantModel.lastBuild
    lastApplied := self.resonantModel.lastApplied }

/-! ## Deltas read no more than what is persisted -/

variable {platform : Platform F} {self self' : ClusterField F}

/-- Fields with the same persisted part have the same cells. -/
theorem cells_of_persisted (h : self.persisted = self'.persisted) : self.cells = self'.cells :=
  congrArg Persisted.cells h

/-- Writing a cell acts on the persisted part alone. -/
theorem persisted_setCell (h : self.persisted = self'.persisted) (id : NodeId) (cell : NodeCell F) :
    (self.setCell id cell).persisted = (self'.setCell id cell).persisted :=
  congrArg (fun p : Persisted F => { p with cells := p.cells.insert id cell }) h

/-- So does changing one in place. -/
theorem persisted_alterCell (h : self.persisted = self'.persisted) (id : NodeId)
    (change : NodeCell F → NodeCell F) :
    (self.alterCell id change).persisted = (self'.alterCell id change).persisted := by
  unfold alterCell
  rw [cells_of_persisted h]
  cases self'.cells[id]? with
  | none => exact h
  | some cell => exact persisted_setCell h id (change cell)

/-- So does unregistering a link, of which the score is persisted. -/
theorem persisted_unregisterLink (h : self.persisted = self'.persisted) (source target : NodeId) :
    (self.unregisterLink source target).persisted = (self'.unregisterLink source target).persisted :=
  congrArg (fun p : Persisted F => { p with
    linkScores := fun e => if e = (source, target) then none else p.linkScores e }) h

/-- So does purging what is kept about an id, again because of the scores. -/
theorem persisted_purgeTrackingFor (h : self.persisted = self'.persisted) (id : NodeId) :
    (self.purgeTrackingFor id).persisted = (self'.purgeTrackingFor id).persisted :=
  congrArg (fun p : Persisted F => { p with
    linkScores := fun e => if touches id e then none else p.linkScores e }) h

/-- The token index is not persisted. -/
theorem persisted_updateIndexFor (id : NodeId) :
    (self.updateIndexFor platform id).persisted = self.persisted := by
  unfold updateIndexFor
  cases self.cells[id]? <;> rfl

variable [FloatLike F]

/-- Registering a link gives it a score where the persisted part has none. -/
theorem persisted_registerLink (h : self.persisted = self'.persisted) (source target : NodeId) :
    (self.registerLink source target).persisted = (self'.registerLink source target).persisted :=
  congrArg (fun p : Persisted F => { p with
    linkScores := fun e => if e = (source, target) then (p.linkScores e).or (some 1.0)
      else p.linkScores e }) h

/-- Adding a link looks at the cells and acts on cells and scores, all of which are persisted. -/
theorem persisted_addLink (h : self.persisted = self'.persisted) (source target : NodeId) :
    (self.addLink source target).persisted = (self'.addLink source target).persisted := by
  unfold addLink
  rw [cells_of_persisted h]
  cases self'.cells[source]? with
  | none => exact h
  | some cell =>
      dsimp only
      split
      · exact h
      · exact persisted_registerLink (persisted_setCell h source (cell.link target)) source target

/-- Indexing a cell and registering its links acts on the scores as the persisted part says. -/
theorem persisted_indexing (h : self.persisted = self'.persisted) (id : NodeId) :
    ((self.updateIndexFor platform id).ensureLinkTracking id).persisted =
      ((self'.updateIndexFor platform id).ensureLinkTracking id).persisted := by
  have hupdate : (self.updateIndexFor platform id).persisted =
      (self'.updateIndexFor platform id).persisted := by
    rw [persisted_updateIndexFor, persisted_updateIndexFor, h]
  unfold ensureLinkTracking
  rw [cells_of_persisted hupdate]
  cases (self'.updateIndexFor platform id).cells[id]? with
  | none => exact hupdate
  | some cell =>
      exact list_foldl_part_congr persisted
        (fun _ _ target hs => persisted_registerLink hs id target) _ hupdate

/-- Attaching a cell acts on the persisted part alone. -/
theorem persisted_attachCell (h : self.persisted = self'.persisted) (cell : NodeCell F) :
    (self.attachCell platform cell).persisted = (self'.attachCell platform cell).persisted :=
  persisted_indexing (persisted_setCell h cell.id cell) cell.id

/-- So does rebuilding the index, by induction over the ids of the cells. -/
theorem persisted_rebuildIndex (h : self.persisted = self'.persisted) :
    (self.rebuildIndex platform).persisted = (self'.rebuildIndex platform).persisted := by
  have hkeys : self.cells.keys = self'.cells.keys := congrArg (·.keys) (cells_of_persisted h)
  unfold rebuildIndex
  rw [hkeys]
  exact list_foldl_part_congr persisted (fun _ _ id hs => persisted_indexing hs id) _ h

omit [FloatLike F] in
/-- Setting a score acts on the persisted part alone. -/
theorem persisted_scoreLink (h : self.persisted = self'.persisted) (source target : NodeId) (score : F) :
    { self with
      linkScores := fun e => if e = (source, target) then some score else self.linkScores e }.persisted =
      { self' with
        linkScores := fun e => if e = (source, target) then some score
          else self'.linkScores e }.persisted :=
  congrArg (fun p : Persisted F => { p with
    linkScores := fun e => if e = (source, target) then some score else p.linkScores e }) h

/-- What a delta does to the persisted part depends on that part alone: one case for each kind of delta. -/
theorem persisted_applyDelta (h : self.persisted = self'.persisted) (d : EventDelta F) :
    (self.applyDelta platform d).persisted = (self'.applyDelta platform d).persisted := by
  cases d with
  | tick nowMs => exact congrArg (fun p : Persisted F => { p with nowMs }) h
  | spawn snapshot =>
      exact congrArg (fun p : Persisted F => { p with nextId := max p.nextId (snapshot.id + 1) })
        (persisted_attachCell h snapshot.toNode)
  | divide parent child =>
      exact congrArg (fun p : Persisted F => { p with nextId := max p.nextId (child.id + 1) })
        (persisted_attachCell (persisted_addLink h parent child.id) child.toNode)
  | sleep id => exact persisted_alterCell h id _
  | dead id =>
      exact persisted_purgeTrackingFor (persisted_rebuildIndex
        (congrArg (fun p : Persisted F => { p with cells := p.cells.erase id }) h)) id
  | link source target => exact persisted_addLink h source target
  | unlink source target =>
      -- Whether there is a link is read off the cells, which are part of what persists.
      have hlinked : self.linked source target = self'.linked source target :=
        linked_congr (cells_of_persisted h) source target
      simp only [applyDelta, hlinked]
      split
      · exact persisted_unregisterLink (persisted_alterCell h source _) source target
      · exact h
  | affinity id affinity => exact persisted_alterCell h id _
  | energy id energy metabolism state lastResponseMs => exact persisted_alterCell h id _
  | reflexAdd rule =>
      exact congrArg (fun p : Persisted F => { p with
        nextReflexId := max p.nextReflexId (rule.id + 1)
        rules := p.rules.insert rule.id
          { rule with when := { rule.when with token := platform.toLowercase rule.when.token } } }) h
  | reflexRemove id => exact congrArg (fun p : Persisted F => { p with rules := p.rules.erase id }) h
  | trsSet cfg =>
      exact congrArg (fun p : Persisted F => { p with
        trs := p.trs.applyConfig cfg
        harmony := { p.harmony with alpha := (p.trs.applyConfig cfg).alpha } }) h
  | trsTarget targetLoad =>
      exact congrArg (fun p : Persisted F => { p with trs := p.trs.setTarget targetLoad }) h
  | trsTrace nowMs observedLoad error tickAdjustMs alpha =>
      exact congrArg (fun p : Persisted F => { p with
        trs := { p.trs with lastErr := error, lastTs := nowMs }
        harmony := { p.harmony with alpha } }) h
  | trsHarmony harmony => exact congrArg (fun p : Persisted F => { p with harmony }) h
  | dreamConfig cfg => exact congrArg (fun p : Persisted F => { p with dreamCfg := cfg }) h
  | syncConfig cfg => exact congrArg (fun p : Persisted F => { p with syncCfg := cfg }) h
  | dreamStrengthen source target score freq avgStrength => exact persisted_scoreLink h source target score
  | dreamWeaken source target score freq avgStrength => exact persisted_scoreLink h source target score
  | syncAlign source target score => exact persisted_scoreLink h source target score
  | dreamPrune source target =>
      exact persisted_unregisterLink (persisted_alterCell h source _) source target
  | dreamRewire source target => exact persisted_addLink h source target
  | syncShare node token bias =>
      exact congrArg (fun p : Persisted F => { p with
        routeBias := fun e => if e = (platform.toLowercase token, node) then some bias
          else p.routeBias e }) h
  | modelBuild hash cellCount nowMs =>
      exact congrArg (fun p : Persisted F => { p with lastBuild := some ⟨hash, cellCount, nowMs⟩ }) h
  | awakenApply hash config nowMs cellCount =>
      exact congrArg (fun p : Persisted F => { p with awakeningCfg := config, lastApplied := hash }) h
  | awakenTick hash nowMs =>
      -- Only the hash that was applied last decides, and that persists.
      have hlast : self.resonantModel.lastApplied = self'.resonantModel.lastApplied :=
        congrArg Persisted.lastApplied h
      simp only [applyDelta, hlast]
      split
      · exact congrArg (fun p : Persisted F => { p with lastApplied := hash }) h
      · exact h
  | _ => exact h

/-- By induction over the deltas, so does a whole tail. -/
theorem persisted_tail (tail : List (EventDelta F)) (h : self.persisted = self'.persisted) :
    (tail.foldl (applyDelta platform) self).persisted =
      (tail.foldl (applyDelta platform) self').persisted :=
  list_foldl_part_congr persisted (fun _ _ d hs => persisted_applyDelta hs d) tail h

/-! ## What a replay keeps -/

/-- The larger of two counters is not zero, if the first is not. -/
theorem max_ne_zero {n : UInt64} (h : n ≠ 0) (m : UInt64) : max n m ≠ 0 := by
  show (if n ≤ m then m else n) ≠ 0
  split
  · rintro rfl
    rename_i hle
    exact h (UInt64.toNat_inj.mp (Nat.le_zero.mp (UInt64.le_iff_toNat_le.mp hle)))
  · exact h

/-- Cells and rules stand under their ids, and the counter of the rules has started. -/
structure Keyed (r : Replica F) : Prop where
  cells : Each (fun id cell => cell.id = id) r.cells
  rules : ∀ id rule, r.rules id = some rule → rule.id = id
  nextReflexId : r.nextReflexId ≠ 0

omit [FloatLike F] in
/-- A delta leaves cells and rules under their own ids, and the counter of rules above zero. -/
theorem keyed_apply {r : Replica F} (h : Keyed r) (d : EventDelta F) : Keyed (r.apply platform d) := by
  -- A cell that changes keeps its id.
  have halter (id : NodeId) (change : NodeCell F → NodeCell F) (hid : ∀ cell, (change cell).id = cell.id) :
      Keyed (r.alter id change) :=
    ⟨h.cells.map id change fun cell hcell => (hid cell).trans hcell, h.rules, h.nextReflexId⟩
  -- A cell that is set is put under its own id.
  have hset {cells : NodeId → Option (NodeCell F)} (hcells : Each (fun id cell => cell.id = id) cells)
      (snapshot : CellSnapshot F) : Each (fun id cell => cell.id = id)
        (Function.update cells snapshot.id (some snapshot.toNode)) :=
    hcells.update fun cell hcell => by cases hcell; rfl
  cases d with
  | spawn snapshot => exact ⟨hset h.cells snapshot, h.rules, h.nextReflexId⟩
  | divide parent child =>
      exact ⟨hset (halter parent (·.link child.id) fun _ => rfl).cells child, h.rules, h.nextReflexId⟩
  | sleep id => exact halter id _ fun _ => rfl
  | dead id =>
      have hdropped : Each (fun id cell => cell.id = id) (Function.update r.cells id none) :=
        h.cells.update fun _ hcell => by cases hcell
      exact ⟨hdropped, h.rules, h.nextReflexId⟩
  | link source target => exact halter source _ fun _ => rfl
  | dreamRewire source target => exact halter source _ fun _ => rfl
  | unlink source target => exact halter source _ fun _ => rfl
  | dreamPrune source target => exact halter source _ fun _ => rfl
  | affinity id affinity => exact halter id _ fun _ => rfl
  | energy id energy metabolism state lastResponseMs => exact halter id _ fun _ => rfl
  | reflexAdd rule =>
      refine ⟨h.cells, fun id kept hkept => ?_, max_ne_zero h.nextReflexId _⟩
      by_cases heq : id = rule.id
      · subst heq
        simp only [Replica.apply, Function.update_self] at hkept
        cases hkept
        rfl
      · simp only [Replica.apply, Function.update_of_ne heq] at hkept
        exact h.rules id kept hkept
  | reflexRemove removed =>
      refine ⟨h.cells, fun id kept hkept => ?_, h.nextReflexId⟩
      by_cases heq : id = removed
      · subst heq
        simp only [Replica.apply, Function.update_self] at hkept
        cases hkept
      · simp only [Replica.apply, Function.update_of_ne heq] at hkept
        exact h.rules id kept hkept
  | _ => exact ⟨h.cells, h.rules, h.nextReflexId⟩

/-- By induction over the deltas, so does the replay of a journal. -/
theorem keyed_replay (platform : Platform F) (deltas : List (EventDelta F)) :
    Keyed (replay platform deltas).replica := by
  rw [replica_replay]
  have hempty : Keyed (emptyReplica : Replica F) :=
    ⟨fun _ _ hcell => by simp [emptyReplica, new, replica] at hcell,
      fun _ _ hrule => by simp [emptyReplica, new, replica] at hrule,
      by simp [emptyReplica, new, replica]⟩
  generalize (emptyReplica : Replica F) = r at hempty
  induction deltas generalizing r with
  | nil => exact hempty
  | cons d deltas ih => exact ih _ (keyed_apply hempty d)

/-! ## What a snapshot keeps -/

/-- Nothing that a snapshot leaves out has moved. -/
structure Retained (field : ClusterField F) : Prop where
  harmony : field.harmony = .default
  weightXfer : FloatLike.clamp field.syncCfg.weightXfer 0.05 0.5 = field.syncCfg.weightXfer
  linkScores : ∀ e, field.linkScores e = fresh (field.linked e.1 e.2 = true)
  routeBias : ∀ e, field.routeBias e = none
  lastBuild : field.resonantModel.lastBuild = none
  lastApplied : field.resonantModel.lastApplied = none

omit [FloatLike F] in
/-- A snapshot lists the cells in some order, and inserting them in that order gives the same map back. -/
theorem restored_cells (visits : Visits F) (h : Each (fun id cell => cell.id = id) self.replica.cells) :
    ((visits.cells.arrange self.cells.keys).filterMap fun id =>
      (self.cells[id]?).map NodeCell.toSnapshot).foldl
        (fun cells snapshot => cells.insert snapshot.id snapshot.toNode) ∅ = self.cells := by
  refine foldl_insert_eq CellSnapshot.id CellSnapshot.toNode ?_ ?_
  · intro snapshot hsnapshot
    obtain ⟨id, -, hid⟩ := List.mem_filterMap.mp hsnapshot
    obtain ⟨cell, hcell, rfl⟩ := Option.map_eq_some_iff.mp hid
    have hkey : cell.id = id := h id cell hcell
    show self.cells[cell.id]? = some cell
    rw [hkey, hcell]
  · intro id
    cases hcell : self.cells[id]? with
    | none => left; exact Std.ExtTreeMap.getElem?_empty
    | some cell =>
        right
        refine ⟨cell.toSnapshot, List.mem_filterMap.mpr ⟨id, ?_, by rw [hcell]; rfl⟩, h id cell hcell⟩
        rw [Order.mem_arrange, Std.ExtTreeMap.mem_keys, Std.ExtTreeMap.mem_iff_isSome_getElem?, hcell]
        rfl

omit [FloatLike F] in
/-- The rules that a field lists are those that it has, in whatever order it lists them. -/
theorem mem_listReflex (visits : Visits F) (rule : ReflexRule F) :
    rule ∈ self.listReflex visits ↔ ∃ id : ReflexId, self.rules[id]? = some rule := by
  unfold listReflex
  rw [(sortBy_perm _ _).mem_iff, Order.mem_arrange, List.mem_map]
  constructor
  · rintro ⟨⟨id, kept⟩, hmem, rfl⟩
    exact ⟨id, Std.ExtTreeMap.mem_toList_iff_getElem?_eq_some.mp hmem⟩
  · rintro ⟨id, hrule⟩
    exact ⟨(id, rule), Std.ExtTreeMap.mem_toList_iff_getElem?_eq_some.mpr hrule, rfl⟩

omit [FloatLike F] in
/-- So inserting them again gives the same rules back. -/
theorem restored_rules (visits : Visits F) (h : Keyed self.replica) :
    (self.listReflex visits).foldl (fun rules rule => rules.insert rule.id rule) ∅ = self.rules := by
  refine foldl_insert_eq ReflexRule.id (fun rule => rule) ?_ ?_
  · intro rule hrule
    obtain ⟨id, hid⟩ := (mem_listReflex visits rule).mp hrule
    have hkey : rule.id = id := h.rules id rule hid
    rw [hkey, hid]
  · intro id
    cases hrule : self.rules[id]? with
    | none => left; exact Std.ExtTreeMap.getElem?_empty
    | some rule =>
        right
        exact ⟨rule, (mem_listReflex visits rule).mpr ⟨id, hrule⟩, h.rules id rule hrule⟩

/-- What a snapshot restores of a field. -/
def kept (self : ClusterField F) : Persisted F :=
  { self.persisted with
    harmony := .default
    syncCfg := { self.syncCfg with weightXfer := FloatLike.clamp self.syncCfg.weightXfer 0.05 0.5 }
    linkScores := fun e => fresh (self.linked e.1 e.2 = true)
    routeBias := fun _ => none
    lastBuild := none
    lastApplied := none }

/-- Rebuilding the index changes nothing that is persisted but the scores of the links. -/
theorem persisted_rebuildIndex_eq (platform : Platform F) (self : ClusterField F) :
    (self.rebuildIndex platform).persisted =
      { self.persisted with
        linkScores := fun e => (self.linkScores e).or (fresh (self.linked e.1 e.2 = true)) } := by
  have hrest : { (self.rebuildIndex platform).persisted with linkScores := fun _ => none } =
      { self.persisted with linkScores := fun _ => none } :=
    list_foldl_keeps (fun s : ClusterField F => { s.persisted with linkScores := fun _ => none })
      (indexing_keeps (fun s : ClusterField F => { s.persisted with linkScores := fun _ => none })
        (fun _ _ => rfl) (fun _ _ _ => rfl) platform) self.cells.keys { self with index := fun _ => [] }
  have hscores := funext (linkScores_rebuildIndex platform self)
  have hwhole := congrArg (fun p : Persisted F => { p with
    linkScores := (self.rebuildIndex platform).linkScores }) hrest
  rw [hscores] at hwhole
  rw [← hwhole]
  exact congrArg (fun linkScores => { (self.rebuildIndex platform).persisted with linkScores }) hscores

/-- What a field made of a seed persists, field by field, if the seed has the cells and the rules of another
field. -/
theorem persisted_intoField (platform : Platform F) (seed : ClusterFieldSeed F)
    (hcells : seed.cells.foldl (fun cells snapshot => cells.insert snapshot.id snapshot.toNode) ∅ =
      self.cells)
    (hrules : seed.rules.foldl (fun rules rule => rules.insert rule.id rule) ∅ = self.rules) :
    (seed.intoField platform).persisted =
      { cells := self.cells
        rules := self.rules
        nowMs := seed.nowMs
        nextId := seed.nextId
        nextReflexId := nextReflexIdOf self.rules seed.nextReflexId
        trs := seed.trs
        harmony := .default
        dreamCfg := seed.dream
        syncCfg := { seed.sync with weightXfer := FloatLike.clamp seed.sync.weightXfer 0.05 0.5 }
        awakeningCfg := seed.awakening
        linkScores := fun e => fresh (self.linked e.1 e.2 = true)
        routeBias := fun _ => none
        lastBuild := seed.resonant.lastBuild
        lastApplied := seed.resonant.lastApplied } := by
  have hpush (field : ClusterField F) (epoch : Epoch F) :
      (field.pushMirrorEpoch epoch).persisted = field.persisted := rfl
  have hmirror (field : ClusterField F) (epochs : List (Epoch F)) :
      (epochs.foldl pushMirrorEpoch field).persisted = field.persisted :=
    list_foldl_keeps persisted hpush epochs field
  unfold ClusterFieldSeed.intoField
  rw [hcells, hrules]
  refine (hmirror _ seed.mirror.epochs).trans ((persisted_rebuildIndex_eq platform _).trans ?_)
  rfl

/-- A snapshot can be loaded, and restores what it keeps. -/
theorem restored_persisted (codec : SnapshotCodec F Bytes) (platform : Platform F) (visits : Visits F)
    (h : Keyed self.replica) :
    ∃ field, restored codec platform visits self = some field ∧ field.persisted = self.kept := by
  unfold restored loadSnapshot createSnapshot envelope
  rw [codec.fromSlice_toVec]
  refine ⟨_, rfl, ?_⟩
  rw [persisted_intoField platform _ (restored_cells visits h.cells) (restored_rules visits h)]
  have hnext : nextReflexIdOf self.rules self.nextReflexId = self.nextReflexId :=
    if_neg h.nextReflexId
  cases hmodel : self.cachedResonantModel with
  | none => exact congrArg (fun nextReflexId => { self.kept with nextReflexId }) hnext
  | some model => exact congrArg (fun nextReflexId => { self.kept with nextReflexId }) hnext

/-- A snapshot keeps the whole persisted part exactly if nothing that it leaves out has moved. -/
theorem kept_eq_iff : self.kept = self.persisted ↔ Retained self := by
  constructor
  · intro h
    exact
      { harmony := (congrArg Persisted.harmony h).symm
        weightXfer := congrArg (fun p : Persisted F => p.syncCfg.weightXfer) h
        linkScores := fun e => (congrFun (congrArg Persisted.linkScores h) e).symm
        routeBias := fun e => (congrFun (congrArg Persisted.routeBias h) e).symm
        lastBuild := (congrArg Persisted.lastBuild h).symm
        lastApplied := (congrArg Persisted.lastApplied h).symm }
  · intro h
    have hscores : self.linkScores = fun e => fresh (self.linked e.1 e.2 = true) := funext h.linkScores
    have hbias : self.routeBias = fun _ => none := funext h.routeBias
    unfold kept persisted
    rw [h.harmony, h.weightXfer, hscores, hbias, h.lastBuild, h.lastApplied]

/-! ## Snapshot and tail -/

/-- A snapshot after some deltas and the deltas that follow yield what all the deltas do, whatever follows,
exactly when nothing that a snapshot leaves out has moved. -/
theorem snapshot_and_tail_iff (codec : SnapshotCodec F Bytes) (platform : Platform F) (visits : Visits F)
    (deltas : List (EventDelta F)) :
    (∃ field, restored codec platform visits (replay platform deltas) = some field ∧
      ∀ tail, (tail.foldl (applyDelta platform) field).persisted =
        (replay platform (deltas ++ tail)).persisted) ↔ Retained (replay platform deltas) := by
  obtain ⟨field, hfield, hkept⟩ := restored_persisted codec platform visits (keyed_replay platform deltas)
  have hall (tail : List (EventDelta F)) : replay platform (deltas ++ tail) =
      tail.foldl (applyDelta platform) (replay platform deltas) := List.foldl_append
  constructor
  · rintro ⟨field', hfield', hsame⟩
    obtain rfl : field = field' := Option.some.inj (hfield.symm.trans hfield')
    have hsplit := hsame []
    rw [hall] at hsplit
    exact kept_eq_iff.mp (hkept.symm.trans hsplit)
  · intro hretained
    refine ⟨field, hfield, fun tail => ?_⟩
    rw [hall]
    exact persisted_tail tail (hkept.trans (kept_eq_iff.mpr hretained))

/-- A codec that writes the envelope itself. -/
def plainCodec (F : Type) : SnapshotCodec F (SnapshotEnvelope F) :=
  ⟨fun envelope => envelope, fun envelope => some envelope.skipped, fun _ => rfl⟩

/-- The clock is in the snapshot. -/
theorem Retained.tick (h : Retained self) (platform : Platform F) (nowMs : UInt64) :
    Retained (self.applyDelta platform (.tick nowMs)) :=
  ⟨h.harmony, h.weightXfer, h.linkScores, h.routeBias, h.lastBuild, h.lastApplied⟩

/-- A spawned cell with an id of its own. -/
theorem Retained.spawn (h : Retained self) (platform : Platform F) (snapshot : CellSnapshot F)
    (hnew : self.cells[snapshot.id]? = none) : Retained (self.applyDelta platform (.spawn snapshot)) := by
  have hkeeps {α : Type} (part : ClusterField F → α) (hcells : ∀ (s : ClusterField F) cells,
        part { s with cells } = part s) (hindex : ∀ (s : ClusterField F) index, part { s with index } = part s)
      (hregister : ∀ (s : ClusterField F) source target, part (s.registerLink source target) = part s) :
      part (self.attachCell platform snapshot.toNode) = part self :=
    (indexing_keeps part hindex hregister platform (self.setCell snapshot.id snapshot.toNode) snapshot.id).trans
      (hcells self _)
  have hharmony := hkeeps (fun s => s.harmony) (fun _ _ => rfl) (fun _ _ => rfl) fun _ _ _ => rfl
  have hsync := hkeeps (fun s => s.syncCfg) (fun _ _ => rfl) (fun _ _ => rfl) fun _ _ _ => rfl
  have hbias := hkeeps (fun s => s.routeBias) (fun _ _ => rfl) (fun _ _ => rfl) fun _ _ _ => rfl
  have hmodel := hkeeps (fun s => s.resonantModel) (fun _ _ => rfl) (fun _ _ => rfl) fun _ _ _ => rfl
  constructor
  · exact hharmony.trans h.harmony
  · show FloatLike.clamp (self.attachCell platform snapshot.toNode).syncCfg.weightXfer 0.05 0.5 =
      (self.attachCell platform snapshot.toNode).syncCfg.weightXfer
    rw [hsync]
    exact h.weightXfer
  · intro e
    show (self.attachCell platform snapshot.toNode).linkScores e =
      fresh ((self.attachCell platform snapshot.toNode).linked e.1 e.2 = true)
    rw [linkScores_attachCell, linked_attachCell, h.linkScores]
    by_cases hid : e.1 = snapshot.toNode.id
    · have hbefore : self.linked snapshot.toNode.id e.2 = false := by
        unfold linked
        rw [show self.cells[snapshot.toNode.id]? = none from hnew]
      simp [fresh, hbefore, hid]
    · simp [fresh, hid]
  · exact fun e => (congrFun hbias e).trans (h.routeBias e)
  · exact (congrArg ResonantModel.lastBuild hmodel).trans h.lastBuild
  · exact (congrArg ResonantModel.lastApplied hmodel).trans h.lastApplied

/-- A link gets its score with it. -/
theorem Retained.link (h : Retained self) (platform : Platform F) (source target : NodeId) :
    Retained (self.applyDelta platform (.link source target)) := by
  show Retained (self.addLink source target)
  unfold addLink
  cases hcell : self.cells[source]? with
  | none => exact h
  | some cell =>
      dsimp only
      split
      · exact h
      · refine ⟨h.harmony, h.weightXfer, fun e => ?_, h.routeBias, h.lastBuild, h.lastApplied⟩
        have hlinked : ((self.setCell source (cell.link target)).registerLink source target).linked e.1 e.2 =
            if e.1 = source then (cell.links.insert target).contains e.2 else self.linked e.1 e.2 :=
          linked_setCell source (cell.link target) e.1 e.2
        have hscore : ((self.setCell source (cell.link target)).registerLink source target).linkScores e =
            if e = (source, target) then (self.linkScores e).or (some 1.0) else self.linkScores e := rfl
        rw [hlinked, hscore, h.linkScores]
        have hbefore : e.1 = source → self.linked e.1 e.2 = cell.links.contains e.2 := by
          intro hsource
          unfold linked
          rw [hsource, hcell]
        by_cases hsource : e.1 = source
        · rw [if_pos hsource, hbefore hsource, Std.ExtTreeSet.contains_insert]
          by_cases htarget : e.2 = target
          · rw [if_pos (Prod.ext hsource htarget), htarget]
            cases cell.links.contains target <;> simp [fresh]
          · rw [if_neg fun he => htarget (congrArg Prod.snd he)]
            simp [fresh, Ne.symm htarget]
        · have hne : e ≠ (source, target) := fun he => hsource (congrArg Prod.fst he)
          rw [if_neg hsource, if_neg hne]
/-- Two roots, a link between them and a tick of the clock. -/
def linkedRoots : List (EventDelta ℚ) :=
  [.spawn (NodeCell.fromSeed 1 ⟨0.5, 0.5, "cpu"⟩).toSnapshot, .spawn (NodeCell.fromSeed 2 ⟨0.5, 0.5, "mem"⟩).toSnapshot,
    .link 1 2, .tick 5]

/-- Nothing of this is left out: the roots are new, and the link has the score of a new one. -/
theorem retained_linkedRoots : Retained (replay (constantPlatform ℚ 0.5) linkedRoots) := by
  have hnew : Retained (new : ClusterField ℚ) :=
    ⟨rfl, by decide +kernel, fun _ => rfl, fun _ => rfl, rfl, rfl⟩
  have hfirst := hnew.spawn (constantPlatform ℚ 0.5) (NodeCell.fromSeed 1 ⟨0.5, 0.5, "cpu"⟩).toSnapshot
    Std.ExtTreeMap.getElem?_empty
  have hsecond := hfirst.spawn (constantPlatform ℚ 0.5) (NodeCell.fromSeed 2 ⟨0.5, 0.5, "mem"⟩).toSnapshot
    (Option.isNone_iff_eq_none.mp (by decide +kernel))
  exact (hsecond.link (constantPlatform ℚ 0.5) 1 2).tick (constantPlatform ℚ 0.5) 5

/-- A snapshot of the two roots brings back the cells, the link and its score, whatever follows. -/
theorem snapshot_and_tail_linkedRoots :
    ∃ field, restored (plainCodec ℚ) (constantPlatform ℚ 0.5) .listed
        (replay (constantPlatform ℚ 0.5) linkedRoots) = some field ∧
      field.linked 1 2 = true ∧
      ∀ tail, (tail.foldl (applyDelta (constantPlatform ℚ 0.5)) field).persisted =
        (replay (constantPlatform ℚ 0.5) (linkedRoots ++ tail)).persisted := by
  obtain ⟨field, hfield, hsame⟩ :=
    (snapshot_and_tail_iff (plainCodec ℚ) (constantPlatform ℚ 0.5) .listed linkedRoots).mpr retained_linkedRoots
  have hlinked : (replay (constantPlatform ℚ 0.5) (linkedRoots ++ [])).linked 1 2 = true := by decide +kernel
  refine ⟨field, hfield, ?_, hsame⟩
  rw [← hlinked]
  exact linked_congr (congrArg Persisted.cells (hsame [])) 1 2

/-- The hash of a built model is in the deltas and not in a snapshot after them. -/
theorem snapshot_loses_model_build :
    ¬ ∃ field, restored (plainCodec ℚ) (constantPlatform ℚ 0.5) .listed
        (replay (constantPlatform ℚ 0.5) [.modelBuild "h" 0 0]) = some field ∧
      ([].foldl (applyDelta (constantPlatform ℚ 0.5)) field).persisted =
        (replay (constantPlatform ℚ 0.5) ([.modelBuild "h" 0 0] ++ [])).persisted := by
  rintro ⟨field, hfield, hsame⟩
  have hlost : ((restored (plainCodec ℚ) (constantPlatform ℚ 0.5) .listed
      (replay (constantPlatform ℚ 0.5) [.modelBuild "h" 0 0])).map
        fun field => field.resonantModel.lastBuild) = some none := by decide +kernel
  rw [hfield, Option.map_some, Option.some.injEq] at hlost
  have hbuilt := congrArg Persisted.lastBuild hsame
  rw [show ([].foldl (applyDelta (constantPlatform ℚ 0.5)) field).persisted.lastBuild =
    field.resonantModel.lastBuild from rfl, hlost] at hbuilt
  revert hbuilt
  decide +kernel

end ClusterField

end LiminalDB
