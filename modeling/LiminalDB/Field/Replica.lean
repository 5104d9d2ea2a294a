import LiminalDB.Field.Runs
import LiminalDB.Foundations.KeyedFold

/-! # What a journal determines

The part of a field that its deltas speak about, as a record of functions, and what each delta makes of it.
`apply_delta` acts on this part as `Replica.apply` does (`replica_applyDelta`), and a replayed field lists
every cell under the tokens of its pattern and under no other (`indexed_replay`). -/

namespace LiminalDB

variable {F : Type}

/-- The cells, clock, rules and configurations of a field. -/
@[ext] structure Replica (F : Type) where
  cells : NodeId → Option (NodeCell F)
  nowMs : UInt64
  nextId : NodeId
  rules : ReflexId → Option (ReflexRule F)
  nextReflexId : ReflexId
  dreamCfg : DreamConfig F
  syncCfg : SyncConfig F

namespace Replica

/-- A cell is put in place. -/
def set (r : Replica F) (id : NodeId) (cell : NodeCell F) : Replica F :=
  { r with cells := Function.update r.cells id (some cell) }

/-- A cell, if there is one, is changed. -/
def alter (r : Replica F) (id : NodeId) (change : NodeCell F → NodeCell F) : Replica F :=
  { r with cells := Function.update r.cells id ((r.cells id).map change) }

/-- A cell is removed. -/
def drop (r : Replica F) (id : NodeId) : Replica F :=
  { r with cells := Function.update r.cells id none }

/-- A cell that is written into a replica is found under its id, and the others as before. -/
@[simp] theorem cells_set (r : Replica F) (id : NodeId) (cell : NodeCell F) :
    (r.set id cell).cells = Function.update r.cells id (some cell) := rfl

/-- A change in place changes the cell under the id, if there is one, and no other. -/
@[simp] theorem cells_alter (r : Replica F) (id : NodeId) (change : NodeCell F → NodeCell F) :
    (r.alter id change).cells = Function.update r.cells id ((r.cells id).map change) := rfl

/-- A cell that is dropped is not found any more, and the others as before. -/
@[simp] theorem cells_drop (r : Replica F) (id : NodeId) :
    (r.drop id).cells = Function.update r.cells id none := rfl

/-- A rule as a replay keeps it. -/
def lowered (platform : Platform F) (rule : ReflexRule F) : ReflexRule F :=
  { rule with when := { rule.when with token := platform.toLowercase rule.when.token } }

/-- What a delta makes of a replica. -/
def apply (platform : Platform F) (r : Replica F) : EventDelta F → Replica F
  | .tick nowMs => { r with nowMs }
  | .spawn snapshot =>
      { r.set snapshot.id snapshot.toNode with nextId := max r.nextId (snapshot.id + 1) }
  | .divide parent child =>
      { (r.alter parent (·.link child.id)).set child.id child.toNode with
        nextId := max r.nextId (child.id + 1) }
  | .sleep id => r.alter id fun cell => { cell with state := .sleep }
  | .dead id => r.drop id
  | .link source target | .dreamRewire source target => r.alter source (·.link target)
  | .unlink source target | .dreamPrune source target => r.alter source (·.unlink target)
  | .affinity id affinity => r.alter id fun cell =>
      { cell with affinity, seed := { cell.seed with affinity } }
  | .energy id energy metabolism state lastResponseMs => r.alter id fun cell =>
      { cell with energy, metabolism, state, lastResponseMs }
  | .reflexAdd rule =>
      { r with
        rules := Function.update r.rules rule.id (some (lowered platform rule))
        nextReflexId := max r.nextReflexId (rule.id + 1) }
  | .reflexRemove id => { r with rules := Function.update r.rules id none }
  | .dreamConfig cfg => { r with dreamCfg := cfg }
  | .syncConfig cfg => { r with syncCfg := cfg }
  | _ => r

/-- The deltas that a replica does not depend on. -/
def Inert : EventDelta F → Prop
  | .reflexFire .. | .trsSet .. | .trsTarget .. | .trsTrace .. | .trsHarmony .. | .dreamStrengthen ..
  | .dreamWeaken .. | .dreamReport .. | .syncShare .. | .syncAlign .. | .collectiveDreamReport ..
  | .modelBuild .. | .awakenApply .. | .awakenTick .. | .mirrorEpoch .. | .mirrorReplay .. => True
  | _ => False

/-- An inert delta changes nothing that a replica holds. -/
theorem apply_of_inert {platform : Platform F} {d : EventDelta F} (h : Inert d) (r : Replica F) :
    r.apply platform d = r := by
  cases d <;> first | rfl | exact h.elim

/-- A change that would leave the cell as it is leaves the replica as it is. -/
theorem alter_of_eq {r : Replica F} {id : NodeId} {change : NodeCell F → NodeCell F}
    (h : ∀ cell, r.cells id = some cell → change cell = cell) : r.alter id change = r := by
  have hcells : Function.update r.cells id ((r.cells id).map change) = r.cells := by
    rw [Function.update_eq_self_iff]
    cases hcell : r.cells id with
    | none => rfl
    | some cell => rw [Option.map_some, h cell hcell]
  unfold alter
  rw [hcells]

/-- A change in place of a cell that is there is the writing of the changed cell. -/
theorem alter_of_some {r : Replica F} {id : NodeId} {cell : NodeCell F} (h : r.cells id = some cell)
    (change : NodeCell F → NodeCell F) : r.alter id change = r.set id (change cell) := by
  unfold alter set
  rw [h, Option.map_some]

/-- A change in place of a cell that is not there is none. -/
theorem alter_of_none {r : Replica F} {id : NodeId} (h : r.cells id = none)
    (change : NodeCell F → NodeCell F) : r.alter id change = r :=
  alter_of_eq fun cell hcell => by rw [h] at hcell; cases hcell

/-- Changing a cell twice is changing it once, where the change is. -/
theorem alter_alter {r : Replica F} {id : NodeId} {change : NodeCell F → NodeCell F}
    (h : ∀ cell, change (change cell) = change cell) :
    (r.alter id change).alter id change = r.alter id change := by
  refine alter_of_eq fun cell hcell => ?_
  rw [cells_alter, Function.update_self] at hcell
  obtain ⟨before, -, rfl⟩ := Option.map_eq_some_iff.mp hcell
  exact h before

end Replica

namespace ClusterField

/-- The replica of a field. -/
def replica (self : ClusterField F) : Replica F :=
  { cells := fun id => self.cells[id]?
    nowMs := self.nowMs
    nextId := self.nextId
    rules := fun id => self.rules[id]?
    nextReflexId := self.nextReflexId
    dreamCfg := self.dreamCfg
    syncCfg := self.syncCfg }

/-! ## Replicas of the small operations -/

/-- Looking up in a map after an insertion, as an update of the function that looks up. -/
theorem getElem?_insert_eq {κ β : Type} [Ord κ] [Std.TransOrd κ] [Std.LawfulEqOrd κ] [DecidableEq κ]
    (m : Std.ExtTreeMap κ β compare) (k : κ) (v : β) :
    (fun a => (m.insert k v)[a]?) = Function.update (fun a => m[a]?) k (some v) := by
  funext a
  by_cases h : a = k
  · subst h
    rw [Std.ExtTreeMap.getElem?_insert_self, Function.update_self]
  · rw [Function.update_of_ne h, Std.ExtTreeMap.getElem?_insert,
      if_neg fun heq => h (Std.LawfulEqOrd.eq_of_compare heq).symm]

/-- Looking up in a map after an erasure, as an update of the function that looks up. -/
theorem getElem?_erase_eq {κ β : Type} [Ord κ] [Std.TransOrd κ] [Std.LawfulEqOrd κ] [DecidableEq κ]
    (m : Std.ExtTreeMap κ β compare) (k : κ) :
    (fun a => (m.erase k)[a]?) = Function.update (fun a => m[a]?) k none := by
  funext a
  by_cases h : a = k
  · subst h
    rw [Std.ExtTreeMap.getElem?_erase_self, Function.update_self]
  · rw [Function.update_of_ne h, Std.ExtTreeMap.getElem?_erase,
      if_neg fun heq => h (Std.LawfulEqOrd.eq_of_compare heq).symm]

/-- Writing a cell into a field writes it into its replica. -/
@[simp] theorem replica_setCell (self : ClusterField F) (id : NodeId) (cell : NodeCell F) :
    (self.setCell id cell).replica = self.replica.set id cell := by
  unfold setCell replica Replica.set
  rw [getElem?_insert_eq]

/-- Changing a cell of a field in place changes it in its replica. -/
@[simp] theorem replica_alterCell (self : ClusterField F) (id : NodeId)
    (change : NodeCell F → NodeCell F) :
    (self.alterCell id change).replica = self.replica.alter id change := by
  unfold alterCell
  cases h : self.cells[id]? with
  | none => exact (Replica.alter_of_none (r := self.replica) h change).symm
  | some cell => rw [replica_setCell, Replica.alter_of_some (r := self.replica) h]

/-- An emitted delta goes to the journal, which is no part of the replica. -/
@[simp] theorem replica_emit (self : ClusterField F) (delta : EventDelta F) :
    (self.emit delta).replica = self.replica := rfl

/-- The token index is no part of the replica. -/
@[simp] theorem replica_updateIndexFor (platform : Platform F) (self : ClusterField F) (id : NodeId) :
    (self.updateIndexFor platform id).replica = self.replica := by
  unfold updateIndexFor
  cases self.cells[id]? <;> rfl

variable [FloatLike F]

/-- The tables of links, their uses and scores, are no part of the replica. -/
@[simp] theorem replica_registerLink (self : ClusterField F) (source target : NodeId) :
    (self.registerLink source target).replica = self.replica := rfl

omit [FloatLike F] in
/-- Taking an entry out of these tables does not show in the replica either. -/
@[simp] theorem replica_unregisterLink (self : ClusterField F) (source target : NodeId) :
    (self.unregisterLink source target).replica = self.replica := rfl

omit [FloatLike F] in
/-- Nor does taking out all the entries with an id. -/
@[simp] theorem replica_purgeTrackingFor (self : ClusterField F) (id : NodeId) :
    (self.purgeTrackingFor id).replica = self.replica := rfl

/-- Registering all the links of a cell does not show in the replica. -/
@[simp] theorem replica_ensureLinkTracking (self : ClusterField F) (id : NodeId) :
    (self.ensureLinkTracking id).replica = self.replica := by
  unfold ensureLinkTracking
  cases self.cells[id]? with
  | none => rfl
  | some cell => exact list_foldl_keeps replica (fun s b => replica_registerLink s id b) _ _

/-- Attaching a cell is, for the replica, writing it. -/
@[simp] theorem replica_attachCell (platform : Platform F) (self : ClusterField F) (cell : NodeCell F) :
    (self.attachCell platform cell).replica = self.replica.set cell.id cell := by
  unfold attachCell
  rw [replica_ensureLinkTracking, replica_updateIndexFor, replica_setCell]

/-- Rebuilding the index, with the links that it registers, does not show in the replica. -/
@[simp] theorem replica_rebuildIndex (platform : Platform F) (self : ClusterField F) :
    (self.rebuildIndex platform).replica = self.replica := by
  unfold rebuildIndex
  rw [list_foldl_keeps replica fun s id => by
    rw [replica_ensureLinkTracking, replica_updateIndexFor]]
  rfl

omit [FloatLike F] in
/-- Linking a cell to where it is linked already changes nothing. -/
theorem link_of_contains {cell : NodeCell F} {target : NodeId} (h : cell.links.contains target = true) :
    cell.link target = cell := by
  have hlinks : cell.links.insert target = cell.links := by
    refine Std.ExtTreeSet.ext_mem fun a => ?_
    rw [Std.ExtTreeSet.mem_insert]
    constructor
    · rintro (heq | hmem)
      · rw [← Std.LawfulEqOrd.eq_of_compare heq]
        exact Std.ExtTreeSet.mem_iff_contains.mpr h
      · exact hmem
    · exact Or.inr
  unfold NodeCell.link
  rw [hlinks]

omit [FloatLike F] in
/-- Unlinking a cell from where it is not linked changes nothing. -/
theorem unlink_of_not_contains {cell : NodeCell F} {target : NodeId}
    (h : cell.links.contains target = false) : cell.unlink target = cell := by
  have hlinks : cell.links.erase target = cell.links := by
    refine Std.ExtTreeSet.ext_mem fun a => ?_
    rw [Std.ExtTreeSet.mem_erase]
    constructor
    · exact And.right
    · intro hmem
      refine ⟨fun heq => ?_, hmem⟩
      rw [← Std.LawfulEqOrd.eq_of_compare heq, Std.ExtTreeSet.mem_iff_contains, h] at hmem
      cases hmem
  unfold NodeCell.unlink
  rw [hlinks]

omit [FloatLike F] in
/-- Linking twice is linking once. -/
theorem link_link (cell : NodeCell F) (target : NodeId) :
    (cell.link target).link target = cell.link target :=
  link_of_contains (by simp [NodeCell.link])

omit [FloatLike F] in
/-- Unlinking twice is unlinking once. -/
theorem unlink_unlink (cell : NodeCell F) (target : NodeId) :
    (cell.unlink target).unlink target = cell.unlink target :=
  unlink_of_not_contains (by simp [NodeCell.unlink])

/-- `add_link` is, for the replica, a change in place: it does nothing just where that does nothing. -/
@[simp] theorem replica_addLink (self : ClusterField F) (source target : NodeId) :
    (self.addLink source target).replica = self.replica.alter source (·.link target) := by
  unfold addLink
  cases h : self.cells[source]? with
  | none => exact (Replica.alter_of_none (r := self.replica) h _).symm
  | some cell =>
      by_cases hlinked : cell.links.contains target
      · simp only [hlinked, if_true]
        refine (Replica.alter_of_eq fun other hother => ?_).symm
        obtain rfl : cell = other := Option.some.inj (h.symm.trans hother)
        exact link_of_contains hlinked
      · simp only [hlinked, Bool.false_eq_true, if_false]
        rw [replica_registerLink, replica_setCell, Replica.alter_of_some (r := self.replica) h]

omit [FloatLike F] in
/-- The same of an `Unlink` delta, which looks first whether the link is there. -/
theorem replica_unlink (self : ClusterField F) (source target : NodeId) :
    (if self.linked source target then
      (self.alterCell source (·.unlink target)).unregisterLink source target else self).replica =
    self.replica.alter source (·.unlink target) := by
  by_cases hlinked : self.linked source target
  · rw [if_pos hlinked, replica_unregisterLink, replica_alterCell]
  · rw [if_neg hlinked]
    refine (Replica.alter_of_eq fun cell hcell => ?_).symm
    have hcell : self.cells[source]? = some cell := hcell
    rw [linked, hcell] at hlinked
    exact unlink_of_not_contains (Bool.not_eq_true _ ▸ hlinked)

/-- Replaying a delta acts on the replica as the delta does. -/
theorem replica_applyDelta (platform : Platform F) (self : ClusterField F) (d : EventDelta F) :
    (self.applyDelta platform d).replica = self.replica.apply platform d := by
  cases d with
  | spawn snapshot =>
      have h := replica_attachCell platform self snapshot.toNode
      exact congrArg (fun r : Replica F => { r with nextId := max r.nextId (snapshot.id + 1) }) h
  | divide parent child =>
      have h := replica_attachCell platform (self.addLink parent child.id) child.toNode
      rw [replica_addLink] at h
      exact congrArg (fun r : Replica F => { r with nextId := max r.nextId (child.id + 1) }) h
  | sleep id => exact replica_alterCell self id _
  | dead id =>
      have h : ({ self with cells := self.cells.erase id } : ClusterField F).replica =
          self.replica.drop id := by
        unfold replica Replica.drop
        rw [getElem?_erase_eq]
      exact (replica_rebuildIndex platform _).trans h
  | link source target => exact replica_addLink self source target
  | dreamRewire source target => exact replica_addLink self source target
  | unlink source target => exact replica_unlink self source target
  | dreamPrune source target => exact replica_alterCell self source _
  | affinity id affinity => exact replica_alterCell self id _
  | energy id energy metabolism state lastResponseMs => exact replica_alterCell self id _
  | reflexAdd rule =>
      unfold applyDelta replica Replica.apply
      rw [getElem?_insert_eq]
      rfl
  | reflexRemove id =>
      unfold applyDelta replica Replica.apply
      rw [getElem?_erase_eq]
  | _ => rfl

/-- The replica of an empty field. -/
def emptyReplica : Replica F := (new : ClusterField F).replica

/-- By induction over the deltas: the replica of a replayed journal is the journal replayed into an empty
replica. -/
theorem replica_replay (platform : Platform F) (deltas : List (EventDelta F)) :
    (replay platform deltas).replica = deltas.foldl (Replica.apply platform) emptyReplica := by
  unfold replay emptyReplica
  generalize (new : ClusterField F) = self
  induction deltas generalizing self with
  | nil => rfl
  | cons d deltas ih => rw [List.foldl_cons, ih, replica_applyDelta, List.foldl_cons]

end ClusterField

/-! ## The token index -/

/-- The index lists the cells of a set under the tokens of their patterns, and nothing else. -/
def Listed (platform : Platform F) (among : NodeId → Prop) (cells : NodeId → Option (NodeCell F))
    (index : String → List NodeId) : Prop :=
  ∀ token id, id ∈ index token ↔
    among id ∧ ∃ cell ∈ cells id, token ∈ tokenize platform cell.seed.corePattern

namespace ClusterField

/-- The index lists every cell. -/
def Indexed (platform : Platform F) (self : ClusterField F) : Prop :=
  Listed platform (fun _ => True) self.replica.cells self.index

/-- After a cell is indexed, it is under the tokens of its pattern and no others, and the other cells are
where they were. -/
theorem mem_indexed {platform : Platform F} {index : String → List NodeId} {id other : NodeId}
    {pattern token : String} :
    other ∈ indexed platform index id pattern token ↔
      (other ∈ index token ∧ other ≠ id) ∨ (other = id ∧ token ∈ tokenize platform pattern) := by
  unfold indexed
  rw [List.mem_append, List.mem_filter, List.mem_map]
  constructor
  · rintro (⟨hmem, hne⟩ | ⟨t, ht, rfl⟩)
    · exact Or.inl ⟨hmem, of_decide_eq_true hne⟩
    · obtain ⟨ht, heq⟩ := List.mem_filter.mp ht
      exact Or.inr ⟨rfl, of_decide_eq_true heq ▸ ht⟩
  · rintro (⟨hmem, hne⟩ | ⟨rfl, hmem⟩)
    · exact Or.inl ⟨hmem, decide_eq_true hne⟩
    · exact Or.inr ⟨token, List.mem_filter.mpr ⟨hmem, decide_eq_true rfl⟩, rfl⟩

/-- Listing a cell anew brings the index up to date at that cell. -/
theorem listed_indexed {platform : Platform F} {among : NodeId → Prop}
    {cells : NodeId → Option (NodeCell F)} {index : String → List NodeId}
    (h : Listed platform among cells index) (id : NodeId) (cell : NodeCell F) :
    Listed platform (fun other => among other ∨ other = id)
      (Function.update cells id (some cell)) (indexed platform index id cell.seed.corePattern) := by
  intro token other
  rw [mem_indexed]
  by_cases heq : other = id
  · subst heq
    simp [Function.update_self]
  · rw [Function.update_of_ne heq, h token other]
    simp [heq]

/-- The index depends on the patterns alone. -/
theorem listed_congr {platform : Platform F} {among : NodeId → Prop}
    {cells cells' : NodeId → Option (NodeCell F)} {index : String → List NodeId}
    (h : Listed platform among cells index)
    (hpattern : ∀ id, (cells' id).map (·.seed.corePattern) = (cells id).map (·.seed.corePattern)) :
    Listed platform among cells' index := by
  intro token id
  rw [h token id]
  refine and_congr_right fun _ => ?_
  have hid := hpattern id
  cases hcell : cells id with
  | none =>
      rw [hcell, Option.map_none, Option.map_eq_none_iff] at hid
      simp [hid]
  | some cell =>
      rw [hcell, Option.map_some, Option.map_eq_some_iff] at hid
      obtain ⟨cell', hcell', heq⟩ := hid
      simp [hcell', heq]

/-- `update_index_for` indexes the cell that is there by its pattern. -/
theorem index_updateIndexFor {platform : Platform F} {self : ClusterField F} {id : NodeId}
    {cell : NodeCell F} (h : self.cells[id]? = some cell) :
    (self.updateIndexFor platform id).index =
      indexed platform self.index id cell.seed.corePattern := by
  unfold updateIndexFor
  rw [h]

variable [FloatLike F]

/-- Registering links does not touch the token index. -/
@[simp] theorem index_ensureLinkTracking (self : ClusterField F) (id : NodeId) :
    (self.ensureLinkTracking id).index = self.index := by
  unfold ensureLinkTracking
  cases self.cells[id]? with
  | none => rfl
  | some cell =>
      have h (s : ClusterField F) (target : NodeId) : (s.registerLink id target).index = s.index := rfl
      exact list_foldl_keeps index h _ _

/-- Attaching a cell indexes it, which is all that the index sees of it. -/
@[simp] theorem index_attachCell (platform : Platform F) (self : ClusterField F) (cell : NodeCell F) :
    (self.attachCell platform cell).index =
      indexed platform self.index cell.id cell.seed.corePattern := by
  have hcell : (self.setCell cell.id cell).cells[cell.id]? = some cell :=
    Std.ExtTreeMap.getElem?_insert_self
  unfold attachCell
  rw [index_ensureLinkTracking, index_updateIndexFor hcell]
  rfl

/-- A new link does not touch the token index. -/
@[simp] theorem index_addLink (self : ClusterField F) (source target : NodeId) :
    (self.addLink source target).index = self.index := by
  unfold addLink
  cases self.cells[source]? with
  | none => rfl
  | some cell => dsimp only; split <;> rfl

/-- Listing the cells of a list anew brings the index up to date at them. -/
theorem listed_foldl_updateIndexFor {platform : Platform F} {among : NodeId → Prop} (ids : List NodeId)
    {self : ClusterField F} (h : Listed platform among self.replica.cells self.index) :
    Listed platform (fun id => among id ∨ id ∈ ids) self.replica.cells
      (ids.foldl (fun self id => (self.updateIndexFor platform id).ensureLinkTracking id) self).index := by
  induction ids generalizing self among with
  | nil => simpa using h
  | cons id ids ih =>
      have hreplica : ((self.updateIndexFor platform id).ensureLinkTracking id).replica =
          self.replica := by
        rw [replica_ensureLinkTracking, replica_updateIndexFor]
      have hstep : Listed platform (fun other => among other ∨ other = id) self.replica.cells
          ((self.updateIndexFor platform id).ensureLinkTracking id).index := by
        rw [index_ensureLinkTracking]
        cases hcell : self.cells[id]? with
        | none =>
            -- There is nothing to list under this id.
            intro token other
            have hself : (self.updateIndexFor platform id).index = self.index := by
              unfold updateIndexFor
              rw [hcell]
            rw [hself, h token other]
            constructor
            · rintro ⟨hamong, hlisted⟩
              exact ⟨Or.inl hamong, hlisted⟩
            · rintro ⟨hamong | rfl, cell, hmem, htoken⟩
              · exact ⟨hamong, cell, hmem, htoken⟩
              · have hmem : self.cells[other]? = some cell := hmem
                rw [hcell] at hmem
                cases hmem
        | some cell =>
            rw [index_updateIndexFor hcell]
            have hupdate : Function.update self.replica.cells id (some cell) = self.replica.cells :=
              Function.update_eq_self_iff.mpr hcell.symm
            rw [← hupdate]
            exact listed_indexed h id cell
      rw [List.foldl_cons]
      have hrest := ih (hreplica.symm ▸ hstep)
      rw [hreplica] at hrest
      intro token other
      simp only [hrest token other, List.mem_cons, or_assoc]

/-- The index is rebuilt from the cells alone. -/
theorem indexed_rebuildIndex (platform : Platform F) (self : ClusterField F) :
    Indexed platform (self.rebuildIndex platform) := by
  have hempty : Listed platform (fun _ => False) self.replica.cells fun _ => [] := by
    intro token id
    simp
  have h := @listed_foldl_updateIndexFor F _ platform (fun _ => False) self.cells.keys
    { self with index := fun _ => [] } hempty
  unfold Indexed
  rw [replica_rebuildIndex]
  intro token id
  rw [rebuildIndex, h token id]
  refine and_congr_left fun ⟨cell, hcell, _⟩ => iff_true_intro (Or.inr ?_)
  have hcell : self.cells[id]? = some cell := hcell
  rw [Std.ExtTreeMap.mem_keys]
  exact Std.ExtTreeMap.mem_iff_isSome_getElem?.mpr (by rw [hcell]; rfl)

/-- An index in step with the cells is so again when one more cell is attached. -/
theorem indexed_attachCell {platform : Platform F} {self : ClusterField F}
    (h : Indexed platform self) (cell : NodeCell F) :
    Indexed platform (self.attachCell platform cell) := by
  unfold Indexed
  rw [replica_attachCell, index_attachCell]
  intro token id
  exact (listed_indexed h cell.id cell token id).trans (by simp [Replica.set])

omit [FloatLike F] in
/-- Changing cells in place, but not their patterns, leaves the index right. -/
theorem indexed_alter {platform : Platform F} {self self' : ClusterField F} {id : NodeId}
    {change : NodeCell F → NodeCell F} (h : Indexed platform self)
    (hreplica : self'.replica.cells = (self.replica.alter id change).cells)
    (hindex : self'.index = self.index)
    (hpattern : ∀ cell, (change cell).seed.corePattern = cell.seed.corePattern) :
    Indexed platform self' := by
  unfold Indexed
  rw [hindex]
  refine listed_congr h fun other => ?_
  rw [hreplica, Replica.cells_alter]
  by_cases heq : other = id
  · subst heq
    rw [Function.update_self, Option.map_map]
    exact congrArg (Option.map · _) (funext hpattern)
  · rw [Function.update_of_ne heq]

omit [FloatLike F] in
/-- A change in place does not touch the token index; it has to keep the pattern for the two to stay in step.
-/
@[simp] theorem index_alterCell (self : ClusterField F) (id : NodeId)
    (change : NodeCell F → NodeCell F) : (self.alterCell id change).index = self.index := by
  unfold alterCell
  cases self.cells[id]? <;> rfl

/-- Replaying a delta keeps the index right. -/
theorem indexed_applyDelta {platform : Platform F} {self : ClusterField F}
    (h : Indexed platform self) (d : EventDelta F) : Indexed platform (self.applyDelta platform d) := by
  have halter (id : NodeId) (change : NodeCell F → NodeCell F)
      (hpattern : ∀ cell, (change cell).seed.corePattern = cell.seed.corePattern) :
      Indexed platform (self.alterCell id change) :=
    indexed_alter h (congrArg Replica.cells (replica_alterCell self id change))
      (index_alterCell self id change) hpattern
  have hadd (source target : NodeId) : Indexed platform (self.addLink source target) :=
    indexed_alter h (congrArg Replica.cells (replica_addLink self source target))
      (index_addLink self source target) fun _ => rfl
  cases d with
  | spawn snapshot => exact indexed_attachCell h snapshot.toNode
  | divide parent child => exact indexed_attachCell (hadd parent child.id) child.toNode
  | sleep id => exact halter id _ fun _ => rfl
  | dead id => exact indexed_rebuildIndex platform _
  | link source target => exact hadd source target
  | dreamRewire source target => exact hadd source target
  | unlink source target =>
      simp only [applyDelta]
      split
      · exact halter source (·.unlink target) fun _ => rfl
      · exact h
  | dreamPrune source target => exact halter source (·.unlink target) fun _ => rfl
  | affinity id affinity => exact halter id _ fun _ => rfl
  | energy id energy metabolism state lastResponseMs => exact halter id _ fun _ => rfl
  | _ => exact h

/-- The index of a replayed field lists its cells under the tokens of their patterns. -/
theorem indexed_replay (platform : Platform F) (deltas : List (EventDelta F)) :
    Indexed platform (replay platform deltas) := by
  unfold replay
  have hnew : Indexed platform (new : ClusterField F) := by
    intro token id
    simp [new, replica]
  generalize (new : ClusterField F) = self at hnew ⊢
  induction deltas generalizing self with
  | nil => exact hnew
  | cons d deltas ih => exact ih _ (indexed_applyDelta hnew d)

end ClusterField

end LiminalDB
