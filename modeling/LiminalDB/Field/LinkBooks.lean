import LiminalDB.Field.Chains
import LiminalDB.Foundations.EdgeBooks

/-! # The books about links

The cells of a field and their links are a graph, and the usage and the scores of links and the usage of
routes are books about it. The small operations on links are the operations on such books. -/

namespace LiminalDB

variable {F : Type}

/-- The cells that a cell is linked to, whether they are still there or not. -/
def NodeCell.targets (cell : NodeCell F) : Set NodeId := { target | cell.links.contains target = true }

/-- A linked cell leads to the new target and to those from before. -/
theorem NodeCell.targets_link (cell : NodeCell F) (target : NodeId) :
    (cell.link target).targets = insert target cell.targets := by
  ext other
  show (cell.links.insert target).contains other = true ↔ other = target ∨ cell.links.contains other = true
  rw [Std.ExtTreeSet.contains_insert, Bool.or_eq_true, beq_iff_eq, Std.LawfulEqOrd.compare_eq_iff_eq]
  exact or_congr_left eq_comm

/-- An unlinked cell leads to the targets from before but this one. -/
theorem NodeCell.targets_unlink (cell : NodeCell F) (target : NodeId) :
    (cell.unlink target).targets = cell.targets \ {target} := by
  ext other
  show (cell.links.erase target).contains other = true ↔
    cell.links.contains other = true ∧ other ≠ target
  rw [Std.ExtTreeSet.contains_erase, Bool.and_eq_true, bne_iff_ne, ne_eq, Std.LawfulEqOrd.compare_eq_iff_eq,
    and_comm]
  exact and_congr_right' (not_congr eq_comm)

namespace ClusterField

/-- The links that the cells themselves have, and what the field has written down about links: their uses,
their scores and the pairs of routes. -/
def books (self : ClusterField F) : EdgeBooks NodeId where
  edges := fun id => (self.replica.cells id).map NodeCell.targets
  usage := { e | (self.linkUsage e).isSome = true }
  scores := { e | (self.linkScores e).isSome = true }
  routes := { e | e ∈ self.routeUsage.map Prod.fst }

/-- The books with the counter of ids, which is all that matters for links. -/
def linking (self : ClusterField F) : EdgeBooks NodeId × NodeId := (self.books, self.nextId)

variable {self : ClusterField F}

/-- In the books of a field an id is there exactly if a cell has it. -/
theorem there_books {id : NodeId} : self.books.There id ↔ ∃ cell, self.cells[id]? = some cell := by
  unfold EdgeBooks.There books
  simp only [Option.map_eq_some_iff]
  exact ⟨fun ⟨_, cell, hcell, _⟩ => ⟨cell, hcell⟩, fun ⟨cell, hcell⟩ => ⟨_, cell, hcell, rfl⟩⟩

/-- In the books of a field there is a link exactly if `linked` finds it among those of its source. -/
theorem edge_books {source target : NodeId} :
    self.books.Edge source target ↔ self.linked source target = true := by
  unfold EdgeBooks.Edge books linked
  constructor
  · rintro ⟨targets, htargets, hmem⟩
    obtain ⟨cell, hcell, rfl⟩ := Option.map_eq_some_iff.mp htargets
    have hcell : self.cells[source]? = some cell := hcell
    rw [hcell]
    exact hmem
  · intro hlinked
    cases hcell : self.cells[source]? with
    | none => simp [hcell] at hlinked
    | some cell =>
        rw [hcell] at hlinked
        exact ⟨cell.targets, congrArg (Option.map NodeCell.targets) hcell, hlinked⟩

/-- Replacing a cell, or removing it, replaces its targets and no others. -/
theorem targets_update (cells : NodeId → Option (NodeCell F)) (id : NodeId)
    (entry : Option (NodeCell F)) :
    (fun other => (Function.update cells id entry other).map NodeCell.targets) =
      Function.update (fun other => (cells other).map NodeCell.targets) id (entry.map NodeCell.targets) := by
  funext other
  by_cases heq : other = id
  · subst heq
    rw [Function.update_self, Function.update_self]
  · rw [Function.update_of_ne heq, Function.update_of_ne heq]

/-- Where a cell is replaced, its targets are replaced in the books, and those of no other cell. -/
theorem edges_setCell (id : NodeId) (cell : NodeCell F) :
    (self.setCell id cell).books.edges = Function.update self.books.edges id (some cell.targets) := by
  unfold books
  rw [replica_setCell]
  exact targets_update _ id (some cell)

/-- Where a cell is replaced by one with the same links, the books and the next id stay as they are. -/
theorem linking_setCell {id : NodeId} {cell after : NodeCell F} (hcell : self.cells[id]? = some cell)
    (hlinks : after.links = cell.links) : (self.setCell id after).linking = self.linking := by
  have hedges : (self.setCell id after).books.edges = self.books.edges := by
    rw [edges_setCell]
    refine Function.update_eq_self_iff.mpr ?_
    unfold NodeCell.targets
    rw [hlinks]
    exact (congrArg (Option.map NodeCell.targets) hcell).symm
  exact Prod.ext (EdgeBooks.ext hedges rfl rfl rfl) rfl

/-- A change in place that keeps the links of every cell keeps the books and the next id. -/
theorem linking_alterCell (id : NodeId) {change : NodeCell F → NodeCell F}
    (hlinks : ∀ cell, (change cell).links = cell.links) :
    (self.alterCell id change).linking = self.linking := by
  unfold alterCell
  cases hcell : self.cells[id]? with
  | none => rfl
  | some cell => exact linking_setCell hcell (hlinks cell)

/-- Deltas that are emitted go to the journal, which the books do not see. -/
theorem linking_foldl_emit (deltas : List (EventDelta F)) (self : ClusterField F) :
    (deltas.foldl emit self).linking = self.linking := by
  have hemit (self : ClusterField F) (delta : EventDelta F) : (self.emit delta).linking = self.linking := rfl
  exact list_foldl_keeps linking hemit deltas self

/-- Unlinking a cell and unregistering the link is the unlinking of the books. -/
theorem books_unlink (source target : NodeId) :
    ((self.alterCell source (·.unlink target)).unregisterLink source target).books =
      self.books.unlink source target := by
  refine EdgeBooks.ext ?_ ?_ ?_ ?_
  · show (fun id => ((self.alterCell source _).replica.cells id).map NodeCell.targets) = _
    rw [replica_alterCell, Replica.cells_alter, targets_update]
    unfold EdgeBooks.unlink books
    dsimp only
    rw [Option.map_map, Option.map_map]
    refine congrArg (Function.update _ source) (congrFun (congrArg Option.map ?_) _)
    funext cell
    exact cell.targets_unlink target
  · ext e
    unfold alterCell
    cases self.cells[source]? <;> by_cases heq : e = (source, target) <;>
      simp [books, EdgeBooks.unlink, unregisterLink, setCell, heq]
  · ext e
    unfold alterCell
    cases self.cells[source]? <;> by_cases heq : e = (source, target) <;>
      simp [books, EdgeBooks.unlink, unregisterLink, setCell, heq]
  · unfold alterCell
    cases self.cells[source]? <;> rfl

/-- `purge_tracking_for` strikes every entry with the id out of the three tables. -/
theorem books_purgeTrackingFor (id : NodeId) :
    (self.purgeTrackingFor id).books = self.books.purge {id} := by
  refine EdgeBooks.ext rfl ?_ ?_ ?_
  · ext e
    simp only [books, purgeTrackingFor, touches, EdgeBooks.purge, Set.mem_ofPred_eq, Set.mem_singleton_iff]
    by_cases hsource : e.1 = id <;> by_cases htarget : e.2 = id <;> simp [hsource, htarget]
  · ext e
    simp only [books, purgeTrackingFor, touches, EdgeBooks.purge, Set.mem_ofPred_eq, Set.mem_singleton_iff]
    by_cases hsource : e.1 = id <;> by_cases htarget : e.2 = id <;> simp [hsource, htarget]
  · ext e
    simp only [books, purgeTrackingFor, touches, EdgeBooks.purge, Set.mem_ofPred_eq, Set.mem_singleton_iff,
      List.mem_map, List.mem_filter]
    constructor
    · rintro ⟨entry, ⟨hentry, htouches⟩, rfl⟩
      exact ⟨⟨entry, hentry, rfl⟩, by simpa using htouches⟩
    · rintro ⟨⟨entry, hentry, rfl⟩, htouches⟩
      exact ⟨entry, ⟨hentry, by simpa using htouches⟩, rfl⟩

/-- By induction over the ids, purging all of them strikes out every entry with one of them. -/
theorem books_purgeAll (ids : List NodeId) (self : ClusterField F) :
    (ids.foldl purgeTrackingFor self).books = self.books.purge { id | id ∈ ids } := by
  induction ids generalizing self with
  | nil => simp [EdgeBooks.purge]
  | cons id ids ih =>
      rw [List.foldl_cons, ih, books_purgeTrackingFor, EdgeBooks.purge_purge]
      congr 1
      ext other
      exact List.mem_cons.symm

variable [FloatLike F]

/-- `register_link` enters one link, with a use and a score where it has none. -/
theorem books_registerLink (source target : NodeId) :
    (self.registerLink source target).books = self.books.enter {(source, target)} := by
  refine EdgeBooks.ext rfl ?_ ?_ rfl
  · ext e
    by_cases heq : e = (source, target)
    · subst heq
      simp [books, registerLink, EdgeBooks.enter]
    · simp [books, registerLink, EdgeBooks.enter, heq]
  · ext e
    by_cases heq : e = (source, target)
    · subst heq
      simp [books, registerLink, EdgeBooks.enter]
    · simp [books, registerLink, EdgeBooks.enter, heq]

/-- By induction over the targets, registering the links of a cell enters all of them. -/
theorem books_registerLinks (id : NodeId) (targets : List NodeId) (self : ClusterField F) :
    (targets.foldl (fun self target => self.registerLink id target) self).books =
      self.books.enter { e | e.1 = id ∧ e.2 ∈ targets } := by
  induction targets generalizing self with
  | nil => simp [EdgeBooks.enter]
  | cons target targets ih =>
      rw [List.foldl_cons, ih, books_registerLink, EdgeBooks.enter_enter]
      congr 1
      ext ⟨source, other⟩
      simp only [Set.mem_union, Set.mem_singleton_iff, Prod.mk.injEq, Set.mem_ofPred_eq, List.mem_cons]
      tauto

/-- `ensure_link_tracking` enters the links of one cell, whether their targets are there or not. -/
theorem books_ensureLinkTracking (id : NodeId) :
    (self.ensureLinkTracking id).books = self.books.enter { e | e.1 = id ∧ self.books.Edge e.1 e.2 } := by
  unfold ensureLinkTracking
  cases hcell : self.cells[id]? with
  | none =>
      have hno : { e : NodeId × NodeId | e.1 = id ∧ self.books.Edge e.1 e.2 } = ∅ := by
        refine Set.eq_empty_iff_forall_notMem.mpr ?_
        rintro ⟨_, target⟩ ⟨rfl, hedge⟩
        obtain ⟨cell, hsome⟩ := there_books.mp hedge.there
        rw [hcell] at hsome
        cases hsome
      rw [hno]
      simp [EdgeBooks.enter]
  | some cell =>
      dsimp only
      rw [books_registerLinks]
      congr 1
      ext ⟨source, target⟩
      refine and_congr_right fun hsource => ?_
      have hsource : source = id := hsource
      subst hsource
      rw [edge_books]
      unfold linked
      rw [hcell, Std.ExtTreeSet.mem_toList, Std.ExtTreeSet.mem_iff_contains]

/-- Indexing a cell enters its links into the books, since only the tracking is written down there. -/
theorem books_indexing (platform : Platform F) (id : NodeId) (self : ClusterField F) :
    ((self.updateIndexFor platform id).ensureLinkTracking id).books =
      self.books.enter { e | e.1 = id ∧ self.books.Edge e.1 e.2 } := by
  have hbooks : (self.updateIndexFor platform id).books = self.books := by
    unfold updateIndexFor
    cases self.cells[id]? <;> rfl
  rw [books_ensureLinkTracking, hbooks]

/-- Attaching a cell writes its targets into the books and enters its links. -/
theorem books_attachCell (platform : Platform F) (cell : NodeCell F) :
    (self.attachCell platform cell).books = self.books.attach cell.id cell.targets := by
  unfold attachCell
  rw [books_indexing]
  refine EdgeBooks.ext (edges_setCell cell.id cell) ?_ ?_ rfl <;>
  · refine congrArg (_ ∪ ·) ?_
    ext ⟨source, target⟩
    refine and_congr_right fun hsource => ?_
    have hsource : source = cell.id := hsource
    subst hsource
    unfold EdgeBooks.Edge
    rw [edges_setCell, Function.update_self]
    simp

/-- By induction over the ids, indexing these cells enters the links of all of them. -/
theorem books_indexAll (platform : Platform F) (ids : List NodeId) (self : ClusterField F) :
    (ids.foldl (fun self id => (self.updateIndexFor platform id).ensureLinkTracking id) self).books =
      self.books.enter { e | e.1 ∈ ids ∧ self.books.Edge e.1 e.2 } := by
  induction ids generalizing self with
  | nil => simp [EdgeBooks.enter]
  | cons id ids ih =>
      rw [List.foldl_cons, ih, books_indexing, EdgeBooks.enter_enter]
      congr 1
      ext ⟨source, target⟩
      have hedge (s : Set (NodeId × NodeId)) :
          (self.books.enter s).Edge source target ↔ self.books.Edge source target :=
        EdgeBooks.edge_congr rfl
      simp only [Set.mem_union, Set.mem_ofPred_eq, List.mem_cons, hedge]
      tauto

/-- Rebuilding the index enters every link of every cell, those included that lead nowhere. -/
theorem books_rebuildIndex (platform : Platform F) (self : ClusterField F) :
    (self.rebuildIndex platform).books = self.books.rebuild := by
  unfold rebuildIndex
  rw [books_indexAll]
  have hall : { e : NodeId × NodeId | e.1 ∈ self.cells.keys ∧ self.books.Edge e.1 e.2 } =
      { e | self.books.Edge e.1 e.2 } := by
    ext ⟨source, target⟩
    refine and_iff_right_of_imp fun hedge => ?_
    have hedge : self.books.Edge source target := hedge
    obtain ⟨cell, hcell⟩ := there_books.mp hedge.there
    exact Std.ExtTreeMap.mem_keys.mpr (Std.ExtTreeMap.mem_iff_isSome_getElem?.mpr (by rw [hcell]; rfl))
  exact congrArg self.books.enter hall

/-- `add_link` is the linking of the books: nothing without the source, or where the link is there already. -/
theorem books_addLink (source target : NodeId) :
    (self.addLink source target).books = self.books.link source target := by
  unfold addLink
  cases hcell : self.cells[source]? with
  | none =>
      refine (if_neg fun hnew => ?_).symm
      obtain ⟨cell, hsome⟩ := there_books.mp hnew.1
      rw [hcell] at hsome
      cases hsome
  | some cell =>
      have hedge : self.books.Edge source target ↔ cell.links.contains target = true := by
        rw [edge_books, linked, hcell]
      dsimp only
      by_cases hlinked : cell.links.contains target = true
      · rw [if_pos hlinked]
        exact (if_neg fun hnew => hnew.2 (hedge.mpr hlinked)).symm
      · rw [if_neg hlinked]
        refine Eq.trans ?_ (if_pos ⟨there_books.mpr ⟨cell, hcell⟩, fun h => hlinked (hedge.mp h)⟩).symm
        have hentry : self.books.edges source = some cell.targets :=
          congrArg (Option.map NodeCell.targets) hcell
        rw [books_registerLink, hentry, Option.map_some, ← cell.targets_link target]
        exact EdgeBooks.ext (edges_setCell source _) rfl rfl rfl

end ClusterField

end LiminalDB
