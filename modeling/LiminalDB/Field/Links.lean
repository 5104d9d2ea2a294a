import LiminalDB.Field.Chains

/-! # Links and their scores

Registering the links of a cell gives each a score of one where it has none. Rebuilding the index does so
for every link of every cell there is, whether its target is there or not. -/

namespace LiminalDB

variable {F : Type} [FloatLike F]

namespace ClusterField

variable {platform : Platform F} {self : ClusterField F}

/-- The score of a link that is registered for the first time, if it is one. -/
def fresh (isLink : Prop) [Decidable isLink] : Option F := if isLink then some 1.0 else none

/-- Registering links gives each of them a fresh score, unless it has one. -/
theorem linkScores_registerLinks (id : NodeId) (targets : List NodeId) (self : ClusterField F)
    (e : NodeId × NodeId) :
    (targets.foldl (fun self target => self.registerLink id target) self).linkScores e =
      (self.linkScores e).or (fresh (e.1 = id ∧ e.2 ∈ targets)) := by
  induction targets generalizing self with
  | nil => simp [fresh]
  | cons target targets ih =>
      rw [List.foldl_cons, ih]
      by_cases heq : e = (id, target)
      · subst heq
        simp only [registerLink, fresh]
        cases self.linkScores (id, target) <;> simp
      · have hkept : (self.registerLink id target).linkScores e = self.linkScores e := if_neg heq
        have hmem : (e.1 = id ∧ e.2 ∈ targets) ↔ (e.1 = id ∧ e.2 ∈ target :: targets) := by
          refine and_congr_right fun hid => ?_
          rw [List.mem_cons, or_iff_right]
          exact fun htarget => heq (Prod.ext hid htarget)
        rw [hkept]
        simp only [fresh, hmem]

omit [FloatLike F] in
/-- A link leads from a cell to each number in its list. -/
theorem linked_eq_mem {id target : NodeId} {cell : NodeCell F} (h : self.cells[id]? = some cell) :
    self.linked id target = true ↔ target ∈ cell.links.toList := by
  unfold linked
  rw [h, Std.ExtTreeSet.mem_toList, Std.ExtTreeSet.mem_iff_contains]

/-- Tracking a cell gives each of its links a fresh score, unless it has one. -/
theorem linkScores_ensureLinkTracking (id : NodeId) (e : NodeId × NodeId) :
    (self.ensureLinkTracking id).linkScores e =
      (self.linkScores e).or (fresh (e.1 = id ∧ self.linked e.1 e.2 = true)) := by
  unfold ensureLinkTracking
  cases hcell : self.cells[id]? with
  | none =>
      have hno : ¬ (e.1 = id ∧ self.linked e.1 e.2 = true) := by
        rintro ⟨rfl, hlinked⟩
        simp [linked, hcell] at hlinked
      rw [fresh, if_neg hno, Option.or_none]
  | some cell =>
      dsimp only
      rw [linkScores_registerLinks]
      have hmem : (e.1 = id ∧ e.2 ∈ cell.links.toList) ↔ (e.1 = id ∧ self.linked e.1 e.2 = true) := by
        refine and_congr_right fun hid => ?_
        rw [linked_eq_mem (hid ▸ hcell)]
      simp only [fresh, hmem]

/-- The cells are not touched when they are indexed. -/
theorem cells_indexing (platform : Platform F) (self : ClusterField F) (id : NodeId) :
    ((self.updateIndexFor platform id).ensureLinkTracking id).cells = self.cells :=
  indexing_keeps cells (fun _ _ => rfl) (fun _ _ _ => rfl) platform self id

omit [FloatLike F] in
/-- Entering a cell in the index touches no score. -/
theorem linkScores_updateIndexFor (id : NodeId) :
    (self.updateIndexFor platform id).linkScores = self.linkScores := by
  unfold updateIndexFor
  cases self.cells[id]? <;> rfl

omit [FloatLike F] in
/-- Two fields of the same cells have the same links. -/
theorem linked_congr {self' : ClusterField F} (h : self'.cells = self.cells) (source target : NodeId) :
    self'.linked source target = self.linked source target := by
  unfold linked
  rw [h]

omit [FloatLike F] in
/-- Writing a cell replaces its links, and leaves those of the others. -/
theorem linked_setCell (id : NodeId) (cell : NodeCell F) (x y : NodeId) :
    (self.setCell id cell).linked x y = if x = id then cell.links.contains y else self.linked x y := by
  by_cases heq : x = id
  · rw [if_pos heq, heq]
    unfold linked setCell
    rw [Std.ExtTreeMap.getElem?_insert_self]
  · rw [if_neg heq]
    unfold linked
    rw [getElem?_setCell_of_ne heq]

/-- A cell that is attached gets a score of one for each of its links that has none. -/
theorem linkScores_attachCell (platform : Platform F) (cell : NodeCell F) (e : NodeId × NodeId) :
    (self.attachCell platform cell).linkScores e =
      (self.linkScores e).or (fresh (e.1 = cell.id ∧ cell.links.contains e.2 = true)) := by
  have hlinked : ((self.setCell cell.id cell).updateIndexFor platform cell.id).linked e.1 e.2 =
      (self.setCell cell.id cell).linked e.1 e.2 := by
    refine linked_congr ?_ e.1 e.2
    unfold updateIndexFor
    split <;> rfl
  rw [attachCell, linkScores_ensureLinkTracking, linkScores_updateIndexFor, hlinked, linked_setCell]
  congr 1
  by_cases hid : e.1 = cell.id
  · simp only [hid, if_true]
  · simp only [fresh, hid, false_and]

/-- Attaching a cell brings its links, and leaves those of the others. -/
theorem linked_attachCell (platform : Platform F) (cell : NodeCell F) (x y : NodeId) :
    (self.attachCell platform cell).linked x y =
      if x = cell.id then cell.links.contains y else self.linked x y :=
  (linked_congr (cells_indexing platform (self.setCell cell.id cell) cell.id) x y).trans
    (linked_setCell cell.id cell x y)

/-- Indexing cells one after the other gives each of their links a fresh score, unless it has one. -/
theorem linkScores_indexAll (platform : Platform F) (ids : List NodeId) (s : ClusterField F)
    (hcells : s.cells = self.cells) (e : NodeId × NodeId) :
    (ids.foldl (fun s id => (s.updateIndexFor platform id).ensureLinkTracking id) s).linkScores e =
      (s.linkScores e).or (fresh (e.1 ∈ ids ∧ self.linked e.1 e.2 = true)) := by
  induction ids generalizing s with
  | nil => simp [fresh]
  | cons id ids ih =>
      have hindexed : (s.updateIndexFor platform id).cells = self.cells := by
        rw [← hcells]
        unfold updateIndexFor
        cases s.cells[id]? <;> rfl
      rw [List.foldl_cons, ih _ ((cells_indexing platform s id).trans hcells),
        linkScores_ensureLinkTracking, linkScores_updateIndexFor, linked_congr hindexed, Option.or_assoc]
      by_cases hfirst : e.1 = id
      · simp only [fresh, hfirst, List.mem_cons, true_or, true_and]
        cases self.linked id e.2 <;> simp
      · simp only [fresh, hfirst, List.mem_cons, false_or, false_and, if_false, Option.none_or]

/-- Rebuilding the index scores every link of every cell. -/
theorem linkScores_rebuildIndex (platform : Platform F) (self : ClusterField F) (e : NodeId × NodeId) :
    (self.rebuildIndex platform).linkScores e =
      (self.linkScores e).or (fresh (self.linked e.1 e.2 = true)) := by
  have h := @linkScores_indexAll F _ self platform self.cells.keys
    { self with index := fun _ => [] } rfl e
  refine h.trans ?_
  have hkey : (e.1 ∈ self.cells.keys ∧ self.linked e.1 e.2 = true) ↔ self.linked e.1 e.2 = true := by
    refine and_iff_right_of_imp fun hlinked => ?_
    unfold linked at hlinked
    rw [Std.ExtTreeMap.mem_keys, Std.ExtTreeMap.mem_iff_isSome_getElem?]
    cases hcell : self.cells[e.1]? with
    | none => simp [hcell] at hlinked
    | some cell => rfl
  simp only [fresh, hkey]

end ClusterField

end LiminalDB
