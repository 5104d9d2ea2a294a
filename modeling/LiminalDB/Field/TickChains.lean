import LiminalDB.Field.Chains

/-! # Ticks, trimming and buds as chains of steps

The deltas of a tick wait for its end, but they are gathered in the order of what they describe: each loop
of a tick is a chain of steps that emit into the batch. New ids are handed out in the second loop and taken
in the third, so between them the chain keeps the id counter of the replay. -/

namespace LiminalDB

variable {F : Type}

open Set (univ)

namespace ClusterField

variable {platform : Platform F} {permit : Permit F} {self : ClusterField F} [FloatLike F]

/-! ## Ageing -/

/-- A choice between two states that are not dead is not dead. -/
theorem ite_ne_dead {p : Prop} [Decidable p] {a b : NodeState} (ha : a ≠ .dead) (hb : b ≠ .dead) :
    (if p then a else b) ≠ .dead := by
  split
  · exact ha
  · exact hb

/-- Ageing a cell keeps its id, its pattern and its links, and does not kill it. -/
theorem tweaks_aged (self : ClusterField F) (dtMs : UInt64) (hormone : Option (NoradrenalineEffect F))
    (cell : NodeCell F) : Tweaks cell (self.aged dtMs hormone cell) := by
  unfold aged NodeCell.driftAffinity NodeCell.tick
  dsimp only
  split
  · exact ⟨rfl, rfl, rfl, fun h => h⟩
  · refine ⟨rfl, rfl, rfl, fun h => ?_⟩
    exact ite_ne_dead (by simp) (ite_ne_dead (by simp) (ite_ne_dead (by simp) h))

/-- By induction over the cells: ageing all of them is a chain that starts with all of them stale, for their
vitals are emitted one by one, and ends with none. -/
theorem chain_ageCells (dtMs : UInt64) (hormone : Option (NoradrenalineEffect F)) {ids : List NodeId}
    (hids : ids.Nodup) (acc : Batch F)
    (hcells : ∀ id ∈ ids, ∃ cell, acc.field.cells[id]? = some cell ∧
      permit.memory cell.memory (acc.field.aged dtMs hormone cell).memory) :
    MicroChain platform permit (acc.field.trace acc.pending { id | id ∈ ids })
      ((ids.foldl (ageCell dtMs hormone) acc).field.trace
        (ids.foldl (ageCell dtMs hormone) acc).pending ∅) := by
  induction ids generalizing acc with
  | nil => exact chain_of_micro (.forget subset_rfl) rfl rfl rfl (by simp)
  | cons id ids ih =>
      obtain ⟨hfirst, hids⟩ := List.nodup_cons.mp hids
      obtain ⟨cell, hcell, hpermit⟩ := hcells id List.mem_cons_self
      have hstep : ageCell dtMs hormone acc id =
          ⟨acc.field.setCell id (acc.field.aged dtMs hormone cell),
            acc.pending ++ [energyDelta id (acc.field.aged dtMs hormone cell)]⟩ := by
        unfold ageCell
        rw [hcell]
      have hrefresh : MicroChain platform permit (acc.field.trace acc.pending { other | other ∈ id :: ids })
          ((acc.field.setCell id (acc.field.aged dtMs hormone cell)).trace
            (acc.pending ++ [energyDelta id (acc.field.aged dtMs hormone cell)])
            { other | other ∈ ids }) :=
        chain_tweak_refresh hcell (tweaks_aged _ dtMs hormone cell) hpermit
          fun other hother hne => (List.mem_cons.mp hother).resolve_left hne
      rw [List.foldl_cons, hstep]
      refine hrefresh.trans (ih hids ⟨_, _⟩ ?_)
      intro other hother
      obtain ⟨cell', hcell', hpermit'⟩ := hcells other (List.mem_cons_of_mem _ hother)
      have hne : other ≠ id := fun heq => hfirst (heq ▸ hother)
      exact ⟨cell', (getElem?_setCell_of_ne hne _).trans hcell', hpermit'⟩

/-- Ageing one cell leaves every other one as it was. -/
theorem getElem?_ageCell_of_ne (dtMs : UInt64) (hormone : Option (NoradrenalineEffect F)) (acc : Batch F)
    (id other : NodeId) (hne : other ≠ id) :
    (ageCell dtMs hormone acc id).field.cells[other]? = acc.field.cells[other]? := by
  unfold ageCell
  cases acc.field.cells[id]? with
  | none => rfl
  | some cell => exact getElem?_setCell_of_ne hne _

/-- What ageing leaves of the cells. -/
theorem getElem?_ageCells (dtMs : UInt64) (hormone : Option (NoradrenalineEffect F)) {ids : List NodeId}
    (hids : ids.Nodup) {acc : Batch F} {id : NodeId} (hid : id ∈ ids) :
    (ids.foldl (ageCell dtMs hormone) acc).field.cells[id]? =
      (acc.field.cells[id]?).map (acc.field.aged dtMs hormone) := by
  have haged (acc : Batch F) (id : NodeId) :
      (ageCell dtMs hormone acc id).field.aged dtMs hormone = acc.field.aged dtMs hormone := by
    unfold ageCell
    cases acc.field.cells[id]? <;> rfl
  induction ids generalizing acc with
  | nil => cases hid
  | cons first ids ih =>
      obtain ⟨hfirst, hids⟩ := List.nodup_cons.mp hids
      rw [List.foldl_cons]
      rcases List.mem_cons.mp hid with rfl | hid
      · have hrest := look_foldl_of_forall_ne (fun id => id) (fun acc : Batch F => (acc.field.cells[·]?))
          (getElem?_ageCell_of_ne dtMs hormone) (fun other hother (heq : id = other) => hfirst (heq ▸ hother))
          (ageCell dtMs hormone acc id)
        refine hrest.trans ?_
        unfold ageCell
        cases hcell : acc.field.cells[id]? with
        | none => exact hcell
        | some cell => exact Std.ExtTreeMap.getElem?_insert_self
      · have hne : id ≠ first := fun heq => hfirst (heq ▸ hid)
        rw [ih hids hid, getElem?_ageCell_of_ne dtMs hormone acc first id hne, haged]

/-! ## Dividing -/

/-- Whether a cell divides. -/
def divides (cell : NodeCell F) : Bool := cell.state = .active && !decide (cell.energy ≤ 0.8)

/-- A new cell waits with its id, and those after it with the ids after that. -/
def Numbered : NodeId → List (NodeId × NodeCell F) → Prop
  | _, [] => True
  | id, new :: rest => new.2.id = id ∧ Newborn new.2 ∧ Numbered (id + 1) rest

omit [FloatLike F] in
/-- Behind children that are numbered from an id on, one more takes the next number. -/
theorem numbered_append {id : NodeId} {newCells : List (NodeId × NodeCell F)} (h : Numbered id newCells)
    {new : NodeId × NodeCell F} (hid : new.2.id = id + UInt64.ofNat newCells.length)
    (hnew : Newborn new.2) : Numbered id (newCells ++ [new]) := by
  induction newCells generalizing id with
  | nil => exact ⟨by simpa using hid, hnew, trivial⟩
  | cons first newCells ih =>
      refine ⟨h.1, h.2.1, ih h.2.2 ?_⟩
      rw [hid, List.length_cons, Nat.add_comm, UInt64.ofNat_add, ← UInt64.add_assoc]
      rfl

/-- The field whose id counter is that of the replay. -/
def lagging (self : ClusterField F) (nextId : NodeId) : ClusterField F := { self with nextId }

/-- A cell that divides has a living child, under the id that the field would give next, and the child is set
aside. -/
theorem divideCell_of_divides (variation : NodeId → F) {acc : Dividing F} {id : NodeId}
    {cell : NodeCell F} (hcell : acc.field.cells[id]? = some cell) (hdivides : divides cell) :
    ∃ child : NodeCell F, Newborn child ∧ child.id = acc.field.nextId ∧
      divideCell variation acc id =
        { field :=
            { acc.field.setCell id { cell with energy := cell.energy * 0.55 } with
              nextId := acc.field.nextId + 1 }
          pending := acc.pending ++ [.affinity id cell.affinity,
            energyDelta id { cell with energy := cell.energy * 0.55 }]
          newCells := acc.newCells ++ [(id, child)] } := by
  have hguard : ¬ (decide (cell.state ≠ .active) || decide (cell.energy ≤ 0.8)) = true := by
    simpa [divides] using hdivides
  unfold divideCell
  rw [hcell]
  simp only [NodeCell.maybeDivide]
  rw [if_neg hguard]
  exact ⟨_, ⟨by simp [named], rfl⟩, rfl, rfl⟩

/-- A cell that does not divide is left as it is, and no child is set aside. -/
theorem divideCell_of_not_divides (variation : NodeId → F) {acc : Dividing F} {id : NodeId}
    (h : ∀ cell, acc.field.cells[id]? = some cell → divides cell = false) :
    divideCell variation acc id = acc := by
  unfold divideCell
  cases hcell : acc.field.cells[id]? with
  | none => rfl
  | some cell =>
      have hguard : (decide (cell.state ≠ .active) || decide (cell.energy ≤ 0.8)) = true := by
        by_cases hstate : cell.state = .active
        · simpa [divides, hstate] using h cell hcell
        · simp [hstate]
      simp only [NodeCell.maybeDivide]
      rw [if_pos hguard]

/-- A cell is there and divides, or nothing happens at all. -/
theorem divideCell_cases (variation : NodeId → F) (acc : Dividing F) (id : NodeId) :
    (∃ cell, acc.field.cells[id]? = some cell ∧ divides cell = true) ∨
      (acc.field.cells[id]?).any divides = false ∧ divideCell variation acc id = acc := by
  cases hcell : acc.field.cells[id]? with
  | none =>
      refine Or.inr ⟨rfl, divideCell_of_not_divides variation fun cell h => ?_⟩
      rw [hcell] at h
      cases h
  | some cell =>
      by_cases hdivides : divides cell = true
      · exact Or.inl ⟨cell, rfl, hdivides⟩
      · rw [Bool.not_eq_true] at hdivides
        refine Or.inr ⟨hdivides, divideCell_of_not_divides variation fun other h => ?_⟩
        obtain rfl : cell = other := Option.some.inj (hcell.symm.trans h)
        exact hdivides

/-- Dividing one cell leaves every other one as it was. -/
theorem getElem?_divideCell_of_ne (variation : NodeId → F) (acc : Dividing F) (id other : NodeId)
    (hne : other ≠ id) :
    (divideCell variation acc id).field.cells[other]? = acc.field.cells[other]? := by
  rcases divideCell_cases variation acc id with ⟨cell, hcell, hdivides⟩ | ⟨-, hsame⟩
  · obtain ⟨child, -, -, hstep⟩ := divideCell_of_divides variation hcell hdivides
    rw [hstep]
    exact getElem?_setCell_of_ne hne _
  · rw [hsame]

/-- The new cells wait with consecutive ids, from the one that the replay hands out next. -/
structure Dividing.Lags (acc : Dividing F) (nextId : NodeId) : Prop where
  numbered : Numbered nextId acc.newCells
  nextId : acc.field.nextId = nextId + UInt64.ofNat acc.newCells.length

/-- By induction over the cells: dividing them is a chain, as long as the ids that their children take are not
handed out yet; these wait until the children are attached. -/
theorem chain_divideCells (variation : NodeId → F) {nextId : NodeId} {ids : List NodeId}
    (hids : ids.Nodup) (acc : Dividing F) (hlags : acc.Lags nextId)
    (haffinity : ∀ id ∈ ids, ∀ cell, acc.field.cells[id]? = some cell → divides cell = true →
      permit.affinity cell.memory) :
    MicroChain platform permit ((acc.field.lagging nextId).trace acc.pending ∅)
        (((ids.foldl (divideCell variation) acc).field.lagging nextId).trace
          (ids.foldl (divideCell variation) acc).pending ∅) ∧
      (ids.foldl (divideCell variation) acc).Lags nextId ∧
      (ids.foldl (divideCell variation) acc).newCells.length =
        acc.newCells.length + ids.countP fun id => (acc.field.cells[id]?).any divides := by
  induction ids generalizing acc with
  | nil => exact ⟨.refl, hlags, rfl⟩
  | cons id ids ih =>
      obtain ⟨hfirst, hids⟩ := List.nodup_cons.mp hids
      -- No cell comes twice, so that the cells still to come are as they were.
      have hother (other : NodeId) (hmem : other ∈ ids) :=
        getElem?_divideCell_of_ne variation acc id other fun heq => hfirst (heq ▸ hmem)
      have hcount : (ids.countP fun other => ((divideCell variation acc id).field.cells[other]?).any
          divides) = ids.countP fun other => (acc.field.cells[other]?).any divides :=
        List.countP_congr fun other hmem => by rw [hother other hmem]
      have hrest (other : NodeId) (hmem : other ∈ ids) (cell : NodeCell F)
          (hcell : (divideCell variation acc id).field.cells[other]? = some cell) :=
        haffinity other (List.mem_cons_of_mem _ hmem) cell ((hother other hmem).symm.trans hcell)
      rw [List.foldl_cons, List.countP_cons]
      rcases divideCell_cases variation acc id with ⟨cell, hcell, hdivides⟩ | ⟨hnone, hsame⟩
      · obtain ⟨child, hnew, hid, hstep⟩ := divideCell_of_divides variation hcell hdivides
        have hemit : MicroChain platform permit ((acc.field.lagging nextId).trace acc.pending ∅)
            ((acc.field.lagging nextId).trace (acc.pending ++ [.affinity id cell.affinity]) ∅) :=
          chain_of_micro (.affinity hcell (haffinity id List.mem_cons_self cell hcell hdivides)) rfl rfl
            (List.append_assoc ..).symm subset_rfl
        have hdivide : MicroChain platform permit ((acc.field.lagging nextId).trace acc.pending ∅)
            (((divideCell variation acc id).field.lagging nextId).trace
              (divideCell variation acc id).pending ∅) := by
          rw [hstep]
          have hlist : acc.pending ++ [.affinity id cell.affinity,
                energyDelta id { cell with energy := cell.energy * 0.55 }] =
              (acc.pending ++ [.affinity id cell.affinity]) ++
                [energyDelta id { cell with energy := cell.energy * 0.55 }] := by simp
          rw [hlist]
          exact hemit.trans (chain_tweak_energy hcell ⟨rfl, rfl, rfl, fun h => h⟩
            (permit.memory_refl _))
        -- The new cell takes the id that the field without it is to give next.
        have hlags' : (divideCell variation acc id).Lags nextId := by
          rw [hstep]
          refine ⟨numbered_append hlags.numbered (hid.trans hlags.nextId) hnew, ?_⟩
          rw [List.length_append, UInt64.ofNat_add, ← UInt64.add_assoc, ← hlags.nextId]
          rfl
        obtain ⟨hchain, hlast, hlength⟩ := ih hids _ hlags' hrest
        refine ⟨hdivide.trans hchain, hlast, ?_⟩
        rw [hlength, hcount, hstep, hcell, Option.any_some, if_pos hdivides, List.length_append,
          List.length_singleton, Nat.add_assoc, Nat.add_comm 1]
      · rw [hsame] at hrest ⊢
        obtain ⟨hchain, hlast, hlength⟩ := ih hids acc hlags hrest
        refine ⟨hchain, hlast, ?_⟩
        rw [hlength, hnone]
        simp

/-! ## New cells -/

/-- A parent is linked to its child and the link is pending, or the parent is gone and nothing happens. -/
theorem linkChild_eq (acc : Batch F) (parent child : NodeId) :
    (linkChild acc parent child).field.replica = acc.field.replica.alter parent (·.link child) ∧
      (linkChild acc parent child).field.index = acc.field.index ∧
      (linkChild acc parent child).field.journal = acc.field.journal ∧
      ((linkChild acc parent child).pending = acc.pending ++ [.link parent child] ∨
        linkChild acc parent child = acc) := by
  unfold linkChild
  cases hcell : acc.field.cells[parent]? with
  | none =>
      exact ⟨(Replica.alter_of_none (r := acc.field.replica) hcell _).symm, rfl, rfl, Or.inr rfl⟩
  | some cell =>
      by_cases hlinked : cell.links.contains child
      · dsimp only
        rw [if_pos hlinked]
        refine ⟨(Replica.alter_of_eq fun other hother => ?_).symm, rfl, rfl, Or.inr rfl⟩
        obtain rfl : cell = other := Option.some.inj (hcell.symm.trans hother)
        exact link_of_contains hlinked
      · dsimp only
        rw [if_neg hlinked]
        refine ⟨replica_addLink _ parent child, index_addLink _ parent child, ?_, Or.inl rfl⟩
        unfold addLink
        rw [hcell]
        dsimp only
        split <;> rfl

/-- A child that is attached divides its parent in one step, and takes the id that was set aside for it. -/
theorem chain_attachChild (nextId : NodeId) (acc : Batch F) (new : NodeId × NodeCell F)
    (hid : new.2.id = nextId) (hnew : Newborn new.2) (hpermit : permit.spawn nextId) :
    MicroChain platform permit ((acc.field.lagging nextId).trace acc.pending ∅)
      (((attachChild platform acc new).field.lagging (nextId + 1)).trace
        (attachChild platform acc new).pending ∅) := by
  obtain ⟨hreplica, hindex, hjournal, hpending⟩ := linkChild_eq acc new.1 new.2.id
  generalize hlinked : linkChild acc new.1 new.2.id = linked at hreplica hindex hjournal hpending
  have hlag : (linked.field.lagging nextId).replica =
      (acc.field.lagging nextId).replica.alter new.1 (·.link new.2.id) :=
    congrArg (fun r : Replica F => { r with nextId }) hreplica
  have hlink : MicroChain platform permit ((acc.field.lagging nextId).trace acc.pending ∅)
      ((linked.field.lagging nextId).trace linked.pending ∅) := by
    rcases hpending with hpending | hsame
    · rw [hpending]
      exact chain_link (Or.inl rfl) hlag hindex hjournal
    · rw [hsame]
  have hstep : attachChild platform acc new =
      ⟨linked.field.attachCell platform new.2, linked.pending ++ [.divide new.1 new.2.toSnapshot]⟩ := by
    unfold attachChild
    rw [hlinked]
  rw [hstep]
  refine hlink.trans (chain_of_micro (.divide new.1 hid hnew hpermit) ?_ ?_ ?_ Set.sdiff_subset)
  · -- The division links the parent once more, which changes nothing.
    have hidem : (linked.field.lagging nextId).replica.alter new.1 (·.link new.2.id) =
        (linked.field.lagging nextId).replica := by
      rw [hlag]
      exact Replica.alter_alter fun cell => link_link cell new.2.id
    show _ = { ((linked.field.lagging nextId).replica.alter new.1 (·.link new.2.id)).set
      new.2.id new.2 with nextId := nextId + 1 }
    rw [hidem]
    exact congrArg (fun r : Replica F => { r with nextId := nextId + 1 })
      (replica_attachCell platform linked.field new.2)
  · exact index_attachCell platform linked.field new.2
  · simp only [trace, lagging, journal_attachCell, List.append_assoc]

/-- By induction over the children: all of them take their ids in turn, as long as there is room for them. -/
theorem chain_attachChildren (newCells : List (NodeId × NodeCell F)) (nextId : NodeId) (acc : Batch F)
    (hnumbered : Numbered nextId newCells) (hroom : Room permit nextId newCells.length) :
    MicroChain platform permit ((acc.field.lagging nextId).trace acc.pending ∅)
      (((newCells.foldl (attachChild platform) acc).field.lagging
        (nextId + UInt64.ofNat newCells.length)).trace
          (newCells.foldl (attachChild platform) acc).pending ∅) := by
  induction newCells generalizing nextId acc with
  | nil =>
      have hzero : nextId + UInt64.ofNat (List.length ([] : List (NodeId × NodeCell F))) = nextId := by
        simp
      rw [hzero]
      exact .refl
  | cons new newCells ih =>
      obtain ⟨hid, hnew, hrest⟩ := hnumbered
      rw [List.length_cons, Nat.add_comm] at hroom ⊢
      have hone : nextId + 1 = nextId + UInt64.ofNat 1 := rfl
      rw [List.foldl_cons, UInt64.ofNat_add, ← UInt64.add_assoc]
      refine (chain_attachChild nextId acc new hid hnew ?_).trans (ih (nextId + 1) _ hrest ?_)
      · rw [Nat.add_comm] at hroom
        exact hroom.head
      · exact hone ▸ hroom.right

/-! ## Rest -/

/-- A living cell dies, or it is left alive with its id, its pattern, its links and its memory. -/
theorem maybeSleepOrDie_cases {cell : NodeCell F} (halive : cell.state ≠ .dead) (nowMs : UInt64)
    (shift : F) :
    ((cell.maybeSleepOrDie nowMs shift).2 = true ∧
        (cell.maybeSleepOrDie nowMs shift).1.state = .dead) ∨
      ((cell.maybeSleepOrDie nowMs shift).2 = false ∧
        Tweaks cell (cell.maybeSleepOrDie nowMs shift).1 ∧
        (cell.maybeSleepOrDie nowMs shift).1.state ≠ .dead ∧
        (cell.maybeSleepOrDie nowMs shift).1.memory = cell.memory) := by
  unfold NodeCell.maybeSleepOrDie
  rw [if_neg halive]
  dsimp only
  split
  · split
    · exact Or.inl ⟨rfl, rfl⟩
    · exact Or.inr ⟨rfl, ⟨rfl, rfl, rfl, fun _ => by simp⟩, by simp, rfl⟩
  · split
    · exact Or.inl ⟨rfl, rfl⟩
    · exact Or.inr ⟨rfl, Tweaks.refl cell, halive, rfl⟩

omit [FloatLike F] in
/-- The living part of a field has the cells that are not dead, under their ids. -/
theorem cells_living (self : ClusterField F) (id : NodeId) :
    self.living.replica.cells id = (self.cells[id]?).filter fun cell => cell.state ≠ .dead :=
  Std.ExtTreeMap.getElem?_filter' ..

omit [FloatLike F] in
/-- Writing a living cell writes it into the living part too. -/
theorem living_setCell_of_alive {after : NodeCell F} (halive : after.state ≠ .dead) (id : NodeId) :
    (self.setCell id after).living.replica = self.living.replica.set id after := by
  refine Replica.ext (funext fun other => ?_) rfl rfl rfl rfl rfl rfl
  rw [cells_living, Replica.cells_set]
  by_cases heq : other = id
  · subst heq
    rw [Function.update_self, setCell, Std.ExtTreeMap.getElem?_insert_self]
    simp [halive]
  · rw [Function.update_of_ne heq, cells_living, getElem?_setCell_of_ne heq]

omit [FloatLike F] in
/-- Writing a dead cell drops the id from the living part. -/
theorem living_setCell_of_dead {after : NodeCell F} (hdead : after.state = .dead) (id : NodeId) :
    (self.setCell id after).living.replica = self.living.replica.drop id := by
  refine Replica.ext (funext fun other => ?_) rfl rfl rfl rfl rfl rfl
  rw [cells_living, Replica.cells_drop]
  by_cases heq : other = id
  · subst heq
    rw [Function.update_self, setCell, Std.ExtTreeMap.getElem?_insert_self]
    simp [hdead]
  · rw [Function.update_of_ne heq, cells_living, getElem?_setCell_of_ne heq]

/-- Putting a cell to rest is a chain of the living part: the cell falls asleep, dies, or stays as it is, and
is emitted. -/
theorem chain_restCell (hdead : permit.dead) (hormone : Option (NoradrenalineEffect F))
    (acc : Resting F) (id : NodeId) :
    MicroChain platform permit (acc.field.living.trace acc.pending ∅)
      ((restCell hormone acc id).field.living.trace (restCell hormone acc id).pending ∅) := by
  unfold restCell
  cases hcell : acc.field.cells[id]? with
  | none => exact .refl
  | some cell =>
      dsimp only
      generalize hshift : acc.field.sleepShift hormone cell = shift
      by_cases hstate : cell.state = .dead
      · -- A dead cell stays, and its vitals are emitted once more.
        have hsame : cell.maybeSleepOrDie acc.field.nowMs shift = (cell, false) := by
          unfold NodeCell.maybeSleepOrDie
          rw [if_pos hstate]
        have hgone : acc.field.living.replica.cells id = none := by
          rw [cells_living, hcell]
          simp [hstate]
        have hreplica : (acc.field.setCell id cell).living.replica = acc.field.living.replica := by
          rw [living_setCell_of_dead hstate]
          unfold Replica.drop
          rw [Function.update_eq_self_iff.mpr hgone.symm]
        simp only [hsame, hstate]
        refine chain_of_micro (.gone hgone cell) hreplica rfl ?_ subset_rfl
        simp [trace, living, setCell]
      · have hlive : acc.field.living.replica.cells id = some cell := by
          rw [cells_living, hcell]
          simp [hstate]
        rcases maybeSleepOrDie_cases hstate acc.field.nowMs shift with
          ⟨hdied, hgone⟩ | ⟨hlives, htweaks, halive, hmemory⟩
        · -- It dies: it is dropped, and its vitals are told of a cell that is gone.
          generalize cell.maybeSleepOrDie acc.field.nowMs shift = result at hdied hgone ⊢
          obtain ⟨after, died⟩ := result
          obtain rfl : died = true := hdied
          have hgone : after.state = .dead := hgone
          have hdrop : MicroChain platform permit (acc.field.living.trace acc.pending ∅)
              ((acc.field.setCell id after).living.trace (acc.pending ++ [.dead id]) ∅) :=
            chain_of_micro (.dead id hdead) (living_setCell_of_dead hgone id) rfl
              (List.append_assoc ..).symm subset_rfl
          have hnone : (acc.field.setCell id after).living.replica.cells id = none := by
            rw [living_setCell_of_dead hgone, Replica.cells_drop, Function.update_self]
          refine hdrop.trans (chain_of_micro (.gone hnone after) rfl rfl ?_ subset_rfl)
          simp [trace, hgone, hstate]
        · -- It lives: it is changed, told asleep if it has just fallen asleep, and its vitals are told.
          generalize cell.maybeSleepOrDie acc.field.nowMs shift = result
            at hlives htweaks halive hmemory ⊢
          obtain ⟨after, died⟩ := result
          obtain rfl : died = false := hlives
          have hset : (acc.field.setCell id after).living.replica =
              acc.field.living.replica.set id after := living_setCell_of_alive halive id
          have hafter : (acc.field.setCell id after).living.replica.cells id = some after := by
            rw [hset, Replica.cells_set, Function.update_self]
          have htweak : MicroChain platform permit (acc.field.living.trace acc.pending ∅)
              ((acc.field.setCell id after).living.trace acc.pending {id}) := by
            refine chain_of_micro (.tweak hlive htweaks (hmemory ▸ permit.memory_refl _)) hset rfl rfl ?_
            intro other hother
            exact hother.resolve_right (by simp [trace])
          have hsleep : MicroChain platform permit
              ((acc.field.setCell id after).living.trace acc.pending {id})
              ((acc.field.setCell id after).living.trace (acc.pending ++
                (if (decide (cell.state ≠ .sleep) && decide (after.state = .sleep)) = true
                  then [.sleep id] else [])) {id}) := by
            split
            · rename_i hslept
              have hslept : after.state = .sleep := by simpa using (Bool.and_eq_true_iff.mp hslept).2
              exact chain_of_micro (.sleep hafter hslept) rfl rfl (List.append_assoc ..).symm subset_rfl
            · rw [List.append_nil]
          refine htweak.trans (hsleep.trans (chain_of_micro (.energy hafter) rfl rfl ?_ ?_))
          · simp [trace]
          · simp [trace]

/-- By induction over the cells, the same of the whole loop. -/
theorem chain_restCells (hdead : permit.dead) (hormone : Option (NoradrenalineEffect F))
    (ids : List NodeId) (acc : Resting F) :
    MicroChain platform permit (acc.field.living.trace acc.pending ∅)
      ((ids.foldl (restCell hormone) acc).field.living.trace
        (ids.foldl (restCell hormone) acc).pending ∅) :=
  reflTransGen_foldl (fun acc : Resting F => acc.field.living.trace acc.pending ∅)
    (fun acc id _ => chain_restCell hdead hormone acc id) acc

/-- The index stands as it was, and the cells keep their ids and patterns. -/
structure Resting.Keeps (before acc : Resting F) : Prop where
  index : acc.field.index = before.field.index
  label : ∀ id : NodeId, (acc.field.cells[id]?).map (fun cell => (cell.id, cell.seed.corePattern)) =
    (before.field.cells[id]?).map fun cell => (cell.id, cell.seed.corePattern)

/-- Whether it sleeps or dies, a cell keeps its id and its pattern. -/
theorem label_maybeSleepOrDie (cell : NodeCell F) (nowMs : UInt64) (shift : F) :
    (cell.maybeSleepOrDie nowMs shift).1.id = cell.id ∧
      (cell.maybeSleepOrDie nowMs shift).1.seed.corePattern = cell.seed.corePattern := by
  unfold NodeCell.maybeSleepOrDie
  dsimp only
  split
  · exact ⟨rfl, rfl⟩
  · split <;> split <;> exact ⟨rfl, rfl⟩

/-- Putting a cell to rest changes no label, no index and none of the journal. -/
theorem keeps_restCell (hormone : Option (NoradrenalineEffect F)) {before acc : Resting F}
    (h : before.Keeps acc) (id : NodeId) : before.Keeps (restCell hormone acc id) := by
  unfold restCell
  cases hcell : acc.field.cells[id]? with
  | none => exact h
  | some cell =>
      dsimp only
      generalize acc.field.sleepShift hormone cell = shift
      obtain ⟨hid, hpattern⟩ := label_maybeSleepOrDie cell acc.field.nowMs shift
      refine ⟨h.index, fun other => ?_⟩
      rw [← h.label other]
      by_cases heq : other = id
      · subst heq
        rw [hcell, setCell, Std.ExtTreeMap.getElem?_insert_self, Option.map_some, Option.map_some, hid,
          hpattern]
      · rw [getElem?_setCell_of_ne heq]

/-- By induction over the cells, neither does the whole loop. -/
theorem keeps_restCells (hormone : Option (NoradrenalineEffect F)) (ids : List NodeId)
    {before acc : Resting F} (h : before.Keeps acc) :
    before.Keeps (ids.foldl (restCell hormone) acc) := by
  induction ids generalizing acc with
  | nil => exact h
  | cons id ids ih => exact ih (keeps_restCell hormone h id)

/-! ## A whole tick -/

/-- A cell after the first loop of a tick. -/
def agedBy (self : ClusterField F) (dtMs : UInt64) (cell : NodeCell F) : NodeCell F :=
  (self.startTick dtMs).aged dtMs (self.startTick dtMs).noradrenalineActive cell

/-- The number of cells that divide in a tick. -/
def dividing (self : ClusterField F) (dtMs : UInt64) : ℕ :=
  self.cells.keys.countP fun id => (self.cells[id]?).any fun cell => divides (self.agedBy dtMs cell)

/-- What a tick does to the cells it finds is permitted. -/
structure TickPermits (permit : Permit F) (field : ClusterField F) (dtMs : UInt64) : Prop where
  memory : ∀ (id : NodeId) (cell : NodeCell F), field.cells[id]? = some cell →
    permit.memory cell.memory (field.agedBy dtMs cell).memory
  affinity : ∀ (id : NodeId) (cell : NodeCell F), field.cells[id]? = some cell →
    divides (field.agedBy dtMs cell) = true → permit.affinity (field.agedBy dtMs cell).memory
  room : Room permit field.nextId (field.dividing dtMs)

/-- Ageing cells takes no ids. -/
theorem nextId_ageCells (dtMs : UInt64) (hormone : Option (NoradrenalineEffect F)) (ids : List NodeId)
    (acc : Batch F) : (ids.foldl (ageCell dtMs hormone) acc).field.nextId = acc.field.nextId := by
  have hkeeps (acc : Batch F) (id : NodeId) :
      (ageCell dtMs hormone acc id).field.nextId = acc.field.nextId := by
    unfold ageCell
    cases acc.field.cells[id]? <;> rfl
  exact list_foldl_keeps (fun acc : Batch F => acc.field.nextId) hkeeps ids acc

/-- Attaching children takes no ids; they were taken when the parents divided. -/
theorem nextId_attachChildren (newCells : List (NodeId × NodeCell F)) (acc : Batch F) :
    (newCells.foldl (attachChild platform) acc).field.nextId = acc.field.nextId := by
  have hkeeps (acc : Batch F) (new : NodeId × NodeCell F) :
      (attachChild platform acc new).field.nextId = acc.field.nextId :=
    (congrArg Replica.nextId (replica_attachCell platform _ new.2)).trans
      (congrArg Replica.nextId (linkChild_eq acc new.1 new.2.id).1)
  exact list_foldl_keeps (fun acc : Batch F => acc.field.nextId) hkeeps newCells acc

omit [FloatLike F] in
/-- A loop over the cells of a field comes to each of them once, in whatever order it visits them. -/
theorem nodup_arrange_keys (visits : Visits F) (self : ClusterField F) :
    (visits.cells.arrange self.cells.keys).Nodup :=
  (visits.cells.perm _).nodup_iff.mpr Std.ExtTreeMap.nodup_keys

omit [FloatLike F] in
/-- It comes to all the cells that are there, and to no others. -/
theorem mem_arrange_keys {visits : Visits F} {self : ClusterField F} {id : NodeId} :
    id ∈ visits.cells.arrange self.cells.keys ↔ ∃ cell, self.cells[id]? = some cell := by
  rw [Order.mem_arrange, Std.ExtTreeMap.mem_keys, Std.ExtTreeMap.mem_iff_isSome_getElem?,
    Option.isSome_iff_exists]

/-- The first loop of a tick. -/
def agedCells (visits : Visits F) (dtMs : UInt64) (self : ClusterField F) : Batch F :=
  (visits.cells.arrange self.cells.keys).foldl (ageCell dtMs (self.startTick dtMs).noradrenalineActive)
    ⟨self.startTick dtMs, []⟩

/-- The second loop of a tick. -/
def dividedCells (visits : Visits F) (variation : NodeId → F) (dtMs : UInt64) (self : ClusterField F) :
    Dividing F :=
  (visits.cells.arrange self.cells.keys).foldl (divideCell variation)
    ⟨(self.agedCells visits dtMs).field.expireHormone, (self.agedCells visits dtMs).pending, []⟩

/-- What grows in a tick is what its first two loops leave, with the children attached one by one. -/
theorem growCells_startTick (visits : Visits F) (variation : NodeId → F) (dtMs : UInt64) :
    (self.startTick dtMs).growCells platform visits variation dtMs =
      (self.dividedCells visits variation dtMs).newCells.foldl (attachChild platform)
        ⟨(self.dividedCells visits variation dtMs).field,
          (self.dividedCells visits variation dtMs).pending⟩ := rfl

/-- After the first loop of a tick every cell is the one that was there, aged by the tick. -/
theorem getElem?_agedCells (visits : Visits F) (dtMs : UInt64) {id : NodeId}
    (hid : id ∈ visits.cells.arrange self.cells.keys) :
    (self.agedCells visits dtMs).field.cells[id]? = (self.cells[id]?).map (self.agedBy dtMs) :=
  getElem?_ageCells dtMs _ (nodup_arrange_keys visits self) hid

/-- Before any cell divides no child is set aside, and no id is taken. -/
theorem lags_start (visits : Visits F) (dtMs : UInt64) :
    Dividing.Lags ⟨(self.agedCells visits dtMs).field.expireHormone,
      (self.agedCells visits dtMs).pending, []⟩ self.nextId := by
  have hnext : (self.agedCells visits dtMs).field.nextId = self.nextId := nextId_ageCells dtMs _ _ _
  exact ⟨trivial, by simpa [expireHormone] using hnext⟩

/-- The second loop of a tick is a chain from the aged cells on, if the affinity of each cell that divides may
be emitted. -/
theorem chain_dividedCells (visits : Visits F) (variation : NodeId → F) (dtMs : UInt64)
    (haffinity : ∀ (id : NodeId) (cell : NodeCell F), self.cells[id]? = some cell →
      divides (self.agedBy dtMs cell) = true → permit.affinity (self.agedBy dtMs cell).memory) :
    MicroChain platform permit
        (((self.agedCells visits dtMs).field.expireHormone.lagging self.nextId).trace
          (self.agedCells visits dtMs).pending ∅)
        (((self.dividedCells visits variation dtMs).field.lagging self.nextId).trace
          (self.dividedCells visits variation dtMs).pending ∅) ∧
      (self.dividedCells visits variation dtMs).Lags self.nextId ∧
      (self.dividedCells visits variation dtMs).newCells.length = self.dividing dtMs := by
  have hdivides (id : NodeId) (hid : id ∈ visits.cells.arrange self.cells.keys) (cell : NodeCell F)
      (hcell : (self.agedCells visits dtMs).field.cells[id]? = some cell) (hdivides : divides cell = true) :
      permit.affinity cell.memory := by
    rw [getElem?_agedCells visits dtMs hid] at hcell
    obtain ⟨before, hbefore, rfl⟩ := Option.map_eq_some_iff.mp hcell
    exact haffinity id before hbefore hdivides
  obtain ⟨hchain, hlags, hlength⟩ := @chain_divideCells F platform permit _ variation self.nextId
    (visits.cells.arrange self.cells.keys) (nodup_arrange_keys visits self) _ (lags_start visits dtMs) hdivides
  refine ⟨hchain, hlags, hlength.trans ?_⟩
  -- As many cells wait as the state before the tick tells.
  rw [List.length_nil, Nat.zero_add, dividing, ← (visits.cells.perm self.cells.keys).countP_eq]
  refine List.countP_congr fun id hid => ?_
  show (((self.agedCells visits dtMs).field.cells[id]?).any divides = true ↔ _)
  rw [getElem?_agedCells visits dtMs hid, Option.any_map]

/-- The three loops that age, divide and attach are one chain: at its start all cells are stale, at its end
none is. -/
theorem chain_growCells (visits : Visits F) (variation : NodeId → F) (dtMs : UInt64)
    (h : TickPermits permit self dtMs) :
    MicroChain platform permit
      ((self.startTick dtMs).trace [] { id | id ∈ visits.cells.arrange self.cells.keys })
      (((self.startTick dtMs).growCells platform visits variation dtMs).field.trace
        ((self.startTick dtMs).growCells platform visits variation dtMs).pending ∅) := by
  have hage : MicroChain platform permit
      ((self.startTick dtMs).trace [] { id | id ∈ visits.cells.arrange self.cells.keys })
      ((self.agedCells visits dtMs).field.trace (self.agedCells visits dtMs).pending ∅) := by
    refine chain_ageCells dtMs (self.startTick dtMs).noradrenalineActive (nodup_arrange_keys visits self)
      ⟨self.startTick dtMs, []⟩ fun id hid => ?_
    obtain ⟨cell, hcell⟩ := mem_arrange_keys.mp hid
    exact ⟨cell, hcell, h.memory id cell hcell⟩
  obtain ⟨hdivide, hlags, hcount⟩ := @chain_dividedCells F platform permit self _ visits variation dtMs
    h.affinity
  rw [growCells_startTick]
  generalize self.dividedCells visits variation dtMs = divided at hdivide hlags hcount ⊢
  have hattach := @chain_attachChildren F platform permit _ divided.newCells self.nextId
    ⟨divided.field, divided.pending⟩ hlags.numbered (hcount ▸ h.room)
  -- The counter catches up when the last child has been attached.
  have hlagging : (self.agedCells visits dtMs).field.expireHormone.lagging self.nextId =
      (self.agedCells visits dtMs).field.expireHormone := by
    have hnext : (self.agedCells visits dtMs).field.nextId = self.nextId := nextId_ageCells dtMs _ _ _
    unfold lagging
    rw [← hnext]
    rfl
  have hcaught : ((divided.newCells.foldl (attachChild platform) ⟨divided.field, divided.pending⟩).field.lagging
      (self.nextId + UInt64.ofNat divided.newCells.length)) =
      (divided.newCells.foldl (attachChild platform) ⟨divided.field, divided.pending⟩).field := by
    have hlast := @nextId_attachChildren F platform _ divided.newCells ⟨divided.field, divided.pending⟩
    unfold lagging
    rw [← hlags.nextId, ← hlast]
  rw [hcaught] at hattach
  rw [hlagging] at hdivide
  exact hage.trans (hdivide.trans hattach)

/-- Burying the dead tends the books and the index, and emits nothing. -/
theorem bury_eq (purge : List NodeId) :
    (self.bury platform purge).replica = self.living.replica ∧
      (self.bury platform purge).journal = self.journal := by
  have hpurge (s : ClusterField F) (id : NodeId) :
      ((s.purgeTrackingFor id).replica, (s.purgeTrackingFor id).journal) = (s.replica, s.journal) := rfl
  have hkeeps := list_foldl_keeps (fun s : ClusterField F => (s.replica, s.journal)) hpurge purge
    (if purge ≠ [] || self.living.cells.size ≠ self.cells.size then self.living.rebuildIndex platform
      else self.living)
  obtain ⟨hreplica, hjournal⟩ := Prod.mk.inj hkeeps
  unfold bury
  rw [hreplica, hjournal]
  split
  · exact ⟨replica_rebuildIndex platform self.living, journal_rebuildIndex platform self.living⟩
  · exact ⟨rfl, rfl⟩

omit [FloatLike F] in
/-- Where no cell is dead the living part of a field is the field, as far as a trace shows it. -/
theorem living_of_alive
    (h : ∀ (id : NodeId) (cell : NodeCell F), self.cells[id]? = some cell → cell.state ≠ .dead) :
    self.living.core = self.core := by
  have hreplica : self.living.replica = self.replica := by
    refine Replica.ext (funext fun id => ?_) rfl rfl rfl rfl rfl rfl
    rw [cells_living]
    cases hcell : self.cells[id]? with
    | none => exact hcell.symm
    | some cell =>
        rw [Option.filter_some, if_pos (by simpa using h id cell hcell)]
        exact hcell.symm
  unfold core
  rw [hreplica]
  rfl

omit [FloatLike F] in
/-- At the end of a tick its deltas are emitted, and one more that no replica depends on. -/
theorem core_closing (deltas : List (EventDelta F)) (self : ClusterField F) :
    ∃ d, Replica.Inert d ∧ (deltas.foldl emit self).awakenTick.core =
      (self.replica, self.index, self.journal ++ deltas ++ [d]) := by
  obtain ⟨hreplica, hrest⟩ := Prod.mk.inj (core_foldl_emit deltas self)
  obtain ⟨hindex, hjournal⟩ := Prod.mk.inj hrest
  refine ⟨.awakenTick (deltas.foldl emit self).resonantModel.lastApplied (deltas.foldl emit self).nowMs,
    trivial, Prod.ext hreplica (Prod.ext hindex ?_)⟩
  exact congrArg (· ++ [_]) hjournal

/-- A whole tick is a chain, up to the index, which burying the dead rebuilds from the cells that are left. -/
theorem chain_tickAll (visits : Visits F) (variation : NodeId → F) (dtMs : UInt64)
    (hsound : Sound self.replica.cells) (h : TickPermits permit self dtMs) (hdead : permit.dead) :
    ∃ index, MicroChain platform permit
      (self.trace [] { id | id ∈ visits.cells.arrange self.cells.keys })
      { (self.tickAll platform visits variation dtMs).trace [] ∅ with index } := by
  -- The clock moves first, then the cells grow, rest and are buried.
  have hstart : MicroChain platform permit
      (self.trace [] { id | id ∈ visits.cells.arrange self.cells.keys })
      ((self.startTick dtMs).trace [] { id | id ∈ visits.cells.arrange self.cells.keys }) := by
    unfold startTick
    dsimp only
    rw [trace_emit]
    exact chain_of_micro (.tick (saturatingAdd self.nowMs dtMs)) rfl rfl (by simp [trace]) subset_rfl
  have hgrow := hstart.trans (@chain_growCells F platform permit self _ visits variation dtMs h)
  unfold tickAll tickCells
  dsimp only
  generalize (self.startTick dtMs).growCells platform visits variation dtMs = grown at hgrow
  have hgrown : Sound grown.field.replica.cells := sound_chain hgrow hsound
  have hrest := @chain_restCells F platform permit _ hdead (self.startTick dtMs).noradrenalineActive
    (visits.cells.arrange (self.startTick dtMs).cells.keys) ⟨grown.field, grown.pending, []⟩
  generalize (visits.cells.arrange (self.startTick dtMs).cells.keys).foldl
    (restCell (self.startTick dtMs).noradrenalineActive) ⟨grown.field, grown.pending, []⟩ = rested at hrest
  rw [trace_congr (living_of_alive fun id cell hcell => (hgrown id cell hcell).2)] at hrest
  obtain ⟨hburied, hjournal⟩ := @bury_eq F platform rested.field _ rested.purge
  -- The deltas that the tick has gathered are told at its end, with the one that closes it.
  generalize hlast : rested.pending.foldl emit _ = last
  obtain ⟨d, hinert, hcore⟩ := core_closing rested.pending _
  rw [hlast] at hcore
  obtain ⟨hreplica, hrest'⟩ := Prod.mk.inj hcore
  obtain ⟨-, hemitted⟩ := Prod.mk.inj hrest'
  refine ⟨_, hgrow.trans (hrest.trans (chain_of_micro (.inert hinert) ?_ rfl ?_ subset_rfl))⟩
  · exact hreplica.trans hburied
  · show last.awakenTick.journal ++ [] = _
    rw [List.append_nil, hemitted]
    exact congrArg (· ++ rested.pending ++ [d]) hjournal

/-- Everything is permitted but death. -/
def deathless : Permit F where
  memory _ _ := True
  memory_refl _ := trivial
  affinity _ := True
  spawn _ := True
  draw _ := True
  dead := False

/-- Burying the dead leaves the index in step with the cells: it is rebuilt where there were any. -/
theorem indexed_bury (purge : List NodeId) (h : Indexed platform self) :
    Indexed platform (self.bury platform purge) := by
  have hpurge (s : ClusterField F) (id : NodeId) :
      (s.purgeTrackingFor id).core = s.core := rfl
  have hkeeps := list_foldl_keeps core hpurge purge
    (if purge ≠ [] || self.living.cells.size ≠ self.cells.size then self.living.rebuildIndex platform
      else self.living)
  refine indexed_of_core hkeeps ?_
  split
  · exact indexed_rebuildIndex platform self.living
  · rename_i hguard
    have hsize : self.living.cells.size = self.cells.size := by
      by_contra hless
      exact hguard (by simp [hless])
    -- No cell is missing, so none was dead.
    have hall : self.living.cells = self.cells :=
      Std.ExtTreeMap.filter_eq_self_iff.mpr (Std.ExtTreeMap.size_filter_eq_size_iff.mp hsize)
    have hsame : self.living = self := congrArg (fun cells => { self with cells }) hall
    rw [hsame]
    exact h

/-- Of what a replay restores, a tick leaves what is there when the dead are buried. -/
theorem tickAll_bury (visits : Visits F) (variation : NodeId → F) (dtMs : UInt64) :
    (self.tickAll platform visits variation dtMs).replica =
        (((self.startTick dtMs).tickCells platform visits variation dtMs).field.bury platform
          ((self.startTick dtMs).tickCells platform visits variation dtMs).purge).replica ∧
      (self.tickAll platform visits variation dtMs).index =
        (((self.startTick dtMs).tickCells platform visits variation dtMs).field.bury platform
          ((self.startTick dtMs).tickCells platform visits variation dtMs).purge).index := by
  unfold tickAll
  dsimp only
  generalize (self.startTick dtMs).tickCells platform visits variation dtMs = rested
  generalize hlast : rested.pending.foldl emit _ = last
  obtain ⟨d, -, hcore⟩ := core_closing rested.pending _
  rw [hlast] at hcore
  obtain ⟨hreplica, hrest⟩ := Prod.mk.inj hcore
  exact ⟨hreplica, (Prod.mk.inj hrest).1⟩

/-- Before its cells rest, a tick is a chain of steps without a death; then labels are kept. -/
theorem chain_keeps_tickCells (visits : Visits F) (variation : NodeId → F) (dtMs : UInt64) :
    ∃ grown : Batch F,
      MicroChain platform deathless
        ((self.startTick dtMs).trace [] { id | id ∈ visits.cells.arrange self.cells.keys })
        (grown.field.trace grown.pending ∅) ∧
      Resting.Keeps ⟨grown.field, grown.pending, []⟩
        ((self.startTick dtMs).tickCells platform visits variation dtMs) := by
  have hpermits : TickPermits deathless self dtMs :=
    ⟨fun _ _ _ => trivial, fun _ _ _ _ => trivial, fun _ _ => trivial⟩
  refine ⟨_, @chain_growCells F platform deathless self _ visits variation dtMs hpermits, ?_⟩
  unfold tickCells
  exact keeps_restCells _ _ ⟨rfl, fun _ => rfl⟩

/-- A tick leaves no dead cell. -/
theorem sound_tickAll (visits : Visits F) (variation : NodeId → F) (dtMs : UInt64)
    (h : InPlace self.replica.cells) :
    Sound (self.tickAll platform visits variation dtMs).replica.cells := by
  obtain ⟨hreplica, -⟩ := @tickAll_bury F platform self _ visits variation dtMs
  obtain ⟨grown, hgrow, hkeeps⟩ := @chain_keeps_tickCells F platform self _ visits variation dtMs
  have hgrown : InPlace grown.field.replica.cells := inPlace_chain hgrow h
  generalize (self.startTick dtMs).tickCells platform visits variation dtMs = rested
    at hreplica hkeeps
  rw [hreplica, (bury_eq rested.purge).1]
  intro id cell hcell
  rw [cells_living, Option.filter_eq_some_iff] at hcell
  obtain ⟨hrested, halive⟩ := hcell
  refine ⟨?_, of_decide_eq_true halive⟩
  have hlabel := hkeeps.label id
  rw [hrested, Option.map_some, eq_comm, Option.map_eq_some_iff] at hlabel
  obtain ⟨before, hbefore, heq⟩ := hlabel
  exact (Prod.mk.inj heq).1 ▸ hgrown id before hbefore

/-- A tick keeps the index in step with the cells, whatever grows and dies in it. -/
theorem indexed_tickAll (visits : Visits F) (variation : NodeId → F) (dtMs : UInt64)
    (h : Indexed platform self) :
    Indexed platform (self.tickAll platform visits variation dtMs) := by
  obtain ⟨hreplica, hindex⟩ := @tickAll_bury F platform self _ visits variation dtMs
  obtain ⟨grown, hgrow, hkeeps⟩ := @chain_keeps_tickCells F platform self _ visits variation dtMs
  have hgrown := listed_chain (fun hdead => hdead) hgrow h
  generalize (self.startTick dtMs).tickCells platform visits variation dtMs = rested
    at hreplica hindex hkeeps
  have hrested : Indexed platform rested.field := by
    unfold Indexed
    rw [hkeeps.index]
    refine listed_congr hgrown fun id => ?_
    have hlabel := congrArg (Option.map Prod.snd) (hkeeps.label id)
    rw [Option.map_map, Option.map_map] at hlabel
    exact hlabel
  unfold Indexed
  rw [hreplica, hindex]
  exact indexed_bury rested.purge hrested

end ClusterField

end LiminalDB
