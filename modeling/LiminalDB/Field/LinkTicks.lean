import LiminalDB.Field.LinkCalls

/-! # Link tracking through ticks and trimming

A tick and trimming bury cells. Their links and the links to them leave the books, but burying enters
every link that is left, those to cells buried earlier among them. Where each cell with such a link is
buried too, the books stay tidy. -/

namespace LiminalDB

variable {F : Type} [FloatLike F]

namespace ClusterField

variable {platform : Platform F} {self self' : ClusterField F}

/-! ## Growing -/

/-- Ageing a cell touches neither links nor their scores, so what the tracking of links depends on stays as it
is. -/
theorem linking_ageCell (dtMs : UInt64) (hormone : Option (NoradrenalineEffect F)) (acc : Batch F)
    (id : NodeId) : (ageCell dtMs hormone acc id).field.linking = acc.field.linking := by
  unfold ageCell
  cases hcell : acc.field.cells[id]? with
  | none => rfl
  | some cell => exact linking_setCell hcell (tweaks_aged acc.field dtMs hormone cell).links

/-- Dividing keeps the books, and the children wait without links. -/
theorem divideCell_keeps (variation : NodeId → F) (acc : Dividing F) (id : NodeId) :
    (divideCell variation acc id).field.books = acc.field.books ∧
      ((∀ new ∈ acc.newCells, new.2.links = ∅) →
        ∀ new ∈ (divideCell variation acc id).newCells, new.2.links = ∅) := by
  unfold divideCell
  cases hcell : acc.field.cells[id]? with
  | none => exact ⟨rfl, fun h => h⟩
  | some cell =>
      dsimp only [NodeCell.maybeDivide]
      by_cases hguard : (decide (cell.state ≠ .active) || decide (cell.energy ≤ 0.8)) = true
      · rw [if_pos hguard]
        exact ⟨rfl, fun h => h⟩
      · rw [if_neg hguard]
        have hset := @linking_setCell F acc.field id cell { cell with energy := cell.energy * 0.55 } hcell rfl
        refine ⟨congrArg Prod.fst hset, fun h new hnew => ?_⟩
        rcases List.mem_append.mp hnew with hold | hnew
        · exact h new hold
        · obtain rfl := List.mem_singleton.mp hnew
          rfl

/-- What decides whether a cell dies when it rests, besides the clock. -/
def stamina (cell : NodeCell F) : NodeState × F × UInt64 := (cell.state, cell.energy, cell.lastResponseMs)

/-- What is there stays there with its stamina, and no more links dangle. -/
structure Outgrown (before after : ClusterField F) : Prop where
  nowMs : after.nowMs = before.nowMs
  dangling : ∀ x y, after.books.Dangling x y → before.books.Dangling x y
  stamina : ∀ (id : NodeId) (cell : NodeCell F), before.cells[id]? = some cell →
    ∃ cell' : NodeCell F, after.cells[id]? = some cell' ∧ stamina cell' = stamina cell

omit [FloatLike F] in
/-- A field outgrows itself: nothing has been added. -/
theorem Outgrown.refl (self : ClusterField F) : Outgrown self self :=
  ⟨rfl, fun _ _ h => h, fun _ cell hcell => ⟨cell, hcell, rfl⟩⟩

omit [FloatLike F] in
/-- Outgrowing goes on from one field to the next. -/
theorem Outgrown.trans {a b c : ClusterField F} (h : Outgrown a b) (h' : Outgrown b c) : Outgrown a c := by
  refine ⟨h'.nowMs.trans h.nowMs, fun x y hdangling => h.dangling x y (h'.dangling x y hdangling), ?_⟩
  intro id cell hcell
  obtain ⟨cell', hcell', hsame⟩ := h.stamina id cell hcell
  obtain ⟨cell'', hcell'', hsame'⟩ := h'.stamina id cell' hcell'
  exact ⟨cell'', hcell'', hsame'.trans hsame⟩

/-- Linking a child to its parent is the two-sided link that the rest of the field makes as well. -/
theorem linkChild_addLink (acc : Batch F) (parent child : NodeId) :
    (linkChild acc parent child).field = acc.field.addLink parent child := by
  unfold linkChild addLink
  cases hcell : acc.field.cells[parent]? with
  | none => rfl
  | some cell =>
      dsimp only
      split <;> rfl

/-- Attaching a child enters its cell, and its number among the links of the parent. -/
theorem replica_attachChild (acc : Batch F) (new : NodeId × NodeCell F) :
    (attachChild platform acc new).field.replica =
      (acc.field.replica.alter new.1 (·.link new.2.id)).set new.2.id new.2 := by
  unfold attachChild
  dsimp only
  rw [replica_attachCell, (linkChild_eq acc new.1 new.2.id).1]

/-- A child that is attached leaves every other cell as strong as it was: only the links of one may grow. -/
theorem stamina_attachChild {acc : Batch F} {new : NodeId × NodeCell F} {id : NodeId} (hne : id ≠ new.2.id)
    {cell : NodeCell F} (hcell : acc.field.cells[id]? = some cell) :
    ∃ cell' : NodeCell F, (attachChild platform acc new).field.cells[id]? = some cell' ∧
      stamina cell' = stamina cell := by
  have hlook : (attachChild platform acc new).field.replica.cells id =
      Function.update acc.field.replica.cells new.1
        ((acc.field.replica.cells new.1).map (·.link new.2.id)) id := by
    rw [replica_attachChild, Replica.cells_set, Replica.cells_alter, Function.update_of_ne hne]
  have hcell : acc.field.replica.cells id = some cell := hcell
  by_cases hparent : id = new.1
  · subst hparent
    rw [Function.update_self, hcell] at hlook
    exact ⟨_, hlook, rfl⟩
  · rw [Function.update_of_ne hparent, hcell] at hlook
    exact ⟨cell, hlook, rfl⟩

/-- A child is attached: it takes an id that is new, and its parent is linked to it. -/
theorem booked_attachChild {acc : Batch F} {new : NodeId × NodeCell F}
    (hlinks : new.2.links = ∅) (hnext : new.2.id < new.2.id + 1)
    (h : Booked (acc.field.lagging new.2.id)) :
    Booked ((attachChild platform acc new).field.lagging (new.2.id + 1)) ∧
      Outgrown acc.field (attachChild platform acc new).field := by
  -- Nothing is booked under the id that is still to be given.
  have hunused : ¬ acc.field.books.Occurs new.2.id := h.unused
  have hbooks : (attachChild platform acc new).field.books =
      (acc.field.books.link new.1 new.2.id).attach new.2.id new.2.targets := by
    unfold attachChild
    dsimp only
    rw [books_attachCell, linkChild_addLink, books_addLink]
  have hattached : Booked { acc.field.attachCell platform new.2 with nextId := new.2.id + 1 } :=
    booked_attachNew h hunused hlinks hnext (fun id hlt => UInt64.lt_trans hlt hnext)
      (books_attachCell platform new.2)
  have hattachedBooks : ({ acc.field.attachCell platform new.2 with nextId := new.2.id + 1 } :
      ClusterField F).books = acc.field.books.attach new.2.id new.2.targets :=
    books_attachCell platform new.2
  have houtgrown (hdangling : ∀ x y, (attachChild platform acc new).field.books.Dangling x y →
      acc.field.books.Dangling x y) : Outgrown acc.field (attachChild platform acc new).field := by
    refine ⟨congrArg Replica.nowMs (replica_attachChild acc new), hdangling, fun id cell hcell => ?_⟩
    exact stamina_attachChild (fun heq => hunused (heq ▸ Or.inl (there_books.mpr ⟨cell, hcell⟩))) hcell
  -- A new cell has no links, so that no entry dangles that did not before.
  have hnone (x y : NodeId) (hdangling : (acc.field.books.attach new.2.id new.2.targets).Dangling x y) :
      acc.field.books.Dangling x y := by
    obtain ⟨hedge, hgone⟩ := hdangling
    rw [EdgeBooks.there_attach, not_or] at hgone
    rcases EdgeBooks.edge_attach.mp hedge with ⟨-, hold⟩ | ⟨-, hnew⟩
    · exact ⟨hold, hgone.1⟩
    · rw [targets_empty hlinks] at hnew
      cases hnew
  -- The parent is linked to the child if it is still there.
  by_cases hparent : acc.field.books.There new.1
  · have hne : new.1 ≠ new.2.id := fun heq => hunused (heq ▸ Or.inl hparent)
    have hchild : (acc.field.books.attach new.2.id new.2.targets).There new.2.id :=
      EdgeBooks.there_attach.mpr (Or.inr rfl)
    -- It makes no difference to the books that the link is added before the child is.
    rw [EdgeBooks.attach_link_comm hne] at hbooks
    constructor
    · refine @Booked.link F _ _ hattached new.1 new.2.id ?_ rfl fun _ => Or.inr ?_
      · rw [hattachedBooks]
        exact hbooks
      · rw [hattachedBooks]
        exact hchild
    · refine houtgrown fun x y hdangling => ?_
      rw [hbooks] at hdangling
      exact hnone x y (hdangling.of_link hchild)
  · have hsame : acc.field.books.link new.1 new.2.id = acc.field.books := if_neg fun hnew => hparent hnew.1
    rw [hsame] at hbooks
    refine ⟨hattached.of_linking (Prod.ext (hbooks.trans hattachedBooks.symm) rfl), ?_⟩
    exact houtgrown fun x y hdangling => hnone x y (hbooks ▸ hdangling)

/-- By induction over the newly born, attaching them one after the other keeps the books in order, if their
numbers are new ones and they come without links. -/
theorem booked_attachChildren (newCells : List (NodeId × NodeCell F)) (nextId : NodeId) (acc : Batch F)
    (hnumbered : Numbered nextId newCells) (hlinks : ∀ new ∈ newCells, new.2.links = ∅)
    (hroom : Room (counted : Permit F) nextId newCells.length) (h : Booked (acc.field.lagging nextId)) :
    Booked ((newCells.foldl (attachChild platform) acc).field.lagging
        (nextId + UInt64.ofNat newCells.length)) ∧
      Outgrown acc.field (newCells.foldl (attachChild platform) acc).field := by
  induction newCells generalizing nextId acc with
  | nil =>
      refine ⟨h.of_linking ?_, Outgrown.refl _⟩
      simp [linking, lagging, books, replica]
  | cons new newCells ih =>
      obtain ⟨hid, hnew, hrest⟩ := hnumbered
      obtain ⟨hnone, hlinks⟩ := List.forall_mem_cons.mp hlinks
      rw [List.length_cons, Nat.add_comm] at hroom ⊢
      have hone : nextId + 1 = nextId + UInt64.ofNat 1 := rfl
      have hhead : nextId < nextId + 1 := by
        rw [Nat.add_comm] at hroom
        exact hroom.head
      obtain ⟨hbooked, hgrown⟩ := @booked_attachChild F _ platform acc new hnone (hid ▸ hhead) (hid ▸ h)
      rw [hid] at hbooked
      obtain ⟨hlast, hall⟩ := ih (nextId + 1) _ hrest hlinks (hone ▸ hroom.right) hbooked
      rw [List.foldl_cons, UInt64.ofNat_add, ← UInt64.add_assoc]
      exact ⟨hlast, hgrown.trans hall⟩

/-- A cell that divides is looked at once, for the ids of a pass are distinct, and what is left of it is the
parent's half. -/
theorem getElem?_divideCells (variation : NodeId → F) {ids : List NodeId} (hids : ids.Nodup)
    {acc : Dividing F} {id : NodeId} (hid : id ∈ ids) :
    (ids.foldl (divideCell variation) acc).field.cells[id]? =
      (acc.field.cells[id]?).map fun cell => (cell.maybeDivide (variation id)).1 := by
  induction ids generalizing acc with
  | nil => cases hid
  | cons first ids ih =>
      obtain ⟨hfirst, hids⟩ := List.nodup_cons.mp hids
      rw [List.foldl_cons]
      rcases List.mem_cons.mp hid with rfl | hid
      · refine (look_foldl_of_forall_ne (fun id => id) (fun acc : Dividing F => (acc.field.cells[·]?))
          (getElem?_divideCell_of_ne variation)
          (fun other hother (heq : id = other) => hfirst (heq ▸ hother)) _).trans ?_
        unfold divideCell
        cases hcell : acc.field.cells[id]? with
        | none => exact hcell
        | some cell =>
            dsimp only [NodeCell.maybeDivide, Option.map_some]
            by_cases hguard : (decide (cell.state ≠ .active) || decide (cell.energy ≤ 0.8)) = true
            · rw [if_pos hguard]
              exact hcell
            · rw [if_neg hguard]
              exact Std.ExtTreeMap.getElem?_insert_self
      · have hne : id ≠ first := fun heq => hfirst (heq ▸ hid)
        rw [ih hids hid, getElem?_divideCell_of_ne variation acc first id hne]

/-- The cells have aged and divided, and none has changed its links. -/
theorem dividedCells_keeps (visits : Visits F) (variation : NodeId → F) (dtMs : UInt64) :
    (self.dividedCells visits variation dtMs).field.books = self.books ∧
      (self.dividedCells visits variation dtMs).field.nowMs = (self.startTick dtMs).nowMs ∧
      ∀ new ∈ (self.dividedCells visits variation dtMs).newCells, new.2.links = ∅ := by
  have haged : (self.agedCells visits dtMs).field.linking = self.linking :=
    list_foldl_keeps (fun acc : Batch F => acc.field.linking) (linking_ageCell dtMs _) _ _
  have hclock (acc : Batch F) (id : NodeId) :
      (ageCell dtMs (self.startTick dtMs).noradrenalineActive acc id).field.nowMs = acc.field.nowMs := by
    unfold ageCell
    cases acc.field.cells[id]? <;> rfl
  have hnow : (self.agedCells visits dtMs).field.nowMs = (self.startTick dtMs).nowMs :=
    list_foldl_keeps (fun acc : Batch F => acc.field.nowMs) hclock _ _
  have hdivide (acc : Dividing F) (id : NodeId) :
      (divideCell variation acc id).field.nowMs = acc.field.nowMs := by
    unfold divideCell
    cases acc.field.cells[id]? with
    | none => rfl
    | some cell =>
        dsimp only
        split <;> rfl
  have hbooks (acc : Dividing F) (id : NodeId) :
      (divideCell variation acc id).field.books = acc.field.books := (divideCell_keeps variation acc id).1
  refine ⟨?_, ?_, ?_⟩
  · exact (list_foldl_keeps (fun acc : Dividing F => acc.field.books) hbooks _ _).trans
      (congrArg Prod.fst haged)
  · exact (list_foldl_keeps (fun acc : Dividing F => acc.field.nowMs) hdivide _ _).trans hnow
  · exact List.foldlRecOn (motive := fun acc : Dividing F => ∀ new ∈ acc.newCells, new.2.links = ∅) _ _
      (fun _ hnew => by cases hnew) fun acc hacc id _ => (divideCell_keeps variation acc id).2 hacc

/-- A cell after the first two loops of a tick. -/
def dividedBy (self : ClusterField F) (dtMs : UInt64) (variation : F) (cell : NodeCell F) : NodeCell F :=
  ((self.agedBy dtMs cell).maybeDivide variation).1

/-- What the first three loops of a tick leave of what was there. -/
theorem booked_growCells (visits : Visits F) (variation : NodeId → F) (dtMs : UInt64)
    (hroom : self.HasRoom (self.dividing dtMs)) (h : Booked self) :
    let grown := ((self.startTick dtMs).growCells platform visits variation dtMs).field
    Booked grown ∧ grown.nowMs = (self.startTick dtMs).nowMs ∧
      (∀ x y, grown.books.Dangling x y → self.books.Dangling x y) ∧
      ∀ (id : NodeId) (cell : NodeCell F), self.cells[id]? = some cell →
        ∃ cell' : NodeCell F, grown.cells[id]? = some cell' ∧
          stamina cell' = stamina (self.dividedBy dtMs (variation id) cell) := by
  obtain ⟨-, hlags, hcount⟩ := @chain_dividedCells F platform counted self _ visits variation dtMs
    fun _ _ _ _ => trivial
  obtain ⟨hbooks, hnow, hlinks⟩ := @dividedCells_keeps F _ self visits variation dtMs
  -- Every cell is aged and divided once.
  have hlook (id : NodeId) (cell : NodeCell F) (hcell : self.cells[id]? = some cell) :
      (self.dividedCells visits variation dtMs).field.cells[id]? =
        some (self.dividedBy dtMs (variation id) cell) := by
    have hid : id ∈ visits.cells.arrange self.cells.keys := mem_arrange_keys.mpr ⟨cell, hcell⟩
    refine (getElem?_divideCells variation (nodup_arrange_keys visits self) hid).trans ?_
    show ((self.agedCells visits dtMs).field.cells[id]?).map _ = _
    rw [getElem?_agedCells visits dtMs hid, hcell]
    rfl
  dsimp only
  rw [growCells_startTick]
  generalize self.dividedCells visits variation dtMs = divided at hlags hcount hbooks hnow hlinks hlook ⊢
  have hstart : Booked (divided.field.lagging self.nextId) := h.of_linking (Prod.ext hbooks rfl)
  obtain ⟨hbooked, hgrown⟩ := @booked_attachChildren F _ platform divided.newCells self.nextId
    ⟨divided.field, divided.pending⟩ hlags.numbered hlinks (hcount ▸ room_of_hasRoom hroom) hstart
  have hlast := @nextId_attachChildren F platform _ divided.newCells ⟨divided.field, divided.pending⟩
  -- When the last child has been given its id, the field has caught up with its ids.
  have hcaught : self.nextId + UInt64.ofNat divided.newCells.length =
      (divided.newCells.foldl (attachChild platform) ⟨divided.field, divided.pending⟩).field.nextId :=
    hlags.nextId.symm.trans hlast.symm
  rw [hcaught] at hbooked
  refine ⟨hbooked, hgrown.nowMs.trans hnow, fun x y hdangling => hbooks ▸ hgrown.dangling x y hdangling,
    fun id cell hcell => hgrown.stamina id _ (hlook id cell hcell)⟩

/-! ## Rest -/

/-- Whether a cell dies when it rests. -/
def expires (nowMs : UInt64) (cell : NodeCell F) : Bool :=
  cell.state ≠ .dead && cell.energy < 0.05 && 6000 < saturatingSub nowMs cell.lastResponseMs

/-- Whether a cell dies in a pass is read off its stamina before it. -/
theorem died_maybeSleepOrDie (cell : NodeCell F) (nowMs : UInt64) (shift : F) :
    (cell.maybeSleepOrDie nowMs shift).2 = expires nowMs cell := by
  unfold NodeCell.maybeSleepOrDie expires
  by_cases hdead : cell.state = .dead
  · rw [if_pos hdead]
    simp [hdead]
  · rw [if_neg hdead]
    dsimp only
    split <;> split <;> simp_all

/-- Two cells of the same stamina expire at the same time. -/
theorem expires_congr {nowMs : UInt64} {cell cell' : NodeCell F} (h : stamina cell' = stamina cell) :
    expires nowMs cell' = expires nowMs cell := by
  obtain ⟨hstate, hrest⟩ := Prod.mk.inj h
  obtain ⟨henergy, hresponse⟩ := Prod.mk.inj hrest
  unfold expires
  rw [hstate, henergy, hresponse]

/-- A cell is dead when it is to be buried, and only then. -/
def Resting.Marks (acc : Resting F) : Prop :=
  ∀ (id : NodeId) (cell : NodeCell F), acc.field.cells[id]? = some cell →
    (cell.state = .dead ↔ id ∈ acc.purge)

/-- Sleeping and dying leave the links of a cell as they are. -/
theorem links_maybeSleepOrDie (cell : NodeCell F) (nowMs : UInt64) (shift : F) :
    (cell.maybeSleepOrDie nowMs shift).1.links = cell.links := by
  unfold NodeCell.maybeSleepOrDie
  dsimp only
  split
  · rfl
  · split <;> split <;> rfl

/-- A pass that lets a cell rest or die touches no link, no score and no usage. -/
theorem linking_restCell (hormone : Option (NoradrenalineEffect F)) (acc : Resting F) (id : NodeId) :
    (restCell hormone acc id).field.linking = acc.field.linking := by
  unfold restCell
  cases hcell : acc.field.cells[id]? with
  | none => rfl
  | some cell => exact linking_setCell hcell (links_maybeSleepOrDie cell _ _)

/-- A cell that is there rests as it would alone, and is put on the list of the dead exactly if it has
expired. -/
theorem restCell_of_some (hormone : Option (NoradrenalineEffect F)) {acc : Resting F} {id : NodeId}
    {cell : NodeCell F} (hcell : acc.field.cells[id]? = some cell) :
    (restCell hormone acc id).field = acc.field.setCell id
        (cell.maybeSleepOrDie acc.field.nowMs (acc.field.sleepShift hormone cell)).1 ∧
      (restCell hormone acc id).purge =
        if expires acc.field.nowMs cell then acc.purge ++ [id] else acc.purge := by
  unfold restCell
  rw [hcell]
  dsimp only
  refine ⟨rfl, ?_⟩
  rw [died_maybeSleepOrDie]
  refine if_congr (Eq.to_iff (congrArg (· = true) ?_)) rfl rfl
  unfold expires
  by_cases hdead : cell.state = .dead <;> simp [hdead]

/-- The cells to be buried are those that die, as they were before. -/
theorem mem_purge_restCells (hormone : Option (NoradrenalineEffect F)) {ids : List NodeId} (hids : ids.Nodup)
    (acc : Resting F) (id : NodeId) :
    id ∈ (ids.foldl (restCell hormone) acc).purge ↔
      id ∈ acc.purge ∨ id ∈ ids ∧ (acc.field.cells[id]?).any (expires acc.field.nowMs) = true := by
  induction ids generalizing acc with
  | nil => simp
  | cons first ids ih =>
      obtain ⟨hfirst, hids⟩ := List.nodup_cons.mp hids
      rw [List.foldl_cons, ih hids, List.mem_cons]
      cases hcell : acc.field.cells[first]? with
      | none =>
          have hsame : restCell hormone acc first = acc := by
            unfold restCell
            rw [hcell]
          rw [hsame]
          refine or_congr_right ⟨fun ⟨hmem, hdies⟩ => ⟨Or.inr hmem, hdies⟩, ?_⟩
          rintro ⟨rfl | hmem, hdies⟩
          · simp [hcell] at hdies
          · exact ⟨hmem, hdies⟩
      | some cell =>
          obtain ⟨hfield, hpurge⟩ := restCell_of_some hormone hcell
          rw [hfield, hpurge]
          -- No cell comes twice: the rest of the list says nothing about the first.
          by_cases heq : id = first
          · subst heq
            have hnow : (acc.field.cells[id]?).any (expires acc.field.nowMs) =
                expires acc.field.nowMs cell := by rw [hcell, Option.any_some]
            rw [hnow]
            by_cases hdies : expires acc.field.nowMs cell = true <;> simp [hdies, hfirst]
          · have hother : (acc.field.setCell first (cell.maybeSleepOrDie acc.field.nowMs
                (acc.field.sleepShift hormone cell)).1).cells[id]? = acc.field.cells[id]? :=
              getElem?_setCell_of_ne heq _
            have hmem : (id ∈ if expires acc.field.nowMs cell = true then acc.purge ++ [first]
                else acc.purge) ↔ id ∈ acc.purge := by
              split <;> simp [heq]
            rw [hother, hmem, or_iff_right heq]
            rfl

/-- The list of the dead names the expired cells of the field, after every cell that is visited. -/
theorem marks_restCell (hormone : Option (NoradrenalineEffect F)) {acc : Resting F} (h : acc.Marks)
    (id : NodeId) : (restCell hormone acc id).Marks := by
  cases hcell : acc.field.cells[id]? with
  | none =>
      have hsame : restCell hormone acc id = acc := by
        unfold restCell
        rw [hcell]
      rw [hsame]
      exact h
  | some cell =>
      obtain ⟨hfield, hpurge⟩ := restCell_of_some hormone hcell
      intro other after hafter
      rw [hfield] at hafter
      rw [hpurge]
      by_cases heq : other = id
      · subst heq
        rw [setCell, Std.ExtTreeMap.getElem?_insert_self] at hafter
        obtain rfl := Option.some.inj hafter
        have hmarked := h other cell hcell
        -- A dead cell is left as it is; one that lives may die now, and is marked if it does.
        by_cases hdead : cell.state = .dead
        · have hsame : cell.maybeSleepOrDie acc.field.nowMs (acc.field.sleepShift hormone cell) =
              (cell, false) := if_pos hdead
          rw [hsame]
          have hlives : expires acc.field.nowMs cell = false := by simp [expires, hdead]
          rw [hlives]
          exact hmarked
        · have hdied := died_maybeSleepOrDie cell acc.field.nowMs (acc.field.sleepShift hormone cell)
          rcases maybeSleepOrDie_cases hdead acc.field.nowMs (acc.field.sleepShift hormone cell) with
            ⟨hdies, hgone⟩ | ⟨hlives, -, halive, -⟩
          · rw [if_pos (hdied ▸ hdies)]
            exact iff_of_true hgone (by simp)
          · rw [if_neg (by rw [← hdied, hlives]; exact Bool.false_ne_true)]
            exact iff_of_false halive fun hmem => hdead (hmarked.mpr hmem)
      · rw [getElem?_setCell_of_ne heq] at hafter
        refine (h other after hafter).trans ?_
        split <;> simp [heq]

omit [FloatLike F] in
/-- Cells are gone, and the others have kept their links. -/
theorem books_remove {gone : Set NodeId} (hgone : ∀ id ∈ gone, self'.cells[id]? = none)
    (hkept : ∀ id ∉ gone, (self'.cells[id]?).map NodeCell.targets = (self.cells[id]?).map NodeCell.targets)
    (husage : self'.linkUsage = self.linkUsage) (hscores : self'.linkScores = self.linkScores)
    (hroutes : self'.routeUsage = self.routeUsage) : self'.books = self.books.remove gone := by
  unfold books EdgeBooks.remove
  rw [husage, hscores, hroutes]
  refine EdgeBooks.ext (funext fun id => ?_) rfl rfl rfl
  by_cases hmem : id ∈ gone
  · exact (congrArg (Option.map NodeCell.targets) (hgone id hmem)).trans (if_pos hmem).symm
  · exact (hkept id hmem).trans (if_neg hmem).symm

omit [FloatLike F] in
/-- Cells are buried, and every link that dangles is one of theirs. -/
theorem Booked.bury (h : Booked self) {gone : Set NodeId} (hbooks : self'.books = self.books.bury gone)
    (hnextId : self'.nextId = self.nextId)
    (hsafe : ∀ x y, self.books.Dangling x y → x ∈ gone ∨ y ∈ gone) : Booked self' := by
  refine ⟨hbooks ▸ h.tidy.bury hsafe, fun id hoccurs => ?_⟩
  rw [hbooks] at hoccurs
  rw [hnextId]
  exact h.below id (hoccurs.of_subset (fun hthere => (EdgeBooks.there_bury.mp hthere).1)
    fun _ hedge => (EdgeBooks.edge_bury.mp hedge).1)

/-- The dead are buried: where one of them is, every cell with a link that dangles is another. -/
theorem booked_bury {acc : Resting F} (hmarks : acc.Marks)
    (hsafe : acc.purge ≠ [] → ∀ x y, acc.field.books.Dangling x y → x ∈ acc.purge) (h : Booked acc.field) :
    Booked (acc.field.bury platform acc.purge) := by
  have hnextId : (acc.field.bury platform acc.purge).nextId = acc.field.nextId :=
    congrArg Replica.nextId (@bury_eq F platform acc.field _ acc.purge).1
  have hliving (id : NodeId) : acc.field.living.cells[id]? =
      (acc.field.cells[id]?).filter fun cell => cell.state ≠ .dead := cells_living acc.field id
  -- Without the dead, the books are those that the purge leaves.
  have hremoved : acc.field.living.books = acc.field.books.remove { id | id ∈ acc.purge } := by
    refine books_remove (fun id hmem => ?_) (fun id hmem => ?_) rfl rfl rfl
    · rw [hliving, Option.filter_eq_none_iff]
      intro cell hcell
      simp [(hmarks id cell hcell).mpr hmem]
    · refine congrArg (Option.map NodeCell.targets) ((hliving id).trans ?_)
      cases hcell : acc.field.cells[id]? with
      | none => rfl
      | some cell =>
          rw [Option.filter_some, if_pos]
          exact decide_eq_true fun hdead => hmem ((hmarks id cell hcell).mp hdead)
  -- Where nobody has died, nothing is buried and the books are not rebuilt.
  by_cases hnobody : acc.purge = []
  · have hall : acc.field.living.cells = acc.field.cells := by
      refine Std.ExtTreeMap.filter_eq_self_iff.mpr fun id hid => decide_eq_true fun hdead => ?_
      have hmem := (hmarks id _ (Std.ExtTreeMap.getElem?_eq_some_getElem hid)).mp hdead
      rw [hnobody] at hmem
      cases hmem
    have hsame : acc.field.bury platform acc.purge = acc.field := by
      have hfield : acc.field.living = acc.field := congrArg (fun cells => { acc.field with cells }) hall
      unfold bury
      rw [hnobody, hfield]
      simp
    exact hsame.symm ▸ h
  · refine h.bury ?_ hnextId fun x y hdangling => Or.inl (hsafe hnobody x y hdangling)
    unfold bury
    rw [books_purgeAll, if_pos (by simp [hnobody]), books_rebuildIndex, hremoved]
    rfl

/-! ## Ticks and trimming -/

/-- Whether a cell dies in a tick. -/
def falls (self : ClusterField F) (variation : NodeId → F) (dtMs : UInt64) (id : NodeId) : Bool :=
  (self.cells[id]?).any fun cell =>
    expires (saturatingAdd self.nowMs dtMs) (self.dividedBy dtMs (variation id) cell)

/-- Where one cell dies in a tick, every cell with a link that dangles dies too. -/
theorem booked_tickAll (visits : Visits F) (variation : NodeId → F) (dtMs : UInt64)
    (hsound : Sound self.replica.cells) (hroom : self.HasRoom (self.dividing dtMs))
    (hsafe : ∀ id, self.falls variation dtMs id = true → ∀ x y, self.books.Dangling x y →
      self.falls variation dtMs x = true) (h : Booked self) :
    Booked (self.tickAll platform visits variation dtMs) := by
  obtain ⟨hbooked, hnow, hdangling, hstamina⟩ :=
    @booked_growCells F _ platform self visits variation dtMs hroom h
  have hgrown := sound_chain (@chain_growCells F platform deathless self _ visits variation dtMs
    ⟨fun _ _ _ => trivial, fun _ _ _ _ => trivial, fun _ _ => trivial⟩) hsound
  have hbury : Booked (((self.startTick dtMs).tickCells platform visits variation dtMs).field.bury platform
      ((self.startTick dtMs).tickCells platform visits variation dtMs).purge) := by
    unfold tickCells
    dsimp only
    generalize (self.startTick dtMs).growCells platform visits variation dtMs = grown
      at hbooked hnow hdangling hstamina hgrown
    have hpurge (id : NodeId) := mem_purge_restCells (self.startTick dtMs).noradrenalineActive
      (nodup_arrange_keys visits self) ⟨grown.field, grown.pending, []⟩ id
    -- The cells that die are those that the state before the tick tells.
    have hfalls (id : NodeId) : id ∈ (List.foldl (restCell (self.startTick dtMs).noradrenalineActive)
        ⟨grown.field, grown.pending, []⟩ (visits.cells.arrange self.cells.keys)).purge ↔
        self.falls variation dtMs id = true := by
      rw [hpurge, mem_arrange_keys, or_iff_right List.not_mem_nil, falls]
      cases hcell : self.cells[id]? with
      | none => simp
      | some cell =>
          obtain ⟨cell', hcell', hsame⟩ := hstamina id cell hcell
          rw [hcell', hnow, Option.any_some, Option.any_some, expires_congr hsame]
          exact and_iff_right ⟨cell, rfl⟩
    have hmarks : Resting.Marks (List.foldl (restCell (self.startTick dtMs).noradrenalineActive)
        ⟨grown.field, grown.pending, []⟩ (visits.cells.arrange self.cells.keys)) :=
      List.foldlRecOn (motive := fun acc : Resting F => acc.Marks) _ _
        (fun id cell hcell => iff_of_false (hgrown id cell hcell).2 List.not_mem_nil)
        fun acc hacc id _ => marks_restCell _ hacc id
    have hlinking : (List.foldl (restCell (self.startTick dtMs).noradrenalineActive)
        ⟨grown.field, grown.pending, []⟩ (visits.cells.arrange self.cells.keys)).field.linking =
          grown.field.linking :=
      list_foldl_keeps (fun acc : Resting F => acc.field.linking) (linking_restCell _) _ _
    refine booked_bury hmarks (fun hsome x y hlost => ?_) (hbooked.of_linking hlinking)
    have hlost := (congrArg (fun linking => linking.1.Dangling x y) hlinking).mp hlost
    obtain ⟨id, hid⟩ := List.exists_mem_of_ne_nil _ hsome
    exact (hfalls x).mpr (hsafe id ((hfalls id).mp hid) x y (hdangling x y hlost))
  unfold tickAll
  dsimp only
  generalize (self.startTick dtMs).tickCells platform visits variation dtMs = rested at hbury
  exact hbury.of_linking (linking_foldl_emit rested.pending _)

/-- Whether trimming drops a cell. -/
def dropped (self : ClusterField F) (dozes dies : NodeId → Bool) (id : NodeId) : Bool :=
  (self.cells[id]?).any fun cell => !isRetained (doze self.nowMs (dozes id) (dies id) cell)

/-- A cell is missing where one is dropped, and only there. -/
theorem size_retained (dozes dies : NodeId → Bool) :
    (self.retained dozes dies).cells.size = self.cells.size ↔
      ∀ id, self.dropped dozes dies id = false := by
  have hcount : (self.cells.map fun id cell => doze self.nowMs (dozes id) (dies id) cell).size =
      self.cells.size := Std.ExtTreeMap.size_map
  have hmapped (id : NodeId) : (self.cells.map fun id cell => doze self.nowMs (dozes id) (dies id) cell)[id]? =
      (self.cells[id]?).map (doze self.nowMs (dozes id) (dies id)) := Std.ExtTreeMap.getElem?_map
  unfold retained dropped
  dsimp only
  rw [← hcount, Std.ExtTreeMap.size_filter_eq_size_iff]
  constructor
  · intro hall id
    cases hcell : self.cells[id]? with
    | none => rfl
    | some cell =>
        have hsome := hmapped id
        rw [hcell, Option.map_some] at hsome
        obtain ⟨hid, hvalue⟩ := Std.ExtTreeMap.getElem?_eq_some_iff.mp hsome
        have hretained := hall id hid
        rw [hvalue] at hretained
        simp [hretained]
  · intro hnone id hid
    have hsome := (Std.ExtTreeMap.getElem?_eq_some_getElem hid).symm.trans (hmapped id)
    obtain ⟨cell, hcell, hvalue⟩ := Option.map_eq_some_iff.mp hsome.symm
    rw [← hvalue]
    simpa [hcell] using hnone id

omit [FloatLike F] in
/-- Purging the tracking of one dead cell after the other is purging that of all of them. -/
theorem books_foldl_dead (ids : List NodeId) (self : ClusterField F) :
    (ids.foldl (fun self id => (self.emit (.dead id)).purgeTrackingFor id) self).books =
      self.books.purge { id | id ∈ ids } := by
  rw [← books_purgeAll]
  induction ids generalizing self with
  | nil => rfl
  | cons id ids ih =>
      rw [List.foldl_cons, List.foldl_cons, ih, books_purgeAll, books_purgeAll]
      rfl

/-- Where trimming drops a cell, it drops every cell with a link that dangles. -/
theorem booked_trimLowEnergy (visits : Visits F) (dozes dies : NodeId → Bool)
    (hsound : Sound self.replica.cells)
    (hdecided : ∀ (id : NodeId) (cell : NodeCell F), self.cells[id]? = some cell → Decided cell)
    (hsafe : ∀ id, self.dropped dozes dies id = true → ∀ x y, self.books.Dangling x y →
      self.dropped dozes dies x = true) (h : Booked self) :
    Booked (self.trimLowEnergy platform visits dozes dies) := by
  have hmem (id : NodeId) : id ∈ self.victims visits dozes dies ↔ self.dropped dozes dies id = true := by
    rw [mem_victims, dropped]
    cases hcell : self.cells[id]? with
    | none => exact Iff.rfl
    | some cell =>
        rw [Option.any_some, Option.any_some,
          isVictim_doze (hsound id cell hcell).2 (hdecided id cell hcell)]
  have hremoved : (self.retained dozes dies).books =
      self.books.remove { id | id ∈ self.victims visits dozes dies } := by
    refine books_remove (fun id hvictim => ?_) (fun id hstays => ?_) rfl rfl rfl
    · rw [cells_retained, Option.filter_eq_none_iff]
      intro dozed hdozed
      obtain ⟨cell, hcell, rfl⟩ := Option.map_eq_some_iff.mp hdozed
      have hdropped := (hmem id).mp hvictim
      rw [dropped, hcell, Option.any_some, Bool.not_eq_true'] at hdropped
      rw [hdropped]
      exact Bool.false_ne_true
    · rw [cells_retained]
      cases hcell : self.cells[id]? with
      | none => rfl
      | some cell =>
          have hretained : isRetained (doze self.nowMs (dozes id) (dies id) cell) = true := by
            by_contra hdropped
            refine hstays ((hmem id).mpr ?_)
            rw [dropped, hcell, Option.any_some]
            simpa using hdropped
          rw [Option.map_some, Option.filter_some, if_pos hretained, Option.map_some, Option.map_some]
          unfold NodeCell.targets
          rw [(doze_keeps _ _ _ cell).2.2.1]
  obtain ⟨hreplica, -⟩ := Prod.mk.inj (@core_trimLowEnergy F platform self _ visits dozes dies)
  have hnextId : (self.trimLowEnergy platform visits dozes dies).nextId = self.nextId :=
    congrArg Replica.nextId hreplica
  have hbooks : (self.trimLowEnergy platform visits dozes dies).books =
      (if (self.retained dozes dies).cells.size ≠ self.cells.size then
        (self.retained dozes dies).rebuildIndex platform else self.retained dozes dies).books.purge
          { id | id ∈ self.victims visits dozes dies } :=
    books_foldl_dead (self.victims visits dozes dies) _
  -- A cell is missing where one is dropped, and only there.
  have hsize : (self.retained dozes dies).cells.size = self.cells.size ↔
      self.victims visits dozes dies = [] := by
    rw [size_retained, List.eq_nil_iff_forall_not_mem]
    exact forall_congr' fun id => by rw [hmem id, Bool.not_eq_true]
  by_cases hnobody : self.victims visits dozes dies = []
  · rw [if_neg (not_not.mpr (hsize.mpr hnobody)), hremoved, hnobody] at hbooks
    have hnone : { id : NodeId | id ∈ ([] : List NodeId) } = ∅ := by simp
    rw [hnone, EdgeBooks.remove_empty, EdgeBooks.purge_empty] at hbooks
    exact h.of_linking (Prod.ext hbooks hnextId)
  · rw [if_pos (fun heq => hnobody (hsize.mp heq)), books_rebuildIndex, hremoved] at hbooks
    obtain ⟨id, hid⟩ := List.exists_mem_of_ne_nil _ hnobody
    exact h.bury hbooks hnextId fun x y hdangling =>
      Or.inl ((hmem x).mpr (hsafe id ((hmem id).mp hid) x y hdangling))

end ClusterField

end LiminalDB
