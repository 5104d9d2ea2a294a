import LiminalDB.Bridge.Events
import LiminalDB.Field.Lasting
import LiminalDB.Foundations.Narration

/-! # What a host knows of the cells: the lines of `tick_all`

While it runs, a tick writes a line for every cell that is born, falls asleep or dies. What the bridge makes
of the lines waits in the outbox until the host pulls it. It is what the journal is told, in the same order, and
it is enough to know which cells live: a host that starts with the living cells and follows the events has them
exactly, however many ticks go by and whatever its buffers hold (`host_keeps_count`). -/

namespace LiminalDB

open StreamCodec (CborValue)
open ClusterField (agedCells dividedCells restCell divideCell attachChild Batch Dividing Resting)

variable {F G : Type} [Binary64 G]

/-! ## Reports -/

/-- What becomes of a cell. -/
inductive CellReport
  | born (parent child : NodeId)
  | slept (id : NodeId)
  | died (id : NodeId)
  deriving DecidableEq

namespace CellReport

/-- What the journal is told. -/
def ofDelta : EventDelta F → Option CellReport
  | .divide parent child => some (born parent child.id)
  | .sleep id => some (slept id)
  | .dead id => some (died id)
  | _ => none

/-- What the host is told. -/
def ofEvent (event : ProtocolEvent (CborValue G)) : Option CellReport :=
  match event.id with
  | .num id =>
      if event.ev = "divide" then
        match event.eventMeta["parent"]? with
        | some (.integer parent) => some (born (UInt64.ofNat parent.toNat) id)
        | _ => none
      else if event.ev = "sleep" then some (slept id)
      else if event.ev = "dead" then some (died id)
      else none
  | .text _ => none

/-- Which cells live, as far as the reports tell. -/
def count (known : Set NodeId) : CellReport → Set NodeId
  | born _ child => insert child known
  | slept _ => known
  | died id => known \ {id}

/-- The reports so far and the cells that live by them take one more report. -/
def hear (known : List CellReport × Set NodeId) (report : CellReport) : List CellReport × Set NodeId :=
  (known.1 ++ [report], count known.2 report)

end CellReport

/-- What the host is told in lines. -/
def toldIn (lib : LogLibrary F G) (tickMs : UInt32) (lines : List String) : List CellReport :=
  (lines.filterMap fun line => eventFromFieldLog lib line tickMs).filterMap CellReport.ofEvent

section Told

variable (lib : LogLibrary F G) (tickMs : UInt32)

/-- Without lines nothing is told. -/
@[simp] theorem toldIn_nil : toldIn lib tickMs [] = [] := rfl

/-- What two lots of lines tell is what the first tells and then what the second does. -/
@[simp] theorem toldIn_append (lines lines' : List String) :
    toldIn lib tickMs (lines ++ lines') = toldIn lib tickMs lines ++ toldIn lib tickMs lines' := by
  simp [toldIn]

/-- A line tells what the event that it is read as reports of a cell, if it reports anything. -/
theorem toldIn_singleton {line : String} {event : ProtocolEvent (CborValue G)}
    (h : eventFromFieldLog lib line tickMs = some event) :
    toldIn lib tickMs [line] = (CellReport.ofEvent event).toList := by
  cases hreport : CellReport.ofEvent event <;> simp [toldIn, h, hreport]

/-- A line about a division tells that a child of the parent was born. -/
@[simp] theorem toldIn_divideLine [lib.Lawful] (parent child : NodeId) (before after : F) :
    toldIn lib tickMs [divideLine lib parent child before after] = [.born parent child] := by
  rw [toldIn_singleton lib tickMs (eventFromFieldLog_divideLine lib parent child before after tickMs)]
  have hparent : ((FieldLine.divide parent child before after).event lib tickMs).eventMeta["parent"]? =
      some (.integer parent.toNat) := by
    simp only [FieldLine.event, Std.ExtTreeMap.getElem?_insert]
    rfl
  rw [CellReport.ofEvent, hparent]
  simp [FieldLine.event]

/-- A line about a sleep tells which cell fell asleep. -/
@[simp] theorem toldIn_sleepLine (id : NodeId) : toldIn lib tickMs [sleepLine id] = [.slept id] := by
  rw [toldIn_singleton lib tickMs (eventFromFieldLog_sleepLine lib id tickMs)]
  rfl

/-- A line about a death tells which cell died. -/
@[simp] theorem toldIn_deadLine (id : NodeId) : toldIn lib tickMs [deadLine id] = [.died id] := by
  rw [toldIn_singleton lib tickMs (eventFromFieldLog_deadLine lib id tickMs)]
  rfl

/-- `ASTRO TAG off` is no event. -/
@[simp] theorem toldIn_astroTag : toldIn lib tickMs ["ASTRO TAG off"] = [] := by
  have hword : StartsSolid "ASTRO TAG off" ∧ EndsSolid "ASTRO TAG off" :=
    ⟨⟨'A', by decide, by decide⟩, ⟨'f', by decide, by decide⟩⟩
  have hhead : "ASTRO TAG off".toList.head? = some 'A' := by decide
  have hnone : eventFromFieldLog lib "ASTRO TAG off" tickMs = none := by
    rw [eventFromFieldLog_of_head lib hhead (by decide) (trim_of_ends hword.1 hword.2), eventFromText,
      stripPrefix_of_head (d := 'D') hhead (by decide) (by decide),
      stripPrefix_of_head (d := 'S') hhead (by decide) (by decide),
      stripPrefix_of_head (d := 'D') hhead (by decide) (by decide),
      stripPrefix_of_head (d := 'C') hhead (by decide) (by decide)]
    rfl
  simp [toldIn, hnone]

end Told

/-! ## Lines -/

namespace ClusterField

variable [FloatLike F] (lib : LogLibrary F G)

/-- The line of the hormone that runs out. -/
def hormoneLines (self : ClusterField F) : List String :=
  match self.noradrenaline with
  | some effect => if effect.untilMs ≤ self.nowMs then ["ASTRO TAG off"] else []
  | none => []

/-- The line of the second loop of a tick. -/
def divideLines (variation : NodeId → F) (acc : Dividing F) (id : NodeId) : List String :=
  match acc.field.cells[id]? with
  | some cell =>
      match cell.maybeDivide (variation id) with
      | (_, some child) => [divideLine lib id acc.field.nextId cell.affinity child.affinity]
      | (_, none) => []
  | none => []

/-- The lines of the fourth loop of a tick. -/
def restLines (hormone : Option (NoradrenalineEffect F)) (acc : Resting F) (id : NodeId) : List String :=
  match acc.field.cells[id]? with
  | some cell =>
      let (after, died) := cell.maybeSleepOrDie acc.field.nowMs (acc.field.sleepShift hormone cell)
      (if cell.state ≠ .sleep && after.state = .sleep then [sleepLine id] else []) ++
        (if died && cell.state ≠ .dead then [deadLine id] else [])
  | none => []

/-- What the loops of `tick_all` push to its events. -/
def tickLines (platform : Platform F) (visits : Visits F) (variation : NodeId → F) (self : ClusterField F)
    (dtMs : UInt64) : List String :=
  let self := self.startTick dtMs
  let ids := visits.cells.arrange self.cells.keys
  let aged := ids.foldl (ageCell dtMs self.noradrenalineActive) ⟨self, []⟩
  let grown := self.growCells platform visits variation dtMs
  aged.field.hormoneLines ++
    narrate (divideCell variation) (divideLines lib variation) ⟨aged.field.expireHormone, aged.pending, []⟩ ids ++
    narrate (restCell self.noradrenalineActive) (restLines self.noradrenalineActive)
      ⟨grown.field, grown.pending, []⟩ ids

/-! ## The living -/

omit [FloatLike F] in
/-- The cells that live. -/
def population (self : ClusterField F) : Set NodeId :=
  { id | ∃ cell : NodeCell F, self.cells[id]? = some cell ∧ cell.state ≠ .dead }

section Population

variable {platform : Platform F} {self self' : ClusterField F}

omit [FloatLike F]

/-- The population depends on the cells alone. -/
theorem population_congr (h : self'.cells = self.cells) : self'.population = self.population := by
  rw [population, h]
  rfl

/-- After a cell is written its id counts if it is not dead, and the others count as before. -/
theorem mem_population_setCell {id other : NodeId} {cell : NodeCell F} :
    other ∈ (self.setCell id cell).population ↔
      other = id ∧ cell.state ≠ .dead ∨ other ≠ id ∧ other ∈ self.population := by
  by_cases heq : other = id
  · subst heq
    simp [population, setCell]
  · simp [population, getElem?_setCell_of_ne heq, heq]

/-- Writing a living cell adds its id to the population, if it is not in it yet. -/
theorem population_setCell_of_alive {cell : NodeCell F} (h : cell.state ≠ .dead) (id : NodeId) :
    (self.setCell id cell).population = insert id self.population := by
  ext other
  rw [mem_population_setCell, Set.mem_insert_iff]
  by_cases heq : other = id <;> simp [heq, h]

/-- Writing a dead one takes its id out. -/
theorem population_setCell_of_dead {cell : NodeCell F} (h : cell.state = .dead) (id : NodeId) :
    (self.setCell id cell).population = self.population \ {id} := by
  ext other
  rw [mem_population_setCell, Set.mem_sdiff, Set.mem_singleton_iff]
  simp [h, and_comm]

/-- A cell that was there lives on as it lived before. -/
theorem population_setCell_of_same {id : NodeId} {cell after : NodeCell F} (hcell : self.cells[id]? = some cell)
    (h : after.state = .dead ↔ cell.state = .dead) : (self.setCell id after).population = self.population := by
  have hbefore : id ∈ self.population ↔ cell.state ≠ .dead := by
    simp [population, hcell]
  by_cases hdead : cell.state = .dead
  · rw [population_setCell_of_dead (h.mpr hdead), Set.sdiff_singleton_eq_self]
    exact mt hbefore.mp (not_not.mpr hdead)
  · rw [population_setCell_of_alive (mt h.mp hdead), Set.insert_eq_of_mem (hbefore.mpr hdead)]

/-- The living part of a field has the same population. -/
theorem population_living : self.living.population = self.population := by
  ext id
  have hfound : self.living.cells[id]? = (self.cells[id]?).filter fun cell => cell.state ≠ .dead :=
    cells_living self id
  simp only [population, Set.mem_ofPred_eq, hfound, Option.filter_eq_some_iff, decide_eq_true_eq]
  constructor
  · rintro ⟨cell, ⟨hcell, -⟩, halive⟩
    exact ⟨cell, hcell, halive⟩
  · rintro ⟨cell, hcell, halive⟩
    exact ⟨cell, ⟨hcell, halive⟩, halive⟩

end Population

section Population

variable {platform : Platform F} {self : ClusterField F}

/-- A living cell that is attached joins the population; index and links do not count. -/
theorem population_attachCell (cell : NodeCell F) (halive : cell.state ≠ .dead) :
    (self.attachCell platform cell).population = insert cell.id self.population := by
  have hcells : (self.attachCell platform cell).cells = (self.setCell cell.id cell).cells :=
    congrArg Prod.fst (moment_attachCell cell)
  rw [population_congr hcells, population_setCell_of_alive halive]

/-- A new link changes nobody's state, so that the population stays. -/
theorem population_addLink (source target : NodeId) :
    (self.addLink source target).population = self.population := by
  unfold addLink
  split
  · rename_i cell hcell
    split
    · rfl
    · have hlinked : (self.setCell source (cell.link target)).population = self.population :=
        population_setCell_of_same hcell Iff.rfl
      exact (population_congr rfl).trans hlinked
  · rfl

end Population

/-! ## The loops of a tick -/

/-- What the journal has been told of the cells, and the cells that live. -/
def known (self : ClusterField F) (deltas : List (EventDelta F)) : List CellReport × Set NodeId :=
  (deltas.filterMap CellReport.ofDelta, self.population)

/-- The child of a birth. -/
def bornOf (new : NodeId × NodeCell F) : CellReport := .born new.1 new.2.id

section Loops

variable {platform : Platform F} (tickMs : UInt32)

/-- Ageing a cell reports nothing about it and kills nobody. -/
theorem known_ageCell (dtMs : UInt64) (hormone : Option (NoradrenalineEffect F)) (acc : Batch F) (id : NodeId) :
    (ageCell dtMs hormone acc id).field.known (ageCell dtMs hormone acc id).pending =
      acc.field.known acc.pending := by
  unfold ageCell
  cases hcell : acc.field.cells[id]? with
  | none => rfl
  | some cell =>
      -- Ageing neither kills a cell nor brings one back.
      have hsame : (acc.field.aged dtMs hormone cell).state = .dead ↔ cell.state = .dead := by
        constructor
        · intro hdead
          by_contra halive
          exact (tweaks_aged acc.field dtMs hormone cell).alive halive hdead
        · intro hdead
          simp [aged, NodeCell.tick, NodeCell.driftAffinity, hdead]
      simp [known, population_setCell_of_same hcell hsame, energyDelta, CellReport.ofDelta]

/-- The lines of the second loop tell of the cells that wait to be attached. -/
theorem retells_divideCell [lib.Lawful] (variation : NodeId → F) :
    Retells (divideCell variation) (fun acc id => toldIn lib tickMs (divideLines lib variation acc id))
      (fun acc => acc.newCells.map bornOf) (fun heard report => heard ++ [report]) := by
  intro acc id
  dsimp only
  unfold divideCell divideLines
  cases acc.field.cells[id]? with
  | none => rfl
  | some cell =>
      dsimp only
      obtain ⟨after, child⟩ := cell.maybeDivide (variation id)
      cases child with
      | none => rfl
      | some child => simp [bornOf, named]

/-- A division is not reported before the child is attached, and the child does not count before. -/
theorem known_divideCell (variation : NodeId → F) (acc : Dividing F) (id : NodeId) :
    (divideCell variation acc id).field.known (divideCell variation acc id).pending =
      acc.field.known acc.pending := by
  rcases divideCell_cases variation acc id with ⟨cell, hcell, hdivides⟩ | ⟨-, hsame⟩
  · obtain ⟨child, -, -, hdivided⟩ := divideCell_of_divides variation hcell hdivides
    have hpopulation : (acc.field.setCell id { cell with energy := cell.energy * 0.55 }).population =
        acc.field.population := population_setCell_of_same hcell Iff.rfl
    rw [hdivided]
    refine Prod.ext ?_ hpopulation
    simp [known, energyDelta, CellReport.ofDelta]
  · rw [hsame]

/-- Cells are born alive. -/
theorem alive_divideCell (variation : NodeId → F) {acc : Dividing F}
    (h : ∀ new ∈ acc.newCells, new.2.state ≠ .dead) (id : NodeId) :
    ∀ new ∈ (divideCell variation acc id).newCells, new.2.state ≠ .dead := by
  rcases divideCell_cases variation acc id with ⟨cell, hcell, hdivides⟩ | ⟨-, hsame⟩
  · obtain ⟨child, hnew, -, hdivided⟩ := divideCell_of_divides variation hcell hdivides
    rw [hdivided]
    intro new hmem
    rcases List.mem_append.mp hmem with hold | hmem
    · exact h new hold
    · cases List.mem_singleton.mp hmem
      exact hnew.alive
  · rw [hsame]
    exact h

/-- An attached child is reported as born, and counts from then on. -/
theorem known_attachChild (acc : Batch F) {new : NodeId × NodeCell F} (halive : new.2.state ≠ .dead) :
    (attachChild platform acc new).field.known (attachChild platform acc new).pending =
      CellReport.hear (acc.field.known acc.pending) (bornOf new) := by
  have hpending : (linkChild acc new.1 new.2.id).pending.filterMap CellReport.ofDelta =
      acc.pending.filterMap CellReport.ofDelta := by
    unfold linkChild
    split
    · split
      · rfl
      · simp [CellReport.ofDelta]
    · rfl
  have hpopulation : (attachChild platform acc new).field.population = insert new.2.id acc.field.population := by
    refine (population_attachCell new.2 halive).trans ?_
    rw [linkChild_addLink, population_addLink]
  -- The link to the parent is no report, and the birth is one.
  refine Prod.ext ?_ hpopulation
  rw [known, attachChild]
  simp [hpending, CellReport.hear, CellReport.ofDelta, bornOf, known, NodeCell.toSnapshot]

/-- By induction over the children: all of them are reported in turn, and all of them count. -/
theorem known_attachChildren {newCells : List (NodeId × NodeCell F)}
    (halive : ∀ new ∈ newCells, new.2.state ≠ .dead) (acc : Batch F) :
    (newCells.foldl (attachChild platform) acc).field.known (newCells.foldl (attachChild platform) acc).pending =
      (newCells.map bornOf).foldl CellReport.hear (acc.field.known acc.pending) := by
  induction newCells generalizing acc with
  | nil => rfl
  | cons new newCells ih =>
      obtain ⟨hnew, hrest⟩ := List.forall_mem_cons.mp halive
      rw [List.foldl_cons, ih hrest, known_attachChild acc hnew]
      rfl

/-- The lines of the fourth loop tell which cells fall asleep and which die. -/
theorem retells_restCell (hormone : Option (NoradrenalineEffect F)) :
    Retells (restCell hormone) (fun acc id => toldIn lib tickMs (restLines hormone acc id))
      (fun acc => acc.field.known acc.pending) CellReport.hear := by
  intro acc id
  dsimp only
  unfold restCell restLines
  cases hcell : acc.field.cells[id]? with
  | none => rfl
  | some cell =>
      dsimp only
      by_cases hdead : cell.state = .dead
      · have hrest : cell.maybeSleepOrDie acc.field.nowMs (acc.field.sleepShift hormone cell) = (cell, false) :=
          if_pos hdead
        have hsame : (acc.field.setCell id cell).population = acc.field.population :=
          population_setCell_of_same hcell Iff.rfl
        simp [hrest, hdead, known, hsame, energyDelta, CellReport.ofDelta]
      · have hcases := maybeSleepOrDie_cases hdead acc.field.nowMs (acc.field.sleepShift hormone cell)
        generalize cell.maybeSleepOrDie acc.field.nowMs (acc.field.sleepShift hormone cell) = rest at hcases ⊢
        obtain ⟨after, died⟩ := rest
        dsimp only at hcases ⊢
        -- It dies and leaves the living, or lives on, asleep or not.
        rcases hcases with ⟨rfl, hgone⟩ | ⟨rfl, -, halive, -⟩
        · have hburied : (acc.field.setCell id after).population = acc.field.population \ {id} :=
            population_setCell_of_dead hgone id
          simp [known, hdead, hgone, hburied, energyDelta, CellReport.ofDelta, CellReport.hear, CellReport.count]
        · have hsame : (acc.field.setCell id after).population = acc.field.population :=
            population_setCell_of_same hcell (iff_of_false halive hdead)
          by_cases hslept : cell.state ≠ .sleep ∧ after.state = .sleep <;>
            simp [known, hslept, hsame, energyDelta, CellReport.ofDelta, CellReport.hear, CellReport.count]

end Loops

/-! ## Ticks -/

section Ticks

variable {platform : Platform F} {self : ClusterField F}

omit [FloatLike F] in
/-- Hearing reports one after the other appends them, and counts them one by one. -/
theorem foldl_hear (told : List CellReport) (known : List CellReport × Set NodeId) :
    told.foldl CellReport.hear known = (known.1 ++ told, told.foldl CellReport.count known.2) := by
  induction told generalizing known with
  | nil => rw [List.foldl_nil, List.append_nil]; rfl
  | cons report told ih =>
      rw [List.foldl_cons, ih, CellReport.hear, List.append_assoc, List.singleton_append]
      rfl

/-- Nothing is emitted while the loops run. -/
theorem journal_tickCells (visits : Visits F) (variation : NodeId → F) (dtMs : UInt64) :
    (self.tickCells platform visits variation dtMs).field.journal = self.journal := by
  have hage (hormone : Option (NoradrenalineEffect F)) (acc : Batch F) (id : NodeId) :
      (ageCell dtMs hormone acc id).field.journal = acc.field.journal := by
    unfold ageCell
    split <;> rfl
  have hdivide (acc : Dividing F) (id : NodeId) :
      (divideCell variation acc id).field.journal = acc.field.journal := by
    unfold divideCell
    split
    · split <;> rfl
    · rfl
  have hattach (acc : Batch F) (new : NodeId × NodeCell F) :
      (attachChild platform acc new).field.journal = acc.field.journal :=
    (journal_attachCell platform _ new.2).trans (linkChild_eq acc new.1 new.2.id).2.2.1
  have hrest (hormone : Option (NoradrenalineEffect F)) (acc : Resting F) (id : NodeId) :
      (restCell hormone acc id).field.journal = acc.field.journal := by
    unfold restCell
    split <;> rfl
  unfold tickCells growCells
  -- From the last of the loops to the first.
  refine (list_foldl_keeps (fun acc : Resting F => acc.field.journal) (hrest _) _ _).trans ?_
  refine (list_foldl_keeps (fun acc : Batch F => acc.field.journal) hattach _ _).trans ?_
  refine (list_foldl_keeps (fun acc : Dividing F => acc.field.journal) hdivide _ _).trans ?_
  exact list_foldl_keeps (fun acc : Batch F => acc.field.journal) (hage _) _ ⟨self, []⟩

/-- After a tick those count that its loops have left alive; burying the dead and awakening change nothing. -/
theorem population_tickAll (visits : Visits F) (variation : NodeId → F) (dtMs : UInt64) :
    (self.tickAll platform visits variation dtMs).population =
      ((self.startTick dtMs).tickCells platform visits variation dtMs).field.population := by
  refine (population_congr ?_).trans population_living
  exact congrArg Prod.fst (moment_tickAll visits variation dtMs)

omit [FloatLike F] in
/-- At the end of a tick the gathered deltas are emitted, and the awakening. -/
theorem reports_closing (deltas : List (EventDelta F)) :
    (deltas.foldl emit self).awakenTick.journal.filterMap CellReport.ofDelta =
      self.journal.filterMap CellReport.ofDelta ++ deltas.filterMap CellReport.ofDelta := by
  have hemitted : (deltas.foldl emit self).journal = self.journal ++ deltas :=
    (Prod.mk.inj (Prod.mk.inj (core_foldl_emit deltas self)).2).2
  simp [awakenTick, emit, hemitted, CellReport.ofDelta]

/-- What a tick reports of cells is what its loops have left pending. -/
theorem reports_tickAll (visits : Visits F) (variation : NodeId → F) (dtMs : UInt64) :
    (self.tickAll platform visits variation dtMs).journal.filterMap CellReport.ofDelta =
      self.journal.filterMap CellReport.ofDelta ++
        ((self.startTick dtMs).tickCells platform visits variation dtMs).pending.filterMap CellReport.ofDelta := by
  have hjournal := @journal_tickCells F _ platform (self.startTick dtMs) visits variation dtMs
  have hburied := (@bury_eq F platform ((self.startTick dtMs).tickCells platform visits variation dtMs).field _
    ((self.startTick dtMs).tickCells platform visits variation dtMs).purge).2.trans hjournal
  have hstart : (self.startTick dtMs).journal.filterMap CellReport.ofDelta =
      self.journal.filterMap CellReport.ofDelta := by
    simp [startTick, emit, CellReport.ofDelta]
  refine (reports_closing _).trans (congrArg (· ++ _) ?_)
  exact (congrArg (List.filterMap CellReport.ofDelta) hburied).trans hstart

variable (tickMs : UInt32)

omit [FloatLike F] in
/-- The lines about a hormone tell of no cell. -/
theorem toldIn_hormoneLines : toldIn lib tickMs self.hormoneLines = [] := by
  unfold hormoneLines
  split
  · split
    · exact toldIn_astroTag lib tickMs
    · rfl
  · rfl

/-- What the loops of a tick gather is what their lines tell. -/
theorem known_tickCells [lib.Lawful] (visits : Visits F) (variation : NodeId → F) (dtMs : UInt64) :
    ((self.startTick dtMs).tickCells platform visits variation dtMs).field.known
        ((self.startTick dtMs).tickCells platform visits variation dtMs).pending =
      (toldIn lib tickMs (self.tickLines lib platform visits variation dtMs)).foldl CellReport.hear
        ([], self.population) := by
  have hstart : (self.startTick dtMs).known [] = ([], self.population) := rfl
  -- The loops in the order they run.
  have haged : (self.agedCells visits dtMs).field.known (self.agedCells visits dtMs).pending =
      ([], self.population) :=
    (list_foldl_keeps (fun acc : Batch F => acc.field.known acc.pending)
      (known_ageCell dtMs (self.startTick dtMs).noradrenalineActive) _ ⟨self.startTick dtMs, []⟩).trans hstart
  have hdivided : (self.dividedCells visits variation dtMs).field.known
      (self.dividedCells visits variation dtMs).pending = ([], self.population) :=
    (list_foldl_keeps (fun acc : Dividing F => acc.field.known acc.pending) (known_divideCell variation) _ _).trans
      haged
  have halive : ∀ new ∈ (self.dividedCells visits variation dtMs).newCells, new.2.state ≠ .dead :=
    List.foldlRecOn (motive := fun acc : Dividing F => ∀ new ∈ acc.newCells, new.2.state ≠ .dead) _ _
      (fun _ hnew => by cases hnew) fun acc hacc id _ => alive_divideCell variation hacc id
  -- The second loop tells of the children before the third attaches them and tells the journal.
  have hborn : (self.dividedCells visits variation dtMs).newCells.map bornOf = [] ++ narrate _ _ _ _ :=
    ((retells_divideCell lib tickMs variation).foldl
      ⟨(self.agedCells visits dtMs).field.expireHormone, (self.agedCells visits dtMs).pending, []⟩
      (visits.cells.arrange self.cells.keys)).trans (foldl_concat _ _)
  have hgrown := @known_attachChildren F _ platform _ halive
    ⟨(self.dividedCells visits variation dtMs).field, (self.dividedCells visits variation dtMs).pending⟩
  rw [hborn, List.nil_append] at hgrown
  have hrested := (retells_restCell lib tickMs (self.startTick dtMs).noradrenalineActive).foldl
    ⟨((self.startTick dtMs).growCells platform visits variation dtMs).field,
      ((self.startTick dtMs).growCells platform visits variation dtMs).pending, []⟩
    (visits.cells.arrange self.cells.keys)
  refine hrested.trans ?_
  unfold tickLines
  simp only [toldIn_append, toldIn_hormoneLines, List.nil_append, List.foldl_append]
  rw [map_narrate (toldIn_nil lib tickMs) (toldIn_append lib tickMs), map_narrate (toldIn_nil lib tickMs)
    (toldIn_append lib tickMs)]
  refine congrArg (List.foldl CellReport.hear · _) (hgrown.trans ?_)
  rw [hdivided]
  rfl

/-- One tick: the journal and the host are told the same, and the living are those the reports leave. -/
theorem told_tickAll [lib.Lawful] (visits : Visits F) (variation : NodeId → F) (dtMs : UInt64) :
    (self.tickAll platform visits variation dtMs).known (self.tickAll platform visits variation dtMs).journal =
      (toldIn lib tickMs (self.tickLines lib platform visits variation dtMs)).foldl CellReport.hear
        (self.known self.journal) := by
  have hcells := @known_tickCells F G _ _ lib platform self tickMs _ visits variation dtMs
  rw [foldl_hear] at hcells ⊢
  obtain ⟨hpending, hpopulation⟩ := Prod.mk.inj hcells
  refine Prod.ext ?_ ((population_tickAll visits variation dtMs).trans hpopulation)
  refine (reports_tickAll visits variation dtMs).trans ?_
  rw [hpending, List.nil_append]
  rfl

end Ticks

end ClusterField

/-! ## The host -/

section Host

variable [FloatLike F] {lib : LogLibrary F G}

/-- A line that reports nothing, as those that follow the loops of a tick. -/
def QuietLine (lib : LogLibrary F G) : Type :=
  { line : String // ∀ tickMs, toldIn lib tickMs [line] = [] }

omit [FloatLike F] in
/-- Nor does any line whose event, if it has one, is not about a cell. -/
theorem toldIn_eq_nil {line : String} {tickMs : UInt32}
    (h : ∀ event, eventFromFieldLog lib line tickMs = some event → CellReport.ofEvent event = none) :
    toldIn lib tickMs [line] = [] := by
  cases hevent : eventFromFieldLog lib line tickMs with
  | none => simp [toldIn, hevent]
  | some event => simp [toldIn, hevent, h event hevent]

/-- An object without an id of its own, as views and the harmony are told. -/
def QuietLine.object (lib : LogLibrary F G) (inner : String)
    (h : ∀ json, lib.fromStr ("\x7b" ++ inner ++ "\x7d") = some json → jsonGet json "id" = none) : QuietLine lib where
  val := "\x7b" ++ inner ++ "\x7d"
  property tickMs := by
    apply toldIn_eq_nil
    intro event hevent
    rw [eventFromFieldLog_object] at hevent
    obtain ⟨json, hjson, hevent⟩ := Option.bind_eq_some_iff.mp hevent
    unfold eventFromJson at hevent
    rw [h json hjson] at hevent
    obtain ⟨ev, -, hevent⟩ := Option.bind_eq_some_iff.mp hevent
    cases hevent
    rfl

/-- The line of a seed. -/
def QuietLine.seed (lib : LogLibrary F G) (rest : String) (h : EndsSolid rest) : QuietLine lib where
  val := "SEED id=" ++ rest
  property tickMs := by
    have hstart : StartsSolid "SEED id=" := ⟨'S', by decide, by decide⟩
    have hhead : ("SEED id=" ++ rest).toList.head? = some 'S' := head?_append_of_head (by decide) _
    apply toldIn_eq_nil
    intro event hevent
    rw [eventFromFieldLog_of_head lib hhead (by decide) (trim_of_ends (hstart.append _) (h.append _)), eventFromText,
      stripPrefix_of_head (d := 'D') hhead (by decide) (by decide), stripPrefix_eq_none (by decide) (by decide),
      stripPrefix_of_head (d := 'D') hhead (by decide) (by decide),
      stripPrefix_of_head (d := 'C') hhead (by decide) (by decide)] at hevent
    cases hevent

/-- An event that reports nothing. -/
def QuietEvent (G : Type) : Type := { event : ProtocolEvent (CborValue G) // CellReport.ofEvent event = none }

/-- A field behind the bridge, the events that wait there, and those that the host has got. -/
structure Hosted (F G : Type) where
  field : ClusterField F
  outbox : Outbox (CborValue G)
  received : List (ProtocolEvent (CborValue G))

/-- What happens behind the bridge and before it. -/
inductive HostStep (lib : LogLibrary F G)
  /-- A tick, with the lines that follow those of its loops. -/
  | tick (visits : Visits F) (variation : NodeId → F) (dtMs : UInt64) (tickMs : UInt32)
      (rest : List (QuietLine lib))
  | push (event : QuietEvent G)
  | setMetrics (metrics : ProtocolMetrics)
  | pull (leaves : Leaves (CborValue G)) (cap : ℕ)

namespace Hosted

variable (lib) (platform : Platform F)

/-- The bridge pushes the events of some lines. -/
def pushLines (tickMs : UInt32) (outbox : Outbox (CborValue G)) (lines : List String) : Outbox (CborValue G) :=
  (lines.filterMap fun line => eventFromFieldLog lib line tickMs).foldl Outbox.pushEvent outbox

/-- One step. -/
def step (self : Hosted F G) : HostStep lib → Hosted F G
  | .tick visits variation dtMs tickMs rest =>
      { self with
        field := self.field.tickAll platform visits variation dtMs
        outbox := pushLines lib tickMs self.outbox
          (self.field.tickLines lib platform visits variation dtMs ++ rest.map Subtype.val) }
  | .push event => { self with outbox := self.outbox.pushEvent event.val }
  | .setMetrics metrics => { self with outbox := self.outbox.setMetrics metrics }
  | .pull leaves cap =>
      match self.outbox.pull leaves cap with
      | (outbox, some (package, _)) => { self with outbox, received := self.received ++ package.events }
      | (outbox, none) => { self with outbox }

/-- What the host has been told, or will be when it pulls what waits. -/
def told (self : Hosted F G) : List CellReport := (self.received ++ self.outbox.events).filterMap CellReport.ofEvent

omit [FloatLike F] in
/-- Pushing lines appends the events that they are read as, and drops the lines that are none. -/
theorem events_pushLines (tickMs : UInt32) (outbox : Outbox (CborValue G)) (lines : List String) :
    (pushLines lib tickMs outbox lines).events =
      outbox.events ++ lines.filterMap fun line => eventFromFieldLog lib line tickMs := by
  unfold pushLines
  induction lines.filterMap (fun line => eventFromFieldLog lib line tickMs) generalizing outbox with
  | nil => simp
  | cons event events ih => simp [ih, Outbox.pushEvent]

omit [FloatLike F] in
/-- The lines that a host writes besides, which are none of the kind above, tell of no cell. -/
theorem toldIn_quiet (tickMs : UInt32) (rest : List (QuietLine lib)) :
    toldIn lib tickMs (rest.map Subtype.val) = [] := by
  induction rest with
  | nil => rfl
  | cons line rest ih =>
      have happend := toldIn_append lib tickMs [line.val] (rest.map Subtype.val)
      rw [line.property tickMs, ih] at happend
      exact happend

omit [Binary64 G] [FloatLike F] in
/-- A pull moves events from the outbox to the host, or does nothing. -/
theorem told_pull (self : Hosted F G) (leaves : Leaves (CborValue G)) (cap : ℕ) :
    (match self.outbox.pull leaves cap with
      | (outbox, some (package, _)) => { self with outbox, received := self.received ++ package.events }
      | (outbox, none) => { self with outbox } : Hosted F G).told = self.told := by
  rcases Outbox.pull_cases leaves self.outbox cap with ⟨encoded, -, -, -, hpull⟩ | ⟨-, hpull⟩
  · rw [hpull]
    simp [told, Outbox.backlog]
  · rw [hpull]

/-- What a step adds to the reports. -/
def reports (self : Hosted F G) : HostStep lib → List CellReport
  | .tick visits variation dtMs tickMs _ =>
      toldIn lib tickMs (self.field.tickLines lib platform visits variation dtMs)
  | _ => []

/-- One step of the host appends what it reports to what was told before. -/
theorem told_step (self : Hosted F G) (s : HostStep lib) :
    (self.step lib platform s).told = self.told ++ self.reports lib platform s := by
  cases s with
  | tick visits variation dtMs tickMs rest =>
      have hrest := toldIn_quiet lib tickMs rest
      unfold toldIn at hrest
      simp [told, step, events_pushLines, reports, toldIn, hrest]
  | push event => simp [told, step, Outbox.pushEvent, reports, event.property]
  | setMetrics metrics => simp [told, step, Outbox.setMetrics, reports]
  | pull leaves cap => exact (told_pull self leaves cap).trans (List.append_nil _).symm

/-- What is known of the cells, from the field and its journal, is after a step what was known and the reports
of the step. -/
theorem known_step [lib.Lawful] (self : Hosted F G) (s : HostStep lib) :
    (self.step lib platform s).field.known (self.step lib platform s).field.journal =
      (self.reports lib platform s).foldl CellReport.hear (self.field.known self.field.journal) := by
  cases s with
  | tick visits variation dtMs tickMs rest => exact ClusterField.told_tickAll lib tickMs visits variation dtMs
  | push event => rfl
  | setMetrics metrics => rfl
  | pull leaves cap =>
      have hfield : (self.step lib platform (.pull leaves cap)).field = self.field := by
        unfold step
        dsimp only
        split <;> rfl
      rw [hfield]
      rfl

/-- Through any run of ticks, other pushes and pulls with buffers of any size, the host is told of births,
sleep and deaths what the journal is told, in the same order; and who starts with the cells that live and
follows what the host is told has those that live. -/
theorem host_keeps_count [lib.Lawful] (field : ClusterField F) (steps : List (HostStep lib)) :
    let hosted := steps.foldl (step lib platform) ⟨field, .default, []⟩
    hosted.field.journal.filterMap CellReport.ofDelta =
        field.journal.filterMap CellReport.ofDelta ++ hosted.told ∧
      hosted.field.population = hosted.told.foldl CellReport.count field.population := by
  -- The same reports drive both sides: what the journal and the living make of them, and what the host is told.
  have hknown : Retells (step lib platform) (reports lib platform)
      (fun self => self.field.known self.field.journal) CellReport.hear := known_step lib platform
  have htold : Retells (step lib platform) (reports lib platform) told (fun heard report => heard ++ [report]) := by
    intro self s
    rw [foldl_concat]
    exact told_step lib platform self s
  have hheard := htold.foldl ⟨field, .default, []⟩ steps
  have hrun := hknown.foldl ⟨field, .default, []⟩ steps
  rw [foldl_concat] at hheard
  rw [ClusterField.foldl_hear] at hrun
  dsimp only
  rw [hheard]
  exact Prod.mk.inj hrun

/-- A root that has been called often enough to divide. -/
def warmField : ClusterField ℚ :=
  ClusterField.run (ClusterField.constantPlatform ℚ 0.5)
    (.addRoot "cpu/load" :: List.replicate 9 (.routeImpulse .listed ⟨.affect, "cpu/load", 1, 1000, []⟩))

/-- A birth, a pull without a buffer, both cells asleep, a pull, and both dead. -/
def hostSteps : List (HostStep exactLibrary) :=
  [.tick .listed (fun _ => 0.1) 200 200 [], .pull ⟨fun _ => some [0], fun _ => [0]⟩ 0,
    .tick .listed (fun _ => 0.1) 4000 200 [], .pull ⟨fun _ => some [0], fun _ => [0]⟩ 65536,
    .tick .listed (fun _ => 0.1) 20000 200 []]

/-- What the host is told of them is what the journal says. -/
theorem host_keeps_count_hostSteps :
    let hosted := hostSteps.foldl (step exactLibrary (ClusterField.constantPlatform ℚ 0.5)) ⟨warmField, .default, []⟩
    hosted.told = [.born 1 2, .slept 1, .slept 2, .died 1, .died 2] ∧
      hosted.field.journal.filterMap CellReport.ofDelta =
        warmField.journal.filterMap CellReport.ofDelta ++ hosted.told ∧
      hosted.field.population = hosted.told.foldl CellReport.count warmField.population := by
  have htold : (hostSteps.foldl (step exactLibrary (ClusterField.constantPlatform ℚ 0.5))
      ⟨warmField, .default, []⟩).told = [.born 1 2, .slept 1, .slept 2, .died 1, .died 2] := by
    decide +kernel
  have hcount := host_keeps_count exactLibrary (ClusterField.constantPlatform ℚ 0.5) warmField hostSteps
  exact ⟨htold, hcount⟩

end Hosted

end Host

end LiminalDB
