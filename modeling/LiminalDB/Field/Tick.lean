import LiminalDB.Field.Route

/-! # Time: `tick_all`, `trim_low_energy` and `inject_seed_variation`

A tick ages every cell, lets the strong ones divide and the weak ones sleep or die. Its deltas are
gathered while it runs and emitted at its end. -/

namespace LiminalDB

namespace ClusterField

variable {F : Type} [FloatLike F]

open FloatLike (clamp)

/-! ## A tick -/

/-- The field in the middle of a tick, with the deltas that wait for its end. -/
structure Batch (F : Type) where
  field : ClusterField F
  pending : List (EventDelta F)

/-- How far noradrenaline and the harmony shift the thresholds of a cell. -/
def sleepShift (self : ClusterField F) (hormone : Option (NoradrenalineEffect F)) (cell : NodeCell F) :
    F :=
  match hormone with
  | some effect =>
      if cell.adrenoTag then clamp (self.harmony.sleepDelta - 0.2 * effect.strength) (-0.4) 0.2
      else self.harmony.sleepDelta
  | none => self.harmony.sleepDelta

/-- A cell ages. -/
def aged (self : ClusterField F) (dtMs : UInt64) (hormone : Option (NoradrenalineEffect F))
    (cell : NodeCell F) : NodeCell F :=
  (cell.tick dtMs self.harmony.metabolismScale (self.sleepShift hormone cell)).driftAffinity
    self.harmony.alpha

/-- The first loop of a tick: a cell ages. -/
def ageCell (dtMs : UInt64) (hormone : Option (NoradrenalineEffect F)) (acc : Batch F) (id : NodeId) :
    Batch F :=
  match acc.field.cells[id]? with
  | some cell =>
      let cell := acc.field.aged dtMs hormone cell
      ⟨acc.field.setCell id cell, acc.pending ++ [energyDelta id cell]⟩
  | none => acc

/-- The effect of noradrenaline runs out. -/
def expireHormone (self : ClusterField F) : ClusterField F :=
  { self with noradrenaline := self.noradrenaline.filter fun effect => self.nowMs < effect.untilMs }

/-- A child gets its id, its pattern and its first response. -/
def named (self : ClusterField F) (child : NodeCell F) : NodeCell F :=
  { child with
    id := self.nextId
    seed :=
      { child.seed with
        corePattern := child.seed.corePattern ++ ":n" ++ toString self.nextId.toNat }
    lastResponseMs := self.nowMs }

/-- The field in the second loop of a tick, with the new cells and their parents. -/
structure Dividing (F : Type) where
  field : ClusterField F
  pending : List (EventDelta F)
  newCells : List (NodeId × NodeCell F)

/-- The second loop of a tick: a cell may divide. The child is attached later. -/
def divideCell (variation : NodeId → F) (acc : Dividing F) (id : NodeId) : Dividing F :=
  match acc.field.cells[id]? with
  | some cell =>
      match cell.maybeDivide (variation id) with
      | (cell, some child) =>
          { field := { acc.field.setCell id cell with nextId := acc.field.nextId + 1 }
            pending := acc.pending ++ [.affinity id cell.affinity, energyDelta id cell]
            newCells := acc.newCells ++ [(id, acc.field.named child)] }
      | (_, none) => acc
  | none => acc

/-- The parent of a new cell is linked to it. -/
def linkChild (acc : Batch F) (parent child : NodeId) : Batch F :=
  match acc.field.cells[parent]? with
  | some cell =>
      if cell.links.contains child then acc
      else ⟨acc.field.addLink parent child, acc.pending ++ [.link parent child]⟩
  | none => acc

/-- The third loop of a tick: a new cell is attached. -/
def attachChild (platform : Platform F) (acc : Batch F) (new : NodeId × NodeCell F) : Batch F :=
  let acc := linkChild acc new.1 new.2.id
  ⟨acc.field.attachCell platform new.2, acc.pending ++ [.divide new.1 new.2.toSnapshot]⟩

/-- The field in the fourth loop of a tick, with the cells that have died. -/
structure Resting (F : Type) where
  field : ClusterField F
  pending : List (EventDelta F)
  purge : List NodeId

/-- The fourth loop of a tick: a cell falls asleep or dies. -/
def restCell (hormone : Option (NoradrenalineEffect F)) (acc : Resting F) (id : NodeId) : Resting F :=
  match acc.field.cells[id]? with
  | some cell =>
      let (after, died) := cell.maybeSleepOrDie acc.field.nowMs (acc.field.sleepShift hormone cell)
      let slept := cell.state ≠ .sleep && after.state = .sleep
      let died := died && cell.state ≠ .dead
      { field := acc.field.setCell id after
        pending := acc.pending ++ (if slept then [.sleep id] else []) ++
          (if died then [.dead id] else []) ++ [energyDelta id after]
        purge := if died then acc.purge ++ [id] else acc.purge }
  | none => acc

/-- `refresh_important_cells` -/
def refreshImportantCells (self : ClusterField F) : ClusterField F :=
  { self with
    importantCells := (self.cells.toList.filter fun e =>
      decide (0.7 ≤ e.2.salience) && saturatingSub self.nowMs e.2.lastRecallMs ≤ 10000).map Prod.fst }

/-- `awaken_tick` -/
def awakenTick (self : ClusterField F) : ClusterField F :=
  { self with
    lastAwakenTick := self.nowMs
    syncLog := self.syncLog.push (.tick self.nowMs) }.emit
      (.awakenTick self.resonantModel.lastApplied self.nowMs)

/-- The dead cells are removed. -/
def living (self : ClusterField F) : ClusterField F :=
  { self with cells := self.cells.filter fun _ cell => cell.state ≠ .dead }

/-- The dead cells are removed, and the index is rebuilt when there were any. -/
def bury (platform : Platform F) (self : ClusterField F) (purge : List NodeId) : ClusterField F :=
  purge.foldl purgeTrackingFor
    (if purge ≠ [] || self.living.cells.size ≠ self.cells.size then self.living.rebuildIndex platform
      else self.living)

/-- The clock moves. -/
def startTick (self : ClusterField F) (dtMs : UInt64) : ClusterField F :=
  let nowMs := saturatingAdd self.nowMs dtMs
  { self with nowMs }.emit (.tick nowMs)

/-- The first three loops of a tick, over the cells there are at its start. -/
def growCells (platform : Platform F) (visits : Visits F) (variation : NodeId → F)
    (self : ClusterField F) (dtMs : UInt64) : Batch F :=
  let ids := visits.cells.arrange self.cells.keys
  let aged := ids.foldl (ageCell dtMs self.noradrenalineActive) ⟨self, []⟩
  let divided := ids.foldl (divideCell variation) ⟨aged.field.expireHormone, aged.pending, []⟩
  divided.newCells.foldl (attachChild platform) ⟨divided.field, divided.pending⟩

/-- The loops of a tick. -/
def tickCells (platform : Platform F) (visits : Visits F) (variation : NodeId → F)
    (self : ClusterField F) (dtMs : UInt64) : Resting F :=
  let grown := self.growCells platform visits variation dtMs
  (visits.cells.arrange self.cells.keys).foldl (restCell self.noradrenalineActive)
    ⟨grown.field, grown.pending, []⟩

/-- `tick_all`, with the variation each cell draws when it divides. -/
def tickAll (platform : Platform F) (visits : Visits F) (variation : NodeId → F)
    (self : ClusterField F) (dtMs : UInt64) : ClusterField F :=
  let rested := (self.startTick dtMs).tickCells platform visits variation dtMs
  let self := (rested.field.bury platform rested.purge).refreshImportantCells
  let self := { self with ticksSinceImpulse := saturatingAdd self.ticksSinceImpulse 1 }
  (rested.pending.foldl emit self).awakenTick

/-! ## Trimming -/

/-- The cells that trimming leaves alone. -/
def isProtected (cell : NodeCell F) : Bool := cell.adrenoTag || decide (0.7 ≤ cell.salience)

/-- A forgotten cell falls asleep or dies, as two coins fall. -/
def doze (nowMs : UInt64) (dozes dies : Bool) (cell : NodeCell F) : NodeCell F :=
  if isProtected cell then cell
  else if decide (cell.salience < 0.2) && 60000 < saturatingSub nowMs cell.lastRecallMs && dozes then
    let cell := if cell.state = .active then { cell with state := .sleep } else cell
    if cell.energy < 0.05 && dies then { cell with state := .dead } else cell
  else cell

/-- The cells whose death trimming emits. -/
def isVictim (cell : NodeCell F) : Bool :=
  !isProtected cell && (decide (cell.energy ≤ 0.1) || cell.state = .dead)

/-- The cells that trimming retains. -/
def isRetained (cell : NodeCell F) : Bool :=
  if isProtected cell then cell.state ≠ .dead else decide (0.1 < cell.energy) && cell.state ≠ .dead

/-- `trim_low_energy`, with the coins thrown for each cell. -/
def trimLowEnergy (platform : Platform F) (visits : Visits F) (dozes dies : NodeId → Bool)
    (self : ClusterField F) : ClusterField F :=
  let cells := self.cells.map fun id cell => doze self.nowMs (dozes id) (dies id) cell
  let victims := (visits.cells.arrange cells.keys).filter fun id => cells[id]?.any isVictim
  let retained := { self with cells := cells.filter fun _ cell => isRetained cell }
  let retained := if retained.cells.size ≠ self.cells.size then retained.rebuildIndex platform
    else retained
  (victims.foldl (fun self id => (self.emit (.dead id)).purgeTrackingFor id)
    retained).refreshImportantCells

/-! ## New buds -/

/-- Another cell may be linked to a bud: the field, and the sources of the new links. -/
def linkBud (coin : NodeId → Bool) (bud : NodeId) (acc : ClusterField F × List NodeId) (id : NodeId) :
    ClusterField F × List NodeId :=
  match acc.1.cells[id]? with
  | some cell =>
      if cell.id ≠ bud && coin id && !cell.links.contains bud then
        (acc.1.setCell id (cell.link bud), acc.2 ++ [cell.id])
      else acc
  | none => acc

/-- The cell that a seed buds into, with the drawn variation of its affinity and its energy. -/
def bud (platform : Platform F) (shift energy : F) (self : ClusterField F) (baseSeed : String) :
    NodeCell F :=
  let params := createSeed platform baseSeed
  let affinity := clamp (params.affinity + shift) 0.0 1.0
  { NodeCell.fromSeed self.nextId params with
    affinity
    seed :=
      { params with
        affinity
        corePattern := params.corePattern ++ ":bud" ++ toString self.nextId.toNat }
    energy := 0.5 + energy
    lastResponseMs := self.nowMs }

/-- `inject_seed_variation`, with the drawn shift and energy and the coin thrown for each cell. -/
def injectSeedVariation (platform : Platform F) (visits : Visits F) (shift energy : F)
    (coin : NodeId → Bool) (self : ClusterField F) (baseSeed : String) : ClusterField F :=
  if 64 < self.cells.size then self
  else
    let id := self.nextId
    let self := self.spawn platform (self.bud platform shift energy baseSeed)
    let (self, sources) := (visits.cells.arrange self.cells.keys).foldl (linkBud coin id) (self, [])
    let self := sources.foldl (fun self source => self.emit (.link source id)) self
    sources.foldl (fun self source => self.registerLink source id) self

end ClusterField

end LiminalDB
