import LiminalDB.Field.Tick

/-! # Dreams and awakening: `dream_engine.rs`, `synchrony.rs`, `resonant.rs` and `awakening.rs`

A dream strengthens and weakens the links between cells that answered together, a collective dream aligns
the cells of a group, and an awakening raises the energy of the cells under tension. The reports are kept
where the field keeps them; the time that a report says it took is an argument. -/

namespace LiminalDB

variable {F : Type}

/-- `u32::saturating_add`: a sum that stays at the greatest value instead of wrapping around. -/
def saturatingAdd32 (a b : UInt32) : UInt32 := if a + b < a then 0xffffffff else a + b

/-- Every two entries of a list, in order. -/
def eachPair {α : Type} : List α → List (α × α)
  | [] => []
  | x :: xs => xs.map (fun y => (x, y)) ++ eachPair xs

namespace ClusterField

variable [FloatLike F]

open FloatLike (abs clamp epsilon ofNat partialCmp)

/-! ## Pairs that answered together -/

/-- `PairStat`: how often two cells answered close together, and how strongly on average. -/
structure PairStat (F : Type) where
  u : NodeId
  v : NodeId
  freq : F
  avgStrength : F

/-- The pairs of routes in one history that are close in time, with their mean strength. -/
def closeRoutes (windowMs : UInt32) : List (RecentRoute F) → List ((NodeId × NodeId) × F)
  | [] => []
  | left :: rest =>
      ((rest.takeWhile fun right => saturatingSub right.ts left.ts ≤ windowMs.toUInt64).filter
        fun right => left.node ≠ right.node).map (fun right =>
          (if left.node < right.node then (left.node, right.node) else (right.node, left.node),
            (left.strength + right.strength) * 0.5)) ++ closeRoutes windowMs rest

/-- `collect_recent_pairs`: the pairs of cells that answered within a window of one another, with their
counts and strengths. -/
def collectRecentPairs (visits : Visits F) (self : ClusterField F) (windowMs : UInt32) :
    List (PairStat F) :=
  let cutoff := saturatingSub self.nowMs windowMs.toUInt64
  let accum := (visits.routes.arrange self.recentRoutes).foldl (fun accum history =>
    (closeRoutes windowMs (history.2.filter fun e => cutoff ≤ e.ts)).foldl (fun accum pair =>
      entry pair.1 (0, 0.0) (fun seen : UInt32 × F =>
        (saturatingAdd32 seen.1 1, seen.2 + pair.2)) accum) accum) []
  (visits.pairs.arrange accum).map fun e =>
    { u := e.1.1
      v := e.1.2
      freq := ofNat e.2.1.toNat
      avgStrength := if (0 : UInt32) < e.2.1 then e.2.2 / ofNat e.2.1.toNat else 0.0 }

/-! ## Links that dreams change -/

/-- `prune_link`: the field, and whether there was a link. -/
def pruneLink (self : ClusterField F) (source target : NodeId) : ClusterField F × Bool :=
  if self.linked source target then
    (((self.alterCell source (·.unlink target)).unregisterLink source target).emit
      (.unlink source target), true)
  else (self, false)

/-- The cell whose affinity is nearest to that of a lonely cell, the first visited of several. -/
def nearest (visits : Visits F) (self : ClusterField F) (id : NodeId) (cell : NodeCell F) :
    Option NodeId :=
  ((visits.cells.arrange self.cells.keys).foldl (fun best other =>
    match self.cells[other]? with
    | some candidate =>
        if other = id || cell.links.contains other then best
        else
          let distance := abs (candidate.affinity - cell.affinity)
          match best with
          | some (_, current) => if distance < current then some (other, distance) else best
          | none => some (other, distance)
    | none => best) (none : Option (NodeId × F))).map Prod.fst

/-- `rewire_lonely`: the field, and the number of new links. -/
def rewireLonely (visits : Visits F) (self : ClusterField F) (id : NodeId) : ClusterField F × UInt32 :=
  match self.cells[id]? with
  | some cell =>
      if cell.links.isEmpty then
        match self.nearest visits id cell with
        | some target =>
            ((((self.setCell id (cell.link target)).registerLink id target).emit
              (.link id target)).emit (.dreamRewire id target), 1)
        | none => (self, 0)
      else (self, 0)
  | none => (self, 0)

/-! ## Dreams -/

/-- `should_protect`: whether one of two cells is too salient to be touched, or under adrenaline. -/
def shouldProtect (self : ClusterField F) (cfg : DreamConfig F) (u v : NodeId) : Bool :=
  [u, v].any fun id => self.cells[id]?.any fun cell =>
    decide (cfg.protectSalience ≤ cell.salience) || (cfg.adrenoProtect && cell.adrenoTag)

/-- `pick_direction`: the direction in which two cells are linked, if they are. -/
def pickDirection (self : ClusterField F) (a b : NodeId) : Option (NodeId × NodeId) :=
  if self.linked a b then some (a, b) else if self.linked b a then some (b, a) else none

/-- The field in the middle of a dream. -/
structure Dreaming (F : Type) where
  field : ClusterField F
  report : DreamReport
  opsRemaining : UInt32
  touched : List (NodeId × NodeId)

/-- `u32::saturating_sub`: a difference that stays at zero instead of wrapping around. -/
def saturatingSub32 (a b : UInt32) : UInt32 := if a < b then 0 else a - b

/-- One pair is strengthened. -/
def strengthen (cfg : DreamConfig F) (acc : Dreaming F) (pair : PairStat F) : Dreaming F :=
  if acc.opsRemaining = 0 then acc
  else if acc.field.shouldProtect cfg pair.u pair.v then
    { acc with report := { acc.report with protectedCells := acc.report.protectedCells + 1 } }
  else if (pair.u, pair.v) ∈ acc.touched then acc
  else
    let acc := { acc with touched := (pair.u, pair.v) :: acc.touched }
    match acc.field.pickDirection pair.u pair.v with
    | some (source, target) =>
        let (field, changed) := acc.field.adjustLinkScore source target 0.15
        if changed then
          { acc with
            field := field.emit (.dreamStrengthen source target (field.linkScore source target)
              pair.freq pair.avgStrength)
            opsRemaining := saturatingSub32 acc.opsRemaining 1
            report := { acc.report with strengthened := acc.report.strengthened + 1 } }
        else { acc with field }
    | none => acc

/-- The two ends of a pruned link look for new ones. -/
def rewire (visits : Visits F) (acc : Dreaming F) (source target : NodeId) : Dreaming F :=
  if acc.opsRemaining = 0 then acc
  else
    let (field, first) := acc.field.rewireLonely visits source
    let (field, second) := field.rewireLonely visits target
    { acc with
      field
      opsRemaining := saturatingSub32 acc.opsRemaining (saturatingAdd32 first second)
      report := { acc.report with rewired := acc.report.rewired + (first + second) } }

/-- A link that has grown weak is pruned. -/
def prune (visits : Visits F) (acc : Dreaming F) (source target : NodeId) : Dreaming F :=
  if acc.field.linkScore source target ≤ 0.25 then
    let (field, pruned) := acc.field.pruneLink source target
    if pruned then
      rewire visits
        { acc with
          field := field.emit (.dreamPrune source target)
          opsRemaining := saturatingSub32 acc.opsRemaining 1
          report := { acc.report with pruned := acc.report.pruned + 1 } } source target
    else acc
  else acc

/-- One pair is weakened. -/
def weaken (visits : Visits F) (cfg : DreamConfig F) (acc : Dreaming F) (pair : PairStat F) :
    Dreaming F :=
  if acc.opsRemaining = 0 then acc
  else if acc.field.shouldProtect cfg pair.u pair.v then
    { acc with report := { acc.report with protectedCells := acc.report.protectedCells + 1 } }
  else if (pair.u, pair.v) ∈ acc.touched then acc
  else
    let acc := { acc with touched := (pair.u, pair.v) :: acc.touched }
    match acc.field.pickDirection pair.u pair.v with
    | some (source, target) =>
        let (field, changed) := acc.field.adjustLinkScore source target (-0.2)
        if changed then
          prune visits
            { acc with
              field := field.emit (.dreamWeaken source target (field.linkScore source target)
                pair.freq pair.avgStrength)
              opsRemaining := saturatingSub32 acc.opsRemaining 1
              report := { acc.report with weakened := acc.report.weakened + 1 } } source target
        else { acc with field }
    | none => acc

/-- The share of the pairs that a dream strengthens or weakens. -/
def shareOf (total : ℕ) (pct : F) : ℕ :=
  FloatLike.toNat (clamp (FloatLike.round (ofNat total * pct)) 0.0 (ofNat total))

/-- `record_dream_report`: what a dream did goes to the log, to the last sixteen reports and to the
host. -/
def recordDreamReport (self : ClusterField F) (nowMs : UInt64) (report : DreamReport) :
    ClusterField F :=
  { self with
    syncLog := self.syncLog.push
      (.dream nowMs report.strengthened report.weakened report.protectedCells)
    dreamReports := lastOf 16 (self.dreamReports ++ [(nowMs, report)]) }.emit
      (.dreamReport nowMs report)

/-- `run_dream`: the pairs are strengthened, then weakened or pruned, then linked, as far as the budget
of operations goes. -/
def runDream (visits : Visits F) (tookMs : UInt32) (self : ClusterField F) (cfg : DreamConfig F)
    (nowMs : UInt64) : ClusterField F :=
  let pairs := self.collectRecentPairs visits cfg.windowMs
  if cfg.maxOpsPerCycle = 0 || pairs.isEmpty then self
  else
    let pairs := sortBy (fun a b => partialCmp b.freq a.freq) pairs
    let acc := (pairs.take (shareOf pairs.length cfg.strengthenTopPct)).foldl (strengthen cfg)
      ⟨self, ⟨0, 0, 0, 0, 0, 0⟩, cfg.maxOpsPerCycle, []⟩
    let bottom := sortBy (fun a b => partialCmp a.freq b.freq) pairs
    let acc := (bottom.take (shareOf pairs.length cfg.weakenBottomPct)).foldl (weaken visits cfg) acc
    acc.field.recordDreamReport nowMs { acc.report with tookMs }

/-- `run_dream_cycle`: a dream with the field's own config, which a field of one cell does not have. -/
def runDreamCycle (visits : Visits F) (tookMs : UInt32) (self : ClusterField F) : ClusterField F :=
  if self.cells.size < 2 then self
  else
    let self := self.runDream visits tookMs self.dreamCfg self.nowMs
    { self with lastDreamMs := self.nowMs }

/-! ## Collective dreams -/

/-- `SyncGroup`: cells that answered together, and the tokens which they share in a collective dream. -/
structure SyncGroup where
  nodes : List NodeId
  tokens : List String

/-- `community_centroid`: the mean affinity of a group's cells, towards which they are aligned. -/
def communityCentroid (self : ClusterField F) (nodes : List NodeId) : F :=
  let affinities := nodes.filterMap fun node => self.cells[node]?.map NodeCell.affinity
  if affinities.isEmpty then 0.0
  else affinities.foldl (· + ·) 0.0 / ofNat (Min.min affinities.length 0xffffffff)

/-- A cell moves towards the centre of its group; whether it is aligned, and whether it is protected. -/
def aligned (weight centroid : F) (cell : NodeCell F) : NodeCell F × Bool × Bool :=
  let protectedCell := decide (0.6 ≤ cell.salience) || cell.adrenoTag
  let diff := centroid - cell.affinity
  let moves := decide (0.002 < abs diff)
  let cell := if moves then { cell with affinity := clamp (cell.affinity + diff * 0.08) 0.0 1.0 }
    else cell
  let adjust := if diff < 0.0 then 1.0 - weight * 0.05 else 1.0 + weight * 0.05
  let cell := if protectedCell then cell
    else { cell with metabolism := clamp (cell.metabolism * adjust) 0.05 5.0 }
  (cell, moves, protectedCell)

/-- A collective dream over one group: the field, the counts, and the biases it has shared. -/
structure Sharing (F : Type) where
  field : ClusterField F
  shared : UInt32
  alignedCells : UInt32
  protectedCells : UInt32
  events : List (NodeId × String × F)

/-- The bias of a node for a token of its group grows. -/
def shareToken (weight : F) (node : NodeId) (acc : Sharing F) (token : String) : Sharing F :=
  let bias := (acc.field.routeBias (token, node)).getD 1.0
  let updated := clamp (bias + weight) 0.2 5.0
  let changed := decide (epsilon < abs (updated - bias))
  let stored := if changed then updated else bias
  { acc with
    field :=
      { acc.field with
        routeBias := fun e => if e = (token, node) then some stored else acc.field.routeBias e }
    shared := if changed then saturatingAdd32 acc.shared 1 else acc.shared
    events := if changed then acc.events ++ [(node, token, updated)] else acc.events }

/-- One node of a group is aligned and takes over the tokens. -/
def shareNode (weight centroid : F) (tokens : List String) (acc : Sharing F) (node : NodeId) :
    Sharing F :=
  match acc.field.cells[node]? with
  | some cell =>
      let (after, moves, protectedCell) := aligned weight centroid cell
      tokens.foldl (shareToken weight node)
        { acc with
          field := acc.field.setCell node after
          alignedCells := if moves then saturatingAdd32 acc.alignedCells 1 else acc.alignedCells
          protectedCells := if protectedCell then saturatingAdd32 acc.protectedCells 1
            else acc.protectedCells }
  | none => acc

/-- A link within a group grows stronger. -/
def alignLink (weight : F) (acc : Sharing F) (source target : NodeId) : Sharing F :=
  let (field, changed) := acc.field.adjustLinkScore source target weight
  if changed then
    { acc with
      field := field.emit (.syncAlign source target (field.linkScore source target))
      alignedCells := saturatingAdd32 acc.alignedCells 1 }
  else { acc with field }

/-- `share_tokens`: the cells of a group are aligned and take over its tokens, then the links between them
are aligned. -/
def shareTokens (platform : Platform F) (self : ClusterField F) (nodes : List NodeId)
    (tokens : List String) (weightXfer : F) : Sharing F :=
  if nodes.isEmpty || tokens.isEmpty then ⟨self, 0, 0, 0, []⟩
  else
    let weight := clamp weightXfer 0.05 0.5
    let acc := nodes.foldl
      (shareNode weight (self.communityCentroid nodes) (tokens.map platform.toLowercase))
      ⟨self, 0, 0, 0, []⟩
    let acc := (eachPair nodes).foldl
      (fun acc pair => alignLink weight (alignLink weight acc pair.1 pair.2) pair.2 pair.1) acc
    { acc with
      field := acc.events.foldl (fun self event =>
        self.emit (.syncShare event.1 event.2.1 event.2.2)) acc.field }

/-- `record_sync_report`: what a collective dream did goes to the log, to the last sixteen reports and to
the host. -/
def recordSyncReport (self : ClusterField F) (nowMs : UInt64) (report : SyncReport) :
    ClusterField F :=
  { self with
    syncLog := self.syncLog.push
      (.collective nowMs report.shared report.aligned report.protectedCells)
    syncReports := lastOf 16 (self.syncReports ++ [(nowMs, report)]) }.emit
      (.collectiveDreamReport nowMs report)

/-- The tokens of one group are shared and the counts added to the report. -/
def dreamGroup (platform : Platform F) (cfg : SyncConfig F) (acc : ClusterField F × SyncReport)
    (group : SyncGroup) : ClusterField F × SyncReport :=
  let result := acc.1.shareTokens platform group.nodes group.tokens cfg.weightXfer
  (result.field,
    { acc.2 with
      shared := saturatingAdd32 acc.2.shared result.shared
      aligned := saturatingAdd32 acc.2.aligned result.alignedCells
      protectedCells := saturatingAdd32 acc.2.protectedCells result.protectedCells })

/-- `run_collective_dream`: every group shares its tokens and is aligned, one after another. -/
def runCollectiveDream (platform : Platform F) (tookMs : UInt32) (self : ClusterField F)
    (groups : List SyncGroup) (cfg : SyncConfig F) (nowMs : UInt64) : ClusterField F :=
  if groups.isEmpty then self
  else
    let (self, report) := groups.foldl (dreamGroup platform cfg)
      (self, ⟨UInt16.ofNat groups.length, 0, 0, 0, 0⟩)
    self.recordSyncReport nowMs { report with tookMs }

/-! ## The resonant model -/

/-- `total_protected`: how many cells all the dreams of a log have spared, in 32-bit arithmetic. -/
def totalProtected (log : SyncLog) : UInt32 :=
  (log.entries.map fun event => match event with
    | .dream _ _ _ protectedCells | .collective _ _ _ protectedCells => protectedCells
    | _ => 0).foldl (· + ·) 0

/-- `coherence_bias`: how coherent the log says the field is: a dream counts 0.55, a collective dream by
what it aligned. -/
def coherenceBias (log : SyncLog) : F :=
  clamp (log.entries.foldl (fun best event => match event with
    | .dream .. => FloatLike.max best 0.55
    | .collective _ shared aligned _ =>
        if 0 < aligned + shared then
          FloatLike.max best ((ofNat aligned.toNat + 0.5 * ofNat shared.toNat) /
            ofNat (aligned + shared).toNat)
        else best
    | _ => best) 0.5) 0.0 1.0

/-- `protection_pressure`: the share of protected cells, which tends to one as they become many. -/
def protectionPressure (log : SyncLog) : F :=
  let protectedCells : F := ofNat (totalProtected log).toNat
  clamp (protectedCells / (protectedCells + 8.0)) 0.0 1.0

/-- `dream_balance`: the share of what dreams strengthened in all that they changed. -/
def dreamBalance (history : List DreamReport) : F :=
  let strengthened := (history.map DreamReport.strengthened).foldl (· + ·) 0
  let weakened := (history.map DreamReport.weakened).foldl (· + ·) 0
  let total : F := ofNat (strengthened + weakened).toNat
  if total ≤ epsilon then 0.5 else clamp (ofNat strengthened.toNat / total) 0.0 1.0

/-- The edge and the two influences between two cells. -/
def resonance (balance bias : F) (left right : NodeCell F) : ResonantEdge F × List (Influence F) :=
  let salienceAvg := (left.salience + right.salience) * 0.5
  let energyAvg := (left.energy + right.energy) * 0.5
  let weight := clamp (clamp (salienceAvg + 0.1) 0.0 1.25 * (0.5 + 0.5 * balance)) 0.0 2.5
  let coherence := clamp (clamp (energyAvg + 0.05) 0.0 1.25 * (0.4 + 0.6 * bias)) 0.0 2.5
  let ratio (a b : NodeCell F) := clamp ((a.salience + 0.05) / (b.salience + 0.05)) 0.2 4.0
  (⟨left.id, right.id, weight, coherence⟩,
    [⟨left.id, right.id, ratio left right, clamp (coherence * 0.8 + energyAvg) 0.0 3.0⟩,
      ⟨right.id, left.id, ratio right left, clamp (coherence * 0.8 + energyAvg * 0.5) 0.0 3.0⟩])

/-- The tension of a cell is noted. -/
def noteTension (protection : F) (tensions : List (NodeId × (F × F))) (cell : NodeCell F) :
    List (NodeId × (F × F)) :=
  let tension := (FloatLike.max (1.0 - cell.energy) 0.0 + cell.salience * 0.5) * (1.0 - protection)
  entry cell.id (0.0, protection) (fun seen => (FloatLike.max seen.1 tension, protection)) tensions

/-- `build_model`: the model is built of the six most salient cells, and of nothing if there are not
two. -/
def buildModel (visits : Visits F) (self : ClusterField F) (log : SyncLog)
    (history : List DreamReport) : ResonantModel F :=
  let cells := (visits.cells.arrange self.cells.keys).filterMap fun id => self.cells[id]?
  let ranked := (sortBy (fun a b => (partialCmp b.salience a.salience).then
    (compareOfLessAndEq a.id b.id)) cells).take 6
  if ranked.length < 2 then .default
  else
    let protection := protectionPressure log
    let resonances := (eachPair ranked).map fun pair =>
      resonance (dreamBalance history) (coherenceBias log) pair.1 pair.2
    let edges := resonances.map Prod.fst
    let tensions := (eachPair ranked).foldl (fun tensions pair =>
      noteTension protection (noteTension protection tensions pair.1) pair.2) []
    let tensions := (visits.tensions.arrange tensions).map fun e : NodeId × (F × F) =>
      (⟨e.1, clamp e.2.1 0.0 2.0, clamp e.2.2 0.0 1.0⟩ : Tension F)
    { edges
      influences := resonances.flatMap Prod.snd
      tensions := sortBy (fun a b => partialCmp b.magnitude a.magnitude) tensions
      coherence := (edges.map ResonantEdge.coherence).foldl (· + ·) 0.0 / ofNat edges.length
      lastBuild := none
      lastApplied := none }

/-- `rebuild_resonant_model`: the field, and the model if there is one. -/
def rebuildResonantModel (visits : Visits F) (self : ClusterField F) :
    ClusterField F × Option (ResonantModel F) :=
  let history := (lastOf 8 self.dreamReports).map Prod.snd
  if history.isEmpty && self.syncLog.entries.isEmpty then
    ({ self with cachedResonantModel := none }, none)
  else
    let model := self.buildModel visits self.syncLog history
    ({ self with cachedResonantModel := some model }, some model)

/-! ## Awakening -/

/-- The energy of a cell under tension. -/
def awakened (cfg : AwakeningConfig F) (magnitude before : F) : F :=
  let floor := FloatLike.max cfg.energyFloor before
  clamp (floor + FloatLike.min (magnitude * cfg.energyBoost) (1.0 - floor)) 0.0 1.0

/-- A cell under tension is raised, unless it is protected. -/
def awakenCell (cfg : AwakeningConfig F) (self : ClusterField F) (tension : Tension F) :
    ClusterField F :=
  match self.cells[tension.node]? with
  | some cell =>
      if cfg.protectSalience ≤ cell.salience then self
      else
        let after := awakened cfg tension.magnitude cell.energy
        if epsilon < abs (after - cell.energy) then
          let cell := { cell with energy := after }
          let cell := cell.bumpSalience (cfg.salienceBoost * (1.0 + tension.magnitude))
          (self.setCell tension.node cell).emitEnergyState tension.node
        else self
  | none => self

/-- The tensions that an awakening considers. -/
def considered (model : ResonantModel F) (cfg : AwakeningConfig F) : List (Tension F) :=
  (sortBy (fun a b => partialCmp b.magnitude a.magnitude) model.tensions).take cfg.maxNodes

/-- `awaken`: the field, and the target load of its time regulation. -/
def awaken (self : ClusterField F) (model : ResonantModel F) (cfg : AwakeningConfig F)
    (trs : TrsState F) : ClusterField F × TrsState F :=
  if model.tensions.isEmpty then (self, trs)
  else
    let consider := considered model cfg
    let self := consider.foldl (awakenCell cfg) self
    let avgTension := if consider.isEmpty then 0.0
      else (consider.map Tension.magnitude).foldl (· + ·) 0.0 /
        ofNat (Min.min consider.length 0xffffffff)
    let trs := if 0.0 < cfg.targetGain then
        let delta := clamp (cfg.targetGain * (avgTension - 0.5)) (-0.15) 0.15
        trs.setTarget (clamp (trs.targetLoad + delta) 0.3 0.95)
      else trs
    (self, trs)

/-- `awaken_now`: the field is awakened with the model as it is rebuilt now. -/
def awakenNow (visits : Visits F) (self : ClusterField F) : ClusterField F :=
  let (self, model) := self.rebuildResonantModel visits
  let model := (model.or self.cachedResonantModel).getD .default
  let (self, trs) := self.awaken model self.awakeningCfg self.trs
  { self with trs }

end ClusterField

end LiminalDB
