import LiminalDB.Field.Delta

/-! # The field: `cluster_field.rs`

The state of a `ClusterField`, the small operations that its mutators are made of, and `apply_delta`. Left
out are the views, the symmetry engine, the reflex feedback, the seed garden and the variant layer: they
read the field, and nothing modelled reads them. Sums of `u64` wrap, as in a release build. -/

namespace LiminalDB

variable {F : Type}

/-! ## Entries of hash maps that are visited as a whole -/

/-- `entry(key).or_insert(init)`, changed in place. -/
def entry {κ β : Type} [DecidableEq κ] (key : κ) (init : β) (change : β → β) (m : List (κ × β)) :
    List (κ × β) :=
  if m.any fun e => e.1 = key then m.map fun e => if e.1 = key then (e.1, change e.2) else e
  else m ++ [(key, change init)]

/-- The last `limit` entries of a queue. -/
@[irreducible] def lastOf {α : Type} (limit : ℕ) (queue : List α) : List α := queue.drop (queue.length - limit)

/-- Take from the front of a queue what is older than `retention`, then what is over `limit`. -/
def expire {α : Type} (nowMs retention : UInt64) (limit : ℕ) (ts : α → UInt64) (queue : List α) :
    List α :=
  lastOf limit (queue.dropWhile fun e => retention < saturatingSub nowMs (ts e))

/-! ## State -/

/-- `Hit`: one answered impulse, with the cell that answered, how strongly, and after how long. -/
structure Hit (F : Type) where
  seq : UInt64
  ts : UInt64
  node : NodeId
  strength : F
  latencyMs : UInt32

/-- `RecentRoute`: one answer of a recent route, by which the dream pairs cells that answered close
together. -/
structure RecentRoute (F : Type) where
  ts : UInt64
  node : NodeId
  strength : F

/-- `LinkStat` and `RouteStat` -/
structure LinkStat where
  hits : UInt64
  lastUsedMs : UInt64

/-- `NoradrenalineEffect`: how strong the effect still is, and until when it lasts. -/
structure NoradrenalineEffect (F : Type) where
  untilMs : UInt64
  strength : F

/-- `ClusterField`. A map that is only looked up is a function; an absent queue is an empty one. -/
structure ClusterField (F : Type) where
  cells : Std.ExtTreeMap NodeId (NodeCell F) compare
  index : String → List NodeId
  nowMs : UInt64
  nextId : NodeId
  rules : Std.ExtTreeMap ReflexId (ReflexRule F) compare
  nextReflexId : ReflexId
  counters : String × ImpulseKind → List (UInt64 × F)
  tokenHits : String → List (Hit F)
  /-- What has been emitted, oldest first: the contents of a lossless journal attached from the start. -/
  journal : List (EventDelta F)
  ticksSinceImpulse : UInt64
  linkUsage : NodeId × NodeId → Option LinkStat
  linkScores : NodeId × NodeId → Option F
  routeUsage : List ((NodeId × NodeId) × LinkStat)
  routeBias : String × NodeId → Option F
  recentRoutes : List (String × List (RecentRoute F))
  lastDreamMs : UInt64
  dreamCfg : DreamConfig F
  dreamReports : List (UInt64 × DreamReport)
  syncCfg : SyncConfig F
  syncReports : List (UInt64 × SyncReport)
  cachedResonantModel : Option (ResonantModel F)
  awakeningCfg : AwakeningConfig F
  syncLog : SyncLog
  trs : TrsState F
  lastAwakenTick : UInt64
  harmony : HarmonyTuning F
  nextHitSeq : UInt64
  importantCells : List NodeId
  noradrenaline : Option (NoradrenalineEffect F)
  mirrorEpochs : List (Epoch F)
  mirrorReplays : List (ReplayReport F)
  resonantModel : ResonantModel F

/-- The orders in which one call visits the hash maps and sets of a field, and its temporary ones. -/
structure Visits (F : Type) where
  cells : Order NodeId
  rules : Order (ReflexRule F)
  candidates : Order NodeId
  tokens : Order String
  routes : Order (String × List (RecentRoute F))
  pairs : Order ((NodeId × NodeId) × (UInt32 × F))
  usage : Order ((NodeId × NodeId) × LinkStat)
  tensions : Order (NodeId × (F × F))

/-- Every map in the order it is listed in. -/
def Visits.listed : Visits F :=
  ⟨.listed, .listed, .listed, .listed, .listed, .listed, .listed, .listed⟩

namespace ClusterField

/-- `ClusterField::new`: a field without any cells, with the defaults of every config. -/
def new [FloatLike F] : ClusterField F :=
  { cells := ∅
    index := fun _ => []
    nowMs := 0
    nextId := 1
    rules := ∅
    nextReflexId := 1
    counters := fun _ => []
    tokenHits := fun _ => []
    journal := []
    ticksSinceImpulse := 0
    linkUsage := fun _ => none
    linkScores := fun _ => none
    routeUsage := []
    routeBias := fun _ => none
    recentRoutes := []
    lastDreamMs := 0
    dreamCfg := .default
    dreamReports := []
    syncCfg := .default
    syncReports := []
    cachedResonantModel := none
    awakeningCfg := .default
    syncLog := .new
    trs := .default
    lastAwakenTick := 0
    harmony := .default
    nextHitSeq := 1
    importantCells := []
    noradrenaline := none
    mirrorEpochs := []
    mirrorReplays := []
    resonantModel := .default }

/-! ## Emitting -/

/-- `emit`: a delta goes to the journal, after the ones that are there. -/
def emit (self : ClusterField F) (delta : EventDelta F) : ClusterField F :=
  { self with journal := self.journal ++ [delta] }

/-- `EnergyDelta` of a cell. -/
def energyDelta (id : NodeId) (cell : NodeCell F) : EventDelta F :=
  .energy id cell.energy cell.metabolism cell.state cell.lastResponseMs

/-- A cell is replaced: what `get_mut` leaves behind. -/
def setCell (self : ClusterField F) (id : NodeId) (cell : NodeCell F) : ClusterField F :=
  { self with cells := self.cells.insert id cell }

/-- A cell, if there is one, is changed in place. -/
def alterCell (self : ClusterField F) (id : NodeId) (change : NodeCell F → NodeCell F) :
    ClusterField F :=
  match self.cells[id]? with
  | some cell => self.setCell id (change cell)
  | none => self

/-- `emit_energy_state`: what the journal hears of a cell: its energy and its state as they are now. -/
def emitEnergyState (self : ClusterField F) (id : NodeId) : ClusterField F :=
  match self.cells[id]? with
  | some cell => self.emit (energyDelta id cell)
  | none => self

/-! ## Links and their statistics -/

section Links

variable [FloatLike F]

/-- `register_link`: a link is tracked from now on, unless it already is. -/
def registerLink (self : ClusterField F) (source target : NodeId) : ClusterField F :=
  { self with
    linkUsage := fun e => if e = (source, target) then (self.linkUsage e).or (some ⟨0, self.nowMs⟩)
      else self.linkUsage e
    linkScores := fun e => if e = (source, target) then (self.linkScores e).or (some 1.0)
      else self.linkScores e }

/-- `unregister_link`: a link is no longer tracked, with its hits and its score gone. -/
def unregisterLink (self : ClusterField F) (source target : NodeId) : ClusterField F :=
  { self with
    linkUsage := fun e => if e = (source, target) then none else self.linkUsage e
    linkScores := fun e => if e = (source, target) then none else self.linkScores e }

/-- `record_link_hit`: a route went over a link, and its count saturates. -/
def recordLinkHit (self : ClusterField F) (source target : NodeId) : ClusterField F :=
  { self with
    linkUsage := fun e => if e = (source, target) then
        some ⟨saturatingAdd ((self.linkUsage e).elim 0 LinkStat.hits) 1, self.nowMs⟩
      else self.linkUsage e }

/-- The first of the least used routes, of these the one used longest ago. -/
def leastUsed : List ((NodeId × NodeId) × LinkStat) → Option (NodeId × NodeId)
  | [] => none
  | e :: rest =>
      some (rest.foldl (fun best e =>
        if (compareOfLessAndEq e.2.hits best.2.hits).then
            (compareOfLessAndEq e.2.lastUsedMs best.2.lastUsedMs) = .lt then e else best) e).1

/-- `record_route_pair`: a pair of a route is counted, and beyond 2048 pairs the least used one goes. -/
def recordRoutePair (visits : Visits F) (self : ClusterField F) (source target : NodeId) :
    ClusterField F :=
  let usage := entry (source, target) ⟨0, 0⟩
    (fun stat : LinkStat => ⟨saturatingAdd stat.hits 1, self.nowMs⟩) self.routeUsage
  let usage := if 2048 < usage.length then
      match leastUsed (visits.usage.arrange usage) with
      | some candidate => usage.filter fun e => e.1 ≠ candidate
      | none => usage
    else usage
  { self with routeUsage := usage }

/-- Whether one end of a link is the cell. -/
def touches (id : NodeId) (e : NodeId × NodeId) : Bool := e.1 = id || e.2 = id

/-- `purge_tracking_for`: all that touches a cell is no longer tracked. -/
def purgeTrackingFor (self : ClusterField F) (id : NodeId) : ClusterField F :=
  { self with
    linkUsage := fun e => if touches id e then none else self.linkUsage e
    routeUsage := self.routeUsage.filter fun e => !touches id e.1
    linkScores := fun e => if touches id e then none else self.linkScores e }

/-- Whether a cell is there and is linked to the other. -/
def linked (self : ClusterField F) (source target : NodeId) : Bool :=
  match self.cells[source]? with
  | some cell => cell.links.contains target
  | none => false

/-- `record_route_sequence`: every two cells that follow one another in a route are counted, as links
only if they are linked. -/
def recordRouteSequence (visits : Visits F) (self : ClusterField F) :
    List NodeId → ClusterField F
  | source :: target :: rest =>
      let self := if self.linked source target then self.recordLinkHit source target else self
      recordRouteSequence visits (self.recordRoutePair visits source target) (target :: rest)
  | _ => self

/-- `link_score`: the score of a link, which is one until something changed it. -/
def linkScore (self : ClusterField F) (source target : NodeId) : F :=
  (self.linkScores (source, target)).getD 1.0

/-- `adjust_link_score`: the field, and whether the score changed. -/
def adjustLinkScore (self : ClusterField F) (source target : NodeId) (delta : F) :
    ClusterField F × Bool :=
  if self.linked source target then
    let score := self.linkScore source target
    let updated := FloatLike.clamp (score + delta) 0.2 3.0
    ({ self with
        linkScores := fun e => if e = (source, target) then some updated else self.linkScores e },
      FloatLike.epsilon < FloatLike.abs (updated - score))
  else (self, false)

end Links

end ClusterField

/-- A link is added. -/
def NodeCell.link (cell : NodeCell F) (target : NodeId) : NodeCell F :=
  { cell with links := cell.links.insert target }

/-- A link is removed. -/
def NodeCell.unlink (cell : NodeCell F) (target : NodeId) : NodeCell F :=
  { cell with links := cell.links.erase target }

namespace ClusterField

/-! ## The token index -/

/-- A cell is listed under the tokens of its pattern and under no other. -/
def indexed (platform : Platform F) (index : String → List NodeId) (id : NodeId) (pattern : String) :
    String → List NodeId := fun token =>
  (index token).filter (· ≠ id) ++
    ((tokenize platform pattern).filter (· = token)).map fun _ => id

/-- `update_index_for`: the tokens of a cell's pattern lead to the cell. -/
def updateIndexFor (platform : Platform F) (self : ClusterField F) (id : NodeId) : ClusterField F :=
  match self.cells[id]? with
  | some cell => { self with index := indexed platform self.index id cell.seed.corePattern }
  | none => self

variable [FloatLike F]

/-- `ensure_link_tracking`: all the links of a cell are tracked. -/
def ensureLinkTracking (self : ClusterField F) (id : NodeId) : ClusterField F :=
  match self.cells[id]? with
  | some cell => cell.links.toList.foldl (fun self target => self.registerLink id target) self
  | none => self

/-- `attach_cell`: a cell is put under its id, indexed, and its links are tracked. -/
def attachCell (platform : Platform F) (self : ClusterField F) (cell : NodeCell F) : ClusterField F :=
  ((self.setCell cell.id cell).updateIndexFor platform cell.id).ensureLinkTracking cell.id

/-- `rebuild_index`: the index and the tracking are made anew from the cells. -/
def rebuildIndex (platform : Platform F) (self : ClusterField F) : ClusterField F :=
  self.cells.keys.foldl (fun self id => (self.updateIndexFor platform id).ensureLinkTracking id)
    { self with index := fun _ => [] }

/-! ## Rules -/

/-- A rule as `add_reflex` keeps it: with an id of its own if it had none. -/
def keptRule (platform : Platform F) (self : ClusterField F) (rule : ReflexRule F) : ReflexRule F :=
  { rule with
    id := if rule.id = 0 then self.nextReflexId else rule.id
    when :=
      { rule.when with
        token := platform.toLowercase (trim rule.when.token)
        minStrength := FloatLike.clamp rule.when.minStrength 0.0 1.0 } }

/-- `add_reflex`: a rule is kept under its own id, or under a fresh one if it comes without. -/
def addReflex (platform : Platform F) (self : ClusterField F) (rule : ReflexRule F) :
    ClusterField F :=
  let kept := self.keptRule platform rule
  { self with
    rules := self.rules.insert kept.id kept
    nextReflexId := if rule.id = 0 then self.nextReflexId + 1
      else max self.nextReflexId (rule.id + 1) }.emit (.reflexAdd kept)

/-- `remove_reflex`: a rule that is there is dropped, and the journal hears of it. -/
def removeReflex (self : ClusterField F) (id : ReflexId) : ClusterField F :=
  if id ∈ self.rules then { self with rules := self.rules.erase id }.emit (.reflexRemove id) else self

/-! ## Replay -/

/-- A link is added, and its score registered, where it is new. -/
def addLink (self : ClusterField F) (source target : NodeId) : ClusterField F :=
  match self.cells[source]? with
  | some cell =>
      if cell.links.contains target then self
      else (self.setCell source (cell.link target)).registerLink source target
  | none => self

/-- `apply_delta`: what a field becomes when a delta of a journal is replayed on it. -/
def applyDelta (platform : Platform F) (self : ClusterField F) : EventDelta F → ClusterField F
  | .tick nowMs => { self with nowMs, ticksSinceImpulse := 0 }
  | .spawn snapshot =>
      let self := self.attachCell platform snapshot.toNode
      { self with nextId := max self.nextId (snapshot.id + 1) }
  | .divide parent child =>
      let self := (self.addLink parent child.id).attachCell platform child.toNode
      { self with nextId := max self.nextId (child.id + 1) }
  | .sleep id => self.alterCell id fun cell => { cell with state := .sleep }
  | .dead id =>
      ({ self with cells := self.cells.erase id }.rebuildIndex platform).purgeTrackingFor id
  | .link source target => self.addLink source target
  | .unlink source target =>
      if self.linked source target then
        (self.alterCell source (·.unlink target)).unregisterLink source target
      else self
  | .affinity id affinity => self.alterCell id fun cell =>
      { cell with affinity, seed := { cell.seed with affinity } }
  | .energy id energy metabolism state lastResponseMs => self.alterCell id fun cell =>
      { cell with energy, metabolism, state, lastResponseMs }
  | .reflexAdd rule =>
      let rule :=
        { rule with when := { rule.when with token := platform.toLowercase rule.when.token } }
      { self with
        nextReflexId := max self.nextReflexId (rule.id + 1)
        rules := self.rules.insert rule.id rule }
  | .reflexRemove id => { self with rules := self.rules.erase id }
  | .reflexFire _ _ _ => self
  | .trsSet cfg =>
      let trs := self.trs.applyConfig cfg
      { self with trs, harmony := { self.harmony with alpha := trs.alpha } }
  | .trsTarget targetLoad => { self with trs := self.trs.setTarget targetLoad }
  | .trsTrace nowMs _ error _ alpha =>
      { self with
        trs := { self.trs with lastErr := error, lastTs := nowMs }
        harmony := { self.harmony with alpha } }
  | .trsHarmony harmony => { self with harmony }
  | .dreamConfig cfg => { self with dreamCfg := cfg }
  | .syncConfig cfg => { self with syncCfg := cfg }
  | .dreamStrengthen source target score _ _
  | .dreamWeaken source target score _ _
  | .syncAlign source target score =>
      { self with
        linkScores := fun e => if e = (source, target) then some score else self.linkScores e }
  | .dreamPrune source target =>
      (self.alterCell source (·.unlink target)).unregisterLink source target
  | .dreamRewire source target => self.addLink source target
  | .dreamReport nowMs report =>
      { self with
        dreamReports := lastOf 16 (self.dreamReports ++ [(nowMs, report)])
        lastDreamMs := nowMs }
  | .syncShare node token bias =>
      { self with
        routeBias := fun e => if e = (platform.toLowercase token, node) then some bias
          else self.routeBias e }
  | .collectiveDreamReport nowMs report =>
      { self with syncReports := lastOf 16 (self.syncReports ++ [(nowMs, report)]) }
  | .modelBuild hash cellCount nowMs =>
      { self with
        resonantModel := self.resonantModel.recordBuild ⟨hash, cellCount, nowMs⟩
        syncLog := self.syncLog.push (.build nowMs hash cellCount) }
  | .awakenApply hash config nowMs cellCount =>
      { self with
        awakeningCfg := config
        resonantModel := self.resonantModel.setLastApplied hash
        syncLog := match hash with
          | some hash => self.syncLog.push (.apply nowMs (some hash) cellCount)
          | none => self.syncLog }
  | .awakenTick hash nowMs =>
      { self with
        lastAwakenTick := nowMs
        syncLog := self.syncLog.push (.tick nowMs)
        resonantModel := if hash.isSome && self.resonantModel.lastApplied.isNone
          then self.resonantModel.setLastApplied hash else self.resonantModel }
  | .mirrorEpoch epoch => { self with mirrorEpochs := lastOf 256 (self.mirrorEpochs ++ [epoch]) }
  | .mirrorReplay report => { self with mirrorReplays := lastOf 128 (self.mirrorReplays ++ [report]) }

/-- A journal is replayed into an empty field. -/
def replay (platform : Platform F) (deltas : List (EventDelta F)) : ClusterField F :=
  deltas.foldl (applyDelta platform) new

end ClusterField

end LiminalDB
