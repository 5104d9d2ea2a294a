import LiminalDB.Field.Cell

/-! # Deltas: `journal.rs` and the records they carry

The event vocabulary of the field, with the configurations and reports that travel in it. -/

namespace LiminalDB

variable {F : Type}

/-! ## Configurations and reports -/

/-- `DreamConfig`: when a field dreams, over which window of answers, and how much of it may change. -/
structure DreamConfig (F : Type) where
  minIdleS : UInt32
  windowMs : UInt32
  strengthenTopPct : F
  weakenBottomPct : F
  protectSalience : F
  adrenoProtect : Bool
  maxOpsPerCycle : UInt32

/-- `DreamConfig::default`: fifteen idle seconds, three seconds of answers, and 256 operations. -/
def DreamConfig.default [FloatLike F] : DreamConfig F :=
  ⟨15, 3000, 0.15, 0.10, 0.6, true, 256⟩

/-- `DreamReport`: how many links a dream strengthened, weakened, pruned and made, and how many cells it
spared. -/
structure DreamReport where
  strengthened : UInt32
  weakened : UInt32
  pruned : UInt32
  protectedCells : UInt32
  rewired : UInt32
  tookMs : UInt32

/-- `SyncConfig`: when cells answer together, how many groups of them dream, and what they share. -/
structure SyncConfig (F : Type) where
  phaseLenMs : UInt32
  phaseGapMs : UInt32
  cooccurThreshold : F
  maxGroups : UInt16
  shareTopK : UInt16
  weightXfer : F

/-- `SyncConfig::default`: pairs at a strength of 0.6 or more, and four groups at most. -/
def SyncConfig.default [FloatLike F] : SyncConfig F := ⟨4000, 1000, 0.6, 4, 8, 0.2⟩

/-- `SyncReport`: how many groups a collective dream had, and what it shared and aligned among their
cells. -/
structure SyncReport where
  groups : UInt16
  shared : UInt32
  aligned : UInt32
  protectedCells : UInt32
  tookMs : UInt32

/-- `AwakeningConfig`: how many cells under tension an awakening raises, and by how much. -/
structure AwakeningConfig (F : Type) where
  maxNodes : ℕ
  energyFloor : F
  energyBoost : F
  salienceBoost : F
  protectSalience : F
  tickBiasMs : ℤ
  targetGain : F

/-- `AwakeningConfig::default`: four cells, lifted to an energy of 0.45 at least. -/
def AwakeningConfig.default [FloatLike F] : AwakeningConfig F :=
  ⟨4, 0.45, 0.35, 0.12, 0.75, 18, 0.08⟩

/-- `TrsConfig`: the gains of the load controller and the load it aims at, as they are asked for. -/
structure TrsConfig (F : Type) where
  alpha : F
  beta : F
  targetLoad : F
  kP : F
  kI : F
  kD : F

/-- `TrsState`: the gains and the aim that the controller uses, with the error it has summed up and the
last one. -/
structure TrsState (F : Type) where
  alpha : F
  beta : F
  targetLoad : F
  errI : F
  kP : F
  kI : F
  kD : F
  lastErr : F
  lastTs : UInt64

namespace TrsState

variable [FloatLike F]

/-- `TrsState::default`: the gains before anything is configured, without any error yet. -/
def default : TrsState F := ⟨0.22, 0.6, 0.6, 0.0, 0.85, 0.18, 0.05, 0.0, 0⟩

/-- `apply_config`: the gains are clamped to what the controller can bear, and the errors start anew. -/
def applyConfig (_self : TrsState F) (cfg : TrsConfig F) : TrsState F :=
  { alpha := FloatLike.clamp cfg.alpha 0.01 0.95
    beta := FloatLike.clamp cfg.beta 0.0 0.95
    kP := FloatLike.max cfg.kP 0.0
    kI := FloatLike.max cfg.kI 0.0
    kD := FloatLike.max cfg.kD 0.0
    targetLoad := FloatLike.clamp cfg.targetLoad 0.0 1.0
    errI := 0.0
    lastErr := 0.0
    lastTs := 0 }

/-- `set_target`: the load to aim at, as a share of one. -/
def setTarget (self : TrsState F) (target : F) : TrsState F :=
  { self with targetLoad := FloatLike.clamp target 0.0 1.0 }

end TrsState

/-- `HarmonyTuning`: what the harmony of a field asks of its cells: how fast they average, and two
scales. -/
structure HarmonyTuning (F : Type) where
  alpha : F
  affinityScale : F
  metabolismScale : F
  sleepDelta : F

/-- `HarmonyTuning::default`: both scales at one, and no shift of sleep. -/
def HarmonyTuning.default [FloatLike F] : HarmonyTuning F := ⟨0.2, 1.0, 1.0, 0.0⟩

/-! ## Reflex rules -/

/-- `ReflexId`: the number of a rule. -/
abbrev ReflexId := UInt64

/-- `Hint`: what a reflex may suggest to the host. -/
inductive Hint
  | slowTick
  | fastTick
  | trimField
  | wakeSeeds
  deriving DecidableEq

/-- `ReflexWhen`: a token that has to be answered often enough and strongly enough, within a window. -/
structure ReflexWhen (F : Type) where
  token : String
  kind : ImpulseKind
  minStrength : F
  windowMs : UInt32
  minCount : UInt16

/-- `ReflexAction`: what a rule does when it fires. -/
inductive ReflexAction (F : Type)
  | emitHint (hint : Hint)
  | spawnSeed (seed : String) (affinityShift : F)
  | wakeSleeping (count : UInt16)
  | boostLinks (factor : F) (top : UInt16)

/-- `ReflexRule`: a condition and an action under a number, which may be switched off. -/
structure ReflexRule (F : Type) where
  id : ReflexId
  when : ReflexWhen F
  action : ReflexAction F
  enabled : Bool

/-! ## Resonant models and their log -/

/-- `Tension`: how much a cell is under tension, and how much of it would be relieved. -/
structure Tension (F : Type) where
  node : NodeId
  magnitude : F
  relief : F

/-- `ResonantEdge`: two cells that answer together, with how strongly and how evenly they do. -/
structure ResonantEdge (F : Type) where
  source : NodeId
  target : NodeId
  weight : F
  coherence : F

/-- `Influence`: one cell that answers after another one. -/
structure Influence (F : Type) where
  source : NodeId
  sink : NodeId
  weight : F
  coherence : F

/-- `ModelFrame`: the hash of a model that was built, the number of its cells and the time. -/
structure ModelFrame where
  hash : String
  cellCount : UInt32
  createdMs : UInt64
  deriving DecidableEq

/-- `ResonantModel`: the pairs, influences and tensions of a field, with what was built and applied
last. -/
structure ResonantModel (F : Type) where
  edges : List (ResonantEdge F)
  influences : List (Influence F)
  tensions : List (Tension F)
  coherence : F
  lastBuild : Option ModelFrame
  lastApplied : Option String

namespace ResonantModel

/-- `ResonantModel::default`: nothing related, and nothing built. -/
def default [FloatLike F] : ResonantModel F := ⟨[], [], [], 0.0, none, none⟩

/-- `record_build`: the model remembers what was built last. -/
def recordBuild (self : ResonantModel F) (frame : ModelFrame) : ResonantModel F :=
  { self with lastBuild := some frame }

/-- `last_hash`: the hash of what was built last, if anything was. -/
def lastHash (self : ResonantModel F) : Option String := self.lastBuild.map ModelFrame.hash

/-- `set_last_applied`: the model remembers the hash of what was applied last. -/
def setLastApplied (self : ResonantModel F) (hash : Option String) : ResonantModel F :=
  { self with lastApplied := hash }

/-- `truncated`: the first pairs, influences and tensions, as many of each as the limit says. -/
def truncated (self : ResonantModel F) (limit : ℕ) : ResonantModel F :=
  { self with
    edges := self.edges.take limit
    influences := self.influences.take limit
    tensions := self.tensions.take limit }

end ResonantModel

/-- `SyncEvent`: what the log of a field says of a dream, an awakening or a tick. -/
inductive SyncEvent
  | dream (atMs : UInt64) (strengthened weakened protectedCells : UInt32)
  | collective (atMs : UInt64) (shared aligned protectedCells : UInt32)
  | build (atMs : UInt64) (hash : String) (cellCount : UInt32)
  | apply (atMs : UInt64) (hash : Option String) (cellCount : UInt32)
  | tick (atMs : UInt64)

/-- `SyncLog`: the last events, up to a capacity. -/
structure SyncLog where
  entries : List SyncEvent
  capacity : ℕ

namespace SyncLog

/-- `SyncLog::new`: an empty log for 48 events. -/
def new : SyncLog := ⟨[], 48⟩

/-- `push`: the event goes to the end, and what is beyond the capacity falls off at the front. -/
def push (self : SyncLog) (event : SyncEvent) : SyncLog :=
  let capacity := if self.capacity = 0 then 48 else self.capacity
  let entries := self.entries ++ [event]
  { entries := entries.drop (entries.length - capacity), capacity }

/-- `truncated`: the last events, as many as the limit says. -/
def truncated (self : SyncLog) (limit : ℕ) : SyncLog :=
  { self with entries := self.entries.drop (self.entries.length - limit) }

end SyncLog

/-! ## Mirror epochs -/

/-- `EpochKind`: what a mirror epoch is about. -/
inductive EpochKind
  | dream
  | collective
  | awaken
  deriving DecidableEq

/-- `HarmonyMetrics`: the means of strength, latency and entropy. -/
structure HarmonyMetrics (F : Type) where
  avgStrength : F
  avgLatency : F
  entropy : F

/-- `Epoch`: what was done, from when to when, under which configuration and with which effect on
harmony. -/
structure Epoch (F : Type) where
  id : UInt64
  kind : EpochKind
  startMs : UInt64
  endMs : UInt64
  cfgHash : UInt64
  reportHash : UInt64
  harmonyBefore : HarmonyMetrics F
  harmonyAfter : HarmonyMetrics F
  tensionBefore : F
  tensionAfter : F
  latencyAvgBefore : F
  latencyAvgAfter : F
  impact : F

/-- `ReplayReport`: what a replayed epoch applied and is expected to gain. -/
structure ReplayReport (F : Type) where
  epochId : UInt64
  mode : String
  applied : UInt32
  predictedGain : F
  tookMs : UInt32

/-! ## Deltas -/

/-- `CellSnapshot`: what is written of a cell: everything it has, its seed field by field. -/
structure CellSnapshot (F : Type) where
  id : NodeId
  seedAffinity : F
  seedMetabolism : F
  corePattern : String
  state : NodeState
  links : Std.ExtTreeSet NodeId compare
  metabolism : F
  affinity : F
  lastResponseMs : UInt64
  energy : F
  salience : F
  adrenoTag : Bool
  lastRecallMs : UInt64

/-- `CellSnapshot::from`: the fields of the cell and those of its seed. -/
def NodeCell.toSnapshot (cell : NodeCell F) : CellSnapshot F :=
  { id := cell.id
    seedAffinity := cell.seed.affinity
    seedMetabolism := cell.seed.baseMetabolism
    corePattern := cell.seed.corePattern
    state := cell.state
    links := cell.links
    metabolism := cell.metabolism
    affinity := cell.affinity
    lastResponseMs := cell.lastResponseMs
    energy := cell.energy
    salience := cell.salience
    adrenoTag := cell.adrenoTag
    lastRecallMs := cell.lastRecallMs }

/-- `snapshot_to_node`: the cell with these fields, and its seed put together again. -/
def CellSnapshot.toNode (snapshot : CellSnapshot F) : NodeCell F :=
  { id := snapshot.id
    seed := ⟨snapshot.seedAffinity, snapshot.seedMetabolism, snapshot.corePattern⟩
    state := snapshot.state
    links := snapshot.links
    metabolism := snapshot.metabolism
    affinity := snapshot.affinity
    lastResponseMs := snapshot.lastResponseMs
    energy := snapshot.energy
    salience := snapshot.salience
    adrenoTag := snapshot.adrenoTag
    lastRecallMs := snapshot.lastRecallMs }

/-- A cell comes back from its snapshot as it was. -/
@[simp] theorem NodeCell.toNode_toSnapshot (cell : NodeCell F) : cell.toSnapshot.toNode = cell := rfl

/-- `EventDelta`: what the journal says about a change of the field. -/
inductive EventDelta (F : Type)
  | tick (nowMs : UInt64)
  | spawn (snapshot : CellSnapshot F)
  | divide (parent : NodeId) (child : CellSnapshot F)
  | sleep (id : NodeId)
  | dead (id : NodeId)
  | link (source target : NodeId)
  | unlink (source target : NodeId)
  | affinity (id : NodeId) (affinity : F)
  | energy (id : NodeId) (energy metabolism : F) (state : NodeState) (lastResponseMs : UInt64)
  | reflexAdd (rule : ReflexRule F)
  | reflexRemove (id : ReflexId)
  | reflexFire (id : ReflexId) (atMs : UInt64) (matched : UInt16)
  | trsSet (cfg : TrsConfig F)
  | trsTarget (targetLoad : F)
  | trsTrace (nowMs : UInt64) (observedLoad error : F) (tickAdjustMs : ℤ) (alpha : F)
  | trsHarmony (harmony : HarmonyTuning F)
  | dreamConfig (cfg : DreamConfig F)
  | syncConfig (cfg : SyncConfig F)
  | dreamStrengthen (source target : NodeId) (score freq avgStrength : F)
  | dreamWeaken (source target : NodeId) (score freq avgStrength : F)
  | dreamPrune (source target : NodeId)
  | dreamRewire (source target : NodeId)
  | dreamReport (nowMs : UInt64) (report : DreamReport)
  | syncShare (node : NodeId) (token : String) (bias : F)
  | syncAlign (source target : NodeId) (score : F)
  | collectiveDreamReport (nowMs : UInt64) (report : SyncReport)
  | modelBuild (hash : String) (cellCount : UInt32) (nowMs : UInt64)
  | awakenApply (hash : Option String) (config : AwakeningConfig F) (nowMs : UInt64) (cellCount : UInt32)
  | awakenTick (hash : Option String) (nowMs : UInt64)
  | mirrorEpoch (epoch : Epoch F)
  | mirrorReplay (report : ReplayReport F)

end LiminalDB
