import LiminalDB.Field.Dream

/-! # Runs of a field

The remaining public mutators, and a run as a list of calls. A call carries its arguments together with
the outcome of everything the code leaves open: the order in which hash maps are visited, what the random
generators draw, how long a dream took, and the hash of a model. -/

namespace LiminalDB

variable {F : Type}

/-- `TrsOutput`: what the controller wants of a field at a step. -/
structure TrsOutput (F : Type) where
  alphaNew : F
  tickAdjustMs : ℤ
  affinityScale : F
  metabolismScale : F
  sleepThresholdDelta : F

namespace ClusterField

variable [FloatLike F]

open FloatLike (clamp)

/-! ## Configurations -/

/-- `set_dream_config`: the config is taken over, and the journal hears of it. -/
def setDreamConfig (self : ClusterField F) (cfg : DreamConfig F) : ClusterField F :=
  { self with dreamCfg := cfg }.emit (.dreamConfig cfg)

/-- `set_sync_config`: the config is taken over with its weight clamped, and the journal hears of it. -/
def setSyncConfig (self : ClusterField F) (cfg : SyncConfig F) : ClusterField F :=
  let cfg := { cfg with weightXfer := clamp cfg.weightXfer 0.05 0.5 }
  { self with syncCfg := cfg }.emit (.syncConfig cfg)

/-- `set_trs_config`: the controller is configured, and the field averages by its gain from now on. -/
def setTrsConfig (self : ClusterField F) (cfg : TrsConfig F) : ClusterField F :=
  let trs := self.trs.applyConfig cfg
  { self with trs, harmony := { self.harmony with alpha := trs.alpha } }.emit (.trsSet cfg)

/-- `set_trs_target`: the aim is changed, and the journal hears of what it was clamped to. -/
def setTrsTarget (self : ClusterField F) (target : F) : ClusterField F :=
  let trs := self.trs.setTarget target
  { self with trs }.emit (.trsTarget trs.targetLoad)

/-- `apply_trs_output`: the tuning of the field follows the controller, each value within its bounds. -/
def applyTrsOutput (self : ClusterField F) (nowMs : UInt64) (observedLoad : F) (output : TrsOutput F) :
    ClusterField F :=
  let harmony : HarmonyTuning F :=
    { alpha := clamp output.alphaNew 0.05 0.95
      affinityScale := clamp output.affinityScale 0.7 1.35
      metabolismScale := clamp output.metabolismScale 0.5 1.5
      sleepDelta := clamp output.sleepThresholdDelta (-0.2) 0.2 }
  ({ self with harmony }.emit
    (.trsTrace nowMs observedLoad self.trs.lastErr output.tickAdjustMs harmony.alpha)).emit
      (.trsHarmony harmony)

/-! ## Models -/

/-- `build_resonant_model`, with the hash of the cells. -/
def buildResonantModel (hash : String) (self : ClusterField F) : ClusterField F :=
  let cellCount := UInt32.ofNat (min self.cells.size 0xffffffff)
  { self with
    resonantModel := self.resonantModel.recordBuild ⟨hash, cellCount, self.nowMs⟩
    syncLog := self.syncLog.push (.build self.nowMs hash cellCount) }.emit
      (.modelBuild hash cellCount self.nowMs)

/-- `apply_awakening_model`: the log says that the model is applied, unless nothing was ever built. -/
def applyAwakeningModel (self : ClusterField F) : ClusterField F :=
  let hash := self.resonantModel.lastHash
  let cellCount := UInt32.ofNat (min self.cells.size 0xffffffff)
  { self with
    syncLog := match hash with
      | some hash => self.syncLog.push (.apply self.nowMs (some hash) cellCount)
      | none => self.syncLog
    resonantModel := self.resonantModel.setLastApplied hash }.emit
      (.awakenApply hash self.awakeningCfg self.nowMs cellCount)

/-! ## Mirror epochs and reflex feedback -/

/-- `push_mirror_epoch`: the epoch goes to the journal and to the last 256 of them. -/
def pushMirrorEpoch (self : ClusterField F) (epoch : Epoch F) : ClusterField F :=
  let self := self.emit (.mirrorEpoch epoch)
  { self with mirrorEpochs := lastOf 256 (self.mirrorEpochs ++ [epoch]) }

/-- `record_mirror_replay`: the report goes to the journal and to the last 128 of them. -/
def recordMirrorReplay (self : ClusterField F) (report : ReplayReport F) : ClusterField F :=
  let self := self.emit (.mirrorReplay report)
  { self with mirrorReplays := lastOf 128 (self.mirrorReplays ++ [report]) }

/-- What a mirror epoch makes of a cell. -/
def mirrored (kind : EpochKind) (scale : F) (cell : NodeCell F) : NodeCell F :=
  let scale := clamp scale (-4.0) 4.0
  let metabolismDelta := clamp (0.03 * scale) (-0.2) 0.2
  { cell with
    metabolism := if kind = .awaken then clamp (cell.metabolism * (1.0 - metabolismDelta)) 0.05 2.5
      else cell.metabolism
    affinity := clamp (cell.affinity * (1.0 + clamp (0.06 * scale) (-0.35) 0.35)) 0.0 2.0 }

/-- The cells a mirror epoch changes: the first that are not protected, as many as are allowed. -/
def mirrorTargets (visits : Visits F) (self : ClusterField F) (maxOps : UInt32) (protectSalience : F) :
    List NodeId :=
  ((visits.cells.arrange self.cells.keys).filter fun id =>
    !self.cells[id]?.any fun cell => decide (clamp protectSalience 0.0 1.0 ≤ cell.salience)).take
      maxOps.toNat

/-- `apply_mirror_epoch`: what the epoch did is done again to its targets, at a scale. -/
def applyMirrorEpoch (visits : Visits F) (self : ClusterField F) (epoch : Epoch F) (scale : F)
    (maxOps : UInt32) (protectSalience : F) : ClusterField F :=
  (self.mirrorTargets visits maxOps protectSalience).foldl
    (fun self id => self.alterCell id (mirrored epoch.kind scale)) self

/-- `drain_route_bias`: every bias is taken down by a factor. -/
def drainRouteBias (self : ClusterField F) (factor : F) : ClusterField F :=
  { self with
    routeBias := fun e => (self.routeBias e).map fun bias => bias * clamp (1.0 - factor) 0.0 1.0 }

/-- `apply_dampening`: noradrenaline acts from now on, as strongly and as long as asked for. -/
def applyDampening (self : ClusterField F) (nowMs : UInt64) (strength : F) (ttlMs : UInt64) :
    ClusterField F :=
  { self with noradrenaline := some ⟨saturatingAdd nowMs ttlMs, clamp strength 0.0 1.0⟩ }

end ClusterField

/-! ## Runs -/

/-- A call of a public mutator. -/
inductive FieldCall (F : Type)
  | addRoot (seed : String)
  | addReflex (rule : ReflexRule F)
  | removeReflex (id : ReflexId)
  | routeImpulse (visits : Visits F) (imp : Impulse F)
  | tickAll (visits : Visits F) (variation : NodeId → F) (dtMs : UInt64)
  | trimLowEnergy (visits : Visits F) (dozes dies : NodeId → Bool)
  | injectSeedVariation (visits : Visits F) (shift energy : F) (coin : NodeId → Bool)
      (baseSeed : String)
  | runDreamCycle (visits : Visits F) (tookMs : UInt32)
  | runCollectiveDream (groups : List ClusterField.SyncGroup) (cfg : SyncConfig F) (nowMs : UInt64)
      (tookMs : UInt32)
  | awakenNow (visits : Visits F)
  | setDreamConfig (cfg : DreamConfig F)
  | setSyncConfig (cfg : SyncConfig F)
  | setAwakeningConfig (cfg : AwakeningConfig F)
  | setTrsConfig (cfg : TrsConfig F)
  | setTrsTarget (target : F)
  | applyTrsOutput (nowMs : UInt64) (observedLoad : F) (output : TrsOutput F)
  | buildResonantModel (hash : String)
  | applyAwakeningModel
  | awakenTick
  | setResonantModel (model : ResonantModel F)
  | clearResonantModel
  | pushMirrorEpoch (epoch : Epoch F)
  | recordMirrorReplay (report : ReplayReport F)
  | applyMirrorEpoch (visits : Visits F) (epoch : Epoch F) (scale : F) (maxOps : UInt32)
      (protectSalience : F)
  | drainRouteBias (factor : F)
  | applyDampening (nowMs : UInt64) (strength : F) (ttlMs : UInt64)

namespace ClusterField

variable [FloatLike F]

/-- What a call makes of the field. -/
def call (platform : Platform F) (self : ClusterField F) : FieldCall F → ClusterField F
  | .addRoot seed => self.addRoot platform seed
  | .addReflex rule => self.addReflex platform rule
  | .removeReflex id => self.removeReflex id
  | .routeImpulse visits imp => self.routeImpulse platform visits imp
  | .tickAll visits variation dtMs => self.tickAll platform visits variation dtMs
  | .trimLowEnergy visits dozes dies => self.trimLowEnergy platform visits dozes dies
  | .injectSeedVariation visits shift energy coin baseSeed =>
      self.injectSeedVariation platform visits shift energy coin baseSeed
  | .runDreamCycle visits tookMs => self.runDreamCycle visits tookMs
  | .runCollectiveDream groups cfg nowMs tookMs =>
      self.runCollectiveDream platform tookMs groups cfg nowMs
  | .awakenNow visits => self.awakenNow visits
  | .setDreamConfig cfg => self.setDreamConfig cfg
  | .setSyncConfig cfg => self.setSyncConfig cfg
  | .setAwakeningConfig cfg => { self with awakeningCfg := cfg }
  | .setTrsConfig cfg => self.setTrsConfig cfg
  | .setTrsTarget target => self.setTrsTarget target
  | .applyTrsOutput nowMs observedLoad output => self.applyTrsOutput nowMs observedLoad output
  | .buildResonantModel hash => self.buildResonantModel hash
  | .applyAwakeningModel => self.applyAwakeningModel
  | .awakenTick => self.awakenTick
  | .setResonantModel model => { self with cachedResonantModel := some model }
  | .clearResonantModel => { self with cachedResonantModel := none }
  | .pushMirrorEpoch epoch => self.pushMirrorEpoch epoch
  | .recordMirrorReplay report => self.recordMirrorReplay report
  | .applyMirrorEpoch visits epoch scale maxOps protectSalience =>
      self.applyMirrorEpoch visits epoch scale maxOps protectSalience
  | .drainRouteBias factor => self.drainRouteBias factor
  | .applyDampening nowMs strength ttlMs => self.applyDampening nowMs strength ttlMs

/-- A run: calls on an empty field whose journal is attached. -/
def run (platform : Platform F) (calls : List (FieldCall F)) : ClusterField F :=
  calls.foldl (call platform) new

/-- A platform for tokens in lower case whose generator always draws the same. -/
def constantPlatform (F : Type) (x : F) : Platform F := ⟨id, fun _ => rfl, fun _ => (x, x, 0)⟩

end ClusterField

end LiminalDB
