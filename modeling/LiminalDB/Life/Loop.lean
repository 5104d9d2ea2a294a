import LiminalDB.Field.Queries
import LiminalDB.Field.Synchrony
import LiminalDB.Life.Controller

/-! # The life of a field: `life_loop.rs`

The task that ticks the field, round after round. It measures the field every second and has the controller set
the tempo, lets an idle field dream and, in phases, dream together, and slows down for a while after each. A round
carries what the loop finds when it wakes: what others have done to the field, the orders in which maps are
visited, and what clocks, generators and hashes yield. Left out are the texts of the events, and the file that a
partial snapshot is written to. -/

namespace LiminalDB

variable {F : Type} [FloatLike F]

open FloatLike (abs clamp ofNat round toNat)

/-! ## What the loop asks of the field -/

/-- The orders in which `detect_sync_groups` visits its maps. -/
structure SyncVisits (F : Type) where
  adjacency : Order NodeId
  scores : Order (String × F)
  fallback : Order (String × ℕ)

namespace ClusterField

/-- The score of a token for a group, if one of its last routes leads there. -/
def focusScore (nodes : List NodeId) (history : List (RecentRoute F)) : Option F :=
  let found := (history.reverse.take 64).filter fun entry => nodes.contains entry.node
  if found.isEmpty then none
  else some ((found.map RecentRoute.strength).foldl (· + ·) 0.0 + ofNat found.length * 0.25)

/-- `sync_top_tokens`: the tokens on which these cells have answered most, which a group shares in a
dream. -/
def syncTopTokens (platform : Platform F) (visits : SyncVisits F) (self : ClusterField F) (nodes : List NodeId)
    (topK : ℕ) : List String :=
  if nodes.isEmpty || topK = 0 then []
  else
    let scores := self.recentRoutes.filterMap fun e => (focusScore nodes e.2).map fun score => (e.1, score)
    let ranked := sortBy (fun a b => FloatLike.partialCmp b.2 a.2) (visits.scores.arrange scores)
    let selected := (ranked.take topK).map Prod.fst
    if selected.isEmpty then
      -- No route leads to the group: the patterns of its cells stand in.
      let fallback := nodes.foldl (fun counts node =>
        match self.cells[node]? with
        | some cell => (tokenize platform cell.seed.corePattern).foldl
            (fun counts token => entry token 0 (· + 1) counts) counts
        | none => counts) []
      let ranked := sortBy (fun a b => compareOfLessAndEq b.2 a.2) (visits.fallback.arrange fallback)
      (ranked.take topK).map Prod.fst
    else selected

/-- `score_pair`: how strong a pair is, by how often and how strongly it answered. -/
def scorePair (pair : PairStat F) : F :=
  (FloatLike.max pair.freq 0.0 + 1.0) * (FloatLike.max pair.avgStrength 0.0 + 0.5)

/-- `detect_sync_groups`. The sorting of the pairs panics on a NaN, which is left out. -/
def detectSyncGroups (platform : Platform F) (visits : Visits F) (syncVisits : SyncVisits F)
    (self : ClusterField F) (cfg : SyncConfig F) : List SyncGroup :=
  -- A phase looks back over half a second at least.
  let pairs := self.collectRecentPairs visits (if cfg.phaseLenMs < 500 then 500 else cfg.phaseLenMs)
  let strong := pairs.filter fun pair => decide (cfg.cooccurThreshold ≤ pair.avgStrength)
  let sorted := sortBy (fun a b => FloatLike.partialCmp (scorePair b) (scorePair a)) strong
  let components := extractComponents syncVisits.adjacency (buildAdjacency sorted cfg.cooccurThreshold)
  let largest := sortBy (fun a b => compareOfLessAndEq b.length a.length) components
  (largest.take cfg.maxGroups.toNat).filterMap fun nodes =>
    let tokens := self.syncTopTokens platform syncVisits nodes cfg.shareTopK.toNat
    if tokens.isEmpty then none else some ⟨nodes, tokens⟩

/-- `average_tension`: the mean tension of the model, and zero of none. -/
def averageTension (self : ClusterField F) : F :=
  if self.resonantModel.tensions.isEmpty then 0.0
  else (self.resonantModel.tensions.map Tension.magnitude).foldl (· + ·) 0.0 /
    ofNat self.resonantModel.tensions.length

/-- `mirror_negative_streak`: whether the last epochs were all without a gain. -/
def mirrorNegativeStreak (self : ClusterField F) (window : ℕ) : Bool :=
  if window = 0 || self.mirrorEpochs.length < window then false
  else (self.mirrorEpochs.reverse.take window).all fun epoch => decide (epoch.impact ≤ 0.0)

/-- The average tension in the report of `awaken`. -/
def awakeningTension (model : ResonantModel F) (cfg : AwakeningConfig F) : F :=
  let consider := considered model cfg
  if consider.isEmpty then 0.0
  else (consider.map Tension.magnitude).foldl (· + ·) 0.0 / ofNat (Min.min consider.length 0xffffffff)

/-- A signed integer as a float. -/
def ofInt (n : ℤ) : F := if n < 0 then -ofNat n.natAbs else ofNat n.natAbs

/-- `tick_adjust_ms` in the report of `awaken`. -/
def awakeningTickAdjust (model : ResonantModel F) (cfg : AwakeningConfig F) : ℤ :=
  if model.tensions.isEmpty || cfg.tickBiasMs = 0 then 0
  else toInt (clamp (round (ofInt cfg.tickBiasMs * (awakeningTension model cfg - 0.5))) (-64.0) 64.0)

end ClusterField

/-! ## The loop -/

/-- `DreamState`: when the loop dreamt last, and when it goes back to its tempo. -/
structure DreamState where
  lastStartMs : UInt64
  restoreTick : Option UInt64
  slowedOnce : Bool

/-- `SharedDreamState`: whether the loop is in a phase of collective dreams, until when, and when the
last one ended. -/
structure SharedDreamState where
  active : Bool
  phaseUntil : UInt64
  lastPhaseEnd : UInt64
  restoreTick : Option UInt64

/-- What a loop does that can be seen: how long it sleeps, what it calls, and what it reports, with the time of
the field and the configuration it goes by. -/
inductive Beat (F : Type)
  | slept (tickMs : UInt64)
  | onMetrics (metrics : Metrics F)
  | onHint (hint : Hint)
  | partialSnapshot (nowMs : UInt64) (cells : ℕ)
  | dream (nowMs : UInt64) (cfg : DreamConfig F)
  | collectiveDream (nowMs : UInt64) (cfg : SyncConfig F)

/-- The variables of `run_loop`, the field, `EPOCH_SEQ`, and what has been seen of the loop, oldest first. -/
structure LifeLoop (F : Type) where
  field : ReflexField F
  tickMs : UInt64
  elapsedSinceMetrics : UInt64
  elapsedSincePartial : UInt64
  lastMetrics : Option (Metrics F)
  dreamState : DreamState
  sharedState : SharedDreamState
  epochSeq : UInt64
  beats : List (Beat F)

/-- What a round of the loop finds. Others may do anything to the field while the loop sleeps but move its
clock. -/
structure Round (F : Type) where
  meanwhile : ReflexField F → ReflexField F
  still : ∀ field, (meanwhile field).nowMs = field.nowMs
  visits : Visits F
  syncVisits : SyncVisits F
  variation : NodeId → F
  /-- The metrics of `symmetry_snapshot`. -/
  harmony : HarmonyMetrics F
  neighbors : List (String × F)
  coin : Bool
  dozes : NodeId → Bool
  dies : NodeId → Bool
  shift : F
  energy : F
  budCoin : NodeId → Bool
  dreamTookMs : UInt32
  sharedTookMs : UInt32
  replayTookMs : UInt32
  /-- The hashes of the configuration and the report that an epoch keeps. -/
  hashes : EpochKind → UInt64 × UInt64

namespace LifeLoop

/-- The start of `run_loop`. -/
def start (field : ReflexField F) (tickMs epochSeq : UInt64) : LifeLoop F :=
  { field
    tickMs
    elapsedSinceMetrics := 0
    elapsedSincePartial := 0
    lastMetrics := none
    dreamState := ⟨0, none, false⟩
    sharedState := ⟨false, 0, 0, none⟩
    epochSeq
    beats := [] }

/-- Something is done to the cells of the field. -/
def onField (self : LifeLoop F) (change : ClusterField F → ClusterField F) : LifeLoop F :=
  { self with field := { self.field with toClusterField := change self.field.toClusterField } }

/-- Something is seen. -/
def beat (self : LifeLoop F) (beat : Beat F) : LifeLoop F := { self with beats := self.beats ++ [beat] }

/-- `Ord::clamp` of a sum of milliseconds. -/
def adjustTick (tickMs : UInt64) (adjust low high : ℤ) : UInt64 :=
  UInt64.ofNat (Max.max low (Min.min (tickMs.toInt64.toInt + adjust) high)).toNat

/-- The tempo after a dream: slower by a factor. -/
def slower (factor : F) (tickMs : UInt64) : UInt64 :=
  let slow := UInt64.ofNat (Min.min (toNat (round (ofNat tickMs.toNat * factor))) 0xffffffffffffffff)
  -- A factor that is lost in the rounding still adds 5 ms.
  let slow := if slow ≤ tickMs then saturatingAdd tickMs 5 else slow
  if slow < 80 then 80 else if 800 < slow then 800 else slow

/-! ### Before the tick -/

/-- The tempo before a dream is taken up again, once the loop has slept for longer. -/
def restoreTempo (self : LifeLoop F) : LifeLoop F :=
  match self.dreamState.restoreTick with
  | some original =>
      -- Not before the loop has slept once at the slower tempo.
      if self.dreamState.slowedOnce then
        { self with
          tickMs := original
          dreamState := { self.dreamState with restoreTick := none, slowedOnce := false } }
      else self
  | none => self

/-- The loop sleeps. -/
def sleep (self : LifeLoop F) : LifeLoop F :=
  let self := self.beat (.slept self.tickMs)
  if self.dreamState.restoreTick.isSome && !self.dreamState.slowedOnce then
    { self with dreamState := { self.dreamState with slowedOnce := true } }
  else self

/-- The field ticks. -/
def tick (platform : Platform F) (now : Round F) (self : LifeLoop F) : LifeLoop F :=
  { self with field := now.meanwhile self.field }.onField
    (·.tickAll platform now.visits now.variation self.tickMs)

/-- The end of a phase. -/
def endPhase (self : LifeLoop F) : LifeLoop F :=
  if self.sharedState.active && self.sharedState.phaseUntil ≤ self.field.nowMs then
    { self with
      -- The tempo from before the phase is taken up at once.
      tickMs := self.sharedState.restoreTick.getD self.tickMs
      sharedState :=
        { self.sharedState with active := false, lastPhaseEnd := self.field.nowMs, restoreTick := none } }
  else self

/-- The time is counted, and every five seconds there is a partial snapshot, if there are important cells. -/
def countTime (self : LifeLoop F) : LifeLoop F :=
  let self :=
    { self with
      -- What counts is the tempo by now, which the end of a phase may have changed, not how long the loop slept.
      elapsedSinceMetrics := self.elapsedSinceMetrics + self.tickMs
      elapsedSincePartial := self.elapsedSincePartial + self.tickMs }
  if 5000 ≤ self.elapsedSincePartial then
    let self := { self with elapsedSincePartial := 0 }
    if self.field.importantCells.isEmpty then self
    else self.beat (.partialSnapshot self.field.nowMs self.field.importantCells.length)
  else self

/-! ### Metrics -/

/-- One hint of `apply_hints`. -/
def applyHint (platform : Platform F) (now : Round F) (self : LifeLoop F) : Hint → LifeLoop F
  | .slowTick => { self with tickMs := if 400 < self.tickMs + 50 then 400 else self.tickMs + 50 }
  | .fastTick =>
      if 100 < self.tickMs then
        let faster := saturatingSub self.tickMs 10
        { self with tickMs := if faster < 100 then 100 else faster }
      else self
  | .trimField => self.onField (·.trimLowEnergy platform now.visits now.dozes now.dies)
  | .wakeSeeds => self.onField
      (·.injectSeedVariation platform now.visits now.shift now.energy now.budCoin "liminal/wake")

/-- The controller sets the tempo. -/
def regulate (metrics : Metrics F) (self : LifeLoop F) : LifeLoop F :=
  let stepped := (self.field.trs.setTarget metrics.suggestTarget).step self.field.nowMs metrics.observedLoad
  { self with tickMs := adjustTick self.tickMs stepped.1.tickAdjustMs 80 450 }.onField fun field =>
    { field with trs := stepped.2 }.applyTrsOutput field.nowMs metrics.observedLoad stepped.1

/-- The reflex feedback gets a snapshot. One whose computation overflows is not recorded. -/
def reflect (now : Round F) (metrics : Metrics F) (self : LifeLoop F) : LifeLoop F :=
  if self.field.reflexFeedback.enabled then
    let snapshot : ReflexSnapshot F :=
      { tsMs := self.field.nowMs
        yieldRate := metrics.liveLoad
        harmony := now.harmony.avgStrength
        latencyP95 := metrics.avgLatencyMs
        impact := clamp (metrics.activePct - metrics.sleepingPct) (-1.0) 1.0 }
    match self.field.recordReflexSnapshot now.neighbors snapshot with
    | some recorded => { self with field := recorded.2 }
    | none => self
  else self

/-- Every second the field is measured. -/
def measure (platform : Platform F) (now : Round F) (self : LifeLoop F) : LifeLoop F :=
  if 1000 ≤ self.elapsedSinceMetrics then
    let metrics := Metrics.analyze now.visits.cells self.field.toClusterField
    let advice := metrics.hints now.coin
    -- All hints are reported before the first of them is applied.
    let self := advice.foldl (fun self hint => self.beat (.onHint hint)) (self.regulate metrics)
    let self := (advice.foldl (applyHint platform now) self).reflect now metrics
    { self.beat (.onMetrics metrics) with lastMetrics := some metrics, elapsedSinceMetrics := 0 }
  else self

/-! ### Epochs -/

/-- `auto_reflect`: after a streak without gain, the best epoch that has helped is replayed dry. -/
def autoReflect (platform : Platform F) (now : Round F) (self : LifeLoop F) : LifeLoop F :=
  if self.field.mirrorNegativeStreak 4 then
    let timeline : MirrorTimeline F := ⟨self.field.mirrorEpochs, self.field.nowMs⟩
    -- Only an epoch that has helped is replayed, and only dry.
    match (topInfluencers timeline 1).find? fun epoch => decide (0.0 < epoch.impact) with
    | none => self
    | some best => self.onField fun field =>
        (replayEpoch platform now.visits now.replayTookMs field timeline best.id ⟨"dry", 0.75, 96, 0.8⟩).1
  else self

/-- An epoch of the mirror, from what was measured before and after it. -/
def pushEpoch (platform : Platform F) (now : Round F) (kind : EpochKind) (startMs : UInt64)
    (tensionBefore latencyBefore latencyAfter : F) (self : LifeLoop F) : LifeLoop F :=
  let recorded := recordEpoch self.epochSeq kind (startMs, self.field.nowMs) (now.hashes kind).1 (now.hashes kind).2
    -- A dream does not touch the harmony, which is read before and after it.
    now.harmony now.harmony tensionBefore self.field.averageTension latencyBefore latencyAfter
  ({ self with epochSeq := recorded.2 }.onField (·.pushMirrorEpoch recorded.1)).autoReflect platform now

/-- `rebuild_and_awaken`: the model is rebuilt from the last dreams, and the field awakened with it if
there were any. -/
def rebuildAndAwaken (platform : Platform F) (now : Round F) (self : LifeLoop F) : LifeLoop F :=
  let history := (lastOf 8 self.field.dreamReports).map Prod.snd
  if history.isEmpty && self.field.syncLog.entries.isEmpty then
    self.onField fun field => { field with cachedResonantModel := none }
  else
    let before := Metrics.analyze now.visits.cells self.field.toClusterField
    let tensionBefore := self.field.averageTension
    let model := self.field.buildModel now.visits self.field.syncLog history
    let adjust := ClusterField.awakeningTickAdjust model self.field.awakeningCfg
    let self := self.onField fun field =>
      let awakened := { field with cachedResonantModel := some model }.awaken model field.awakeningCfg field.trs
      { awakened.1 with trs := awakened.2 }
    let self := if adjust = 0 then self else { self with tickMs := adjustTick self.tickMs adjust 80 800 }
    let after := Metrics.analyze now.visits.cells self.field.toClusterField
    self.pushEpoch platform now .awaken self.field.nowMs tensionBefore before.avgLatencyMs after.avgLatencyMs

/-! ### Dreams -/

/-- The field idles, and has not dreamt for long enough. -/
def isIdle (metrics : Metrics F) (self : LifeLoop F) : Bool :=
  0.6 < metrics.sleepingPct && metrics.liveLoad < 0.4 &&
    self.field.dreamCfg.minIdleS.toUInt64 * 1000 < saturatingSub self.field.nowMs self.dreamState.lastStartMs &&
    2 ≤ self.field.cells.size

/-- The field dreams, and the loop slows down. -/
def dreamt (now : Round F) (self : LifeLoop F) : LifeLoop F :=
  { (self.onField (·.runDreamCycle now.visits now.dreamTookMs)).beat (.dream self.field.nowMs self.field.dreamCfg) with
    -- The tempo to go back to is that from before the first of several dreams.
    dreamState := ⟨self.field.nowMs, some (self.dreamState.restoreTick.getD self.tickMs), false⟩
    tickMs := slower (1.15 : F) self.tickMs }

/-- What a dream has changed is recorded, and the field is measured anew. -/
def review (platform : Platform F) (now : Round F) (kind : EpochKind) (tensionBefore latencyBefore : F)
    (self : LifeLoop F) : LifeLoop F :=
  let after := Metrics.analyze now.visits.cells self.field.toClusterField
  let self := self.pushEpoch platform now kind self.field.nowMs tensionBefore latencyBefore after.avgLatencyMs
  { self with lastMetrics := some after }.rebuildAndAwaken platform now

/-- A field that idles dreams. -/
def dreamAlone (platform : Platform F) (now : Round F) (metrics : Metrics F) (self : LifeLoop F) : LifeLoop F :=
  if self.isIdle metrics then
    (self.dreamt now).review platform now .dream self.field.averageTension metrics.avgLatencyMs
  else self

/-- The groups of a collective dream, if it is time for one. -/
def dueGroups (platform : Platform F) (now : Round F) (metrics : Metrics F) (self : LifeLoop F) :
    List ClusterField.SyncGroup :=
  let cfg := self.field.syncCfg
  let sinceLastPhase := saturatingSub self.field.nowMs self.sharedState.lastPhaseEnd
  let sinceDream := saturatingSub self.field.nowMs self.field.lastDreamMs
  -- The time of the last dream is 0 in a field that never dreamt.
  if !self.sharedState.active && 0 < self.field.lastDreamMs && 0.65 < metrics.sleepingPct && sinceDream ≤ 30000 &&
      cfg.phaseGapMs.toUInt64 ≤ sinceLastPhase then
    self.field.detectSyncGroups platform now.visits now.syncVisits cfg
  else []

/-- Groups of cells dream together. -/
def sharedDream (platform : Platform F) (now : Round F) (groups : List ClusterField.SyncGroup)
    (self : LifeLoop F) : LifeLoop F :=
  (self.onField fun field =>
    field.runCollectiveDream platform now.sharedTookMs groups field.syncCfg field.nowMs).beat
      (.collectiveDream self.field.nowMs self.field.syncCfg)

/-- A phase begins, and the loop slows down. -/
def openPhase (cfg : SyncConfig F) (self : LifeLoop F) : LifeLoop F :=
  -- A dream that still slows the loop down knows the tempo to go back to.
  let baseline := self.dreamState.restoreTick.getD (self.sharedState.restoreTick.getD self.tickMs)
  { self with
    sharedState :=
      { self.sharedState with
        active := true
        phaseUntil := saturatingAdd self.field.nowMs cfg.phaseLenMs.toUInt64
        restoreTick := some baseline }
    tickMs := slower (1.1 : F) self.tickMs }

/-- After a dream, groups of cells dream together. -/
def dreamTogether (platform : Platform F) (now : Round F) (metrics : Metrics F) (self : LifeLoop F) : LifeLoop F :=
  let groups := self.dueGroups platform now metrics
  if groups.isEmpty then self
  else
    let latencyBefore := (self.lastMetrics.getD .default).avgLatencyMs
    ((self.sharedDream platform now groups).review platform now .collective self.field.averageTension
      latencyBefore).openPhase self.field.syncCfg

/-- Both kinds of dreams go by the metrics that the round has found. -/
def dreams (platform : Platform F) (now : Round F) (self : LifeLoop F) : LifeLoop F :=
  match self.lastMetrics with
  | some metrics => (self.dreamAlone platform now metrics).dreamTogether platform now metrics
  | none => self

/-! ### Rounds -/

/-- One round. -/
def step (platform : Platform F) (self : LifeLoop F) (now : Round F) : LifeLoop F :=
  ((((self.restoreTempo.sleep.tick platform now).endPhase.countTime).measure platform now).dreams platform now)

/-- Rounds one after another. -/
def run (platform : Platform F) (self : LifeLoop F) (rounds : List (Round F)) : LifeLoop F :=
  rounds.foldl (step platform) self

end LifeLoop

end LiminalDB
