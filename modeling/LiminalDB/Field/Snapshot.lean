import LiminalDB.Field.Links

/-! # Snapshots of a field: `snapshot.rs`

A snapshot stores its own selection of a field and restores it through the setters and caches. A restored
field then takes the deltas that follow. What the selection leaves out is the harmony, the scores of the
links and the biases of the routes, and the hashes of the model that a replay keeps up to date. -/

namespace LiminalDB

variable {F Bytes : Type}

/-! ## The envelope -/

/-- `MirrorTimeline`: the epochs of a field at a time. -/
structure MirrorTimeline (F : Type) where
  epochs : List (Epoch F)
  builtMs : UInt64

/-- `MirrorTimeline::default`. -/
def MirrorTimeline.default : MirrorTimeline F := ⟨[], 0⟩

/-- `SnapshotEnvelope`, without the seed garden -/
structure SnapshotEnvelope (F : Type) where
  nowMs : UInt64
  nextId : NodeId
  cells : List (CellSnapshot F)
  rules : List (ReflexRule F)
  nextReflexId : ReflexId
  trs : Option (TrsState F)
  dream : Option (DreamConfig F)
  sync : Option (SyncConfig F)
  awakening : Option (AwakeningConfig F)
  resonant : Option (ResonantModel F)
  syncLog : Option SyncLog
  lastAwakenTick : UInt64
  mirror : Option (MirrorTimeline F)

/-- What `#[serde(skip)]` leaves of an envelope: no hashes of the model, no capacity of the log. -/
def SnapshotEnvelope.skipped (envelope : SnapshotEnvelope F) : SnapshotEnvelope F :=
  { envelope with
    resonant := envelope.resonant.map fun model => { model with lastBuild := none, lastApplied := none }
    syncLog := envelope.syncLog.map fun log => { log with capacity := 0 } }

/-- `serde_cbor` for the envelope, which round-trips all that is not skipped. -/
structure SnapshotCodec (F Bytes : Type) where
  toVec : SnapshotEnvelope F → Bytes
  fromSlice : Bytes → Option (SnapshotEnvelope F)
  fromSlice_toVec : ∀ envelope, fromSlice (toVec envelope) = some envelope.skipped

/-- `ClusterFieldSeed`: what a snapshot holds of a field, and a field is made from again. -/
structure ClusterFieldSeed (F : Type) where
  nowMs : UInt64
  nextId : NodeId
  cells : List (CellSnapshot F)
  rules : List (ReflexRule F)
  nextReflexId : ReflexId
  trs : TrsState F
  dream : DreamConfig F
  sync : SyncConfig F
  awakening : AwakeningConfig F
  resonant : ResonantModel F
  syncLog : SyncLog
  lastAwakenTick : UInt64
  mirror : MirrorTimeline F

namespace ClusterField

/-- `list_reflex`: the rules in the order of their ids. -/
def listReflex (visits : Visits F) (self : ClusterField F) : List (ReflexRule F) :=
  sortBy (fun a b => compareOfLessAndEq a.id b.id) (visits.rules.arrange (self.rules.toList.map Prod.snd))

/-- `mirror_timeline`: the epochs of the field as they are now. -/
def mirrorTimeline (self : ClusterField F) : MirrorTimeline F := ⟨self.mirrorEpochs, self.nowMs⟩

end ClusterField

/-- `truncate_timeline`: the last epochs, as many as the limit says. -/
def MirrorTimeline.truncated (timeline : MirrorTimeline F) (limit : ℕ) : MirrorTimeline F :=
  { timeline with epochs := timeline.epochs.drop (timeline.epochs.length - limit) }

/-- The envelope that `create_snapshot` fills. -/
def ClusterField.envelope (visits : Visits F) (cluster : ClusterField F) : SnapshotEnvelope F :=
  { nowMs := cluster.nowMs
    nextId := cluster.nextId
    cells := (visits.cells.arrange cluster.cells.keys).filterMap fun id =>
      (cluster.cells[id]?).map NodeCell.toSnapshot
    rules := cluster.listReflex visits
    nextReflexId := cluster.nextReflexId
    trs := some cluster.trs
    dream := some cluster.dreamCfg
    sync := some cluster.syncCfg
    awakening := some cluster.awakeningCfg
    resonant := cluster.cachedResonantModel.map fun model => model.truncated 48
    syncLog := some (cluster.syncLog.truncated 96)
    lastAwakenTick := cluster.lastAwakenTick
    mirror := some (cluster.mirrorTimeline.truncated 64) }

/-- `create_snapshot`: the bytes of the envelope that holds the field. -/
def createSnapshot (codec : SnapshotCodec F Bytes) (visits : Visits F) (cluster : ClusterField F) :
    Bytes :=
  codec.toVec (cluster.envelope visits)

variable [FloatLike F]

/-- The seed that `load_snapshot` makes of an envelope, with the defaults for what an old one lacks. -/
def SnapshotEnvelope.seed (envelope : SnapshotEnvelope F) : ClusterFieldSeed F :=
  { nowMs := envelope.nowMs
    nextId := envelope.nextId
    cells := envelope.cells
    rules := envelope.rules
    nextReflexId := envelope.nextReflexId
    trs := envelope.trs.getD .default
    dream := envelope.dream.getD .default
    sync := envelope.sync.getD .default
    awakening := envelope.awakening.getD .default
    resonant := envelope.resonant.getD .default
    syncLog := envelope.syncLog.getD ⟨[], 0⟩
    lastAwakenTick := envelope.lastAwakenTick
    mirror := envelope.mirror.getD .default }

/-- `load_snapshot`: the seed that the bytes of an envelope hold. -/
def loadSnapshot (codec : SnapshotCodec F Bytes) (bytes : Bytes) : Option (ClusterFieldSeed F) :=
  (codec.fromSlice bytes).map SnapshotEnvelope.seed

namespace ClusterField

/-- `restore_awakening_state`: a field takes over the awakening that was going on when it was written. -/
def restoreAwakeningState (self : ClusterField F) (cfg : AwakeningConfig F) (model : ResonantModel F)
    (syncLog : SyncLog) (lastTick : UInt64) : ClusterField F :=
  { self with
    awakeningCfg := cfg
    cachedResonantModel := some model
    resonantModel := model
    syncLog
    lastAwakenTick := lastTick }

end ClusterField

/-- The next id after those of the rules, where an old snapshot has none. -/
def nextReflexIdOf (rules : Std.ExtTreeMap ReflexId (ReflexRule F) compare) (stored : ReflexId) :
    ReflexId :=
  if stored = 0 then saturatingAdd (rules.keys.foldl max 0) 1 else stored

/-- `into_field`. No journal is attached yet, so nothing that the setters emit is kept. -/
def ClusterFieldSeed.intoField (platform : Platform F) (seed : ClusterFieldSeed F) : ClusterField F :=
  let cells := seed.cells.foldl (fun cells snapshot => cells.insert snapshot.id snapshot.toNode) ∅
  let rules := seed.rules.foldl (fun rules rule => rules.insert rule.id rule) ∅
  let field : ClusterField F :=
    { ClusterField.new with
      cells
      nowMs := seed.nowMs
      nextId := seed.nextId
      rules
      nextReflexId := nextReflexIdOf rules seed.nextReflexId
      trs := seed.trs }
  let field := (field.setDreamConfig seed.dream).setSyncConfig seed.sync
  let field := field.restoreAwakeningState seed.awakening seed.resonant seed.syncLog seed.lastAwakenTick
  let field := seed.mirror.epochs.foldl ClusterField.pushMirrorEpoch (field.rebuildIndex platform)
  { field with journal := [] }

namespace ClusterField

/-- What a replay restores of a field that is made of a snapshot, and its index. -/
theorem core_intoField (platform : Platform F) (seed : ClusterFieldSeed F) :
    ∃ field : ClusterField F,
      (seed.intoField platform).replica = field.replica ∧
      (seed.intoField platform).index = (field.rebuildIndex platform).index ∧
      field.cells = seed.cells.foldl (fun cells snapshot => cells.insert snapshot.id snapshot.toNode) ∅ ∧
      field.nextId = seed.nextId := by
  have hone (field : ClusterField F) (epoch : Epoch F) :
      ((field.pushMirrorEpoch epoch).replica, (field.pushMirrorEpoch epoch).index) =
        (field.replica, field.index) := rfl
  have hpush (field : ClusterField F) (epochs : List (Epoch F)) :
      ({ epochs.foldl pushMirrorEpoch (field.rebuildIndex platform) with journal := [] } :
          ClusterField F).replica = field.replica ∧
        (epochs.foldl pushMirrorEpoch (field.rebuildIndex platform)).index =
          (field.rebuildIndex platform).index := by
    obtain ⟨hreplica, hindex⟩ := Prod.mk.inj
      (list_foldl_keeps (fun field => (replica field, field.index)) hone epochs (field.rebuildIndex platform))
    exact ⟨hreplica.trans (replica_rebuildIndex platform field), hindex⟩
  unfold ClusterFieldSeed.intoField
  exact ⟨_, (hpush _ _).1, (hpush _ _).2, rfl, rfl⟩

/-- A field that is built from a snapshot has its cells, each under its own number. -/
theorem replica_intoField (platform : Platform F) (seed : ClusterFieldSeed F) :
    (seed.intoField platform).replica.cells = (fun id => (seed.cells.foldl
        (fun cells snapshot => cells.insert snapshot.id snapshot.toNode)
        (∅ : Std.ExtTreeMap NodeId (NodeCell F) compare))[id]?) ∧
      (seed.intoField platform).replica.nextId = seed.nextId := by
  obtain ⟨field, hreplica, -, hcells, hnextId⟩ := core_intoField platform seed
  rw [hreplica, ← hcells]
  exact ⟨rfl, hnextId⟩

/-- A field that is made of a snapshot lists its cells. -/
theorem indexed_intoField (platform : Platform F) (seed : ClusterFieldSeed F) :
    Indexed platform (seed.intoField platform) := by
  obtain ⟨field, hreplica, hindex, -, -⟩ := core_intoField platform seed
  unfold Indexed
  rw [hreplica, hindex, ← replica_rebuildIndex platform field]
  exact indexed_rebuildIndex platform field

end ClusterField

/-- A field after a snapshot has been taken of it and loaded. -/
def restored (codec : SnapshotCodec F Bytes) (platform : Platform F) (visits : Visits F)
    (self : ClusterField F) : Option (ClusterField F) :=
  (loadSnapshot codec (createSnapshot codec visits self)).map (ClusterFieldSeed.intoField platform)

end LiminalDB
