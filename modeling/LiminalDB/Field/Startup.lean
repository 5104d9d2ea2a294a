import LiminalDB.Field.SnapshotTail

/-! # Starting on a store: `BridgeState::new`

A bridge that starts loads the latest snapshot, replays the deltas after it, adds a root to a field
without cells, and only then attaches the journal. What it adds is on disk when the next snapshot is. -/

namespace LiminalDB

variable {F Bytes : Type}

/-- `BridgeState`, as far as its store is concerned. -/
structure StoredBridge (F : Type) where
  /-- The field. Its journal is what the store has after the latest snapshot. -/
  field : ClusterField F
  /-- The latest snapshot, as `load_latest_snapshot` returns it. -/
  snapshot : Option (ClusterFieldSeed F)
  /-- The root that the start has added, while no snapshot has it. -/
  root : Option NodeId

namespace StoredBridge

variable [FloatLike F]

/-- What snapshot and tail yield. -/
def recovered (platform : Platform F) (snapshot : Option (ClusterFieldSeed F))
    (tail : List (EventDelta F)) : ClusterField F :=
  tail.foldl (ClusterField.applyDelta platform) (snapshot.elim .new (ClusterFieldSeed.intoField platform))

/-- `BridgeState::new` on a store with the snapshot and the tail. -/
def new (platform : Platform F) (snapshot : Option (ClusterFieldSeed F)) (tail : List (EventDelta F)) :
    StoredBridge F :=
  let field := recovered platform snapshot tail
  if field.cells.isEmpty then
    -- no journal is attached yet, so the birth of the root is not in it
    ⟨{ field.addRoot platform "liminal/root" with journal := tail }, snapshot, some field.nextId⟩
  else ⟨{ field with journal := tail }, snapshot, none⟩

/-- `write_snapshot`, and `run_gc` after it. -/
def writeSnapshot (codec : SnapshotCodec F Bytes) (visits : Visits F) (self : StoredBridge F) :
    StoredBridge F :=
  ⟨{ self.field with journal := [] }, loadSnapshot codec (createSnapshot codec visits self.field), none⟩

end StoredBridge

end LiminalDB
