import LiminalDB.Foundations.Crash
import LiminalDB.Ledger.Types
import LiminalDB.Wal.Gc

/-! # The journal of a field: `journal_impl.rs`

A `DiskJournal` appends encoded deltas to the log, writes snapshots of the field next to it and records
in a manifest which snapshot is the last one and where the log stood when it was taken. Segments and
snapshot files are named by their numbers.

`ClusterField`, its serialised form `SnapshotEnvelope` and the `ClusterFieldSeed` that is read back
are parameters, with the conversions of `snapshot.rs` between them; the journal only moves their
bytes. `fs::write` truncates and then writes, so a crash can leave any prefix: `snapshotSteps` is
`write_snapshot` with every state it can be stopped in. -/

namespace LiminalDB

/-- `StoreManifest`: the last snapshot, by the number of its file, and the offset it was taken at. -/
structure StoreManifest where
  /-- The last snapshot. -/
  lastSnapshot : Option Nat
  /-- The segment of its offset. -/
  walSegment : Nat
  /-- The position of its offset. -/
  walPosition : Nat
  deriving DecidableEq, Repr

/-- The errors of the journal. -/
inductive JournalError
  /-- An error of the log. -/
  | store (e : StoreError)
  /-- An error of `serde_cbor`. -/
  | cbor (e : String)
  /-- `failed to read snapshot {path}` -/
  | snapshotMissing (id : Nat)
  deriving DecidableEq, Repr

/-- What the journal takes from elsewhere: the checksum and the CBOR coding of other crates, and the
conversions of `snapshot.rs`. -/
structure JournalCrates (Field Envelope Seed Delta : Type) where
  /-- `crc32fast` -/
  crc32 : Bytes → UInt32
  /-- CBOR of a delta -/
  delta : Serde Delta
  /-- CBOR of the manifest -/
  manifest : Serde StoreManifest
  /-- CBOR of a snapshot -/
  envelope : Serde Envelope
  /-- What `#[serde(skip)]` leaves of an envelope. -/
  skipped : Envelope → Envelope
  /-- The envelope that `create_snapshot` fills from a field. -/
  envelopeOf : Field → Envelope
  /-- The seed that `load_snapshot` makes of an envelope. -/
  seedOf : Envelope → Seed

/-- The snapshot directory: contents by snapshot number. -/
abbrev SnapshotFiles : Type := Std.ExtTreeMap Nat Bytes compare

/-- What a journal leaves on disk. -/
structure JournalRoot where
  /-- The segments of the log. -/
  data : WalDir := ∅
  /-- The snapshot files. -/
  snapshots : SnapshotFiles := ∅
  /-- `manifest.cbor` -/
  manifest : Option Bytes := none

/-- An open journal. -/
structure DiskJournal where
  /-- The log. -/
  store : Store
  /-- The snapshot files. -/
  snapshots : SnapshotFiles
  /-- `manifest.cbor` -/
  manifest : Option Bytes
  /-- The deltas appended since the last snapshot. -/
  deltaCounter : Nat
  /-- The number of the last snapshot, zero where there is none. -/
  lastSnapshotId : Nat

/-- `list_snapshots`: the numbers of the snapshot files in increasing order. -/
def listSnapshots (snapshots : SnapshotFiles) : List Nat := snapshots.keys

namespace JournalCrates

variable {Field Envelope Seed Delta : Type} (env : JournalCrates Field Envelope Seed Delta)

/-- `create_snapshot`: the bytes of a field's envelope, where the encoder gives any. -/
def createSnapshot (field : Field) : Except String Bytes := env.envelope.toVec (env.envelopeOf field)

/-- `load_snapshot`: the seed that the bytes of an envelope hold, where the decoder gives any. -/
def loadSnapshot (bytes : Bytes) : Except String Seed := do
  let envelope ← env.envelope.fromSlice bytes
  return env.seedOf envelope

/-- `serde_cbor` loses nothing but the skipped fields, and reads no manifest from a cut off one. -/
structure Lossless : Prop where
  /-- Snapshots. -/
  envelope : ∀ envelope, ∃ bytes, env.envelope.toVec envelope = .ok bytes ∧
    env.envelope.fromSlice bytes = .ok (env.skipped envelope)
  /-- Manifests. -/
  manifest : env.manifest.Lossless
  /-- Cut off manifests. -/
  truncated : env.manifest.RejectsTruncated

variable {env}

/-- A snapshot that was written is loaded, as the seed of what is not skipped. -/
theorem Lossless.loadSnapshot (hl : env.Lossless) {field : Field} {bytes : Bytes}
    (h : env.createSnapshot field = .ok bytes) :
    env.loadSnapshot bytes = .ok (env.seedOf (env.skipped (env.envelopeOf field))) := by
  obtain ⟨bytes', henc, hdec⟩ := hl.envelope (env.envelopeOf field)
  obtain rfl : bytes' = bytes := Except.ok.inj (henc.symm.trans h)
  unfold JournalCrates.loadSnapshot
  rw [hdec]
  rfl

end JournalCrates

namespace DiskJournal

/-- What `write_snapshot` reports; the path is that of the number. -/
structure SnapshotInfo where
  /-- The number of the snapshot. -/
  id : Nat
  /-- Where the log stood. -/
  offset : Offset
  /-- The size of the snapshot file. -/
  sizeBytes : Nat
  deriving DecidableEq, Repr

variable {Field Envelope Seed Delta : Type} (env : JournalCrates Field Envelope Seed Delta)

/-- What is on disk. -/
def root (journal : DiskJournal) : JournalRoot :=
  ⟨journal.store.dataDir, journal.snapshots, journal.manifest⟩

/-- `DiskJournal::open`: the journal over the files of a root, with the number of its last snapshot. -/
def «open» (root : JournalRoot) : Except JournalError DiskJournal := do
  let store ← (Store.openWithRotation env.crc32 root.data defaultSegmentSize).mapError .store
  return ⟨store, root.snapshots, root.manifest, 0, (listSnapshots root.snapshots).getLast?.getD 0⟩

/-- `Journal::append_delta`, which only prints its errors. -/
def appendDelta (delta : Delta) (journal : DiskJournal) : DiskJournal :=
  match env.delta.toVec delta with
  | .error _ => journal
  | .ok bytes =>
      match journal.store.append env.crc32 bytes .disabled with
      | (.error _, store) => { journal with store }
      | (.ok _, store) => { journal with store, deltaCounter := journal.deltaCounter + 1 }

/-- `read_manifest`: the manifest of the journal, if there is one and it decodes. -/
def readManifest (journal : DiskJournal) : Except JournalError (Option StoreManifest) :=
  match journal.manifest with
  | none => .ok none
  | some bytes => do
      let manifest ← (env.manifest.fromSlice bytes).mapError .cbor
      return some manifest

/-- `load_latest_snapshot`: the snapshot that the manifest names, with the place in the log to go on
from. -/
def loadLatestSnapshot (journal : DiskJournal) :
    Except JournalError (Option (Seed × Offset)) × DiskJournal :=
  match journal.readManifest env with
  | .error e => (.error e, journal)
  | .ok none => (.ok none, journal)
  | .ok (some manifest) =>
      match manifest.lastSnapshot with
      | none => (.ok none, journal)
      | some id =>
          match journal.snapshots[id]? with
          | none => (.error (.snapshotMissing id), journal)
          | some bytes =>
              match env.loadSnapshot bytes with
              | .error e => (.error (.cbor e), journal)
              | .ok seed =>
                  (.ok (some (seed, ⟨manifest.walSegment, manifest.walPosition⟩)),
                    { journal with lastSnapshotId := id, deltaCounter := 0 })

/-- `next_snapshot_id`: one more than the last snapshot on disk. -/
def nextSnapshotId (journal : DiskJournal) : Nat :=
  (listSnapshots journal.snapshots).getLast?.getD 0 + 1

/-- The manifest that a snapshot is recorded with. -/
def newManifest (journal : DiskJournal) : StoreManifest :=
  ⟨some journal.nextSnapshotId, journal.store.endOffset.segment, journal.store.endOffset.position⟩

/-- `write_snapshot`: the snapshot is written and then the manifest that names it. -/
def writeSnapshot (field : Field) (journal : DiskJournal) :
    Except JournalError SnapshotInfo × DiskJournal :=
  match env.createSnapshot field with
  | .error e => (.error (.cbor e), journal)
  | .ok snapshotBytes =>
      let offset := journal.store.endOffset
      let id := journal.nextSnapshotId
      let written := { journal with snapshots := journal.snapshots.insert id snapshotBytes }
      match env.manifest.toVec journal.newManifest with
      | .error e => (.error (.cbor e), written)
      | .ok bytes =>
          (.ok ⟨id, offset, snapshotBytes.length⟩,
            { written with manifest := some bytes, deltaCounter := 0, lastSnapshotId := id })

/-- `run_gc`: what lies before the offset may go. -/
def runGc (since : Offset) (journal : DiskJournal) : DiskJournal :=
  { journal with store := journal.store.gcCompact since }

/-- `stream_from`, drained. -/
def streamFrom (offset : Offset) (journal : DiskJournal) :
    Except StoreError (List Bytes × Option StoreError) :=
  journal.store.streamFrom env.crc32 offset

/-! ## Stopping a snapshot -/

/-- The snapshot file with the given number holds `written` so far. -/
def putSnapshot (id : Nat) (written : Bytes) (root : JournalRoot) : JournalRoot :=
  { root with snapshots := root.snapshots.insert id written }

/-- The manifest holds `written` so far. -/
def putManifest (written : Bytes) (root : JournalRoot) : JournalRoot :=
  { root with manifest := some written }

/-- The file operations of `write_snapshot`. -/
def snapshotSteps (field : Field) (journal : DiskJournal) : Procedure JournalRoot :=
  match env.createSnapshot field with
  | .error _ => .skip
  | .ok snapshotBytes =>
      (Procedure.writing (putSnapshot journal.nextSnapshotId) snapshotBytes).seq
        (match env.manifest.toVec journal.newManifest with
          | .error _ => .skip
          | .ok bytes => .writing putManifest bytes)

/-- A complete run of the file operations is `write_snapshot`. -/
theorem run_snapshotSteps (field : Field) (journal : DiskJournal) :
    (journal.snapshotSteps env field).run journal.root = (journal.writeSnapshot env field).2.root := by
  unfold snapshotSteps writeSnapshot
  cases env.createSnapshot field with
  | error e => rfl
  | ok snapshotBytes => cases env.manifest.toVec journal.newManifest <;> rfl

/-- The number of a new snapshot is that of no file. -/
theorem ne_nextSnapshotId {journal : DiskJournal} {id : Nat} {bytes : Bytes}
    (h : journal.snapshots[id]? = some bytes) : id ≠ journal.nextSnapshotId := by
  have hmem : id ∈ journal.snapshots.keys := by
    rw [Std.ExtTreeMap.mem_keys, Std.ExtTreeMap.mem_iff_isSome_getElem?, h]
    rfl
  have hsorted : journal.snapshots.keys.Pairwise (· < ·) :=
    journal.snapshots.ordered_keys.imp fun hlt => compare_lt_iff_lt.mp hlt
  unfold nextSnapshotId listSnapshots
  rcases List.eq_nil_or_concat journal.snapshots.keys with hnil | ⟨init, last, hlast⟩
  · rw [hnil] at hmem
    cases hmem
  · rw [List.concat_eq_append] at hlast
    rw [hlast] at hmem hsorted ⊢
    rw [List.getLast?_concat, Option.getD_some]
    have hle : id ≤ last := by
      rcases List.mem_append.mp hmem with hinit | hid
      · exact ((List.pairwise_append.mp hsorted).2.2 id hinit last (by simp)).le
      · exact (List.mem_singleton.mp hid).le
    omega

end DiskJournal

end LiminalDB
