import LiminalDB.Journal.DiskJournal
import LiminalDB.Journal.Envelope

/-! # A crash while the journal writes a snapshot

`write_snapshot` writes two files, one after the other and neither of them atomically. The snapshot
gets a number of its own, so that a cut off snapshot file harms nobody: until the manifest is
rewritten, the previous snapshot stands, and the segments from its offset on are all there. The
manifest is rewritten in place. A crash inside that write leaves a manifest that cannot be read, and
with it the journal: `snapshot_crash_safe_iff`. -/

namespace LiminalDB

namespace DiskJournal

variable {Field Envelope Seed Delta : Type} (env : JournalCrates Field Envelope Seed Delta)

/-- A completed snapshot: of which field, where the log stood, and after how many deltas. -/
structure Taken (Field : Type) where
  /-- The field. -/
  field : Field
  /-- The offset it was recorded with. -/
  offset : Offset
  /-- How many deltas had been appended. -/
  before : Nat

/-- A journal with its past: the encoded deltas, in order, and the completed snapshots, last one
first. -/
inductive History : DiskJournal → List Bytes → List (Taken Field) → Prop
  /-- A new root. -/
  | opened {journal} (h : DiskJournal.open env {} = .ok journal) : History journal [] []
  /-- `append_delta` -/
  | appended {journal deltas taken delta bytes} (h : History journal deltas taken)
      (hdelta : env.delta.toVec delta = .ok bytes) :
      History (journal.appendDelta env delta) (deltas ++ [bytes]) taken
  /-- `write_snapshot` -/
  | snapshot {journal journal' deltas taken field info} (h : History journal deltas taken)
      (hwrite : journal.writeSnapshot env field = (.ok info, journal')) :
      History journal' deltas (⟨field, info.offset, deltas.length⟩ :: taken)
  /-- `run_gc(info.offset)`, with what one of the snapshots reported. -/
  | collected {journal deltas taken t} (h : History journal deltas taken) (ht : t ∈ taken) :
      History (journal.runGc t.offset) deltas taken
  /-- Close the journal and open the root again. -/
  | reopened {journal journal' deltas taken} (h : History journal deltas taken)
      (hopen : DiskJournal.open env journal.root = .ok journal') : History journal' deltas taken

/-- The journal comes back at a snapshot, with what `load_snapshot` makes of the bytes that
`create_snapshot` wrote, its offset and the deltas after it, or at the start of the log where there is
none. -/
def RecoversTo (journal : DiskJournal) (deltas : List Bytes) : Option (Taken Field) → Prop
  | none =>
      (journal.loadLatestSnapshot env).1 = .ok none ∧
        journal.streamFrom env Offset.start = .ok (deltas, none)
  | some t =>
      (∃ bytes seed, env.createSnapshot t.field = .ok bytes ∧ env.loadSnapshot bytes = .ok seed ∧
        (journal.loadLatestSnapshot env).1 = .ok (some (seed, t.offset))) ∧
        journal.streamFrom env t.offset = .ok (deltas.drop t.before, none)

/-- The crash came inside the write of the manifest: a proper prefix of it is left. -/
def InManifestWrite (journal : DiskJournal) (crashed : JournalRoot) : Prop :=
  ∃ bytes written, env.manifest.toVec journal.newManifest = .ok bytes ∧ written <+: bytes ∧
    written ≠ bytes ∧ crashed.manifest = some written

/-! ## What holds along a history -/

/-- The segment from which on nothing may be collected. -/
def firstNeeded : Option (Taken Field) → Nat
  | none => 0
  | some t => t.offset.segment

/-- The manifest on disk names the snapshot, whose file is there. -/
def Installed (root : JournalRoot) : Option (Taken Field) → Prop
  | none => root.manifest = none
  | some t =>
      ∃ id snapshotBytes bytes,
        root.manifest = some bytes ∧
        env.manifest.toVec ⟨some id, t.offset.segment, t.offset.position⟩ = .ok bytes ∧
        root.snapshots[id]? = some snapshotBytes ∧ env.createSnapshot t.field = .ok snapshotBytes

/-- The log holds the deltas, at least from the last snapshot on, and the snapshots' offsets lead to
the deltas that came after them. -/
def LogHolds (store : Store) (deltas : List Bytes) (taken : List (Taken Field)) : Prop :=
  ∃ shadow img k, Store.Pruned env.crc32 (firstNeeded taken.head?) store shadow img k ∧
    img.first = 1 ∧ img.records = deltas ∧
    ∀ t ∈ taken, img.Locates env.crc32 t.offset t.before ∧
      t.offset.segment ≤ firstNeeded taken.head?

variable {env}

namespace LogHolds

variable {store : Store} {deltas : List Bytes} {taken : List (Taken Field)}

/-- A log that was opened in an empty directory holds no deltas and no snapshots. -/
theorem opened (h : Store.openWithRotation env.crc32 ∅ defaultSegmentSize = .ok store) :
    LogHolds env store [] ([] : List (Taken Field)) := by
  obtain ⟨store', hopen, hrep, -⟩ :=
    openWithRotation_empty env.crc32 (by decide : defaultSegmentSize ≠ 0)
  rw [h] at hopen
  cases hopen
  exact ⟨store, WalImage.empty, 0, ⟨hrep, hrep, Nat.zero_le _, rfl, rfl, Nat.le_max_left _ _⟩, rfl,
    rfl, by simp⟩

/-- Appending the bytes of a delta adds it to the deltas, if its length has 32 bits. -/
theorem append (h : LogHolds env store deltas taken) {bytes : Bytes}
    (hlen : bytes.length < 2 ^ 32) :
    LogHolds env (store.append env.crc32 bytes .disabled).2 (deltas ++ [bytes]) taken := by
  obtain ⟨shadow, img, k, hpruned, hfirst, hrecords, htaken⟩ := h
  obtain ⟨-, -, hnext⟩ := hpruned.append hlen
  have hext := WalImage.Extends.of_append env.crc32 img shadow.writer.rotation bytes .disabled
  refine ⟨_, _, k, hnext, hext.first_eq.trans hfirst, ?_, fun t ht => ?_⟩
  · rw [hext.records_eq, hrecords]
    rfl
  · exact ⟨hext.locates (htaken t ht).1, (htaken t ht).2⟩

/-- Recording the end of the log allows more to be collected. -/
theorem snapshot (h : LogHolds env store deltas taken) (field : Field) :
    LogHolds env store deltas (⟨field, store.endOffset, deltas.length⟩ :: taken) := by
  obtain ⟨shadow, img, k, hpruned, hfirst, hrecords, htaken⟩ := h
  have hend : store.endOffset = img.endOffset env.crc32 := by
    rw [hpruned.pruned.endOffset_eq, WalImage.endOffset_prune env.crc32 hpruned.le_closed]
  have hsegment : store.endOffset.segment = img.segment := congrArg Offset.segment hend
  have hneeded : firstNeeded taken.head? ≤ store.endOffset.segment := by
    rw [hsegment]
    cases taken with
    | nil => exact Nat.zero_le _
    | cons t rest => exact (htaken t List.mem_cons_self).1.segment_le
  refine ⟨shadow, img, k, hpruned.mono hneeded, hfirst, hrecords, ?_⟩
  intro t ht
  rcases List.mem_cons.mp ht with rfl | ht
  · refine ⟨?_, le_rfl⟩
    rw [hend, ← hrecords]
    exact WalImage.locates_endOffset env.crc32 img
  · exact ⟨(htaken t ht).1, le_trans (htaken t ht).2 hneeded⟩

/-- Compacting up to the offset of a snapshot loses nothing of what the log holds. -/
theorem gcCompact (h : LogHolds env store deltas taken) {t : Taken Field} (ht : t ∈ taken) :
    LogHolds env (store.gcCompact t.offset) deltas taken := by
  obtain ⟨shadow, img, k, hpruned, hfirst, hrecords, htaken⟩ := h
  exact ⟨shadow, img, _, hpruned.gcCompact (htaken t ht).2, hfirst, hrecords, htaken⟩

/-- Neither does reopening the directory, which succeeds. -/
theorem reopen (h : LogHolds env store deltas taken) :
    ∃ store', Store.openWithRotation env.crc32 store.dataDir defaultSegmentSize = .ok store' ∧
      LogHolds env store' deltas taken := by
  obtain ⟨shadow, img, k, hpruned, hfirst, hrecords, htaken⟩ := h
  obtain ⟨store', shadow', hopen, -, hnext⟩ :=
    hpruned.reopen (by decide : defaultSegmentSize ≠ 0)
  exact ⟨store', hopen, shadow', img, k, hnext, hfirst, hrecords, htaken⟩

/-- Without a snapshot nothing has been collected. -/
theorem streamFrom_start (h : LogHolds env store deltas ([] : List (Taken Field))) :
    store.streamFrom env.crc32 Offset.start = .ok (deltas, none) := by
  obtain ⟨shadow, img, k, hpruned, hfirst, hrecords, -⟩ := h
  rw [hpruned.streamFrom_eq (Nat.zero_le _),
    hpruned.whole.streamFrom_eq (img.locates_start env.crc32 hfirst), hrecords, hpruned.clean]
  rfl

/-- From the last snapshot on the log is read as if nothing had been collected. -/
theorem streamFrom_last {t : Taken Field} (h : LogHolds env store deltas (t :: taken)) :
    store.streamFrom env.crc32 t.offset = .ok (deltas.drop t.before, none) := by
  obtain ⟨shadow, img, k, hpruned, -, hrecords, htaken⟩ := h
  rw [hpruned.streamFrom_eq le_rfl, hpruned.whole.streamFrom_eq (htaken t List.mem_cons_self).1,
    hrecords, hpruned.clean]
  rfl

end LogHolds

/-- `append_delta` on the log. -/
theorem appendDelta_eq {delta : Delta} {bytes : Bytes} (hdelta : env.delta.toVec delta = .ok bytes)
    (journal : DiskJournal) :
    (journal.appendDelta env delta).store = (journal.store.append env.crc32 bytes .disabled).2 ∧
      (journal.appendDelta env delta).snapshots = journal.snapshots ∧
      (journal.appendDelta env delta).manifest = journal.manifest := by
  unfold appendDelta
  rw [hdelta]
  dsimp only
  split <;> rename_i happend <;> rw [happend] <;> exact ⟨rfl, rfl, rfl⟩

/-- What `write_snapshot` leaves when it succeeds. -/
theorem writeSnapshot_eq_ok {journal journal' : DiskJournal} {field : Field} {info : SnapshotInfo}
    (h : journal.writeSnapshot env field = (.ok info, journal')) :
    info.offset = journal.store.endOffset ∧ journal'.store = journal.store ∧
      Installed env journal'.root (some ⟨field, journal.store.endOffset, 0⟩) := by
  unfold writeSnapshot at h
  split at h
  · cases h
  · rename_i snapshotBytes hcreate
    dsimp only at h
    split at h
    · cases h
    · rename_i bytes hmanifest
      cases h
      exact ⟨rfl, rfl, journal.nextSnapshotId, snapshotBytes, bytes, rfl, hmanifest,
        Std.ExtTreeMap.getElem?_insert_self, hcreate⟩

/-- `open` reads the log and leaves the rest alone. -/
theorem open_eq_ok {root : JournalRoot} {journal : DiskJournal}
    (h : DiskJournal.open env root = .ok journal) :
    Store.openWithRotation env.crc32 root.data defaultSegmentSize = .ok journal.store ∧
      journal.snapshots = root.snapshots ∧ journal.manifest = root.manifest := by
  unfold DiskJournal.open at h
  cases hopen : Store.openWithRotation env.crc32 root.data defaultSegmentSize with
  | error e => rw [hopen] at h; cases h
  | ok store => rw [hopen] at h; cases h; exact ⟨rfl, rfl, rfl⟩

/-- Which snapshot is installed depends on its field and its offset. -/
theorem Installed.congr {root root' : JournalRoot} {t t' : Taken Field}
    (h : Installed env root (some t)) (hmanifest : root'.manifest = root.manifest)
    (hsnapshots : root'.snapshots = root.snapshots) (hfield : t'.field = t.field)
    (hoffset : t'.offset = t.offset) : Installed env root' (some t') := by
  obtain ⟨id, snapshotBytes, bytes, hbytes, henc, hfile, hcreate⟩ := h
  refine ⟨id, snapshotBytes, bytes, hmanifest.trans hbytes, ?_, ?_, ?_⟩
  · rwa [hoffset]
  · rwa [hsnapshots]
  · rwa [hfield]

/-- **Along a history** in which every delta fits its length prefix, the log holds what the snapshots
do not, and the manifest names the last of them. -/
theorem History.holds {journal : DiskJournal} {deltas : List Bytes} {taken : List (Taken Field)}
    (h : History env journal deltas taken) (hdeltas : ∀ bytes ∈ deltas, bytes.length < 2 ^ 32) :
    LogHolds env journal.store deltas taken ∧ Installed env journal.root taken.head? := by
  induction h with
  | opened h =>
      obtain ⟨hstore, -, hmanifest⟩ := open_eq_ok h
      exact ⟨.opened hstore, hmanifest⟩
  | @appended journal deltas taken delta bytes h hdelta ih =>
      obtain ⟨hlog, hinstalled⟩ := ih fun b hb => hdeltas b (List.mem_append_left _ hb)
      obtain ⟨hstore, hsnapshots, hmanifest⟩ := appendDelta_eq hdelta journal
      refine ⟨?_, ?_⟩
      · rw [hstore]
        exact hlog.append (hdeltas bytes (List.mem_append_right _ List.mem_cons_self))
      · -- The manifest and the snapshots are not touched by an append.
        cases taken with
        | nil => exact hmanifest.trans hinstalled
        | cons t rest => exact Installed.congr hinstalled hmanifest hsnapshots rfl rfl
  | @snapshot journal journal' deltas taken field info h hwrite ih =>
      obtain ⟨hlog, -⟩ := ih hdeltas
      obtain ⟨hoffset, hstore, hinstalled⟩ := writeSnapshot_eq_ok hwrite
      refine ⟨?_, hinstalled.congr rfl rfl rfl hoffset⟩
      rw [hstore, hoffset]
      exact hlog.snapshot field
  | collected h ht ih =>
      obtain ⟨hlog, hinstalled⟩ := ih hdeltas
      exact ⟨hlog.gcCompact ht, hinstalled⟩
  | @reopened journal journal' deltas taken h hopen ih =>
      obtain ⟨hlog, hinstalled⟩ := ih hdeltas
      obtain ⟨hstore, hsnapshots, hmanifest⟩ := open_eq_ok hopen
      obtain ⟨store', hreopen, hlog'⟩ := hlog.reopen
      obtain rfl : store' = journal'.store := Except.ok.inj (hreopen.symm.trans hstore)
      refine ⟨hlog', ?_⟩
      -- Nor are they by an open.
      cases taken with
      | nil => exact hmanifest.trans hinstalled
      | cons t rest => exact Installed.congr hinstalled hmanifest hsnapshots rfl rfl

/-! ## What a crash leaves -/

/-- A journal whose manifest names the last snapshot comes back at it. -/
theorem recoversTo_of_installed (hl : env.Lossless) {journal : DiskJournal} {deltas : List Bytes}
    {taken : List (Taken Field)} (hlog : LogHolds env journal.store deltas taken)
    (hinstalled : Installed env journal.root taken.head?) :
    RecoversTo env journal deltas taken.head? := by
  cases taken with
  | nil =>
      have hnone : journal.manifest = none := hinstalled
      refine ⟨?_, hlog.streamFrom_start⟩
      unfold loadLatestSnapshot readManifest
      rw [hnone]
  | cons t rest =>
      obtain ⟨id, snapshotBytes, bytes, hbytes, henc, hfile, hcreate⟩ := hinstalled
      have hbytes' : journal.manifest = some bytes := hbytes
      have hfile' : journal.snapshots[id]? = some snapshotBytes := hfile
      obtain ⟨bytes₁, henc₁, hdec⟩ := hl.manifest ⟨some id, t.offset.segment, t.offset.position⟩
      obtain rfl : bytes₁ = bytes := Except.ok.inj (henc₁.symm.trans henc)
      have hseed := hl.loadSnapshot hcreate
      have hread : journal.readManifest env =
          .ok (some ⟨some id, t.offset.segment, t.offset.position⟩) := by
        unfold readManifest
        simp only [hbytes', hdec]
        rfl
      refine ⟨⟨snapshotBytes, _, hcreate, hseed, ?_⟩, hlog.streamFrom_last⟩
      unfold loadLatestSnapshot
      simp only [hread, hfile', hseed]

/-- Another snapshot file changes nothing for the installed snapshot. -/
theorem Installed.putSnapshot {journal : DiskJournal} {last : Option (Taken Field)}
    (h : Installed env journal.root last) (written : Bytes) :
    Installed env (putSnapshot journal.nextSnapshotId written journal.root) last := by
  cases last with
  | none => exact h
  | some t =>
      obtain ⟨id, snapshotBytes, bytes, hbytes, henc, hfile, hcreate⟩ := h
      have hne : id ≠ journal.nextSnapshotId := ne_nextSnapshotId hfile
      refine ⟨id, snapshotBytes, bytes, hbytes, henc, ?_, hcreate⟩
      show (journal.snapshots.insert journal.nextSnapshotId written)[id]? = some snapshotBytes
      rw [Std.ExtTreeMap.getElem?_insert, if_neg (by simpa using hne.symm)]
      exact hfile

/-- A manifest that names a snapshot is not one whose write was cut off. -/
theorem Installed.not_inManifestWrite (hl : env.Lossless) {journal : DiskJournal} {root : JournalRoot}
    {last : Option (Taken Field)} (h : Installed env root last) : ¬ InManifestWrite env journal root := by
  rintro ⟨bytes, written, henc, hprefix, hne, hwritten⟩
  cases last with
  | none => exact absurd (h.symm.trans hwritten) (by simp)
  | some t =>
      obtain ⟨id, -, manifest, hmanifest, henc', -, -⟩ := h
      obtain rfl : manifest = written := Option.some.inj (hmanifest.symm.trans hwritten)
      -- a cut off manifest reads as no manifest, and this one reads as that of the snapshot
      obtain ⟨e, hcut⟩ := hl.truncated henc hprefix hne
      obtain ⟨whole, hwhole, hread⟩ := hl.manifest ⟨some id, t.offset.segment, t.offset.position⟩
      obtain rfl : whole = manifest := Except.ok.inj (hwhole.symm.trans henc')
      exact absurd (hcut.symm.trans hread) (by simp)

/-- Wherever `write_snapshot` is stopped, the log is untouched, and the installed snapshot is the old
one or the new one unless the manifest is being written. -/
theorem guarded_snapshotSteps {journal : DiskJournal} {last : Option (Taken Field)}
    (h : Installed env journal.root last) (field : Field) (before : Nat) :
    Procedure.Guarded (· = journal.root) (journal.snapshotSteps env field)
      (fun crashed => crashed.data = journal.store.dataDir ∧
        (Installed env crashed last ∨ InManifestWrite env journal crashed ∨
          Installed env crashed (some ⟨field, journal.store.endOffset, before⟩)))
      (fun _ => True) := by
  unfold snapshotSteps
  cases hcreate : env.createSnapshot field with
  | error e =>
      refine .skip ?_
      rintro root rfl
      exact ⟨⟨rfl, .inl h⟩, trivial⟩
  | ok snapshotBytes =>
      -- The snapshot is written first, under a name that no manifest knows.
      refine @Procedure.Guarded.seq _ _
        (· = putSnapshot journal.nextSnapshotId snapshotBytes journal.root) _ _ _ _ (.writing ?_) ?_
      · rintro root rfl
        exact ⟨⟨rfl, .inl h⟩, fun written _ => ⟨rfl, .inl (h.putSnapshot written)⟩, rfl⟩
      · cases hmanifest : env.manifest.toVec journal.newManifest with
        | error e =>
            refine .skip ?_
            rintro root rfl
            exact ⟨⟨rfl, .inl (h.putSnapshot snapshotBytes)⟩, trivial⟩
        | ok bytes =>
            refine .writing ?_
            rintro root rfl
            refine ⟨⟨rfl, .inl (h.putSnapshot snapshotBytes)⟩, fun written hwritten => ⟨rfl, ?_⟩,
              trivial⟩
            -- The manifest is installed once it is written as a whole.
            by_cases hall : written = bytes
            · subst hall
              exact .inr (.inr ⟨journal.nextSnapshotId, snapshotBytes, written, rfl, hmanifest,
                Std.ExtTreeMap.getElem?_insert_self, hcreate⟩)
            · exact .inr (.inl ⟨bytes, written, hmanifest, hwritten, hall, rfl⟩)

/-- A cut off manifest cannot be read. -/
theorem InManifestWrite.loadLatestSnapshot (hl : env.Lossless) {journal reopened : DiskJournal}
    {crashed : JournalRoot} (h : InManifestWrite env journal crashed)
    (hopen : DiskJournal.open env crashed = .ok reopened) :
    ∃ e, (reopened.loadLatestSnapshot env).1 = .error e := by
  obtain ⟨bytes, written, henc, hprefix, hne, hmanifest⟩ := h
  obtain ⟨e, hdec⟩ := hl.truncated henc hprefix hne
  obtain ⟨-, -, hmanifest'⟩ := open_eq_ok hopen
  refine ⟨.cbor e, ?_⟩
  unfold DiskJournal.loadLatestSnapshot readManifest
  rw [hmanifest', hmanifest]
  simp only [hdec]
  rfl

/-- A journal whose manifest cannot be read comes back at nothing. -/
theorem not_recoversTo {journal : DiskJournal} {e : JournalError}
    (h : (journal.loadLatestSnapshot env).1 = .error e) {deltas : List Bytes}
    {last : Option (Taken Field)} : ¬ RecoversTo env journal deltas last := by
  intro hrecovers
  cases last with
  | none => exact absurd (h.symm.trans hrecovers.1) (by simp)
  | some t =>
      obtain ⟨⟨bytes, seed, -, -, hload⟩, -⟩ := hrecovers
      exact absurd (h.symm.trans hload) (by simp)

/-- **Snapshots and crashes.** Take any history of deltas, snapshots, collections and reopenings in
which every delta fits its length prefix, and stop the next `write_snapshot` anywhere. Then the root
opens, the snapshot that is loaded is the previous one or the new one, with its own offset, and the
log delivers exactly the deltas that came after it, if and only if the crash did not come inside the
write of the manifest. -/
theorem snapshot_crash_safe_iff (env : JournalCrates Field Envelope Seed Delta) (hl : env.Lossless)
    {journal : DiskJournal} {deltas : List Bytes} {taken : List (Taken Field)}
    (h : History env journal deltas taken) (hdeltas : ∀ bytes ∈ deltas, bytes.length < 2 ^ 32)
    (field : Field) {crashed : JournalRoot}
    (hcrashed : crashed ∈ (journal.snapshotSteps env field).visits journal.root) :
    (∃ reopened, DiskJournal.open env crashed = .ok reopened ∧
      (RecoversTo env reopened deltas taken.head? ∨
        RecoversTo env reopened deltas (some ⟨field, journal.store.endOffset, deltas.length⟩))) ↔
      ¬ InManifestWrite env journal crashed := by
  obtain ⟨hlog, hinstalled⟩ := h.holds hdeltas
  obtain ⟨hdata, hleft⟩ :=
    (guarded_snapshotSteps hinstalled field deltas.length).of_visits rfl hcrashed
  constructor
  · rintro ⟨reopened, hopen, hrecovers⟩ hinside
    obtain ⟨e, hload⟩ := hinside.loadLatestSnapshot hl hopen
    rcases hrecovers with hrecovers | hrecovers
    · exact not_recoversTo hload hrecovers
    · exact not_recoversTo hload hrecovers
  · intro houtside
    obtain ⟨store, hreopen, hlog'⟩ := hlog.reopen
    let reopened : DiskJournal := ⟨store, crashed.snapshots, crashed.manifest, 0,
      (listSnapshots crashed.snapshots).getLast?.getD 0⟩
    have hopen : DiskJournal.open env crashed = .ok reopened := by
      unfold DiskJournal.open
      rw [hdata, hreopen]
      rfl
    refine ⟨reopened, hopen, ?_⟩
    rcases hleft with hold | hinside | hnew
    · refine .inl (recoversTo_of_installed hl hlog' ?_)
      cases taken with
      | nil => exact hold
      | cons t rest => exact Installed.congr hold rfl rfl rfl rfl
    · exact absurd hinside houtside
    · obtain ⟨store', hreopen', hlog''⟩ := (hlog.snapshot field).reopen
      obtain rfl : store' = store := Except.ok.inj (hreopen'.symm.trans hreopen)
      have hnew' : Installed env reopened.root
          (⟨field, journal.store.endOffset, deltas.length⟩ :: taken).head? :=
        hnew.congr rfl rfl rfl rfl
      exact .inr (recoversTo_of_installed hl hlog'' hnew')

end DiskJournal

/-! ## The crates the program is linked with -/

/-- The digit of a number below ten, and the digit a character stands for. -/
theorem digit_char {d : Nat} (h : d < 10) :
    (Char.ofNat (48 + d)).isDigit = true ∧ (Char.ofNat (48 + d)).toNat - 48 = d := by
  interval_cases d <;> decide

/-- `{id:08}.snap` -/
def snapshotName (number : Nat) : String :=
  String.ofList (((Nat.digits 10 number ++ List.replicate (8 - (Nat.digits 10 number).length) 0).reverse.map
    fun d => Char.ofNat (48 + d)) ++ ".snap".toList)

/-- The number in front of the extension. -/
def parseSnapshotName (name : String) : Nat :=
  Nat.ofDigits 10 ((name.toList.takeWhile Char.isDigit).map fun c => c.toNat - 48).reverse

/-- The number of a snapshot is read back from the name of its file. -/
theorem parseSnapshotName_snapshotName (number : Nat) : parseSnapshotName (snapshotName number) = number := by
  have hdigit : ∀ d ∈ Nat.digits 10 number ++ List.replicate (8 - (Nat.digits 10 number).length) 0,
      d < 10 := by
    intro d hd
    rcases List.mem_append.mp hd with hd | hd
    · exact Nat.digits_lt_base (by decide) hd
    · rw [List.eq_of_mem_replicate hd]
      decide
  have hvalue : Nat.ofDigits 10
      (Nat.digits 10 number ++ List.replicate (8 - (Nat.digits 10 number).length) 0) = number := by
    rw [Nat.ofDigits_append_replicate_zero, Nat.ofDigits_digits]
  unfold parseSnapshotName snapshotName
  generalize Nat.digits 10 number ++ List.replicate (8 - (Nat.digits 10 number).length) 0 = digits at *
  have hstop : ".snap".toList.takeWhile Char.isDigit = [] := by decide
  rw [String.toList_ofList, List.takeWhile_append_of_pos, hstop, List.append_nil, List.map_map,
    List.map_reverse, List.reverse_reverse]
  · have hback : digits.map ((fun c => c.toNat - 48) ∘ fun d => Char.ofNat (48 + d)) = digits :=
      (List.map_congr_left fun d hd => (digit_char (hdigit d hd)).2).trans (List.map_id _)
    rw [hback, hvalue]
  · intro c hc
    obtain ⟨d, hd, rfl⟩ := List.mem_map.mp hc
    exact (digit_char (hdigit d (List.mem_reverse.mp hd))).1

namespace Codec

/-- The file name of a snapshot. -/
def snapshotFile : Codec Nat :=
  text.via snapshotName parseSnapshotName parseSnapshotName_snapshotName

/-- `StoreManifest` -/
def storeManifest : Codec StoreManifest :=
  (record 3 ((field "last_snapshot" (snapshotFile.option fun _ => notNull_text _)).pair
    ((field "wal_segment" uint).pair (field "wal_position" uint)))).via
    (fun m => (m.lastSnapshot, m.walSegment, m.walPosition))
    (fun (x₁, x₂, x₃) => ⟨x₁, x₂, x₃⟩)
    fun _ => rfl

/-- What is read as a manifest is read as the same with more bytes behind it. -/
theorem stable_storeManifest : Stable storeManifest.dec := by
  have hnumber : Stable uint.dec := stable_decHead 0
  have hname : Stable (snapshotFile.option fun _ => notNull_text _).dec :=
    stable_option (stable_via stable_text _) _
  exact stable_via (stable_behind (stable_pair (stable_behind hname _)
    (stable_pair (stable_behind hnumber _) (stable_behind hnumber _))) _) _

end Codec

/-- The journal of a field, with the deltas that spawn a cell. -/
def linkedJournalCrates : JournalCrates (ClusterField Float32) (SnapshotEnvelope Float32)
    (ClusterFieldSeed Float32) (CellSnapshot Float32) where
  crc32 := crc32Ieee
  delta := (Codec.spawn Codec.f32).serde
  manifest := Codec.storeManifest.serde
  envelope := SnapshotEnvelope.serde Codec.f32
  skipped := SnapshotEnvelope.skipped
  envelopeOf := ClusterField.envelope .listed
  seedOf := SnapshotEnvelope.seed

/-- The codecs of the sample read back what they write, up to the fields that are skipped. -/
theorem lossless_linkedJournalCrates : linkedJournalCrates.Lossless where
  envelope := SnapshotEnvelope.fromSlice_serde Codec.f32
  manifest := Codec.storeManifest.lossless_serde
  truncated := Codec.rejectsTruncated_serde Codec.stable_storeManifest

namespace DiskJournal

/-- A new journal. -/
theorem exists_open_linked : ∃ journal, DiskJournal.open linkedJournalCrates {} = .ok journal := by
  obtain ⟨store, hopen, -⟩ :=
    openWithRotation_empty crc32Ieee (by decide : defaultSegmentSize ≠ 0)
  refine ⟨⟨store, ∅, none, 0, 0⟩, ?_⟩
  unfold DiskJournal.open
  show (Except.mapError JournalError.store
    (Store.openWithRotation crc32Ieee ∅ defaultSegmentSize)).bind _ = _
  rw [hopen]
  rfl

/-- A field with a root for each of the patterns. -/
def rootsField (patterns : List String) : ClusterField Float32 :=
  ClusterField.run (ClusterField.constantPlatform Float32 0.5) (patterns.map .addRoot)

/-- What a journal keeps of a new root. -/
def rootCell (id : NodeId) (pattern : String) : CellSnapshot Float32 :=
  (NodeCell.fromSeed id ⟨0.5, 0.5, pattern⟩).toSnapshot

/-- Two spawned cells. -/
def rootDeltas : List Bytes :=
  [(Codec.spawn Codec.f32).enc (rootCell 1 "cpu"), (Codec.spawn Codec.f32).enc (rootCell 2 "mem")]

/-- The deltas of the sample are short enough for their frames. -/
theorem length_rootDeltas : ∀ bytes ∈ rootDeltas, bytes.length < 2 ^ 32 := by decide +kernel

/-- A root, a completed snapshot, another root, and a crash in the second snapshot, when its file is
written and the manifest is not: the journal comes back. -/
theorem snapshot_crash_safe_between_writes :
    ∃ journal journal' info bytes crashed reopened,
      DiskJournal.open linkedJournalCrates {} = .ok journal ∧
      (journal.appendDelta linkedJournalCrates (rootCell 1 "cpu")).writeSnapshot linkedJournalCrates
        (rootsField ["cpu"]) = (.ok info, journal') ∧
      linkedJournalCrates.createSnapshot (rootsField ["cpu", "mem"]) = .ok bytes ∧
      crashed = putSnapshot
        (journal'.appendDelta linkedJournalCrates (rootCell 2 "mem")).nextSnapshotId bytes
        (journal'.appendDelta linkedJournalCrates (rootCell 2 "mem")).root ∧
      DiskJournal.open linkedJournalCrates crashed = .ok reopened ∧
      (RecoversTo linkedJournalCrates reopened rootDeltas (some ⟨rootsField ["cpu"], info.offset, 1⟩) ∨
        RecoversTo linkedJournalCrates reopened rootDeltas (some ⟨rootsField ["cpu", "mem"],
          (journal'.appendDelta linkedJournalCrates (rootCell 2 "mem")).store.endOffset, 2⟩)) := by
  obtain ⟨journal, hopen⟩ := exists_open_linked
  generalize hwrite : (journal.appendDelta linkedJournalCrates (rootCell 1 "cpu")).writeSnapshot
    linkedJournalCrates (rootsField ["cpu"]) = written
  obtain ⟨result, journal'⟩ := written
  obtain ⟨info, rfl⟩ : ∃ info, result = .ok info := ⟨_, (congrArg Prod.fst hwrite).symm⟩
  obtain ⟨bytes, hcreate, -⟩ := lossless_linkedJournalCrates.envelope
    (ClusterField.envelope .listed (rootsField ["cpu", "mem"]))
  have hhist : History linkedJournalCrates
      (journal'.appendDelta linkedJournalCrates (rootCell 2 "mem")) rootDeltas
      [⟨rootsField ["cpu"], info.offset, 1⟩] :=
    .appended (.snapshot (.appended (.opened hopen) rfl) hwrite) rfl
  have hinstalled := (hhist.holds length_rootDeltas).2.putSnapshot bytes
  refine ⟨journal, journal', info, bytes, putSnapshot
    (journal'.appendDelta linkedJournalCrates (rootCell 2 "mem")).nextSnapshotId bytes
    (journal'.appendDelta linkedJournalCrates (rootCell 2 "mem")).root, ?_⟩
  generalize journal'.appendDelta linkedJournalCrates (rootCell 2 "mem") = appended at hhist hinstalled ⊢
  have hcrashed : putSnapshot appended.nextSnapshotId bytes appended.root ∈
      (appended.snapshotSteps linkedJournalCrates (rootsField ["cpu", "mem"])).visits appended.root := by
    unfold snapshotSteps
    rw [show linkedJournalCrates.createSnapshot (rootsField ["cpu", "mem"]) = .ok bytes from hcreate]
    exact .inl (.inr ⟨bytes, List.prefix_rfl, rfl⟩)
  obtain ⟨reopened, hreopen, hrecovers⟩ := (snapshot_crash_safe_iff linkedJournalCrates
    lossless_linkedJournalCrates hhist length_rootDeltas (rootsField ["cpu", "mem"]) hcrashed).mpr
      (hinstalled.not_inManifestWrite lossless_linkedJournalCrates)
  exact ⟨reopened, hopen, hwrite, hcreate, rfl, hreopen, hrecovers⟩

/-- A root, a completed snapshot, and a crash in the next one that leaves the manifest truncated to
nothing: the journal finds neither of the two. -/
theorem snapshot_crash_truncated_manifest :
    ∃ journal journal' info crashed, DiskJournal.open linkedJournalCrates {} = .ok journal ∧
      (journal.appendDelta linkedJournalCrates (rootCell 1 "cpu")).writeSnapshot linkedJournalCrates
        (rootsField ["cpu"]) = (.ok info, journal') ∧
      crashed ∈ (journal'.snapshotSteps linkedJournalCrates (rootsField ["cpu", "mem"])).visits
        journal'.root ∧
      crashed.manifest = some [] ∧
      ¬ ∃ reopened, DiskJournal.open linkedJournalCrates crashed = .ok reopened ∧
        (RecoversTo linkedJournalCrates reopened (rootDeltas.take 1)
            (some ⟨rootsField ["cpu"], info.offset, 1⟩) ∨
          RecoversTo linkedJournalCrates reopened (rootDeltas.take 1)
            (some ⟨rootsField ["cpu", "mem"], journal'.store.endOffset, 1⟩)) := by
  obtain ⟨journal, hopen⟩ := exists_open_linked
  generalize hwrite : (journal.appendDelta linkedJournalCrates (rootCell 1 "cpu")).writeSnapshot
    linkedJournalCrates (rootsField ["cpu"]) = written
  obtain ⟨result, journal'⟩ := written
  obtain ⟨info, rfl⟩ : ∃ info, result = .ok info := ⟨_, (congrArg Prod.fst hwrite).symm⟩
  obtain ⟨bytes, hcreate, -⟩ := lossless_linkedJournalCrates.envelope
    (ClusterField.envelope .listed (rootsField ["cpu", "mem"]))
  have hinside : InManifestWrite linkedJournalCrates journal'
      (putManifest [] (putSnapshot journal'.nextSnapshotId bytes journal'.root)) := by
    refine ⟨_, [], rfl, List.nil_prefix, ?_, rfl⟩
    exact (List.cons_ne_nil _ _).symm
  have hcrashed : putManifest [] (putSnapshot journal'.nextSnapshotId bytes journal'.root) ∈
      (journal'.snapshotSteps linkedJournalCrates (rootsField ["cpu", "mem"])).visits journal'.root := by
    unfold snapshotSteps
    rw [show linkedJournalCrates.createSnapshot (rootsField ["cpu", "mem"]) = .ok bytes from hcreate]
    exact .inr (.inr ⟨[], List.nil_prefix, rfl⟩)
  refine ⟨journal, journal', info, _, hopen, hwrite, hcrashed, rfl, ?_⟩
  rintro ⟨reopened, hreopen, hrecovers⟩
  obtain ⟨e, hload⟩ := hinside.loadLatestSnapshot lossless_linkedJournalCrates hreopen
  rcases hrecovers with hrecovers | hrecovers
  · exact not_recoversTo hload hrecovers
  · exact not_recoversTo hload hrecovers

end DiskJournal

end LiminalDB
