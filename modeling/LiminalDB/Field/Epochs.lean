import LiminalDB.Field.Startup

/-! # Mirror epochs: `mirror.rs` and `recursion.rs`

An epoch gets its id from a counter of the process, and is found by its id in the log of the field, where
snapshots and deltas bring back the epochs of earlier processes. Within a process the ids are those of
consecutive numbers (`Numbered`), a restart brings back a part of the log, so two epochs of one id meet
exactly when a process comes to the id of an epoch that it found at its start and that is still there. -/

namespace LiminalDB

variable {F Bytes : Type}

/-! ## The last entries of a queue -/

section LastOf

variable {α : Type} {n : ℕ} {l l' : List α}

/-- The last elements of a list are a part of its end. -/
theorem lastOf_suffix (n : ℕ) (l : List α) : lastOf n l <:+ l := by
  rw [lastOf]
  exact List.drop_suffix _ _

/-- There are as many of them as asked for, or as the list has. -/
theorem length_lastOf : (lastOf n l).length = min n l.length := by
  rw [lastOf, List.length_drop]
  omega

/-- A list that is short enough is kept as a whole. -/
theorem lastOf_of_length_le (h : l.length ≤ n) : lastOf n l = l := by
  rw [lastOf, Nat.sub_eq_zero_of_le h, List.drop_zero]

/-- One more element is the last one, before which one less of the others is kept. -/
theorem lastOf_concat (n : ℕ) (l : List α) (a : α) : lastOf (n + 1) (l ++ [a]) = lastOf n l ++ [a] := by
  rw [lastOf, lastOf, List.length_append, List.length_singleton, Nat.add_sub_add_right,
    List.drop_append_of_le_length (Nat.sub_le _ _)]

/-- The ends of two lists are related as the lists are. -/
theorem suffix_lastOf (h : l <:+ l') (n : ℕ) : lastOf n l <:+ lastOf n l' := by
  refine List.suffix_of_suffix_length_le ((lastOf_suffix n l).trans h) (lastOf_suffix n l') ?_
  have hle := h.length_le
  rw [length_lastOf, length_lastOf]
  omega

/-- Only the last entries of a front matter. -/
theorem lastOf_lastOf_append (n : ℕ) (l l' : List α) : lastOf n (lastOf n l ++ l') = lastOf n (l ++ l') := by
  obtain ⟨front, hfront⟩ := lastOf_suffix n l
  have hsuffix : lastOf n l ++ l' <:+ l ++ l' := ⟨front, by rw [← List.append_assoc, hfront]⟩
  refine (suffix_lastOf hsuffix n).eq_of_length ?_
  simp only [length_lastOf, List.length_append]
  omega

/-- Entries pushed one by one. -/
theorem foldl_push (n : ℕ) (l l' : List α) :
    l'.foldl (fun queue a => lastOf n (queue ++ [a])) (lastOf n l) = lastOf n (l ++ l') := by
  induction l' generalizing l with
  | nil => rw [List.append_nil, List.foldl_nil]
  | cons a l' ih => rw [List.foldl_cons, lastOf_lastOf_append, ih, List.append_assoc, List.singleton_append]

end LastOf

/-! ## Recording -/

section Record

variable [FloatLike F]

open FloatLike (abs clamp)

/-- `record_epoch` with `EPOCH_SEQ`, and what it leaves there. -/
def recordEpoch (epochSeq : UInt64) (kind : EpochKind) (times : UInt64 × UInt64)
    (cfgHash reportHash : UInt64) (harmonyBefore harmonyAfter : HarmonyMetrics F)
    (tensionBefore tensionAfter latencyAvgBefore latencyAvgAfter : F) : Epoch F × UInt64 :=
  let tensionGain := tensionBefore - tensionAfter
  let latencyGain := latencyAvgBefore - latencyAvgAfter
  let stabilityBefore := harmonyBefore.avgStrength - harmonyBefore.avgLatency
  let stabilityAfter := harmonyAfter.avgStrength - harmonyAfter.avgLatency
  let stabilityGain := stabilityAfter - stabilityBefore
  let entropyDrift := harmonyAfter.entropy - harmonyBefore.entropy
  let impact := 0.5 * tensionGain + 0.3 * latencyGain + 0.2 * stabilityGain
  let impact := if 0.0 < entropyDrift then impact - entropyDrift * 0.15 else impact
  ({ id := epochSeq
     kind
     startMs := times.1
     endMs := times.2
     cfgHash
     reportHash
     harmonyBefore
     harmonyAfter
     tensionBefore
     tensionAfter
     latencyAvgBefore
     latencyAvgAfter
     impact := clamp impact (-5.0) 5.0 }, epochSeq + 1)

/-! ## Addressing -/

/-- `ReplayConfig`: how an epoch is replayed: dry or for good, how strongly, and on how many cells. -/
structure ReplayConfig (F : Type) where
  mode : String
  scale : F
  maxOps : UInt32
  protectSalience : F

omit [FloatLike F] in
/-- `rebuild_timeline`: the epochs of a field in the order of their beginnings, then of their ids. -/
def rebuildTimeline (field : ClusterField F) : MirrorTimeline F :=
  ⟨sortBy (fun a b => (compareOfLessAndEq a.startMs b.startMs).then (compareOfLessAndEq a.id b.id))
    field.mirrorEpochs, field.nowMs⟩

/-- What `replay_epoch` does with the epoch it has found. -/
def replayFound (platform : Platform F) (visits : Visits F) (tookMs : UInt32) (field : ClusterField F)
    (epoch : Epoch F) (cfg : ReplayConfig F) : ClusterField F × ReplayReport F :=
  let scale := clamp cfg.scale 0.0 4.0
  let predictedGain := epoch.impact * abs scale
  let (field, applied) :=
    if platform.toLowercase cfg.mode = "apply" ∧ 0 < cfg.maxOps then
      (field.applyMirrorEpoch visits epoch scale cfg.maxOps cfg.protectSalience,
        UInt32.ofNat (field.mirrorTargets visits cfg.maxOps cfg.protectSalience).length)
    else (field, 0)
  let report := ⟨epoch.id, cfg.mode, applied, predictedGain, tookMs⟩
  (field.recordMirrorReplay report, report)

/-- `replay_epoch`: the first epoch of the timeline with the id is replayed, and nothing if there is
none. -/
def replayEpoch (platform : Platform F) (visits : Visits F) (tookMs : UInt32) (field : ClusterField F)
    (timeline : MirrorTimeline F) (epochId : UInt64) (cfg : ReplayConfig F) :
    ClusterField F × ReplayReport F :=
  match timeline.epochs.find? fun epoch => epoch.id = epochId with
  | some epoch => replayFound platform visits tookMs field epoch cfg
  | none => (field, ⟨epochId, cfg.mode, 0, 0.0, 0⟩)

/-- `replay_epoch_by_id`: the epoch is looked up in the field's own timeline. -/
def replayEpochById (platform : Platform F) (visits : Visits F) (tookMs : UInt32)
    (field : ClusterField F) (epochId : UInt64) (cfg : ReplayConfig F) :
    ClusterField F × ReplayReport F :=
  replayEpoch platform visits tookMs field (rebuildTimeline field) epochId cfg

omit [FloatLike F] in
/-- What `INTROSPECT EPOCH` shows. -/
def introspectEpoch (field : ClusterField F) (id : UInt64) : Option (Epoch F) :=
  field.mirrorEpochs.find? fun epoch => epoch.id = id

/-- No two epochs of the log have one id, and each is the one that its id addresses. -/
def Identified (platform : Platform F) (field : ClusterField F) : Prop :=
  (field.mirrorEpochs.map Epoch.id).Nodup ∧ ∀ epoch ∈ field.mirrorEpochs,
    introspectEpoch field epoch.id = some epoch ∧
    ∀ visits tookMs cfg, replayEpochById platform visits tookMs field epoch.id cfg =
      replayFound platform visits tookMs field epoch cfg

omit [FloatLike F] in
/-- An epoch whose id no other one has is found by it. -/
theorem find?_id {epochs : List (Epoch F)} (hnodup : (epochs.map Epoch.id).Nodup) {epoch : Epoch F}
    (hmem : epoch ∈ epochs) : epochs.find? (fun other => other.id = epoch.id) = some epoch := by
  cases hfind : epochs.find? fun other => other.id = epoch.id with
  | none => exact absurd (decide_eq_true rfl) (List.find?_eq_none.mp hfind epoch hmem)
  | some found =>
      have hid : found.id = epoch.id := by simpa using List.find?_some hfind
      rw [List.inj_on_of_nodup_map hnodup (List.mem_of_find?_eq_some hfind) hmem hid]

/-- Epochs of different ids are addressed by them. -/
theorem identified_iff {platform : Platform F} {field : ClusterField F} :
    Identified platform field ↔ (field.mirrorEpochs.map Epoch.id).Nodup := by
  refine ⟨And.left, fun hnodup => ⟨hnodup, fun epoch hmem => ⟨find?_id hnodup hmem, ?_⟩⟩⟩
  intro visits tookMs cfg
  have hperm := sortBy_perm (fun a b : Epoch F =>
    (compareOfLessAndEq a.startMs b.startMs).then (compareOfLessAndEq a.id b.id)) field.mirrorEpochs
  have hfind := find?_id ((hperm.map Epoch.id).nodup_iff.mpr hnodup) (hperm.mem_iff.mpr hmem)
  unfold replayEpochById replayEpoch rebuildTimeline
  rw [hfind]

end Record

/-! ## Processes on one store -/

/-- A process, with its counter. -/
structure EpochProcess (F : Type) where
  state : StoredBridge F
  /-- `EPOCH_SEQ` -/
  epochSeq : UInt64
  /-- How many epochs have been recorded since the start. -/
  recorded : ℕ

/-- What happens to the epochs of a field. -/
inductive EpochStep (F : Type)
  /-- `record_epoch`, and `push_mirror_epoch` with its epoch. -/
  | record (kind : EpochKind) (times : UInt64 × UInt64) (cfgHash reportHash : UInt64)
      (harmonyBefore harmonyAfter : HarmonyMetrics F)
      (tensionBefore tensionAfter latencyAvgBefore latencyAvgAfter : F)
  | snapshot (visits : Visits F)
  /-- A restart that finds the first deltas of the tail on disk, all of them after a clean stop. -/
  | restart (written : ℕ)

namespace EpochProcess

variable [FloatLike F]

/-- A process that starts on a store. -/
def start (platform : Platform F) (snapshot : Option (ClusterFieldSeed F)) (tail : List (EventDelta F)) :
    EpochProcess F :=
  ⟨.new platform snapshot tail, 1, 0⟩

/-- One step. -/
def step (codec : SnapshotCodec F Bytes) (platform : Platform F) (self : EpochProcess F) :
    EpochStep F → EpochProcess F
  | .record kind times cfgHash reportHash harmonyBefore harmonyAfter tensionBefore tensionAfter
      latencyAvgBefore latencyAvgAfter =>
      let (epoch, epochSeq) := recordEpoch self.epochSeq kind times cfgHash reportHash harmonyBefore
        harmonyAfter tensionBefore tensionAfter latencyAvgBefore latencyAvgAfter
      ⟨{ self.state with field := self.state.field.pushMirrorEpoch epoch }, epochSeq, self.recorded + 1⟩
  | .snapshot visits => { self with state := self.state.writeSnapshot codec visits }
  | .restart written =>
      start platform self.state.snapshot (self.state.field.journal.take written)

/-- The steps on an empty store, in turn. -/
def run (codec : SnapshotCodec F Bytes) (platform : Platform F) (steps : List (EpochStep F)) :
    EpochProcess F :=
  steps.foldl (step codec platform) (start platform none [])

/-- The log. -/
def log (self : EpochProcess F) : List (Epoch F) := self.state.field.mirrorEpochs

/-- The epochs that the process found at its start and that one more leaves in the log. -/
def staying (self : EpochProcess F) : List (Epoch F) :=
  (lastOf 255 self.log).take ((lastOf 255 self.log).length - self.recorded)

/-- An epoch is not recorded under the id of an earlier process that is still there. -/
def Unclaimed (self : EpochProcess F) : EpochStep F → Prop
  | .record .. => ∀ epoch ∈ self.staying, epoch.id ≠ self.epochSeq
  | .snapshot _ | .restart _ => True

/-! ## The log after a start -/

/-- Replaying some epochs pushes them one after the other, each time keeping the last 256. -/
theorem foldl_mirrorEpochs_push (platform : Platform F) (field : ClusterField F)
    (epochs : List (Epoch F)) :
    ((epochs.map .mirrorEpoch).foldl (ClusterField.applyDelta platform) field).mirrorEpochs =
      epochs.foldl (fun log epoch => lastOf 256 (log ++ [epoch])) field.mirrorEpochs := by
  induction epochs generalizing field with
  | nil => rfl
  | cons epoch epochs ih => exact ih _

/-- Building the index touches no epoch. -/
theorem mirrorEpochs_rebuildIndex (platform : Platform F) (field : ClusterField F) :
    (field.rebuildIndex platform).mirrorEpochs = field.mirrorEpochs :=
  list_foldl_keeps ClusterField.mirrorEpochs
    (ClusterField.indexing_keeps ClusterField.mirrorEpochs (fun _ _ => rfl) (fun _ _ _ => rfl) platform)
    field.cells.keys { field with index := fun _ => [] }

/-- Nor does adding a root. -/
theorem mirrorEpochs_addRoot (platform : Platform F) (field : ClusterField F) (seed : String) :
    (field.addRoot platform seed).mirrorEpochs = field.mirrorEpochs := by
  let born : ClusterField F := { field with nextId := field.nextId + 1 }
  let cell := NodeCell.fromSeed field.nextId (createSeed platform seed)
  exact ClusterField.indexing_keeps ClusterField.mirrorEpochs (fun _ _ => rfl) (fun _ _ _ => rfl) platform
    (born.setCell cell.id cell) cell.id

/-- The epochs that a snapshot brings back. -/
def restoredEpochs (snapshot : Option (ClusterFieldSeed F)) : List (Epoch F) :=
  snapshot.elim [] fun seed => seed.mirror.epochs

/-- A field that is built from a snapshot has the last 256 of its epochs. -/
theorem mirrorEpochs_intoField (platform : Platform F) (seed : ClusterFieldSeed F) :
    (seed.intoField platform).mirrorEpochs = lastOf 256 seed.mirror.epochs := by
  have hpush (epochs : List (Epoch F)) (field : ClusterField F) :
      (epochs.foldl ClusterField.pushMirrorEpoch field).mirrorEpochs =
        epochs.foldl (fun log epoch => lastOf 256 (log ++ [epoch])) field.mirrorEpochs := by
    induction epochs generalizing field with
    | nil => rfl
    | cons epoch epochs ih => exact ih _
  have hempty : lastOf 256 ([] : List (Epoch F)) = [] := lastOf_of_length_le (Nat.zero_le _)
  refine (hpush _ _).trans ?_
  rw [mirrorEpochs_rebuildIndex]
  refine Eq.trans ?_ (foldl_push 256 [] seed.mirror.epochs)
  rw [hempty]
  rfl

/-- A start finds the last epochs of snapshot and tail. -/
theorem log_start (platform : Platform F) (snapshot : Option (ClusterFieldSeed F))
    (epochs : List (Epoch F)) :
    (start platform snapshot (epochs.map .mirrorEpoch)).log =
      lastOf 256 (restoredEpochs snapshot ++ epochs) := by
  have hbase : (snapshot.elim .new (ClusterFieldSeed.intoField platform)).mirrorEpochs =
      lastOf 256 (restoredEpochs snapshot) := by
    cases snapshot with
    | none => exact (lastOf_of_length_le (Nat.zero_le _)).symm
    | some seed => exact mirrorEpochs_intoField platform seed
  have hrecovered : (StoredBridge.recovered platform snapshot (epochs.map .mirrorEpoch)).mirrorEpochs =
      lastOf 256 (restoredEpochs snapshot ++ epochs) := by
    rw [StoredBridge.recovered, foldl_mirrorEpochs_push, hbase, foldl_push]
  rw [← hrecovered]
  unfold log start StoredBridge.new
  dsimp only
  split
  · exact mirrorEpochs_addRoot platform _ _
  · rfl

/-- After a start the journal is the tail that was read, and the snapshot the one that was found. -/
theorem journal_start (platform : Platform F) (snapshot : Option (ClusterFieldSeed F))
    (tail : List (EventDelta F)) :
    (start platform snapshot tail).state.field.journal = tail ∧
      (start platform snapshot tail).state.snapshot = snapshot := by
  unfold start StoredBridge.new
  dsimp only
  split <;> exact ⟨rfl, rfl⟩

/-- A snapshot that is written and loaded has the last 64 epochs of the field. -/
theorem loadSnapshot_mirror (codec : SnapshotCodec F Bytes) (visits : Visits F) (field : ClusterField F) :
    restoredEpochs (loadSnapshot codec (createSnapshot codec visits field)) = lastOf 64 field.mirrorEpochs := by
  unfold loadSnapshot createSnapshot
  rw [codec.fromSlice_toVec, lastOf]
  rfl

/-! ## Ids within a process -/

/-- What holds of every process: the epochs it has recorded itself have consecutive numbers as ids, and
what the store has is a part of its log, without two epochs of one id wherever the tail is cut off. -/
structure Numbered (process : EpochProcess F) : Prop where
  length_le : process.log.length ≤ 256
  epochSeq : process.epochSeq = UInt64.ofNat (process.recorded + 1)
  own : ∀ i epoch, process.log[i]? = some epoch → process.log.length ≤ i + process.recorded →
    epoch.id = UInt64.ofNat (process.recorded + 1 + i - process.log.length)
  distinct : (process.log.map Epoch.id).Nodup
  store : ∃ tail, process.state.field.journal = tail.map .mirrorEpoch ∧
    lastOf 256 (restoredEpochs process.state.snapshot ++ tail) <:+ process.log ∧
    ∀ n, ((lastOf 256 (restoredEpochs process.state.snapshot ++ tail.take n)).map Epoch.id).Nodup

/-- A process that finds epochs of different ids. -/
theorem numbered_start (platform : Platform F) (snapshot : Option (ClusterFieldSeed F))
    (epochs : List (Epoch F)) (hdistinct : ∀ n,
      ((lastOf 256 (restoredEpochs snapshot ++ epochs.take n)).map Epoch.id).Nodup) :
    Numbered (start platform snapshot (epochs.map .mirrorEpoch)) := by
  obtain ⟨hjournal, hsnapshot⟩ := journal_start platform snapshot (epochs.map .mirrorEpoch)
  have hlog := log_start platform snapshot epochs
  have hall := hdistinct epochs.length
  rw [List.take_length] at hall
  refine ⟨?_, rfl, fun i epoch hepoch hle => ?_, by rwa [hlog], epochs, hjournal, ?_, ?_⟩
  · rw [hlog, length_lastOf]
    omega
  · -- a new process has recorded nothing
    obtain ⟨hi, -⟩ := List.getElem?_eq_some_iff.mp hepoch
    exact absurd hle (by show ¬ _ ≤ i + 0; omega)
  · exact ⟨[], by rw [List.nil_append, hlog, hsnapshot]⟩
  · rw [hsnapshot]
    exact hdistinct

/-- Two of the last 2^64 numbers have different ids. -/
theorem ofNat_ne {a b : ℕ} (hlt : a < b) (hclose : b < a + 2 ^ 64) : UInt64.ofNat a ≠ UInt64.ofNat b := by
  intro heq
  have hmod := congrArg UInt64.toNat heq
  rw [UInt64.toNat_ofNat', UInt64.toNat_ofNat'] at hmod
  omega

variable {codec : SnapshotCodec F Bytes} {platform : Platform F} {self : EpochProcess F}

/-- What recording does. -/
theorem record_cases (codec : SnapshotCodec F Bytes) (platform : Platform F) (self : EpochProcess F)
    (kind : EpochKind) (times : UInt64 × UInt64) (cfgHash reportHash : UInt64)
    (harmonyBefore harmonyAfter : HarmonyMetrics F)
    (tensionBefore tensionAfter latencyAvgBefore latencyAvgAfter : F) :
    ∃ epoch after, self.step codec platform (.record kind times cfgHash reportHash harmonyBefore
        harmonyAfter tensionBefore tensionAfter latencyAvgBefore latencyAvgAfter) = after ∧
      epoch.id = self.epochSeq ∧ after.log = lastOf 255 self.log ++ [epoch] ∧
      after.epochSeq = self.epochSeq + 1 ∧ after.recorded = self.recorded + 1 ∧
      after.state.snapshot = self.state.snapshot ∧
      after.state.field.journal = self.state.field.journal ++ [.mirrorEpoch epoch] :=
  ⟨_, _, rfl, rfl, lastOf_concat 255 _ _, rfl, rfl, rfl, rfl⟩

omit [FloatLike F] in
/-- An id that no epoch of the log of an earlier process has, none of the log has. -/
theorem Numbered.fresh (h : Numbered self) (hunclaimed : ∀ epoch ∈ self.staying, epoch.id ≠ self.epochSeq)
    {epoch : Epoch F} (hmem : epoch ∈ lastOf 255 self.log) : epoch.id ≠ self.epochSeq := by
  obtain ⟨i, hi, rfl⟩ := List.getElem_of_mem hmem
  by_cases hstaying : i < (lastOf 255 self.log).length - self.recorded
  · refine hunclaimed _ (List.mem_take_iff_getElem.mpr ⟨i, ?_, rfl⟩)
    omega
  · -- the process has recorded this one itself, at most 255 epochs ago
    have hlength : (lastOf 255 self.log).length = min 255 self.log.length := length_lastOf
    have hget : self.log[self.log.length - 255 + i]? = some (lastOf 255 self.log)[i] := by
      have hsome := List.getElem?_eq_getElem hi
      rw [← hsome, lastOf, List.getElem?_drop]
    rw [h.own _ _ hget (by omega), h.epochSeq]
    exact ofNat_ne (by omega) (by omega)

/-- A recording moves the log up and puts its epoch behind it. -/
theorem Numbered.record (h : Numbered self) (kind : EpochKind) (times : UInt64 × UInt64)
    (cfgHash reportHash : UInt64) (harmonyBefore harmonyAfter : HarmonyMetrics F)
    (tensionBefore tensionAfter latencyAvgBefore latencyAvgAfter : F)
    (hunclaimed : ∀ epoch ∈ self.staying, epoch.id ≠ self.epochSeq) :
    Numbered (self.step codec platform (.record kind times cfgHash reportHash harmonyBefore
      harmonyAfter tensionBefore tensionAfter latencyAvgBefore latencyAvgAfter)) := by
  obtain ⟨tail, hjournal, hsuffix, hdistinct⟩ := h.store
  obtain ⟨epoch, after, hstep, hid, hlog, hseq, hrecorded, hsnapshot, hemitted⟩ :=
    record_cases codec platform self kind times cfgHash reportHash harmonyBefore harmonyAfter
      tensionBefore tensionAfter latencyAvgBefore latencyAvgAfter
  rw [hstep]
  have hlength : (lastOf 255 self.log).length = min 255 self.log.length := length_lastOf
  -- The id of the new epoch is fresh.
  have hnodup : (after.log.map Epoch.id).Nodup := by
    rw [hlog, List.map_append, List.nodup_append']
    refine ⟨h.distinct.sublist ((lastOf_suffix 255 _).sublist.map _), List.nodup_singleton _, ?_⟩
    intro id hmem hlast
    obtain ⟨old, hold, rfl⟩ := List.mem_map.mp hmem
    rw [List.map_singleton, List.mem_singleton, hid] at hlast
    exact h.fresh hunclaimed hold hlast
  -- What a restart would make of the store ends the log.
  have hwhole : lastOf 256 (restoredEpochs self.state.snapshot ++ (tail ++ [epoch])) <:+ after.log := by
    have hlonger : lastOf 256 (restoredEpochs self.state.snapshot ++ tail) ++ [epoch] <:+
        self.log ++ [epoch] := by
      obtain ⟨front, hfront⟩ := hsuffix
      exact ⟨front, by rw [← List.append_assoc, hfront]⟩
    rw [← List.append_assoc, ← lastOf_lastOf_append, hlog, ← lastOf_concat 255 self.log]
    exact suffix_lastOf hlonger 256
  refine ⟨?_, ?_, fun i old hold hle => ?_, hnodup, tail ++ [epoch], ?_, ?_, fun n => ?_⟩
  · rw [hlog, List.length_append, List.length_singleton]
    omega
  · rw [hseq, hrecorded, h.epochSeq]
    exact (UInt64.ofNat_add _ 1).symm
  · rw [hlog, List.length_append, List.length_singleton] at hle ⊢
    rw [hlog] at hold
    rw [hrecorded] at hle ⊢
    by_cases hi : i < (lastOf 255 self.log).length
    · -- an epoch that moves up with the log
      rw [List.getElem?_append_left hi, lastOf, List.getElem?_drop] at hold
      rw [h.own _ old hold (by omega)]
      congr 1
      omega
    · -- the epoch that is recorded
      rw [List.getElem?_append_right (by omega)] at hold
      obtain ⟨hlt, hget⟩ := List.getElem?_eq_some_iff.mp hold
      rw [List.length_singleton] at hlt
      rw [← hget, List.getElem_singleton, hid, h.epochSeq]
      congr 1
      omega
  · rw [hemitted, hjournal, List.map_append]
    rfl
  · rw [hsnapshot]
    exact hwhole
  · rw [hsnapshot]
    by_cases hn : n ≤ tail.length
    · rw [List.take_append_of_le_length hn]
      exact hdistinct n
    · rw [List.take_of_length_le (by simp; omega)]
      exact hnodup.sublist (hwhole.sublist.map _)

/-- A snapshot keeps the newest 64 epochs, and the journal starts anew behind it. -/
theorem Numbered.snapshot (h : Numbered self) (visits : Visits F) :
    Numbered (self.step codec platform (.snapshot visits)) := by
  have hrestored : restoredEpochs (loadSnapshot codec (createSnapshot codec visits self.state.field)) =
      lastOf 64 self.log := loadSnapshot_mirror codec visits self.state.field
  have hpart : lastOf 64 self.log <:+ self.log := lastOf_suffix 64 _
  have hshort : lastOf 256 (lastOf 64 self.log) = lastOf 64 self.log := by
    refine lastOf_of_length_le ?_
    rw [length_lastOf]
    omega
  refine ⟨h.length_le, h.epochSeq, h.own, h.distinct, [], rfl, ?_, fun n => ?_⟩
  · show lastOf 256 (restoredEpochs (loadSnapshot codec _) ++ []) <:+ self.log
    rw [hrestored, List.append_nil, hshort]
    exact hpart
  · show ((lastOf 256 (restoredEpochs (loadSnapshot codec _) ++ _)).map Epoch.id).Nodup
    rw [hrestored, List.take_nil, List.append_nil, hshort]
    exact h.distinct.sublist (hpart.sublist.map _)

/-- **One step.** -/
theorem Numbered.step (h : Numbered self) {call : EpochStep F} (hunclaimed : self.Unclaimed call) :
    Numbered (self.step codec platform call) := by
  cases call with
  | record kind times cfgHash reportHash harmonyBefore harmonyAfter tensionBefore tensionAfter
      latencyAvgBefore latencyAvgAfter =>
      exact h.record kind times cfgHash reportHash harmonyBefore harmonyAfter tensionBefore
        tensionAfter latencyAvgBefore latencyAvgAfter hunclaimed
  | snapshot visits => exact h.snapshot visits
  | restart written =>
      obtain ⟨tail, hjournal, -, hdistinct⟩ := h.store
      show Numbered (start platform _ _)
      rw [hjournal, ← List.map_take]
      refine numbered_start platform _ _ fun n => ?_
      rw [List.take_take]
      exact hdistinct _

/-- One more step is made in the state reached by those before it. -/
theorem run_concat (steps : List (EpochStep F)) (call : EpochStep F) :
    run codec platform (steps ++ [call]) = (run codec platform steps).step codec platform call := by
  rw [run, List.foldl_append]
  rfl

/-- **A run.** -/
theorem numbered_run {steps : List (EpochStep F)} (h : ∀ before call after,
    steps = before ++ call :: after → (run codec platform before).Unclaimed call) :
    Numbered (run codec platform steps) := by
  induction steps using List.reverseRecOn with
  | nil =>
      refine numbered_start platform none [] fun n => ?_
      rw [List.take_nil, restoredEpochs, Option.elim_none, List.append_nil,
        lastOf_of_length_le (Nat.zero_le _)]
      exact List.nodup_nil
  | append_singleton steps call ih =>
      rw [run_concat]
      refine (ih fun before call' after hsteps => ?_).step (h steps call [] rfl)
      exact h before call' (after ++ [call]) (by simp [hsteps])

/-- **When the ids of epochs identify them.** In every state that a run passes through, no two epochs of
the log have one id, and `INTROSPECT EPOCH` and `replay_epoch_by_id` find each by its own, exactly when no
epoch is recorded under the id of one that the process found at its start and that stays in the log. -/
theorem epoch_ids_identify_iff (codec : SnapshotCodec F Bytes) (platform : Platform F)
    (steps : List (EpochStep F)) :
    (∀ before, before <+: steps → Identified platform (run codec platform before).state.field) ↔
      ∀ before call after, steps = before ++ call :: after →
        (run codec platform before).Unclaimed call := by
  constructor
  · rintro h before call after rfl
    have hnow := identified_iff.mp (h (before ++ [call]) ⟨after, by simp⟩)
    rw [run_concat] at hnow
    cases call with
    | record kind times cfgHash reportHash harmonyBefore harmonyAfter tensionBefore tensionAfter
        latencyAvgBefore latencyAvgAfter =>
        obtain ⟨epoch, after, hstep, hid, hlog, -⟩ :=
          record_cases codec platform (run codec platform before) kind times cfgHash reportHash
            harmonyBefore harmonyAfter tensionBefore tensionAfter latencyAvgBefore latencyAvgAfter
        rw [hstep] at hnow
        intro old hold heq
        have hnodup : (after.log.map Epoch.id).Nodup := hnow
        rw [hlog, List.map_append, List.nodup_append'] at hnodup
        refine hnodup.2.2 (List.mem_map_of_mem (List.mem_of_mem_take hold)) ?_
        rw [heq, List.map_singleton, hid]
        exact List.mem_singleton_self _
    | snapshot visits => trivial
    | restart written => trivial
  · rintro h before ⟨after, rfl⟩
    refine identified_iff.mpr (numbered_run fun before' call after' hsteps => ?_).distinct
    exact h before' call (after' ++ after) (by simp [hsteps])

/-- A dream's epoch, with nothing gained. -/
def idleEpoch : EpochStep ℚ := .record .dream (0, 1) 0 0 ⟨0, 0, 0⟩ ⟨0, 0, 0⟩ 0 0 0 0

/-- An epoch, a restart and an epoch: both get the id 1. -/
theorem not_identified_after_restart :
    ¬ Identified (ClusterField.constantPlatform ℚ 0.5)
      (run (ClusterField.plainCodec ℚ) (ClusterField.constantPlatform ℚ 0.5)
        [idleEpoch, .restart 1, idleEpoch]).state.field := by
  intro h
  have hids : (run (ClusterField.plainCodec ℚ) (ClusterField.constantPlatform ℚ 0.5)
      [idleEpoch, .restart 1, idleEpoch]).state.field.mirrorEpochs.map Epoch.id = [1, 1] := by
    decide +kernel
  have hnodup := h.1
  rw [hids] at hnodup
  exact absurd hnodup (by decide)

end EpochProcess

end LiminalDB
