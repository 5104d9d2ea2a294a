import LiminalDB.Foundations.Crash
import LiminalDB.Ledger.Ledger

/-! # Replacing the snapshot, one file operation at a time

`snapshot_durability.rs` again, now with the states a crash can leave in the snapshot directory.
Renames and removals are atomic; the temporary file is written in two halves, each of which can be
cut off anywhere. `run_recoverSteps`, `run_replaceSteps` and `run_crashSafeSteps` say that complete
runs are the functions of `LiminalDB.Ledger.Ledger`. -/

namespace LiminalDB

namespace SnapDir

/-! ## The procedures -/

/-- `if backup.exists() { remove_file(backup) }` -/
def removeRollback : Procedure SnapDir :=
  .atomicIf (fun dir => dir.rollback.isSome) fun dir => { dir with rollback := none }

/-- `if temporary.exists() { remove_file(temporary) }` -/
def removeTemporary : Procedure SnapDir :=
  .atomicIf (fun dir => dir.temporary.isSome) fun dir => { dir with temporary := none }

/-- The snapshot is moved to the rollback file. -/
def moveAside (dir : SnapDir) : SnapDir := { dir with file := none, rollback := dir.file }

/-- The rollback file is moved back. -/
def putBack (dir : SnapDir) : SnapDir := { dir with file := dir.rollback, rollback := none }

/-- The temporary file is created, or truncated, and holds `written` so far. -/
def putTemporary (written : Bytes) (dir : SnapDir) : SnapDir :=
  { dir with temporary := some written }

/-- `written` has been added to the temporary file. -/
def extendTemporary (written : Bytes) (dir : SnapDir) : SnapDir :=
  { dir with temporary := dir.temporary.map (· ++ written) }

/-- What recovery does about the rollback file. -/
def settleRollback : Procedure SnapDir :=
  .branch (fun dir => dir.file.isSome) removeRollback
    (.atomicIf (fun dir => dir.rollback.isSome) putBack)

/-- `recover_interrupted_snapshot_replace`: a copy that was put aside is settled, then what was half
written is removed. -/
def recoverSteps : Procedure SnapDir := settleRollback.seq removeTemporary

/-- What a replacement does about the old snapshot. -/
def setAside : Procedure SnapDir :=
  .branch (fun dir => dir.file.isSome) (removeRollback.seq (.atomic moveAside)) .skip

/-- `rename(temporary, snapshot_path)`: the new file takes the place of the old one in one step. -/
def install : Procedure SnapDir :=
  .atomic fun dir => { dir with file := dir.temporary, temporary := none }

/-- `replace_snapshot_bytes_crash_safe`: recovery first, then the new file beside the old one, and then
the exchange of the two. -/
def replaceSteps (bytes : Bytes) : Procedure SnapDir :=
  let midpoint := bytes.length / 2
  recoverSteps
    |>.seq removeTemporary
    |>.seq (.writing putTemporary (bytes.take midpoint))
    |>.seq (.writing extendTemporary (bytes.drop midpoint))
    |>.seq setAside
    |>.seq install
    |>.seq removeRollback

/-- `write_snapshot_crash_safe`, given the bytes its `write_snapshot` is going to write, if it gets
that far. -/
def crashSafeSteps (encoded : Option Bytes) : Procedure SnapDir :=
  recoverSteps
    |>.seq (.atomicIf (fun dir => dir.file.isSome) moveAside)
    |>.seq (match encoded with
      | some bytes => (replaceSteps bytes).seq removeRollback
      | none => .atomicIf (fun dir => dir.file.isNone && dir.rollback.isSome) putBack)

/-! ## Complete runs -/

/-- Run to their end, the steps of the recovery are the function. -/
@[simp] theorem run_recoverSteps (dir : SnapDir) :
    recoverSteps.run dir = dir.recoverInterruptedSnapshotReplace := rfl

/-- So are those of the replacement. -/
@[simp] theorem run_replaceSteps (bytes : Bytes) (dir : SnapDir) :
    (replaceSteps bytes).run dir = dir.replaceSnapshotBytesCrashSafe bytes := rfl

/-- What `write_snapshot` is going to write. -/
def encodedBytes (env : Crates) (createdAtMs : UInt64) (ledger : Ledger) : Option Bytes :=
  (ledger.encodeSnapshot env createdAtMs).toOption.map Prod.fst

/-- The encoding of a snapshot does not look at the snapshot directory. -/
theorem encodeSnapshot_withSnap (env : Crates) (createdAtMs : UInt64) (ledger : Ledger)
    (snap : SnapDir) :
    Ledger.encodeSnapshot env createdAtMs { ledger with snap } =
      ledger.encodeSnapshot env createdAtMs := rfl

/-- So are those of writing a snapshot, recovery included. -/
theorem run_crashSafeSteps (env : Crates) (createdAtMs : UInt64) (ledger : Ledger) :
    (crashSafeSteps (encodedBytes env createdAtMs ledger)).run ledger.snap =
      (ledger.writeSnapshotCrashSafe env createdAtMs).2.snap := by
  unfold encodedBytes Ledger.writeSnapshotCrashSafe Ledger.writeSnapshot
  simp only [encodeSnapshot_withSnap]
  cases ledger.encodeSnapshot env createdAtMs with
  | error e =>
      obtain ⟨file, temporary, rollback⟩ := ledger.snap
      cases file <;> cases temporary <;> cases rollback <;> rfl
  | ok encoded =>
      obtain ⟨bytes, info⟩ := encoded
      simp [crashSafeSteps, removeRollback, Except.toOption]

/-! ## What a crash leaves -/

/-- The snapshot a directory holds: the installed one, else the one that was moved aside. -/
def snapshot (dir : SnapDir) : Option Bytes := dir.file.or dir.rollback

/-- Recovery keeps the snapshot and nothing else. -/
theorem recoverInterruptedSnapshotReplace_eq (dir : SnapDir) :
    dir.recoverInterruptedSnapshotReplace = { file := dir.snapshot } := by
  obtain ⟨file, temporary, rollback⟩ := dir
  cases file <;> cases temporary <;> cases rollback <;> rfl

/-- The directory holds one of two snapshots, whole. -/
def HoldsEither (old new : Option Bytes) (dir : SnapDir) : Prop :=
  dir.snapshot = old ∨ dir.snapshot = new

section Guarded

open Procedure

variable (old : Option Bytes)

/-- Where there is a snapshot, settling the rollback keeps it at every step and takes the rollback away. -/
theorem guarded_settleRollback :
    Guarded (fun dir => dir.snapshot = old) settleRollback (fun dir => dir.snapshot = old)
      (fun dir => dir.snapshot = old ∧ dir.rollback = none) := by
  refine .branch (.atomicIf (fun dir h => h.1) ?_ ?_) (.atomicIf (fun dir h => h.1) ?_ ?_)
  · rintro ⟨file, temporary, rollback⟩ ⟨rfl, hfile⟩ -
    obtain ⟨bytes, rfl⟩ := Option.isSome_iff_exists.mp hfile
    exact ⟨rfl, rfl, rfl⟩
  · rintro dir ⟨rfl, -⟩ hnone
    exact ⟨rfl, by simpa using hnone⟩
  · rintro ⟨file, temporary, rollback⟩ ⟨rfl, hfile⟩ -
    obtain rfl : file = none := by simpa using hfile
    simp [snapshot, putBack]
  · rintro dir ⟨rfl, -⟩ hnone
    exact ⟨rfl, by simpa using hnone⟩

/-- A stopped recovery has lost nothing. -/
theorem guarded_recoverSteps :
    Guarded (fun dir => dir.snapshot = old) recoverSteps (fun dir => dir.snapshot = old)
      (· = { file := old }) := by
  refine (guarded_settleRollback old).seq (.atomicIf (fun dir h => h.1) ?_ ?_)
  · rintro ⟨file, temporary, rollback⟩ ⟨rfl, rfl⟩ -
    simp [snapshot]
  · rintro ⟨file, temporary, rollback⟩ ⟨rfl, rfl⟩ htemporary
    obtain rfl : temporary = none := by simpa using htemporary
    simp [snapshot]

/-- The old file is set aside: at every step of this a recovery finds the old content or the new one. -/
theorem guarded_setAside (bytes : Bytes) :
    Guarded (· = { file := old, temporary := some bytes }) setAside
      (HoldsEither old (some bytes)) (· = { temporary := some bytes, rollback := old }) := by
  have hremove : Guarded
      (fun dir => dir = { file := old, temporary := some bytes } ∧ dir.file.isSome = true)
      removeRollback (HoldsEither old (some bytes))
      (· = { file := old, temporary := some bytes }) := by
    refine .atomicIf ?_ ?_ ?_
    all_goals
      rintro dir ⟨rfl, -⟩
      simp [HoldsEither, snapshot]
  refine .branch (hremove.seq (.atomic ?_)) (.skip ?_)
  · rintro dir rfl
    simp [HoldsEither, snapshot, moveAside]
  · rintro dir ⟨rfl, hfile⟩
    obtain rfl : old = none := by simpa using hfile
    simp [HoldsEither, snapshot]

/-- A stopped replacement has left the old snapshot or the new one, each of them whole. -/
theorem guarded_replaceSteps (bytes : Bytes) :
    Guarded (fun dir => dir.snapshot = old) (replaceSteps bytes) (HoldsEither old (some bytes))
      (· = { file := some bytes }) := by
  have hrecover : Guarded (fun dir => dir.snapshot = old) recoverSteps
      (HoldsEither old (some bytes)) (· = { file := old }) :=
    (guarded_recoverSteps old).imp (fun _ h => h) (fun _ h => .inl h) (fun _ h => h)
  have hclear : Guarded (· = { file := old }) removeTemporary (HoldsEither old (some bytes))
      (· = { file := old }) := by
    refine .atomicIf ?_ ?_ ?_
    all_goals
      rintro dir rfl
      simp [HoldsEither, snapshot]
  -- both halves go to the temporary file, which recovery throws away
  have hfirst : Guarded (· = { file := old })
      (.writing putTemporary (bytes.take (bytes.length / 2))) (HoldsEither old (some bytes))
      (· = { file := old, temporary := some (bytes.take (bytes.length / 2)) }) := by
    refine .writing ?_
    rintro dir rfl
    simp [HoldsEither, snapshot, putTemporary]
  have hsecond : Guarded
      (· = { file := old, temporary := some (bytes.take (bytes.length / 2)) })
      (.writing extendTemporary (bytes.drop (bytes.length / 2))) (HoldsEither old (some bytes))
      (· = { file := old, temporary := some bytes }) := by
    refine .writing ?_
    rintro dir rfl
    simp [HoldsEither, snapshot, extendTemporary]
  have hinstall : Guarded (· = { temporary := some bytes, rollback := old }) install
      (HoldsEither old (some bytes)) (· = { file := some bytes, rollback := old }) := by
    refine .atomic ?_
    rintro dir rfl
    simp [HoldsEither, snapshot]
  have hremove : Guarded (· = { file := some bytes, rollback := old }) removeRollback
      (HoldsEither old (some bytes)) (· = { file := some bytes }) := by
    refine .atomicIf ?_ ?_ ?_
    all_goals
      rintro dir rfl
      simp [HoldsEither, snapshot]
  exact hrecover.seq hclear |>.seq hfirst |>.seq hsecond |>.seq (guarded_setAside old bytes)
    |>.seq hinstall |>.seq hremove

/-- `write_snapshot_crash_safe` moves the snapshot aside first, which its inner replacement undoes;
where there is nothing to write, the old snapshot is put back. -/
theorem guarded_crashSafeSteps (encoded : Option Bytes) :
    Guarded (fun dir => dir.snapshot = old) (crashSafeSteps encoded) (HoldsEither old (encoded.or old))
      (· = { file := encoded.or old }) := by
  -- What an earlier crash has left is put right first.
  have hrecover : Guarded (fun dir => dir.snapshot = old) recoverSteps
      (HoldsEither old (encoded.or old)) (· = { file := old }) :=
    (guarded_recoverSteps old).imp (fun _ h => h) (fun _ h => .inl h) (fun _ h => h)
  -- The old file is moved aside, and a reader falls back on it.
  have haside : Guarded (· = { file := old }) (.atomicIf (fun dir => dir.file.isSome) moveAside)
      (HoldsEither old (encoded.or old)) (· = { rollback := old }) := by
    refine .atomicIf ?_ ?_ ?_
    all_goals rintro dir rfl
    · simp [HoldsEither, snapshot]
    · simp [HoldsEither, snapshot, moveAside]
    · intro hfile
      obtain rfl : old = none := by simpa using hfile
      rfl
  refine (hrecover.seq haside).seq ?_
  cases encoded with
  | some bytes =>
      have hreplace : Guarded (· = { rollback := old }) (replaceSteps bytes)
          (HoldsEither old (some bytes)) (· = { file := some bytes }) :=
        (guarded_replaceSteps old bytes).imp (by rintro dir rfl; rfl) (fun _ h => h)
          (fun _ h => h)
      refine hreplace.seq (.atomicIf ?_ ?_ ?_)
      all_goals
        rintro dir rfl
        simp [HoldsEither, snapshot]
  | none =>
      -- The new bytes could not be had: the old file is put back.
      refine .atomicIf ?_ ?_ ?_
      all_goals rintro dir rfl
      · simp [HoldsEither, snapshot]
      · simp [HoldsEither, snapshot, putBack]
      · cases old <;> simp

end Guarded

/-- A recovery that completes, after any number that did not, installs the snapshot the directory
held and removes the siblings. -/
theorem recover_of_interrupted {crashed stopped : SnapDir}
    (h : recoverSteps.Interrupted crashed stopped) :
    stopped.recoverInterruptedSnapshotReplace = { file := crashed.snapshot } := by
  have hkept : stopped.snapshot = crashed.snapshot :=
    (guarded_recoverSteps crashed.snapshot).interrupted rfl h
  rw [recoverInterruptedSnapshotReplace_eq, hkept]

/-- **Replacing the snapshot is crash safe.** Wherever a replacement of the snapshot by `bytes`, or a
`write_snapshot_crash_safe` of a ledger, is stopped, and however often the recovery itself is stopped
after that, a completed recovery leaves the complete old snapshot or the complete new one, and
nothing else, in the directory; recovering again changes nothing. -/
theorem snapshot_replacement_crash_safe (env : Crates) (createdAtMs : UInt64) (ledger : Ledger)
    (bytes : Bytes) (dir crashed stopped : SnapDir)
    (hstopped : recoverSteps.Interrupted crashed stopped) :
    (crashed ∈ (replaceSteps bytes).visits dir →
      stopped.recoverInterruptedSnapshotReplace = { file := dir.snapshot } ∨
      stopped.recoverInterruptedSnapshotReplace = { file := some bytes }) ∧
    (crashed ∈ (crashSafeSteps (encodedBytes env createdAtMs ledger)).visits dir →
      stopped.recoverInterruptedSnapshotReplace = { file := dir.snapshot } ∨
      ∃ new info, ledger.encodeSnapshot env createdAtMs = .ok (new, info) ∧
        stopped.recoverInterruptedSnapshotReplace = { file := some new }) ∧
    stopped.recoverInterruptedSnapshotReplace.recoverInterruptedSnapshotReplace =
      stopped.recoverInterruptedSnapshotReplace := by
  rw [recover_of_interrupted hstopped]
  refine ⟨fun hcrashed => ?_, fun hcrashed => ?_, ?_⟩
  · rcases (guarded_replaceSteps dir.snapshot bytes).of_visits rfl hcrashed with h | h
    · exact .inl (by rw [h])
    · exact .inr (by rw [h])
  · rcases (guarded_crashSafeSteps dir.snapshot _).of_visits rfl hcrashed with h | h
    · exact .inl (by rw [h])
    · unfold encodedBytes at h
      cases hencoded : ledger.encodeSnapshot env createdAtMs with
      | error e => exact .inl (by rw [h, hencoded]; rfl)
      | ok encoded => exact .inr ⟨encoded.1, encoded.2, rfl, by rw [h, hencoded]; rfl⟩
  · rw [recoverInterruptedSnapshotReplace_eq]
    simp [snapshot]

/-- The directory when a replacement stopped between its two renames. -/
theorem snapshot_replacement_crash_safe_between_renames :
    ({ temporary := some [2, 3], rollback := some [1] } : SnapDir) ∈
        (replaceSteps [2, 3]).visits { file := some [1] } ∧
      (({ temporary := some [2, 3], rollback := some [1] } : SnapDir)
          |>.recoverInterruptedSnapshotReplace) ∈
        ({{ file := some [1] }, { file := some [2, 3] }} : Set SnapDir) := by
  have hvisited : ({ temporary := some [2, 3], rollback := some [1] } : SnapDir) ∈
      (replaceSteps [2, 3]).visits { file := some [1] } :=
    .inl (.inr (Procedure.start_mem _ _))
  exact ⟨hvisited, (snapshot_replacement_crash_safe linkedCrates 0
    ⟨⟨⟨∅, defaultSegmentSize, 1, 0, 0⟩⟩, {}, .default, false⟩ [2, 3] _ _ _
    Relation.ReflTransGen.refl).1 hvisited⟩

end SnapDir

end LiminalDB
