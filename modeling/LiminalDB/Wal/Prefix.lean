import LiminalDB.Wal.Writer

/-! # The log before an offset

What lies before an offset: the segments before its own, and of its own the bytes before its position.
Cut there, a described directory is described by the records before the one the offset locates. -/

namespace LiminalDB

variable {crc32 : Bytes → UInt32}

/-- The files of a directory up to an offset. -/
def WalDir.before (offset : Offset) (dir : WalDir) : WalDir :=
  dir.filterMap fun segment content =>
    if segment < offset.segment then some content
    else if segment = offset.segment then some (content.take offset.position)
    else none

/-- The store as a reader would find it if the log ended at the offset. -/
def Store.before (offset : Offset) (store : Store) : Store :=
  ⟨{ store.writer with dataDir := WalDir.before offset store.dataDir }⟩

/-- Cutting the entry at position `i` of a list of files and dropping those behind it. -/
theorem Consecutive.before {dir : WalDir} {first : Nat} {earlier : List Bytes} {content : Bytes}
    {later : List Bytes} (h : Consecutive dir first (earlier ++ content :: later)) (position : Nat) :
    Consecutive (WalDir.before ⟨first + earlier.length, position⟩ dir) first
      (earlier ++ [content.take position]) := by
  intro n
  unfold WalDir.before
  rw [Std.ExtTreeMap.getElem?_filterMap', h n]
  by_cases hfirst : first ≤ n
  · rw [if_pos hfirst, if_pos hfirst]
    rcases lt_trichotomy n (first + earlier.length) with hlt | rfl | hgt
    · rw [List.getElem?_append_left (by omega), List.getElem?_append_left (by omega)]
      simp [hlt]
    · simp
    · rw [List.getElem?_eq_none (l := earlier ++ [_]) (by simp; omega)]
      cases (earlier ++ content :: later)[n - first]? with
      | none => rfl
      | some _ => simp [Nat.not_lt.mpr hgt.le, Nat.ne_of_gt hgt]
  · rw [if_neg hfirst, if_neg hfirst]
    rfl

namespace WalImage

variable (crc32) in
/-- The segments in front of another one are plain concatenations of frames. -/
theorem files_append_cons (tail : Tail) (before : List (List Bytes)) (current : List Bytes)
    (later : List (List Bytes)) :
    files crc32 tail (before ++ current :: later) =
      before.map (frames crc32) ++ files crc32 tail (current :: later) := by
  induction before with
  | nil => rfl
  | cons ps rest ih =>
      cases rest with
      | nil => rfl
      | cons next more => simpa [files] using ih

/-- **The log before an offset** that locates the `k`-th record is the log of the first `k`. -/
theorem Describes.before {img : WalImage} {dir : WalDir} (h : img.Describes crc32 dir)
    {offset : Offset} {k : Nat} (hloc : img.Locates crc32 offset k) :
    ∃ cut : WalImage, cut.Describes crc32 (WalDir.before offset dir) ∧ cut.first = img.first ∧
      cut.tail = .clean ∧ cut.records = img.records.take k := by
  obtain ⟨before, current, later, done, rest, hsegs, rfl, rfl, rfl⟩ := hloc
  have hrecords : img.records = before.flatten ++ (done ++ rest) ++ later.flatten := by
    have hf := congrArg List.flatten hsegs
    simpa [records] using hf
  refine ⟨⟨img.first, before, done, .clean⟩, ?_, rfl, rfl, ?_⟩
  · -- the file of the offset's segment starts with the frames before the offset
    obtain ⟨more, after, hfiles⟩ : ∃ more after, img.contents crc32 =
        before.map (frames crc32) ++ (frames crc32 done ++ more) :: after := by
      rw [contents, hsegs, files_append_cons]
      cases later with
      | nil => exact ⟨_, [], by rw [files_singleton, frames_append, List.append_assoc]⟩
      | cons next more => exact ⟨_, _, by rw [files, frames_append]⟩
    have hdir : Consecutive dir img.first (img.contents crc32) := h
    rw [hfiles] at hdir
    have hcut := hdir.before (frames crc32 done).length
    rw [List.length_map, List.take_left] at hcut
    show Consecutive _ _ _
    rw [contents_eq]
    simpa [Tail.bytes] using hcut
  · rw [hrecords, List.append_assoc, List.append_assoc, ← List.append_assoc,
      ← List.length_append, List.take_left]
    rfl

end WalImage

/-- Reading the log before an offset from its start. -/
theorem Store.Represents.streamFrom_before {store : Store} {img : WalImage}
    (h : store.Represents crc32 img) (hfirst : img.first = 1) {offset : Offset} {k : Nat}
    (hloc : img.Locates crc32 offset k) :
    (store.before offset).streamFrom crc32 Offset.start = .ok (img.records.take k, none) := by
  obtain ⟨cut, hcut, hcutFirst, hclean, hrecords⟩ := h.describes.before hloc
  have hframable : cut.Framable := by
    refine ⟨fun p hp => h.framable.1 p ?_, by rw [hclean]; trivial⟩
    rw [hrecords] at hp
    exact List.mem_of_mem_take hp
  have hstart := cut.locates_start crc32 (hcutFirst.trans hfirst)
  have hread : (store.before offset).streamFrom crc32 Offset.start =
      .ok (cut.records.drop 0, cut.tail.readError) :=
    WalImage.Describes.streamFrom_eq crc32 hcut hframable hstart
  rw [hread, hclean, hrecords]
  rfl

end LiminalDB
