import LiminalDB.Foundations.Consecutive
import LiminalDB.Wal.Frames

/-! # The log as a list of records

The abstract view of a data directory: the records of the finished segments, those of the active
one, and what a failed append left behind them. `WalImage.Describes` connects it to the files. Here
the reader is computed on a described directory: from an offset that `Locates` the `k`-th record it
delivers exactly the records from the `k`-th on, across every segment boundary. -/

namespace LiminalDB

/-- The contents of a log. -/
structure WalImage where
  /-- The number of the oldest segment. -/
  first : Nat
  /-- The records of the finished segments, oldest first. -/
  closed : List (List Bytes)
  /-- The records of the active segment. -/
  active : List Bytes
  /-- What follows the last complete frame. -/
  tail : Tail

namespace WalImage

/-- All complete records, in order. -/
def records (img : WalImage) : List Bytes := img.closed.flatten ++ img.active

/-- The number of the active segment. -/
def segment (img : WalImage) : Nat := img.first + img.closed.length

/-- The empty log of a new root: one empty segment. -/
def empty : WalImage := ⟨1, [], [], .clean⟩

variable (crc32 : Bytes → UInt32)

/-- The files of a list of segments; the tail follows the last one. -/
def files (tail : Tail) : List (List Bytes) → List Bytes
  | [] => []
  | [ps] => [frames crc32 ps ++ tail.bytes]
  | ps :: next :: later => frames crc32 ps :: files tail (next :: later)

/-- The segment files of the log. -/
def contents (img : WalImage) : List Bytes := files crc32 img.tail (img.closed ++ [img.active])

/-- The number of bytes of complete frames in the active segment. -/
def size (img : WalImage) : Nat := (frames crc32 img.active).length

/-- The directory holds exactly the files of the log. -/
def Describes (img : WalImage) (dir : WalDir) : Prop :=
  Consecutive dir img.first (img.contents crc32)

/-- The offset is the start of the `k`-th record, or the end of a segment right before it. -/
def Locates (img : WalImage) (offset : Offset) (k : Nat) : Prop :=
  ∃ before current later done rest,
    img.closed ++ [img.active] = before ++ current :: later ∧ current = done ++ rest ∧
    offset = ⟨img.first + before.length, (frames crc32 done).length⟩ ∧
    k = before.flatten.length + done.length

/-- Every record can be framed: its length fits the 32-bit prefix. -/
def Framable (img : WalImage) : Prop := (∀ p ∈ img.records, p.length < 2 ^ 32) ∧ img.tail.Fits

/-- One segment is one file, with the tail behind its frames. -/
@[simp] theorem files_singleton (tail : Tail) (ps : List Bytes) :
    files crc32 tail [ps] = [frames crc32 ps ++ tail.bytes] := rfl

/-- There are as many files as segments. -/
@[simp] theorem length_files (tail : Tail) (segs : List (List Bytes)) :
    (files crc32 tail segs).length = segs.length := by
  fun_induction files crc32 tail segs with
  | case1 => rfl
  | case2 ps => rfl
  | case3 ps next later ih => simp [ih]

/-- The finished segments are plain concatenations of frames. -/
theorem files_append_singleton (tail : Tail) (closed : List (List Bytes)) (active : List Bytes) :
    files crc32 tail (closed ++ [active]) =
      closed.map (frames crc32) ++ [frames crc32 active ++ tail.bytes] := by
  induction closed with
  | nil => rfl
  | cons ps rest ih =>
      cases rest with
      | nil => rfl
      | cons next later => simpa [files] using ih

/-- The closed segments come before the active one, which has the tail. -/
theorem contents_eq (img : WalImage) :
    img.contents crc32 =
      img.closed.map (frames crc32) ++ [frames crc32 img.active ++ img.tail.bytes] :=
  files_append_singleton crc32 img.tail img.closed img.active

/-- There is one file more than there are closed segments. -/
@[simp] theorem length_contents (img : WalImage) :
    (img.contents crc32).length = img.closed.length + 1 := by
  simp [contents]

end WalImage

/-! ## The reader inside a segment -/

section Reader

variable (crc32 : Bytes → UInt32)

/-- `collect` depends on the reader only through its next item. -/
theorem collect_eq (s : WalStream) :
    s.collect crc32 =
      match s.next crc32 with
      | (none, _) => ([], none)
      | (some (.error e), _) => ([], some e)
      | (some (.ok payload), s') =>
          (payload :: (s'.collect crc32).1, (s'.collect crc32).2) := by
  rw [WalStream.collect]
  split <;> rename_i heq <;> simp only [heq]

/-- `next` with a file open: what it does is decided by the frame it reads. -/
theorem next_of_file {s : WalStream} {file : ReadHandle} (h : s.file = some file) :
    s.next crc32 =
      match WalStream.readFrame crc32 file with
      | .eof =>
          if s.currentIdx + 1 ≥ s.segments.length then
            (none, { s with
              currentIdx := s.currentIdx + 1, file := none, offset := ⟨s.offset.segment + 1, 0⟩ })
          else
            WalStream.next crc32 { s with
              currentIdx := s.currentIdx + 1, file := none, offset := ⟨s.offset.segment + 1, 0⟩ }
      | .error e => (some (.error e), s)
      | .record payload file' =>
          (some (.ok payload), { s with
            file := some file'
            position := s.position + recordSize payload
            offset := { s.offset with position := s.position + recordSize payload } }) := by
  rw [WalStream.next]
  split
  · rename_i hnone
    rw [h] at hnone
    cases hnone
  · rename_i file₀ hsome
    rw [h] at hsome
    cases hsome
    -- only the end of the file leads to another iteration
    cases WalStream.readFrame crc32 file with
    | eof => simp only [dite_eq_ite]
    | error e => rfl
    | record payload file' => rfl

/-- `next` with no file open goes through `open_current`. -/
theorem next_of_no_file {s s' : WalStream} (h : s.file = none)
    (hidx : s.currentIdx < s.segments.length) (hopen : s.openCurrent = (.ok (), s')) :
    s.next crc32 = s'.next crc32 := by
  rw [WalStream.next]
  split
  · rw [dif_neg (by omega)]
    split
    · rename_i heq
      rw [hopen] at heq
      cases heq
    · rename_i heq
      rw [hopen] at heq
      cases heq
      rfl
  · rename_i hsome
    rw [h] at hsome
    cases hsome

/-- `open_current` at the segment of the reader's offset opens it at the offset's position. -/
theorem openCurrent_at {s : WalStream} {segment : Nat} {content : Bytes}
    (hseg : s.segments[s.currentIdx]? = some segment)
    (hcontent : s.dataDir[segment]? = some content) (hoff : s.offset.segment = segment) :
    s.openCurrent = (.ok (), { s with
      position := s.offset.position
      file := some ⟨content, s.offset.position⟩
      offset := ⟨segment, 0⟩ }) := by
  obtain ⟨hidx, hget⟩ := List.getElem?_eq_some_iff.mp hseg
  rw [WalStream.openCurrent, dif_pos hidx]
  simp only [hget, hcontent, hoff, gt_iff_lt, Nat.lt_irrefl, if_false, true_and]
  -- position zero is opened at zero, which is the same place
  by_cases hpos : 0 < s.offset.position
  · rw [if_pos hpos]
  · have hzero : s.offset.position = 0 := by omega
    rw [if_neg hpos, hzero]

/-- The reader is inside segment number `first + i`, with `file` open. -/
structure InSegment (s : WalStream) (dir : WalDir) (first n i : Nat) (file : ReadHandle) : Prop where
  /-- The directory it reads. -/
  dir_eq : s.dataDir = dir
  /-- The segments it has listed. -/
  segments_eq : s.segments = List.range' first n
  /-- Its current index. -/
  idx_eq : s.currentIdx = i
  /-- Its open file. -/
  file_eq : s.file = some file
  /-- Its own offset is in the same segment. -/
  offset_eq : s.offset.segment = first + i

variable {crc32} {s : WalStream} {dir : WalDir} {first n i : Nat} {file : ReadHandle}

/-- Reading the frames that are next in the file. -/
theorem InSegment.collect_frames (h : InSegment s dir first n i file) {ps : List Bytes}
    {more : Bytes} (hlen : ∀ p ∈ ps, p.length < 2 ^ 32)
    (hrest : file.rest = frames crc32 ps ++ more) :
    ∃ s' file', InSegment s' dir first n i file' ∧ file'.rest = more ∧
      s.collect crc32 = (ps ++ (s'.collect crc32).1, (s'.collect crc32).2) := by
  induction ps generalizing s file with
  | nil => exact ⟨s, file, h, hrest, rfl⟩
  | cons p rest ih =>
      rw [frames_cons, List.append_assoc] at hrest
      have hread := readFrame_frame crc32 (hlen p List.mem_cons_self) hrest
      have hrest' := rest_advance hrest
      rw [length_frame] at hrest'
      -- the reader after this record
      obtain ⟨s', file', hs', hfile', hcollect⟩ := ih
        (s := { s with
          file := some { file with cursor := file.cursor + recordSize p }
          position := s.position + recordSize p
          offset := { s.offset with position := s.position + recordSize p } })
        ⟨h.dir_eq, h.segments_eq, h.idx_eq, rfl, h.offset_eq⟩
        (fun q hq => hlen q (List.mem_cons_of_mem _ hq)) hrest'
      refine ⟨s', file', hs', hfile', ?_⟩
      rw [collect_eq, next_of_file crc32 h.file_eq, hread]
      simp only [hcollect, List.cons_append]

/-- At the end of a segment that is not the last one the reader moves to the start of the next. -/
theorem InSegment.collect_next_segment (h : InSegment s dir first n i file)
    (hrest : file.rest = []) (hi : i + 1 < n) {content : Bytes}
    (hcontent : dir[first + (i + 1)]? = some content) :
    ∃ s', InSegment s' dir first n (i + 1) ⟨content, 0⟩ ∧ s.collect crc32 = s'.collect crc32 := by
  have hread : WalStream.readFrame crc32 file = .eof := readFrame_eof crc32 (by rw [hrest]; simp)
  have hlen : s.segments.length = n := by rw [h.segments_eq, List.length_range']
  -- the reader between the two segments, with its offset already in the next one
  let between : WalStream := { s with
    currentIdx := s.currentIdx + 1, file := none, offset := ⟨s.offset.segment + 1, 0⟩ }
  have hidx : between.currentIdx < between.segments.length := by
    show s.currentIdx + 1 < s.segments.length
    rw [hlen, h.idx_eq]; exact hi
  have hseg : between.segments[between.currentIdx]? = some (first + (i + 1)) := by
    show s.segments[s.currentIdx + 1]? = _
    rw [h.segments_eq, h.idx_eq, List.getElem?_range' hi, Nat.one_mul]
  have hdir : between.dataDir[first + (i + 1)]? = some content := by
    show s.dataDir[first + (i + 1)]? = _
    rw [h.dir_eq]; exact hcontent
  have hoff : between.offset.segment = first + (i + 1) := by
    show s.offset.segment + 1 = _
    rw [h.offset_eq, Nat.add_assoc]
  have hopen := openCurrent_at hseg hdir hoff
  have hmore : ¬ s.currentIdx + 1 ≥ s.segments.length := by rw [hlen, h.idx_eq]; omega
  refine ⟨{ between with
    position := 0, file := some ⟨content, 0⟩, offset := ⟨first + (i + 1), 0⟩ },
    ⟨h.dir_eq, h.segments_eq, congrArg (· + 1) h.idx_eq, rfl, rfl⟩, ?_⟩
  rw [collect_eq, next_of_file crc32 h.file_eq, hread]
  simp only [hmore, if_false]
  rw [next_of_no_file crc32 rfl hidx hopen, ← collect_eq]

/-- At the end of the last segment the log ends, or the reader trips over a torn record. -/
theorem InSegment.collect_tail (h : InSegment s dir first n i file) {tail : Tail}
    (hfits : tail.Fits) (hrest : file.rest = tail.bytes) (hi : n ≤ i + 1) :
    s.collect crc32 = ([], tail.readError) := by
  have hlen : s.segments.length = n := by rw [h.segments_eq, List.length_range']
  cases he : tail.readError with
  | none =>
      have hclean : tail.bytes = [] := by
        cases tail with
        | clean => rfl
        | lengthOnly payload => cases he
        | noChecksum payload => cases he
      have hread : WalStream.readFrame crc32 file = .eof :=
        readFrame_eof crc32 (by rw [hrest, hclean]; simp)
      have hlast : s.currentIdx + 1 ≥ s.segments.length := by rw [hlen, h.idx_eq]; omega
      rw [collect_eq, next_of_file crc32 h.file_eq, hread]
      simp only [hlast, if_true]
  | some e =>
      rw [collect_eq, next_of_file crc32 h.file_eq, readFrame_tail crc32 hfits he hrest]

/-- **Reading a log.** From inside a segment, with the frames of `ps` before it and the segments
`later` after that, the reader delivers `ps` and all records of `later`, and ends as the tail says. -/
theorem InSegment.collect_segments {tail : Tail} (hfits : tail.Fits) {later : List (List Bytes)}
    (h : InSegment s dir first n i file) {ps : List Bytes}
    (hlen : ∀ p ∈ ps ++ later.flatten, p.length < 2 ^ 32) (hn : n = i + 1 + later.length)
    (hrest : file.rest = frames crc32 ps ++ if later = [] then tail.bytes else [])
    (hlater : ∀ j, dir[first + (i + 1) + j]? = (WalImage.files crc32 tail later)[j]?) :
    s.collect crc32 = (ps ++ later.flatten, tail.readError) := by
  -- induction on the segments after the current one
  induction later generalizing s i file ps with
  | nil =>
      obtain ⟨s', file', hs', hfile', hcollect⟩ :=
        h.collect_frames (fun p hp => hlen p (List.mem_append_left _ hp)) hrest
      have htail : file'.rest = tail.bytes := hfile'
      rw [hcollect, hs'.collect_tail hfits htail (by simp at hn; omega)]
      simp
  | cons next rest ih =>
      obtain ⟨s', file', hs', hfile', hcollect⟩ :=
        h.collect_frames (fun p hp => hlen p (List.mem_append_left _ hp)) hrest
      have hempty : file'.rest = [] := by simpa using hfile'
      have hcontent : dir[first + (i + 1)]? =
          some (frames crc32 next ++ if rest = [] then tail.bytes else []) := by
        have h₀ := hlater 0
        cases rest with
        | nil => simpa [WalImage.files] using h₀
        | cons _ _ => simpa [WalImage.files] using h₀
      obtain ⟨s'', hs'', hnext⟩ :=
        hs'.collect_next_segment hempty (by simp at hn; omega) hcontent
      have hlater' : ∀ j, dir[first + (i + 1 + 1) + j]? = (WalImage.files crc32 tail rest)[j]? := by
        intro j
        have hj := hlater (j + 1)
        rw [show first + (i + 1) + (j + 1) = first + (i + 1 + 1) + j by omega] at hj
        rw [hj]
        cases rest with
        | nil => simp [WalImage.files]
        | cons _ _ => simp [WalImage.files]
      have hlen' : ∀ p ∈ next ++ rest.flatten, p.length < 2 ^ 32 :=
        fun p hp => hlen p (List.mem_append_right _ (by simpa using hp))
      have hrec := ih hs'' hlen' (by simp at hn ⊢; omega) rfl hlater'
      rw [hcollect, hnext, hrec, List.flatten_cons]

end Reader

/-! ## Opening a reader -/

/-- A directory of consecutive segments lists them in order. -/
theorem listSegments_eq {dir : WalDir} {first n : Nat} {cs : List Bytes}
    (h : Consecutive dir first cs) (hn : cs.length = n + 1) :
    listSegments dir = List.range' first (n + 1) := by
  have hkeys := h.keys_eq
  rw [hn] at hkeys
  rw [listSegments, hkeys, if_neg (by simp)]

/-- Opening a reader at an offset inside a directory of consecutive segments. -/
theorem WalStream.new_eq {dir : WalDir} {first n : Nat} {cs : List Bytes}
    (h : Consecutive dir first cs) (hn : cs.length = n + 1) {i : Nat} {content : Bytes}
    (hcontent : dir[first + i]? = some content) (hi : i < n + 1) (position : Nat) :
    ∃ s, WalStream.new dir ⟨first + i, position⟩ = .ok s ∧
      InSegment s dir first (n + 1) i ⟨content, position⟩ := by
  -- the first segment that is not before the offset's is the offset's own
  have hfind : (List.range' first (n + 1)).findIdx? (first + i ≤ ·) = some i := by
    rw [List.findIdx?_eq_some_iff_getElem]
    refine ⟨by simpa using hi, by simp, fun j hj => by simp; omega⟩
  unfold WalStream.new
  simp only [listSegments_eq h hn, hfind, Option.getD_some]
  rw [openCurrent_at (List.getElem?_range' hi) (by simpa using hcontent) (by simp)]
  exact ⟨_, rfl, rfl, rfl, rfl, rfl, by simp⟩

/-! ## Reading from an offset -/

namespace WalImage

variable (crc32 : Bytes → UInt32)

/-- The file of a segment in the middle of the list. -/
theorem files_getElem? (tail : Tail) (before : List (List Bytes)) (current : List Bytes)
    (later : List (List Bytes)) :
    (files crc32 tail (before ++ current :: later))[before.length]? =
      some (frames crc32 current ++ if later = [] then tail.bytes else []) := by
  induction before with
  | nil =>
      cases later with
      | nil => simp
      | cons _ _ => simp [files]
  | cons ps rest ih =>
      cases rest with
      | nil => simpa [files] using ih
      | cons _ _ => simpa [files] using ih

/-- The files after a segment in the middle of the list. -/
theorem files_getElem?_later (tail : Tail) (before : List (List Bytes)) (current : List Bytes)
    (later : List (List Bytes)) (j : Nat) :
    (files crc32 tail (before ++ current :: later))[before.length + 1 + j]? =
      (files crc32 tail later)[j]? := by
  induction before with
  | nil =>
      cases later with
      | nil => simp
      | cons _ _ => simp [files, Nat.add_comm 1 j]
  | cons ps rest ih =>
      have hidx : (ps :: rest).length + 1 + j = (rest.length + 1 + j) + 1 := by simp; omega
      rw [hidx]
      cases rest with
      | nil => simpa [files] using ih
      | cons _ _ => simpa [files] using ih

/-- **Reading from an offset.** On a described directory, an offset that locates the `k`-th record
yields exactly the records from the `k`-th on, and then what the tail says. -/
theorem Describes.streamFrom_eq {img : WalImage} {store : Store}
    (h : img.Describes crc32 store.dataDir) (hframable : img.Framable) {offset : Offset} {k : Nat}
    (hloc : img.Locates crc32 offset k) :
    store.streamFrom crc32 offset = .ok (img.records.drop k, img.tail.readError) := by
  -- the offset is behind the frames of `done`, in the segment behind those of `before`
  obtain ⟨before, current, later, done, rest, hsegs, rfl, rfl, rfl⟩ := hloc
  have hcontents : img.contents crc32 = files crc32 img.tail (before ++ (done ++ rest) :: later) := by
    rw [contents, hsegs]
  have hlength : img.closed.length + 1 = before.length + 1 + later.length := by
    have hl := congrArg List.length hsegs
    simp at hl
    omega
  have hrecords : img.records = before.flatten ++ (done ++ rest) ++ later.flatten := by
    have hf := congrArg List.flatten hsegs
    simpa [records] using hf
  have hget : store.dataDir[img.first + before.length]? =
      some (frames crc32 (done ++ rest) ++ if later = [] then img.tail.bytes else []) := by
    rw [h.getElem?, hcontents, files_getElem?]
  obtain ⟨s, hnew, hs⟩ := WalStream.new_eq h (img.length_contents crc32) hget (by omega)
    (frames crc32 done).length
  have hlen : ∀ p ∈ rest ++ later.flatten, p.length < 2 ^ 32 := by
    intro p hp
    refine hframable.1 p ?_
    rw [hrecords]
    simp only [List.mem_append] at hp ⊢
    tauto
  have hrest : ReadHandle.rest
      ⟨frames crc32 (done ++ rest) ++ if later = [] then img.tail.bytes else [],
        (frames crc32 done).length⟩ =
      frames crc32 rest ++ if later = [] then img.tail.bytes else [] := by
    simp only [ReadHandle.rest, frames_append, List.append_assoc, List.drop_left]
  have hlater : ∀ j, store.dataDir[img.first + (before.length + 1) + j]? =
      (files crc32 img.tail later)[j]? := by
    intro j
    rw [Nat.add_assoc, h.getElem?, hcontents, files_getElem?_later]
  have hcollect := hs.collect_segments hframable.2 hlen hlength hrest hlater
  unfold Store.streamFrom
  rw [hnew]
  show Except.ok (s.collect crc32) = _
  rw [hcollect, hrecords]
  congr 2
  rw [← List.length_append, ← List.append_assoc, List.append_assoc, List.drop_left]

end WalImage

end LiminalDB
