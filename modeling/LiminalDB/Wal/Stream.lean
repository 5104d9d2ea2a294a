import LiminalDB.Wal.Store

/-! # Reading the log back: `WalStream`

The reader walks the segments listed when it was created. It keeps an index into that list, an open
file with a read cursor, and an offset of its own that it advances from segment to segment. `next`
returns the next record, the end of the log, or an error; `collect` is the loop of a caller that
stops at the first error, and its well-founded recursion is the proof that the reader ends on every
directory. -/

namespace LiminalDB

/-- A file opened for reading: its contents and the read cursor. -/
structure ReadHandle where
  /-- The bytes of the file. -/
  content : Bytes
  /-- The position of the next read. -/
  cursor : Nat

/-- What is left to read. -/
def ReadHandle.rest (file : ReadHandle) : Bytes := file.content.drop file.cursor

/-- `read_exact` for `n` bytes, or `none` at the end of the file. -/
def ReadHandle.readExact (file : ReadHandle) (n : Nat) : Option (Bytes × ReadHandle) :=
  if n ≤ file.rest.length then
    some (file.rest.take n, { file with cursor := file.cursor + n })
  else none

/-- The state of a reader. -/
structure WalStream where
  /-- The directory the segments are read from. -/
  dataDir : WalDir
  /-- The segment numbers listed when the reader was created. -/
  segments : List Nat
  /-- The index of the current segment. -/
  currentIdx : Nat
  /-- The open file, if any. -/
  file : Option ReadHandle
  /-- The byte position after the last record. -/
  position : Nat
  /-- The offset the reader has reached. -/
  offset : Offset

namespace WalStream

/-- `open_current`: open the first segment from the current index on that is not before the offset,
and move to the offset's position inside it. -/
def openCurrent (s : WalStream) : Except StoreError Unit × WalStream :=
  if h : s.currentIdx < s.segments.length then
    let segment := s.segments[s.currentIdx]
    match s.dataDir[segment]? with
    | some content =>
        if s.offset.segment > segment then
          openCurrent { s with currentIdx := s.currentIdx + 1 }
        else if s.offset.segment = segment ∧ s.offset.position > 0 then
          (.ok (), { s with
            position := s.offset.position
            file := some ⟨content, s.offset.position⟩
            offset := ⟨segment, 0⟩ })
        else
          (.ok (), { s with position := 0, file := some ⟨content, 0⟩, offset := ⟨segment, 0⟩ })
    | none =>
        if s.currentIdx + 1 ≥ s.segments.length then
          (.error (.segmentMissing segment), { s with currentIdx := s.currentIdx + 1 })
        else openCurrent { s with currentIdx := s.currentIdx + 1 }
  else (.ok (), s)
termination_by s.segments.length - s.currentIdx

/-- `WalStream::new`: start at the first segment that is not before the offset. -/
def new (dataDir : WalDir) (offset : Offset) : Except StoreError WalStream :=
  let segments := listSegments dataDir
  let startIdx := (segments.findIdx? (offset.segment ≤ ·)).getD (segments.length - 1)
  let stream : WalStream := ⟨dataDir, segments, startIdx, none, offset.position, offset⟩
  match stream.openCurrent with
  | (.ok (), stream) => .ok stream
  | (.error e, _) => .error e

/-- One frame from an open file: the record, the end of the file, or an error. -/
inductive FrameRead
  /-- No complete length prefix is left. -/
  | eof
  /-- The payload or its checksum is incomplete, or the checksum does not match. -/
  | error (e : StoreError)
  /-- A record, and the file after it. -/
  | record (payload : Bytes) (file : ReadHandle)

section

variable (crc32 : Bytes → UInt32)

/-- The part of `next` that reads one frame. -/
def readFrame (file : ReadHandle) : FrameRead :=
  match file.readExact 4 with
  | none => .eof
  | some (lenBuf, file) =>
      let len := fromLeBytes lenBuf
      match file.readExact len with
      | none => .error .unexpectedEof
      | some (payload, file) =>
          match file.readExact 4 with
          | none => .error .unexpectedEof
          | some (crcBuf, file) =>
              if (crc32 payload).toNat ≠ fromLeBytes crcBuf then .error .checksumMismatch
              else .record payload file

/-- How many loop iterations `next` can still make: two per segment, one of them to open it. -/
def iterations (s : WalStream) : Nat :=
  2 * (s.segments.length - s.currentIdx) + if s.file.isNone then 1 else 0

/-- Opening never goes back, and either finds a file or exhausts the segments. -/
theorem openCurrent_spec (s : WalStream) :
    (openCurrent s).2.segments = s.segments ∧ (openCurrent s).2.dataDir = s.dataDir ∧
      s.currentIdx ≤ (openCurrent s).2.currentIdx ∧
      ((openCurrent s).2.file.isSome ∨ (openCurrent s).2.file = s.file ∧
        s.segments.length ≤ (openCurrent s).2.currentIdx) := by
  fun_induction openCurrent s with
  | case1 s h segment content hfile hbefore ih =>
      obtain ⟨hseg, hdir, hidx, hopen⟩ := ih
      exact ⟨hseg, hdir, le_trans (Nat.le_succ _) hidx, hopen⟩
  | case2 s h segment content hfile hbefore hat => exact ⟨rfl, rfl, le_rfl, .inl rfl⟩
  | case3 s h segment content hfile hbefore hat => exact ⟨rfl, rfl, le_rfl, .inl rfl⟩
  | case4 s h segment hfile hlast => exact ⟨rfl, rfl, by simp, .inr ⟨rfl, hlast⟩⟩
  | case5 s h segment hfile hlast ih =>
      obtain ⟨hseg, hdir, hidx, hopen⟩ := ih
      exact ⟨hseg, hdir, le_trans (Nat.le_succ _) hidx, hopen⟩
  | case6 s h => exact ⟨rfl, rfl, le_rfl, .inr ⟨rfl, Nat.le_of_not_lt h⟩⟩

/-- Opening a segment uses up a loop iteration. -/
theorem iterations_openCurrent_lt {s : WalStream} (hfile : s.file = none)
    (hidx : ¬ s.currentIdx ≥ s.segments.length) :
    iterations (openCurrent s).2 < iterations s := by
  obtain ⟨hseg, -, hle, hopen⟩ := openCurrent_spec s
  unfold iterations
  rw [hseg, hfile]
  rcases hopen with hsome | ⟨hnone, hend⟩
  · have : (openCurrent s).2.file.isNone = false := by
      rw [← Option.not_isSome, hsome]; rfl
    simp only [this, Option.isNone_none, if_true, Bool.false_eq_true, if_false]
    omega
  · rw [hnone, hfile]
    simp only [Option.isNone_none, if_true]
    omega

/-- Passing the end of a file uses up a loop iteration. -/
theorem iterations_next_segment_lt {s : WalStream} {file : ReadHandle} (offset : Offset)
    (hfile : s.file = some file) (hidx : ¬ s.currentIdx + 1 ≥ s.segments.length) :
    iterations { s with currentIdx := s.currentIdx + 1, file := none, offset := offset }
      < iterations s := by
  simp only [iterations, hfile, Option.isNone_none, Option.isNone_some, if_true,
    Bool.false_eq_true, if_false]
  omega

/-- `Iterator::next`: the next item and the reader after it. -/
def next (s : WalStream) : Option (Except StoreError Bytes) × WalStream :=
  match _hfile : s.file with
  | none =>
      if _hidx : s.currentIdx ≥ s.segments.length then (none, s)
      else
        match _hopen : s.openCurrent with
        | (.error e, s') => (some (.error e), s')
        | (.ok (), s') => next s'
  | some file =>
      match readFrame crc32 file with
      | .eof =>
          let s' := { s with
            currentIdx := s.currentIdx + 1
            file := none
            offset := ⟨s.offset.segment + 1, 0⟩ }
          -- the first test of the next iteration, repeated here so that the recursion descends
          if _hidx : s.currentIdx + 1 ≥ s.segments.length then (none, s') else next s'
      | .error e => (some (.error e), s)
      | .record payload file' =>
          let position := s.position + recordSize payload
          (some (.ok payload), { s with
            file := some file'
            position := position
            offset := { s.offset with position := position } })
termination_by s.iterations
decreasing_by
  · have h := iterations_openCurrent_lt _hfile _hidx
    rw [_hopen] at h
    exact h
  · exact iterations_next_segment_lt _ _hfile _hidx

end

/-! ## The reader ends -/

/-- The length of a segment file. -/
def fileLength (s : WalStream) (segment : Nat) : Nat := (s.dataDir.getD segment []).length

/-- The bytes the reader has not consumed: the rest of the open file and all later segments. -/
def remaining (s : WalStream) : Nat :=
  match s.file with
  | some file =>
      file.rest.length + ((s.segments.drop (s.currentIdx + 1)).map s.fileLength).sum
  | none => ((s.segments.drop s.currentIdx).map s.fileLength).sum

/-- The bytes from the current segment on are those of the current segment and the later ones. -/
theorem sum_drop_currentIdx {s : WalStream} (h : s.currentIdx < s.segments.length) :
    ((s.segments.drop s.currentIdx).map s.fileLength).sum =
      s.fileLength s.segments[s.currentIdx] +
        ((s.segments.drop (s.currentIdx + 1)).map s.fileLength).sum := by
  rw [List.drop_eq_getElem_cons h, List.map_cons, List.sum_cons]

/-- The length of a segment is that of its file. -/
theorem fileLength_eq {s : WalStream} {segment : Nat} {content : Bytes}
    (h : s.dataDir[segment]? = some content) : s.fileLength segment = content.length := by
  rw [fileLength, Std.ExtTreeMap.getD_eq_getD_getElem?, h, Option.getD_some]

/-- Opening a file leaves no more to read than the segments promised. -/
theorem remaining_openCurrent_le (s : WalStream) (hfile : s.file = none) :
    remaining (openCurrent s).2 ≤ remaining s := by
  -- a segment before the offset and a segment without a file are skipped, with what they hold
  fun_induction openCurrent s with
  | case1 s h segment content hcontent hbefore ih =>
      refine le_trans (ih hfile) ?_
      simp only [remaining, hfile]
      rw [sum_drop_currentIdx h]
      exact Nat.le_add_left _ _
  | case2 s h segment content hcontent hbefore hat =>
      simp only [remaining, hfile]
      rw [sum_drop_currentIdx h, fileLength_eq hcontent]
      simp only [ReadHandle.rest, List.length_drop]
      exact Nat.add_le_add_right (Nat.sub_le _ _) _
  | case3 s h segment content hcontent hbefore hat =>
      simp only [remaining, hfile]
      rw [sum_drop_currentIdx h, fileLength_eq hcontent]
      simp only [ReadHandle.rest, List.drop_zero]
      exact le_rfl
  | case4 s h segment hmissing hlast =>
      simp only [remaining, hfile]
      rw [sum_drop_currentIdx h]
      exact Nat.le_add_left _ _
  | case5 s h segment hmissing hlast ih =>
      refine le_trans (ih hfile) ?_
      simp only [remaining, hfile]
      rw [sum_drop_currentIdx h]
      exact Nat.le_add_left _ _
  | case6 s h => exact le_rfl

/-- A successful read takes its bytes off the front of what is left. -/
theorem readExact_eq_some {file file' : ReadHandle} {n : Nat} {bytes : Bytes}
    (h : file.readExact n = some (bytes, file')) :
    bytes = file.rest.take n ∧ file'.content = file.content ∧ file'.cursor = file.cursor + n ∧
      n ≤ file.rest.length := by
  unfold ReadHandle.readExact at h
  split at h
  · cases h
    exact ⟨rfl, rfl, rfl, ‹_›⟩
  · cases h

/-- Reading bytes takes as many from what is left. -/
theorem rest_length_of_readExact {file file' : ReadHandle} {n : Nat} {bytes : Bytes}
    (h : file.readExact n = some (bytes, file')) : file'.rest.length + n = file.rest.length := by
  obtain ⟨-, hcontent, hcursor, hle⟩ := readExact_eq_some h
  simp only [ReadHandle.rest, hcontent, hcursor, List.length_drop] at hle ⊢
  omega

section

variable (crc32 : Bytes → UInt32)

/-- A record consumes its eight bytes of framing at least. -/
theorem rest_length_of_readFrame {file file' : ReadHandle} {payload : Bytes}
    (h : readFrame crc32 file = .record payload file') :
    file'.rest.length < file.rest.length := by
  unfold readFrame at h
  split at h
  · cases h
  · rename_i lenBuf file₁ hlen
    dsimp only at h
    split at h
    · cases h
    · rename_i payload' file₂ hpayload
      split at h
      · cases h
      · rename_i crcBuf file₃ hcrc
        split at h
        · cases h
        · cases h
          have h₁ := rest_length_of_readExact hlen
          have h₂ := rest_length_of_readExact hpayload
          have h₃ := rest_length_of_readExact hcrc
          omega

/-- Every record brings the reader closer to the end of the log. -/
theorem remaining_next_lt {s s' : WalStream} {payload : Bytes}
    (h : s.next crc32 = (some (.ok payload), s')) : s'.remaining < s.remaining := by
  fun_induction next crc32 s with
  | case1 s hfile hidx => cases h
  | case2 s hfile hidx e s₁ hopen => cases h
  | case3 s hfile hidx s₁ hopen ih =>
      have hle := remaining_openCurrent_le s hfile
      rw [hopen] at hle
      exact lt_of_lt_of_le (ih h) hle
  | case4 s file hfile hread s₁ hidx => cases h
  | case5 s file hfile hread s₁ hidx ih =>
      refine lt_of_lt_of_le (ih h) ?_
      simp only [remaining, hfile, s₁]
      exact Nat.le_add_left _ _
  | case6 s file hfile e hread => cases h
  | case7 s file hfile payload' file' hread position =>
      cases h
      have hlt := rest_length_of_readFrame crc32 hread
      simp only [remaining, hfile]
      exact Nat.add_lt_add_right hlt _

/-- The loop `for record in stream { let bytes = record?; .. }`: the records delivered, and the error
that stopped the loop, if any. -/
def collect (s : WalStream) : List Bytes × Option StoreError :=
  match _h : s.next crc32 with
  | (none, _) => ([], none)
  | (some (.error e), _) => ([], some e)
  | (some (.ok payload), s') => (payload :: (collect s').1, (collect s').2)
termination_by s.remaining
decreasing_by
  all_goals exact remaining_next_lt crc32 _h

end

end WalStream

/-- `Store::stream_from`, drained: the records from an offset on and the error that stopped the
reader, if any. -/
def Store.streamFrom (crc32 : Bytes → UInt32) (store : Store) (offset : Offset) :
    Except StoreError (List Bytes × Option StoreError) := do
  let stream ← WalStream.new store.dataDir offset
  return stream.collect crc32

end LiminalDB
