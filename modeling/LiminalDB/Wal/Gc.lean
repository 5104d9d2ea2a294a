import LiminalDB.Wal.Runs
import Mathlib.Data.Prod.Lex
import Mathlib.Data.UInt

/-! # Removing old segments: `gc.rs`

`gc_compact` removes the segment files before an offset and keeps the active one. On the abstract log
it drops finished segments from the front (`WalImage.prune`), which commutes with everything else a
store does. A reader from an offset behind the cut runs in lockstep on the two directories, whatever
the bytes at its offset are (`Twin`). -/

namespace LiminalDB

/-! ## The order of offsets -/

/-- The derived `Ord` of the source: the segment first, then the position. -/
instance : LinearOrder Offset :=
  LinearOrder.lift' (fun offset : Offset => toLex (offset.segment, offset.position))
    fun a b h => by
      obtain ⟨a₁, a₂⟩ := a
      obtain ⟨b₁, b₂⟩ := b
      cases toLex.injective h
      rfl

/-- An offset is before another one if its segment is, or if the segment is the same and the position is
before. -/
theorem Offset.lt_iff {a b : Offset} :
    a < b ↔ a.segment < b.segment ∨ a.segment = b.segment ∧ a.position < b.position :=
  Prod.Lex.toLex_lt_toLex

/-- It is no later if its segment is earlier, or the same with a position that is no later. -/
theorem Offset.le_iff {a b : Offset} :
    a ≤ b ↔ a.segment < b.segment ∨ a.segment = b.segment ∧ a.position ≤ b.position :=
  Prod.Lex.toLex_le_toLex

/-- Then its segment is no later either. -/
theorem Offset.segment_le {a b : Offset} (h : a ≤ b) : a.segment ≤ b.segment := by
  rcases Offset.le_iff.mp h with hlt | ⟨heq, -⟩
  · exact hlt.le
  · exact heq.le

/-! ## The operation -/

/-- The loop of `gc_compact` over the listed segments. -/
def removeSegments (since : Offset) (current : Nat) : List Nat → WalDir → WalDir
  | [], dir => dir
  | segment :: segments, dir =>
      removeSegments since current segments
        (if segment < since.segment ∧ segment ≠ current then dir.erase segment else dir)

/-- `gc_compact`: remove the segments before the offset's, except the active one. -/
def Store.gcCompact (since : Offset) (store : Store) : Store :=
  ⟨{ store.writer with
    dataDir := removeSegments since store.writer.segment (listSegments store.dataDir)
      store.dataDir }⟩

/-- The loop removes the files it passes that are old enough. -/
theorem getElem?_removeSegments (since : Offset) (current : Nat) (segments : List Nat)
    (dir : WalDir) (n : Nat) :
    (removeSegments since current segments dir)[n]? =
      if n ∈ segments ∧ n < since.segment ∧ n ≠ current then none else dir[n]? := by
  induction segments generalizing dir with
  | nil => simp [removeSegments]
  | cons segment segments ih =>
      rw [removeSegments, ih]
      by_cases hold : segment < since.segment ∧ segment ≠ current
      · rw [if_pos hold, Std.ExtTreeMap.getElem?_erase]
        by_cases hn : segment = n
        · subst hn
          simp [hold]
        · simp [hn, Ne.symm hn]
      · rw [if_neg hold]
        by_cases hn : n = segment
        · subst hn
          simp [hold]
        · simp [hn]

/-- A file that is not listed is not there. -/
theorem getElem?_of_not_mem_listSegments {dir : WalDir} {n : Nat} (h : n ∉ listSegments dir) :
    dir[n]? = none := by
  have hkeys : n ∉ dir.keys := by
    intro hmem
    rw [listSegments, if_neg (by intro hempty; simp [List.isEmpty_iff.mp hempty] at hmem)] at h
    exact h hmem
  rwa [Std.ExtTreeMap.mem_keys, Std.ExtTreeMap.mem_iff_isSome_getElem?, Bool.not_eq_true,
    Option.isSome_eq_false_iff, Option.isNone_iff_eq_none] at hkeys

/-- What is left in the directory. -/
theorem Store.getElem?_gcCompact (since : Offset) (store : Store) (n : Nat) :
    (store.gcCompact since).dataDir[n]? =
      if n < since.segment ∧ n ≠ store.writer.segment then none else store.dataDir[n]? := by
  show (removeSegments since store.writer.segment (listSegments store.dataDir)
    store.dataDir)[n]? = _
  rw [getElem?_removeSegments]
  by_cases hmem : n ∈ listSegments store.dataDir
  · simp [hmem]
  · rw [if_neg (fun h => hmem h.1), getElem?_of_not_mem_listSegments hmem, ite_self]

/-! ## Dropping finished segments -/

namespace WalImage

variable (crc32 : Bytes → UInt32)

/-- The log without its first `k` segments. -/
def prune (k : Nat) (img : WalImage) : WalImage :=
  { img with first := img.first + k, closed := img.closed.drop k }

/-- How many segments `gc_compact` removes: those before the offset, but never the active one. -/
def collected (since : Offset) (img : WalImage) : Nat :=
  min (since.segment - img.first) img.closed.length

variable {img : WalImage} {k : Nat}

/-- Deleting no segments leaves the image. -/
@[simp] theorem prune_zero (img : WalImage) : img.prune 0 = img := rfl

/-- Deleting some closed segments and then others is deleting all of them. -/
@[simp] theorem prune_prune (img : WalImage) (j k : Nat) :
    (img.prune j).prune k = img.prune (j + k) := by
  simp [prune, Nat.add_assoc, List.drop_drop]

/-- What was deleted was closed, so that the size of the active segment stays. -/
@[simp] theorem size_prune (img : WalImage) (k : Nat) : (img.prune k).size crc32 = img.size crc32 :=
  rfl

/-- Its number stays as well. -/
theorem segment_prune (h : k ≤ img.closed.length) : (img.prune k).segment = img.segment := by
  simp only [prune, segment, List.length_drop]
  omega

/-- Dropping segments does not move the end of the log. -/
theorem endOffset_prune (h : k ≤ img.closed.length) :
    (img.prune k).endOffset crc32 = img.endOffset crc32 := by
  rw [endOffset, segment_prune h, size_prune, endOffset]

/-- What the files hold is what they held, without those of the deleted segments. -/
theorem contents_prune (h : k ≤ img.closed.length) :
    (img.prune k).contents crc32 = (img.contents crc32).drop k := by
  rw [contents_eq, contents_eq, List.drop_append_of_le_length (by simpa using h)]
  simp [prune]

/-- The rotation test does not depend on the finished segments. -/
theorem prune_makeRoom (h : k ≤ img.closed.length) (rotation : UInt64) (payload : Bytes) :
    (img.prune k).makeRoom crc32 rotation payload = (img.makeRoom crc32 rotation payload).prune k := by
  unfold makeRoom
  rw [size_prune]
  split
  · simp [prune, List.drop_append_of_le_length h]
  · rfl

/-- The rotation test only adds finished segments. -/
theorem length_closed_makeRoom (img : WalImage) (rotation : UInt64) (payload : Bytes) :
    img.closed.length ≤ (img.makeRoom crc32 rotation payload).closed.length := by
  unfold makeRoom
  split
  · simp
  · exact le_rfl

/-- Dropping segments before an append is dropping them after it. -/
theorem prune_append (h : k ≤ img.closed.length) (rotation : UInt64) (payload : Bytes)
    (failpoint : AppendFailpoint) :
    (img.prune k).append crc32 rotation payload failpoint =
      (img.append crc32 rotation payload failpoint).prune k := by
  cases failpoint <;> simp only [append, prune_makeRoom crc32 h] <;> rfl

/-- An append closes a segment or none, and opens no closed one. -/
theorem length_closed_append (img : WalImage) (rotation : UInt64) (payload : Bytes)
    (failpoint : AppendFailpoint) :
    img.closed.length ≤ (img.append crc32 rotation payload failpoint).closed.length := by
  cases failpoint with
  | beforeWrite => exact le_rfl
  | _ => exact length_closed_makeRoom crc32 img rotation payload

/-- Tearing the tail of the active segment and deleting closed ones may be done in either order. -/
theorem prune_tear (img : WalImage) (k : Nat) (tail : Tail) :
    (img.prune k).tear tail = (img.tear tail).prune k := rfl

/-- What is left are the records of the other closed segments and those of the active one. -/
theorem records_prune (img : WalImage) (k : Nat) :
    (img.prune k).records = (img.closed.drop k).flatten ++ img.active := rfl

/-- What is left was there before. -/
theorem mem_records_of_prune {p : Bytes} (h : p ∈ (img.prune k).records) : p ∈ img.records := by
  rw [records_prune, List.mem_append, List.mem_flatten] at h
  rw [records, List.mem_append, List.mem_flatten]
  rcases h with ⟨ps, hps, hp⟩ | hp
  · exact .inl ⟨ps, List.mem_of_mem_drop hps, hp⟩
  · exact .inr hp

/-- An offset that locates a record is in a segment that is there. -/
theorem Locates.segment_le {offset : Offset} {n : Nat} (h : img.Locates crc32 offset n) :
    offset.segment ≤ img.segment := by
  obtain ⟨before, current, later, done, rest, hsegs, -, rfl, -⟩ := h
  have hlen := congrArg List.length hsegs
  simp only [List.length_append, List.length_cons, List.length_nil] at hlen
  show img.first + before.length ≤ img.first + img.closed.length
  omega

/-- There are no more segments to collect than are closed. -/
theorem collected_le (img : WalImage) (since : Offset) : img.collected since ≤ img.closed.length :=
  Nat.min_le_right _ _

end WalImage

variable {crc32 : Bytes → UInt32}

namespace Store.Represents

variable {store : Store} {img : WalImage}

/-- **Collecting.** `gc_compact` drops the finished segments before the offset from the log, and
nothing else. -/
theorem gcCompact (h : store.Represents crc32 img) (since : Offset) :
    (store.gcCompact since).Represents crc32 (img.prune (img.collected since)) := by
  have hle := img.collected_le since
  have hfiles : Consecutive store.dataDir img.first (img.contents crc32) := h.describes
  -- the removed files are the first ones: the active one is the last
  have hcut : ∀ n, (store.gcCompact since).dataDir[n]? =
      if n < img.first + img.collected since then none else store.dataDir[n]? := by
    intro n
    rw [getElem?_gcCompact, h.segment_eq]
    unfold WalImage.collected WalImage.segment
    by_cases hbefore : n < img.first
    · have hnone : store.dataDir[n]? = none := by rw [hfiles n, if_neg (by omega)]
      simp [hnone]
    · by_cases hold : n < since.segment ∧ n ≠ img.first + img.closed.length
      · rw [if_pos hold]
        split
        · rfl
        · -- beyond the active segment there is nothing
          rw [hfiles n, if_pos (by omega), List.getElem?_eq_none (by simp; omega)]
      · rw [if_neg hold, if_neg (by omega)]
  refine ⟨?_, ?_, h.size_eq, h.cursor_eq, ⟨?_, h.framable.2⟩, h.bounded⟩
  · show Consecutive (store.gcCompact since).dataDir _ _
    rw [WalImage.contents_prune crc32 hle]
    exact hfiles.drop hcut
  · exact h.segment_eq.trans (WalImage.segment_prune hle).symm
  · intro p hp
    exact h.framable.1 p (WalImage.mem_records_of_prune hp)

end Store.Represents

/-! ## Two readers in lockstep -/

namespace WalStream

/-- Two readers that have the same open file and, from there on, the same segments with the same
contents. Where the segments stand in their lists may differ. -/
structure Twin (s t : WalStream) : Prop where
  /-- The segments not passed yet. -/
  ahead_eq : s.segments.drop s.currentIdx = t.segments.drop t.currentIdx
  /-- Their contents. -/
  files_eq : ∀ n ∈ s.segments.drop s.currentIdx, s.dataDir[n]? = t.dataDir[n]?
  /-- The open file. -/
  file_eq : s.file = t.file
  /-- The position after the last record. -/
  position_eq : s.position = t.position
  /-- The offset reached. -/
  offset_eq : s.offset = t.offset

/-- `next` with no file open and no segment left. -/
theorem next_of_exhausted (crc32 : Bytes → UInt32) {s : WalStream} (h : s.file = none)
    (hidx : s.currentIdx ≥ s.segments.length) : s.next crc32 = (none, s) := by
  rw [WalStream.next]
  split
  · rw [dif_pos hidx]
  · rename_i hsome
    rw [h] at hsome
    cases hsome

/-- `next` with no file open reports what `open_current` does. -/
theorem next_of_open_error (crc32 : Bytes → UInt32) {s s' : WalStream} {e : StoreError}
    (h : s.file = none) (hidx : s.currentIdx < s.segments.length)
    (hopen : s.openCurrent = (.error e, s')) : s.next crc32 = (some (.error e), s') := by
  rw [WalStream.next]
  split
  · rw [dif_neg (by omega)]
    split
    · rename_i heq
      rw [hopen] at heq
      cases heq
      rfl
    · rename_i heq
      rw [hopen] at heq
      cases heq
  · rename_i hsome
    rw [h] at hsome
    cases hsome

namespace Twin

variable {s t : WalStream}

/-- Both have a current segment, or none has. -/
theorem idx_lt_iff (h : Twin s t) :
    s.currentIdx < s.segments.length ↔ t.currentIdx < t.segments.length := by
  have hlen := congrArg List.length h.ahead_eq
  rw [List.length_drop, List.length_drop] at hlen
  omega

/-- Both have a segment after the current one, or none has. -/
theorem next_idx_lt_iff (h : Twin s t) :
    s.currentIdx + 1 < s.segments.length ↔ t.currentIdx + 1 < t.segments.length := by
  have hlen := congrArg List.length h.ahead_eq
  rw [List.length_drop, List.length_drop] at hlen
  omega

/-- The current segment is the same. -/
theorem current_eq (h : Twin s t) (hs : s.currentIdx < s.segments.length)
    (ht : t.currentIdx < t.segments.length) :
    s.segments[s.currentIdx] = t.segments[t.currentIdx] := by
  have hhead := h.ahead_eq
  rw [List.drop_eq_getElem_cons hs, List.drop_eq_getElem_cons ht] at hhead
  exact (List.cons.inj hhead).1

/-- The current segment has the same contents. -/
theorem current_file_eq (h : Twin s t) (hs : s.currentIdx < s.segments.length) :
    s.dataDir[s.segments[s.currentIdx]]? = t.dataDir[s.segments[s.currentIdx]]? := by
  refine h.files_eq _ ?_
  rw [List.drop_eq_getElem_cons hs]
  exact List.mem_cons_self

/-- Passing the current segment, with the same file opened and the same offset reached. -/
theorem advance (h : Twin s t) {file : Option ReadHandle} {offset : Offset} :
    Twin { s with currentIdx := s.currentIdx + 1, file := file, offset := offset }
      { t with currentIdx := t.currentIdx + 1, file := file, offset := offset } := by
  refine ⟨?_, ?_, rfl, h.position_eq, rfl⟩
  · simpa [List.tail_drop] using congrArg List.tail h.ahead_eq
  · intro n hn
    refine h.files_eq n (List.mem_of_mem_drop (i := 1) ?_)
    simpa [List.drop_drop] using hn

/-- Passing the current segment without opening it. -/
theorem skip (h : Twin s t) :
    Twin { s with currentIdx := s.currentIdx + 1 } { t with currentIdx := t.currentIdx + 1 } := by
  have hnext : Twin
      { s with currentIdx := s.currentIdx + 1, file := s.file, offset := s.offset }
      { t with currentIdx := t.currentIdx + 1, file := s.file, offset := s.offset } := h.advance
  refine ⟨hnext.ahead_eq, hnext.files_eq, h.file_eq, h.position_eq, h.offset_eq⟩

/-- Opening a file leaves the segments ahead alone. -/
theorem opened (h : Twin s t) (file : Option ReadHandle) (position : Nat) (offset : Offset) :
    Twin { s with position := position, file := file, offset := offset }
      { t with position := position, file := file, offset := offset } :=
  ⟨h.ahead_eq, h.files_eq, rfl, rfl, rfl⟩

/-- `open_current` does the same to both. -/
theorem openCurrent (s : WalStream) :
    ∀ t, Twin s t → s.openCurrent.1 = t.openCurrent.1 ∧ Twin s.openCurrent.2 t.openCurrent.2 := by
  fun_induction WalStream.openCurrent s with
  | case1 s hs segment content hcontent hbefore ih =>
      intro t h
      -- the stream starts in a later segment
      have ht := h.idx_lt_iff.mp hs
      rw [WalStream.openCurrent.eq_def t, dif_pos ht]
      simp only [← h.current_eq hs ht, ← h.current_file_eq hs, segment, hcontent, ← h.offset_eq]
      rw [if_pos hbefore]
      exact ih _ ⟨h.skip.ahead_eq, h.skip.files_eq, h.file_eq, h.position_eq, rfl⟩
  | case2 s hs segment content hcontent hbefore hat =>
      intro t h
      -- it starts in this one, at its offset
      have ht := h.idx_lt_iff.mp hs
      rw [WalStream.openCurrent.eq_def t, dif_pos ht]
      simp only [← h.current_eq hs ht, ← h.current_file_eq hs, segment, hcontent, ← h.offset_eq]
      rw [if_neg hbefore, if_pos hat]
      exact ⟨rfl, h.opened _ _ _⟩
  | case3 s hs segment content hcontent hbefore hat =>
      intro t h
      -- it is read from its beginning
      have ht := h.idx_lt_iff.mp hs
      rw [WalStream.openCurrent.eq_def t, dif_pos ht]
      simp only [← h.current_eq hs ht, ← h.current_file_eq hs, segment, hcontent, ← h.offset_eq]
      rw [if_neg hbefore, if_neg hat]
      exact ⟨rfl, h.opened _ _ _⟩
  | case4 s hs segment hcontent hlast =>
      intro t h
      -- the segment has no file, and is the last
      have ht := h.idx_lt_iff.mp hs
      have hnext := h.next_idx_lt_iff
      rw [WalStream.openCurrent.eq_def t, dif_pos ht]
      simp only [← h.current_eq hs ht, ← h.current_file_eq hs, segment, hcontent]
      rw [if_pos (by omega)]
      exact ⟨rfl, h.skip⟩
  | case5 s hs segment hcontent hlast ih =>
      intro t h
      -- it has no file, and another follows
      have ht := h.idx_lt_iff.mp hs
      have hnext := h.next_idx_lt_iff
      rw [WalStream.openCurrent.eq_def t, dif_pos ht]
      simp only [← h.current_eq hs ht, ← h.current_file_eq hs, segment, hcontent]
      rw [if_neg (by omega)]
      exact ih _ h.skip
  | case6 s hs =>
      intro t h
      -- both streams are exhausted
      have ht : ¬ t.currentIdx < t.segments.length := fun ht => hs (h.idx_lt_iff.mpr ht)
      rw [WalStream.openCurrent.eq_def t, dif_neg ht]
      exact ⟨rfl, h⟩

/-- `next` returns the same item to both. -/
theorem next (crc32 : Bytes → UInt32) (s : WalStream) :
    ∀ t, Twin s t → (s.next crc32).1 = (t.next crc32).1 ∧ Twin (s.next crc32).2 (t.next crc32).2 := by
  fun_induction WalStream.next crc32 s with
  | case1 s hfile hidx =>
      intro t h
      -- both streams are exhausted
      have hlt := h.idx_lt_iff
      rw [next_of_exhausted crc32 (s := t) (h.file_eq ▸ hfile) (by omega)]
      exact ⟨rfl, h⟩
  | case2 s hfile hidx e s' hopen =>
      intro t h
      -- the segment does not open
      obtain ⟨hres, htwin⟩ := openCurrent s t h
      rw [hopen] at hres htwin
      have ht : t.openCurrent = (.error e, t.openCurrent.2) := Prod.ext hres.symm rfl
      rw [next_of_open_error crc32 (h.file_eq ▸ hfile) (h.idx_lt_iff.mp (by omega)) ht]
      exact ⟨rfl, htwin⟩
  | case3 s hfile hidx s' hopen ih =>
      intro t h
      -- it opens, and the stream goes on in it
      obtain ⟨hres, htwin⟩ := openCurrent s t h
      rw [hopen] at hres htwin
      have ht : t.openCurrent = (.ok (), t.openCurrent.2) := Prod.ext hres.symm rfl
      rw [next_of_no_file crc32 (h.file_eq ▸ hfile) (h.idx_lt_iff.mp (by omega)) ht]
      exact ih _ htwin
  | case4 s file hfile hread s' hidx =>
      intro t h
      -- the last segment ends
      have hlt := h.next_idx_lt_iff
      have ht := next_of_file crc32 (s := t) (h.file_eq ▸ hfile)
      simp only [hread, if_pos (show t.currentIdx + 1 ≥ t.segments.length by omega),
        ← h.offset_eq] at ht
      rw [ht]
      exact ⟨rfl, h.advance⟩
  | case5 s file hfile hread s' hidx ih =>
      intro t h
      -- a segment ends, and there is another
      have hlt := h.next_idx_lt_iff
      have ht := next_of_file crc32 (s := t) (h.file_eq ▸ hfile)
      simp only [hread, if_neg (show ¬ t.currentIdx + 1 ≥ t.segments.length by omega),
        ← h.offset_eq] at ht
      rw [ht]
      exact ih _ h.advance
  | case6 s file hfile e hread =>
      intro t h
      -- the frame cannot be read
      have ht := next_of_file crc32 (s := t) (h.file_eq ▸ hfile)
      simp only [hread] at ht
      rw [ht]
      exact ⟨rfl, h⟩
  | case7 s file hfile payload file' hread position =>
      intro t h
      -- a frame is read
      have ht := next_of_file crc32 (s := t) (h.file_eq ▸ hfile)
      simp only [hread, ← h.offset_eq, ← h.position_eq] at ht
      rw [ht]
      exact ⟨rfl, h.opened _ _ _⟩

/-- The two readers deliver the same records and end in the same way. -/
theorem collect (crc32 : Bytes → UInt32) (s : WalStream) :
    ∀ t, Twin s t → s.collect crc32 = t.collect crc32 := by
  fun_induction WalStream.collect crc32 s with
  | case1 s s' hnext =>
      intro t h
      have hsame := (next crc32 s t h).1
      rw [hnext] at hsame
      have ht : t.next crc32 = (none, (t.next crc32).2) := Prod.ext hsame.symm rfl
      rw [collect_eq, ht]
  | case2 s e s' hnext =>
      intro t h
      have hsame := (next crc32 s t h).1
      rw [hnext] at hsame
      have ht : t.next crc32 = (some (.error e), (t.next crc32).2) := Prod.ext hsame.symm rfl
      rw [collect_eq, ht]
  | case3 s payload s' hnext ih =>
      intro t h
      obtain ⟨hsame, htwin⟩ := next crc32 s t h
      rw [hnext] at hsame htwin
      have ht : t.next crc32 = (some (.ok payload), (t.next crc32).2) := Prod.ext hsame.symm rfl
      rw [collect_eq crc32 t, ht, ih _ htwin]

end Twin

/-- The segments a reader starts with: those from its offset's on, and at least the last one. -/
theorem drop_startIdx (first n segment : Nat) :
    (List.range' first (n + 1)).drop
        (((List.range' first (n + 1)).findIdx? (segment ≤ ·)).getD n) =
      List.range' (max first (min segment (first + n)))
        (first + n + 1 - max first (min segment (first + n))) := by
  rcases Nat.lt_or_ge (first + n) segment with hlt | hge
  · have hfind : (List.range' first (n + 1)).findIdx? (segment ≤ ·) = none := by
      rw [List.findIdx?_eq_none_iff]
      intro m hm
      rw [List.mem_range'_1] at hm
      simp only [decide_eq_false_iff_not]
      omega
    rw [hfind, Option.getD_none, List.drop_range']
    congr 1 <;> omega
  · have hfind : (List.range' first (n + 1)).findIdx? (segment ≤ ·) = some (segment - first) := by
      rw [List.findIdx?_eq_some_iff_getElem]
      refine ⟨by simp; omega, by simp; omega, fun j hj => by simp; omega⟩
    rw [hfind, Option.getD_some, List.drop_range']
    congr 1 <;> omega

/-- The reader that `WalStream::new` makes before it opens a file. -/
def unopened (dir : WalDir) (offset : Offset) : WalStream :=
  ⟨dir, listSegments dir,
    ((listSegments dir).findIdx? (offset.segment ≤ ·)).getD ((listSegments dir).length - 1), none,
    offset.position, offset⟩

end WalStream

/-- Twin readers are read alike, or fail to open alike. -/
theorem Store.streamFrom_eq_of_twin (crc32 : Bytes → UInt32) {store shadow : Store}
    {offset : Offset} (h : WalStream.Twin (.unopened store.dataDir offset)
      (.unopened shadow.dataDir offset)) :
    store.streamFrom crc32 offset = shadow.streamFrom crc32 offset := by
  obtain ⟨hres, htwin⟩ := WalStream.Twin.openCurrent _ _ h
  unfold Store.streamFrom WalStream.new
  unfold WalStream.unopened at hres htwin
  -- both readers open the same segment, or fail alike
  dsimp only
  revert hres htwin
  generalize WalStream.openCurrent _ = left
  generalize WalStream.openCurrent _ = right
  intro hres htwin
  obtain ⟨r, s⟩ := left
  obtain ⟨r', s'⟩ := right
  obtain rfl : r = r' := hres
  cases r with
  | error e => rfl
  | ok _ => exact congrArg Except.ok (WalStream.Twin.collect crc32 s s' htwin)

/-- **Reading behind the cut.** From an offset that is not in a dropped segment the pruned log is read
exactly as the whole one. -/
theorem Store.Represents.streamFrom_prune {store shadow : Store} {img : WalImage} {k : Nat}
    (h : store.Represents crc32 (img.prune k)) (hk : k ≤ img.closed.length)
    (hshadow : shadow.Represents crc32 img) {offset : Offset}
    (hoffset : img.first + k ≤ max img.first offset.segment) :
    store.streamFrom crc32 offset = shadow.streamFrom crc32 offset := by
  have hfirst : (img.prune k).first = img.first + k := rfl
  have hsegs : listSegments store.dataDir = List.range' (img.first + k) (img.closed.length - k + 1) :=
    listSegments_eq h.describes (by simp [WalImage.prune])
  have hsegs' : listSegments shadow.dataDir = List.range' img.first (img.closed.length + 1) :=
    listSegments_eq hshadow.describes (by simp)
  have hfiles : ∀ n, img.first + k ≤ n → store.dataDir[n]? = shadow.dataDir[n]? := by
    intro n hn
    rw [h.describes n, hshadow.describes n, hfirst, if_pos hn, if_pos (by omega),
      WalImage.contents_prune crc32 hk, List.getElem?_drop]
    congr 1
    omega
  -- both lists end with the active segment, so both readers start at the same segment
  have hahead : (WalStream.unopened store.dataDir offset).segments.drop
        (WalStream.unopened store.dataDir offset).currentIdx =
      List.range' (max (img.first + k) (min offset.segment img.segment))
        (img.segment + 1 - max (img.first + k) (min offset.segment img.segment)) := by
    have hend : img.first + k + (img.closed.length - k) = img.segment := by
      unfold WalImage.segment
      omega
    have hdrop := WalStream.drop_startIdx (img.first + k) (img.closed.length - k) offset.segment
    rw [hend] at hdrop
    simpa [WalStream.unopened, hsegs] using hdrop
  have hahead' : (WalStream.unopened shadow.dataDir offset).segments.drop
        (WalStream.unopened shadow.dataDir offset).currentIdx =
      List.range' (max img.first (min offset.segment img.segment))
        (img.segment + 1 - max img.first (min offset.segment img.segment)) := by
    have hdrop := WalStream.drop_startIdx img.first img.closed.length offset.segment
    simpa [WalStream.unopened, hsegs', WalImage.segment] using hdrop
  have hstart : max (img.first + k) (min offset.segment img.segment) =
      max img.first (min offset.segment img.segment) := by
    unfold WalImage.segment
    omega
  refine Store.streamFrom_eq_of_twin crc32 ⟨?_, ?_, rfl, rfl, rfl⟩
  · rw [hahead, hahead', hstart]
  · intro n hn
    rw [hahead, List.mem_range'_1] at hn
    exact hfiles n (by omega)

/-! ## The end of the log grows -/

namespace WalImage

variable (crc32)

/-- Making room for a record moves the end of the log forward or not at all. -/
theorem endOffset_le_makeRoom (img : WalImage) (rotation : UInt64) (payload : Bytes) :
    img.endOffset crc32 ≤ (img.makeRoom crc32 rotation payload).endOffset crc32 := by
  unfold makeRoom
  split
  · refine (Offset.lt_iff.mpr (.inl ?_)).le
    simp [endOffset, segment]
  · exact le_rfl

/-- A record that is written moves the end of the log forward. -/
theorem endOffset_lt_push (img : WalImage) (payload : Bytes) :
    img.endOffset crc32 < (img.push payload).endOffset crc32 := by
  refine Offset.lt_iff.mpr (.inr ⟨rfl, ?_⟩)
  simp [endOffset, size, push, frames_append, recordSize]

/-- The end of the log moves forward with every complete record. -/
theorem endOffset_lt_append (img : WalImage) (rotation : UInt64) (payload : Bytes) :
    img.endOffset crc32 < (img.append crc32 rotation payload .disabled).endOffset crc32 :=
  lt_of_le_of_lt (img.endOffset_le_makeRoom crc32 rotation payload)
    (endOffset_lt_push crc32 _ payload)

/-- A clean tail torn to a clean one is the same. -/
theorem tear_clean {img : WalImage} (h : img.tail = .clean) : img.tear .clean = img := by
  rw [tear, ← h]

end WalImage

/-! ## A store and its shadow that never collects -/

/-- `store` holds the log `img` without its first `k` segments, all of them before `bound`; `shadow`
holds the whole log. -/
structure Store.Pruned (crc32 : Bytes → UInt32) (bound : Nat) (store shadow : Store) (img : WalImage)
    (k : Nat) : Prop where
  /-- What the store holds. -/
  pruned : store.Represents crc32 (img.prune k)
  /-- What its shadow holds. -/
  whole : shadow.Represents crc32 img
  /-- The active segment is never dropped. -/
  le_closed : k ≤ img.closed.length
  /-- The two rotate alike. -/
  rotation_eq : store.writer.rotation = shadow.writer.rotation
  /-- No append has stopped half way. -/
  clean : img.tail = .clean
  /-- Nothing from the bound on is dropped. -/
  below : img.first + k ≤ max img.first bound

namespace Store.Pruned

variable {bound : Nat} {store shadow : Store} {img : WalImage} {k : Nat}

/-- What is deleted up to an offset is deleted up to every later one. -/
theorem mono (h : Store.Pruned crc32 bound store shadow img k) {bound' : Nat}
    (hle : bound ≤ bound') : Store.Pruned crc32 bound' store shadow img k := by
  have hbelow := h.below
  exact ⟨h.pruned, h.whole, h.le_closed, h.rotation_eq, h.clean, by omega⟩

/-- Both append at the same offset. -/
theorem append (h : Store.Pruned crc32 bound store shadow img k) {payload : Bytes}
    (hlen : payload.length < 2 ^ 32) :
    let result := (img.makeRoom crc32 shadow.writer.rotation payload).endOffset crc32
    (store.append crc32 payload .disabled).1 = .ok result ∧
      (shadow.append crc32 payload .disabled).1 = .ok result ∧
      Store.Pruned crc32 bound (store.append crc32 payload .disabled).2
        (shadow.append crc32 payload .disabled).2
        (img.append crc32 shadow.writer.rotation payload .disabled) k := by
  obtain ⟨hres, hrep, hrot⟩ := h.pruned.append h.clean hlen .disabled
  obtain ⟨hres', hrep', hrot'⟩ := h.whole.append h.clean hlen .disabled
  have hroom := WalImage.length_closed_makeRoom crc32 img shadow.writer.rotation payload
  rw [h.rotation_eq] at hres hrep
  refine ⟨?_, ?_, ?_, hrep', ?_, ?_, ?_, ?_⟩
  · rw [hres, WalImage.appendResult, if_pos rfl, WalImage.prune_makeRoom crc32 h.le_closed,
      WalImage.endOffset_prune crc32 (le_trans h.le_closed hroom)]
  · rw [hres', WalImage.appendResult, if_pos rfl]
  · rwa [WalImage.prune_append crc32 h.le_closed] at hrep
  · exact le_trans h.le_closed (img.length_closed_append crc32 _ payload .disabled)
  · rw [hrot, hrot', h.rotation_eq]
  · simp [WalImage.append, WalImage.push, h.clean]
  · simpa [WalImage.append, WalImage.push] using h.below

/-- Both reopen. -/
theorem reopen (h : Store.Pruned crc32 bound store shadow img k) {rotation : UInt64}
    (hrotation : rotation ≠ 0) :
    ∃ store' shadow', Store.openWithRotation crc32 store.dataDir rotation = .ok store' ∧
      Store.openWithRotation crc32 shadow.dataDir rotation = .ok shadow' ∧
      Store.Pruned crc32 bound store' shadow' img k := by
  obtain ⟨store', hopen, hrep, hrot⟩ := h.pruned.openWithRotation hrotation
  obtain ⟨shadow', hopen', hrep', hrot'⟩ := h.whole.openWithRotation hrotation
  rw [WalImage.prune_tear, WalImage.tear_clean h.clean] at hrep
  rw [WalImage.tear_clean h.clean] at hrep'
  exact ⟨store', shadow', hopen, hopen', hrep, hrep', h.le_closed, hrot.trans hrot'.symm, h.clean,
    h.below⟩

/-- Collecting up to the bound drops more segments from the store, and none from its shadow. -/
theorem gcCompact (h : Store.Pruned crc32 bound store shadow img k) {since : Offset}
    (hsince : since.segment ≤ bound) :
    Store.Pruned crc32 bound (store.gcCompact since) shadow img
      (k + (img.prune k).collected since) := by
  have hrep := h.pruned.gcCompact since
  rw [WalImage.prune_prune] at hrep
  have hle := h.le_closed
  have hbelow := h.below
  refine ⟨hrep, h.whole, ?_, h.rotation_eq, h.clean, ?_⟩
  · simp only [WalImage.collected, WalImage.prune, List.length_drop]
    omega
  · simp only [WalImage.collected, WalImage.prune, List.length_drop]
    omega

/-- From the bound on the two are read alike. -/
theorem streamFrom_eq (h : Store.Pruned crc32 bound store shadow img k) {offset : Offset}
    (hoffset : bound ≤ offset.segment) :
    store.streamFrom crc32 offset = shadow.streamFrom crc32 offset := by
  have hbelow := h.below
  exact h.pruned.streamFrom_prune h.le_closed h.whole (by omega)

end Store.Pruned

/-! ## Runs -/

/-- One step of a caller that also collects. -/
inductive GcOp
  /-- `append(payload)`. -/
  | append (payload : Bytes)
  /-- Close the store and open the root again with the given rotation size. -/
  | reopen (rotation : UInt64)
  /-- `gc_compact(since)`. -/
  | gcCompact (since : Offset)
  deriving DecidableEq, Repr

namespace GcOp

/-- The payload's length fits the 32-bit prefix, or the rotation size is positive. -/
def Legal : GcOp → Prop
  | append payload => payload.length < 2 ^ 32
  | reopen rotation => rotation ≠ 0
  | gcCompact _ => True

/-- The step collects nothing behind `since`. -/
def Spares (since : Offset) : GcOp → Prop
  | append _ => True
  | reopen _ => True
  | gcCompact since' => since' ≤ since

/-- The run with its collections left out. -/
def withoutGc : List GcOp → List GcOp
  | [] => []
  | append payload :: ops => append payload :: withoutGc ops
  | reopen rotation :: ops => reopen rotation :: withoutGc ops
  | gcCompact _ :: ops => withoutGc ops

end GcOp

/-- Run a list of operations: the offsets that the appends returned, and the store at the end. -/
def Store.runGc (crc32 : Bytes → UInt32) :
    List GcOp → Store → Except StoreError (List Offset × Store)
  | [], store => .ok ([], store)
  | .append payload :: ops, store =>
      match store.append crc32 payload .disabled with
      | (.error e, _) => .error e
      | (.ok offset, store') => do
          let (offsets, last) ← Store.runGc crc32 ops store'
          return (offset :: offsets, last)
  | .reopen rotation :: ops, store => do
      let store' ← Store.openWithRotation crc32 store.dataDir rotation
      Store.runGc crc32 ops store'
  | .gcCompact since :: ops, store => Store.runGc crc32 ops (store.gcCompact since)

/-- A run that starts with an append is the append and then the rest, with its offset first. -/
theorem Store.runGc_append {store : Store} {payload : Bytes} {offset : Offset}
    (h : (store.append crc32 payload .disabled).1 = .ok offset) (ops : List GcOp) :
    store.runGc crc32 (.append payload :: ops) =
      ((store.append crc32 payload .disabled).2.runGc crc32 ops).map
        fun (offsets, last) => (offset :: offsets, last) := by
  have happend : store.append crc32 payload .disabled =
      (.ok offset, (store.append crc32 payload .disabled).2) := Prod.ext h rfl
  rw [Store.runGc, happend]
  rfl

/-- From a store and its shadow every run goes through, on the store with its collections and on the
shadow without them; both hand out the same offsets, each behind all earlier ones. -/
theorem Store.Pruned.runGc {ops : List GcOp} (hops : ∀ op ∈ ops, op.Legal) {since : Offset}
    (hsince : ∀ op ∈ ops, op.Spares since) {store shadow : Store} {img : WalImage} {k : Nat}
    (h : Store.Pruned crc32 since.segment store shadow img k) :
    ∃ offsets last lastShadow later j,
      store.runGc crc32 ops = .ok (offsets, last) ∧
      shadow.runGc crc32 (GcOp.withoutGc ops) = .ok (offsets, lastShadow) ∧
      Store.Pruned crc32 since.segment last lastShadow later j ∧
      offsets.Pairwise (· < ·) ∧ ∀ offset ∈ offsets, img.endOffset crc32 ≤ offset := by
  induction ops generalizing store shadow img k with
  | nil => exact ⟨[], store, shadow, img, k, rfl, rfl, h, .nil, by simp⟩
  | cons op ops ih =>
      have hops' : ∀ op ∈ ops, op.Legal := fun op hop => hops op (List.mem_cons_of_mem _ hop)
      have hsince' : ∀ op ∈ ops, op.Spares since :=
        fun op hop => hsince op (List.mem_cons_of_mem _ hop)
      cases op with
      | append payload =>
          -- Both stores append at the same offset, behind all that was written before.
          obtain ⟨hres, hres', hnext⟩ := h.append (hops _ List.mem_cons_self)
          obtain ⟨offsets, last, lastShadow, later, j, hrun, hrun', hlast, hpair, hbehind⟩ :=
            ih hops' hsince' hnext
          have hroom := img.endOffset_le_makeRoom crc32 shadow.writer.rotation payload
          have hpush := WalImage.endOffset_lt_push crc32
            (img.makeRoom crc32 shadow.writer.rotation payload) payload
          refine ⟨(img.makeRoom crc32 shadow.writer.rotation payload).endOffset crc32 :: offsets,
            last, lastShadow, later, j, ?_, ?_, hlast, ?_, ?_⟩
          · rw [Store.runGc_append hres, hrun]
            rfl
          · rw [GcOp.withoutGc, Store.runGc_append hres', hrun']
            rfl
          · exact List.pairwise_cons.mpr ⟨fun o ho => lt_of_lt_of_le hpush (hbehind o ho), hpair⟩
          · intro o ho
            rcases List.mem_cons.mp ho with rfl | ho
            · exact hroom
            · exact le_trans hroom (le_trans hpush.le (hbehind o ho))
      | reopen rotation =>
          obtain ⟨store', shadow', hopen, hopen', hnext⟩ := h.reopen (hops _ List.mem_cons_self)
          obtain ⟨offsets, last, lastShadow, later, j, hrun, hrun', hlast, hpair, hbehind⟩ :=
            ih hops' hsince' hnext
          refine ⟨offsets, last, lastShadow, later, j, ?_, ?_, hlast, hpair, hbehind⟩
          · rw [Store.runGc, hopen]
            exact hrun
          · rw [GcOp.withoutGc, Store.runGc, hopen']
            exact hrun'
      | gcCompact since' =>
          -- The store is pruned once more, and the shadow is not.
          have hle : since'.segment ≤ since.segment :=
            Offset.segment_le (hsince _ List.mem_cons_self)
          exact ih hops' hsince' (h.gcCompact hle)

/-- **Collection never touches the recoverable tail.** On a new root, run any appends, reopenings with
any rotation sizes and collections up to `since`, in any order. The run goes through, as it does
without its collections; the offsets handed out are the same and each is behind all earlier ones; and
from `since` on, at every offset and whatever stands there, a reader gets the records, and the error
if any, that it would have got without collections. -/
theorem gc_keeps_recoverable_tail (crc32 : Bytes → UInt32) {rotation : UInt64}
    (hrotation : rotation ≠ 0) (ops : List GcOp) (hops : ∀ op ∈ ops, op.Legal) (since : Offset)
    (hsince : ∀ op ∈ ops, op.Spares since) :
    ∃ store offsets last shadow, Store.openWithRotation crc32 ∅ rotation = .ok store ∧
      store.runGc crc32 ops = .ok (offsets, last) ∧
      store.runGc crc32 (GcOp.withoutGc ops) = .ok (offsets, shadow) ∧
      offsets.Pairwise (· < ·) ∧
      ∀ offset, since ≤ offset → last.streamFrom crc32 offset = shadow.streamFrom crc32 offset := by
  obtain ⟨store, hopen, hstore, -⟩ := openWithRotation_empty crc32 hrotation
  have hstart : Store.Pruned crc32 since.segment store store WalImage.empty 0 :=
    ⟨hstore, hstore, Nat.zero_le _, rfl, rfl, Nat.le_max_left _ _⟩
  obtain ⟨offsets, last, shadow, later, j, hrun, hrun', hlast, hpair, -⟩ :=
    hstart.runGc hops hsince
  refine ⟨store, offsets, last, shadow, hopen, hrun, hrun', hpair, fun offset hoffset => ?_⟩
  exact hlast.streamFrom_eq (Offset.segment_le hoffset)

/-- Five records over three segments, a reopening, and a collection that removes the first two: the
last record is read from its own segment, and the next append goes behind it. -/
theorem gc_keeps_recoverable_tail_three_segments :
    ∃ store offsets last shadow, Store.openWithRotation crc32Ieee ∅ 24 = .ok store ∧
      store.runGc crc32Ieee [.append [1, 2], .append [3, 4], .append [5, 6], .append [7, 8],
        .append [9], .reopen 64, .gcCompact ⟨3, 0⟩, .append [10]] = .ok (offsets, last) ∧
      store.runGc crc32Ieee [.append [1, 2], .append [3, 4], .append [5, 6], .append [7, 8],
        .append [9], .reopen 64, .append [10]] = .ok (offsets, shadow) ∧
      offsets.Pairwise (· < ·) ∧
      ∀ offset, ⟨3, 0⟩ ≤ offset →
        last.streamFrom crc32Ieee offset = shadow.streamFrom crc32Ieee offset :=
  gc_keeps_recoverable_tail crc32Ieee (by decide : (24 : UInt64) ≠ 0)
    [.append [1, 2], .append [3, 4], .append [5, 6], .append [7, 8], .append [9], .reopen 64,
      .gcCompact ⟨3, 0⟩, .append [10]]
    (by simp [GcOp.Legal]) ⟨3, 0⟩ (by simp [GcOp.Spares])

/-! ### A record that hides frames -/

/-- An append that needs no rotation, on whatever the file holds. -/
theorem Store.append_atEnd {store : Store} {first : Nat} {before : List Bytes} {content : Bytes}
    (h : AtEnd store.writer first before content) {payload : Bytes}
    (hfit : store.writer.size + recordSize payload ≤ store.writer.rotation.toNat) :
    (store.append crc32 payload .disabled).1 = .ok store.endOffset ∧
      AtEnd (store.append crc32 payload .disabled).2.writer first before
        (content ++ frame crc32 payload) ∧
      (store.append crc32 payload .disabled).2.endOffset =
        ⟨store.writer.segment, store.writer.size + recordSize payload⟩ ∧
      (store.append crc32 payload .disabled).2.writer.rotation = store.writer.rotation := by
  have hend := ((h.written (toLeBytes payload.length)).written payload).written
    (toLeBytes (crc32 payload).toNat)
  rw [List.append_assoc, List.append_assoc, ← List.append_assoc (toLeBytes _)] at hend
  unfold Store.append
  rw [WalWriter.append_run]
  simp only [if_neg (Nat.not_lt.mpr hfit), reduceCtorEq, if_false, or_self]
  exact ⟨rfl, ⟨hend.files, hend.segment_eq, hend.cursor_eq⟩, rfl, rfl⟩

/-- A record of `2 ^ 32` bytes, which is written with a length of zero. Its first bytes read as the
rest of an empty record and as another one; the next four as the length of a record that ends with
the file. -/
def hidingRecord (zeros : Bytes) : Bytes :=
  toLeBytes 0 ++ (toLeBytes 0 ++ (toLeBytes 0 ++ (toLeBytes (2 ^ 32 - 4) ++ zeros)))

/-- The record whose length wraps is 2^32 bytes long. -/
theorem length_hidingRecord {zeros : Bytes} (h : zeros.length = 2 ^ 32 - 16) :
    (hidingRecord zeros).length = 2 ^ 32 := by
  simp [hidingRecord, h]

/-- The two records in the file are two other, empty ones and a torn tail. -/
theorem frames_hidingRecord (hcrc : crc32 [] = 0) {zeros : Bytes} (h : zeros.length = 2 ^ 32 - 16) :
    ∃ torn : Bytes, torn.length = 2 ^ 32 - 4 ∧
      frame crc32 (hidingRecord zeros) ++ frame crc32 [] =
        frames crc32 [[], []] ++ (Tail.noChecksum torn).bytes := by
  have hempty : frame crc32 [] = toLeBytes 0 ++ toLeBytes 0 := by
    rw [frame, hcrc]
    rfl
  have hzero : toLeBytes (2 ^ 32) = toLeBytes 0 := by decide
  refine ⟨zeros ++ (toLeBytes (crc32 (hidingRecord zeros)).toNat ++ frame crc32 []), ?_, ?_⟩
  · simp [h, hempty]
  · have hlen : (zeros ++ (toLeBytes (crc32 (hidingRecord zeros)).toNat ++ frame crc32 [])).length =
        2 ^ 32 - 4 := by simp [h, hempty]
    rw [Tail.bytes, hlen]
    generalize hsum : toLeBytes (crc32 (hidingRecord zeros)).toNat = checksum
    rw [frame, length_hidingRecord h, hsum, hzero, hempty]
    simp [hidingRecord, hempty]

/-- Reopened, the log ends behind the two empty records. -/
theorem openWithRotation_hidingRecord (hcrc : crc32 [] = 0) {zeros : Bytes}
    (h : zeros.length = 2 ^ 32 - 16) {w : WalWriter}
    (hend : AtEnd w 1 [] (frame crc32 (hidingRecord zeros) ++ frame crc32 [])) {rotation : UInt64}
    (hrotation : rotation ≠ 0) :
    ∃ reopened, Store.openWithRotation crc32 w.dataDir rotation = .ok reopened ∧
      reopened.Represents crc32 ⟨1, [], [[], []], .clean⟩ ∧ reopened.writer.rotation = rotation := by
  obtain ⟨torn, hlen, hbytes⟩ := frames_hidingRecord hcrc h
  rw [hbytes] at hend
  -- a writer whose counters fit these files; only the files matter for opening
  have hrep : Store.Represents crc32 ⟨{ w with size := 16 }⟩ ⟨1, [], [[], []], .noChecksum torn⟩ := by
    refine Store.Represents.of_atEnd ⟨hend.files, hend.segment_eq, hend.cursor_eq⟩ ?_ ⟨?_, ?_⟩ ?_
    · simp [WalImage.size, recordSize]
    · intro p hp
      simp [WalImage.records] at hp
      simp [hp]
    · show torn.length < 2 ^ 32
      omega
    · simp [WalImage.size, Tail.frameSize, recordSize, hlen]
  exact hrep.openWithRotation hrotation

/-- The rotation size of the run below: one tebibyte. -/
def tebibyte : UInt64 := 2 ^ 40

/-- A record of `2 ^ 32` bytes at the start of the log, an empty one behind it, a reopening and another
empty record: the last one gets an offset inside the first one, before that of the second. -/
theorem runGc_hidingRecord (hcrc : crc32 [] = 0) {zeros : Bytes} (h : zeros.length = 2 ^ 32 - 16) :
    ∃ store last, Store.openWithRotation crc32 ∅ tebibyte = .ok store ∧
      store.runGc crc32 [.append (hidingRecord zeros), .append [], .reopen tebibyte,
        .gcCompact ⟨1, 0⟩, .append []] = .ok ([⟨1, 0⟩, ⟨1, 2 ^ 32 + 8⟩, ⟨1, 16⟩], last) := by
  have hnonzero : tebibyte ≠ 0 := by decide
  have htebibyte : tebibyte.toNat = 2 ^ 40 := by decide
  obtain ⟨store, hopen, hstore, hrot⟩ := openWithRotation_empty crc32 hnonzero
  have hsize : recordSize (hidingRecord zeros) = 2 ^ 32 + 8 := by
    rw [recordSize, length_hidingRecord h]
    norm_num
  have hreopen := fun w hend => openWithRotation_hidingRecord hcrc h (w := w) hend hnonzero
  generalize hidingRecord zeros = record at hsize hreopen ⊢
  -- the two appends
  have hatEnd : AtEnd store.writer 1 [] [] := by
    simpa [WalImage.empty, Tail.bytes] using hstore.atEnd
  have hempty : store.endOffset = ⟨1, 0⟩ := hstore.endOffset_eq
  have hzero : store.writer.size = 0 := hstore.size_eq
  obtain ⟨hres₁, hend₁, hoff₁, hrot₁⟩ := @Store.append_atEnd crc32 store 1 [] [] hatEnd
    record (by rw [hzero, hsize, hrot, htebibyte]; norm_num)
  rw [hempty] at hres₁
  rw [hstore.segment_eq, hzero, hsize, Nat.zero_add] at hoff₁
  have hsize₁ := congrArg Offset.position hoff₁
  obtain ⟨hres₂, hend₂, -, -⟩ := @Store.append_atEnd crc32 _ _ _ _ hend₁ []
    (by rw [hrot₁, hrot, htebibyte]; simp only [Store.endOffset] at hsize₁; rw [hsize₁]; decide)
  rw [hoff₁] at hres₂
  -- the reopening and the append behind it
  obtain ⟨reopened, hopen₃, hrep₃, hrot₃⟩ := hreopen _ hend₂
  have hrep₄ : (reopened.gcCompact ⟨1, 0⟩).Represents crc32 ⟨1, [], [[], []], .clean⟩ :=
    hrep₃.gcCompact ⟨1, 0⟩
  have hrot₄ : (reopened.gcCompact ⟨1, 0⟩).writer.rotation = tebibyte := hrot₃
  obtain ⟨hres₄, -, -⟩ := hrep₄.append rfl (by simp : ([] : Bytes).length < 2 ^ 32)
    .disabled
  rw [WalImage.appendResult, if_pos rfl, hrot₄, WalImage.makeRoom, if_neg (by
    rw [htebibyte]; simp [WalImage.size, recordSize])] at hres₄
  have hoff₄ : WalImage.endOffset crc32 ⟨1, [], [[], []], .clean⟩ = ⟨1, 16⟩ := by
    simp [WalImage.endOffset, WalImage.segment, WalImage.size, recordSize]
  rw [hoff₄] at hres₄
  refine ⟨store, ((reopened.gcCompact ⟨1, 0⟩).append crc32 [] .disabled).2, hopen, ?_⟩
  rw [Store.runGc_append hres₁, Store.runGc_append hres₂, Store.runGc, hopen₃]
  show Except.map _ (Except.map _ ((reopened.gcCompact ⟨1, 0⟩).runGc crc32 [.append []])) = _
  rw [Store.runGc_append hres₄]
  rfl

/-- Such a run on the log as it is: the offsets of its three records are not in the order in which they
were appended. -/
theorem oversize_append_reuses_offset :
    ∃ store offsets last, Store.openWithRotation crc32Ieee ∅ tebibyte = .ok store ∧
      store.runGc crc32Ieee [.append (hidingRecord (List.replicate (2 ^ 32 - 16) 0)), .append [],
        .reopen tebibyte, .gcCompact ⟨1, 0⟩, .append []] = .ok (offsets, last) ∧
      offsets = [⟨1, 0⟩, ⟨1, 2 ^ 32 + 8⟩, ⟨1, 16⟩] ∧ ¬ offsets.Pairwise (· < ·) := by
  obtain ⟨store, last, hopen, hrun⟩ := @runGc_hidingRecord crc32Ieee (by decide)
    (List.replicate (2 ^ 32 - 16) 0) (List.length_replicate ..)
  refine ⟨store, _, last, hopen, hrun, rfl, ?_⟩
  intro hpair
  have hlt := (List.pairwise_cons.mp (List.pairwise_cons.mp hpair).2).1 ⟨1, 16⟩ (by simp)
  exact absurd hlt (by decide)

end LiminalDB
