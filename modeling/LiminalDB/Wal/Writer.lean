import LiminalDB.Wal.Image

/-! # The writer refines the abstract log

`Store.Represents` connects an open store to a `WalImage`: the directory holds the image's files and
the writer's segment, size and cursor are where the image says. One lemma per operation says what it
does to the image: `append` with every failpoint, and opening a root, which cuts a torn tail. -/

namespace LiminalDB

variable (crc32 : Bytes → UInt32)

/-! ## The abstract operations -/

namespace WalImage

/-- The log after the rotation test of an append: the active segment is closed when the record would
take it past the rotation size. -/
def makeRoom (img : WalImage) (rotation : UInt64) (payload : Bytes) : WalImage :=
  if img.size crc32 + recordSize payload > rotation.toNat then
    { img with closed := img.closed ++ [img.active], active := [] }
  else img

/-- The log with one more record. -/
def push (img : WalImage) (payload : Bytes) : WalImage :=
  { img with active := img.active ++ [payload] }

/-- The log with the beginning of a record behind its frames. -/
def tear (img : WalImage) (tail : Tail) : WalImage := { img with tail := tail }

/-- What `Store::append` leaves, by the stage at which it stops. -/
def append (img : WalImage) (rotation : UInt64) (payload : Bytes) : AppendFailpoint → WalImage
  | .beforeWrite => img
  | .afterLengthWrite => (img.makeRoom crc32 rotation payload).tear (.lengthOnly payload)
  | .afterPayloadWrite => (img.makeRoom crc32 rotation payload).tear (.noChecksum payload)
  | _ => (img.makeRoom crc32 rotation payload).push payload

/-- The end of the complete frames. -/
def endOffset (img : WalImage) : Offset := ⟨img.segment, img.size crc32⟩

/-- What `Store::append` returns on a log without a torn tail. -/
def appendResult (img : WalImage) (rotation : UInt64) (payload : Bytes)
    (failpoint : AppendFailpoint) : Except StoreError Offset :=
  if failpoint = .disabled then .ok ((img.makeRoom crc32 rotation payload).endOffset crc32)
  else .error (.injected failpoint)

/-- Making room leaves the first segment. -/
@[simp] theorem makeRoom_first (img : WalImage) (rotation : UInt64) (payload : Bytes) :
    (img.makeRoom crc32 rotation payload).first = img.first := by
  unfold makeRoom; split <;> rfl

/-- It leaves the tail. -/
@[simp] theorem makeRoom_tail (img : WalImage) (rotation : UInt64) (payload : Bytes) :
    (img.makeRoom crc32 rotation payload).tail = img.tail := by
  unfold makeRoom; split <;> rfl

/-- It moves no record: a new segment starts empty. -/
@[simp] theorem makeRoom_records (img : WalImage) (rotation : UInt64) (payload : Bytes) :
    (img.makeRoom crc32 rotation payload).records = img.records := by
  unfold makeRoom
  split
  · simp [records]
  · rfl

/-- A pushed record comes after the others. -/
@[simp] theorem push_records (img : WalImage) (payload : Bytes) :
    (img.push payload).records = img.records ++ [payload] := by
  simp [push, records]

/-- A torn tail is no record. -/
@[simp] theorem tear_records (img : WalImage) (tail : Tail) :
    (img.tear tail).records = img.records := rfl

/-- After the rotation test the record fits: the active segment stays a `u64` number of bytes. -/
theorem makeRoom_size_lt (img : WalImage) (rotation : UInt64) {payload : Bytes}
    (hlen : payload.length < 2 ^ 32) :
    (img.makeRoom crc32 rotation payload).size crc32 + recordSize payload < 2 ^ 64 := by
  have hrot := rotation.toNat_lt
  unfold makeRoom
  split
  · simp only [size, frames_nil, List.length_nil, recordSize]; omega
  · omega

/-! ### Offsets stay meaningful -/

/-- The end of the log locates the record that comes next. -/
theorem locates_endOffset (img : WalImage) :
    img.Locates crc32 (img.endOffset crc32) img.records.length :=
  ⟨img.closed, img.active, [], img.active, [], rfl, (List.append_nil _).symm, rfl, by
    simp [records]⟩

/-- The start of an unpruned log locates its first record. -/
theorem locates_start (img : WalImage) (h : img.first = 1) :
    img.Locates crc32 Offset.start 0 := by
  obtain ⟨first, closed, active, tail⟩ := img
  cases closed with
  | nil => exact ⟨[], active, [], [], active, rfl, rfl, by simp [Offset.start, ← h], rfl⟩
  | cons ps rest =>
      exact ⟨[], ps, rest ++ [active], [], ps, rfl, rfl, by simp [Offset.start, ← h], rfl⟩

variable {crc32} {img : WalImage} {offset : Offset} {k : Nat}

/-- Closing the active segment moves no record. -/
theorem Locates.makeRoom (h : img.Locates crc32 offset k) (rotation : UInt64) (payload : Bytes) :
    (img.makeRoom crc32 rotation payload).Locates crc32 offset k := by
  unfold WalImage.makeRoom
  split
  · obtain ⟨before, current, later, done, rest, hsegs, hcur, hoff, hk⟩ := h
    exact ⟨before, current, later ++ [[]], done, rest, by simp [hsegs], hcur, hoff, hk⟩
  · exact h

/-- Adding a record moves none of the earlier ones. -/
theorem Locates.push (h : img.Locates crc32 offset k) (payload : Bytes) :
    (img.push payload).Locates crc32 offset k := by
  obtain ⟨before, current, later, done, rest, hsegs, hcur, hoff, hk⟩ := h
  rcases List.eq_nil_or_concat later with rfl | ⟨later', last, rfl⟩
  · -- the located segment is the active one
    have hactive : img.closed = before ∧ img.active = current := by
      have := List.append_inj' hsegs rfl
      simpa using this
    refine ⟨before, current ++ [payload], [], done, rest ++ [payload], ?_, ?_, hoff, hk⟩
    · simp [WalImage.push, hactive.1, hactive.2]
    · rw [hcur, List.append_assoc]
  · rw [List.concat_eq_append, ← List.cons_append, ← List.append_assoc] at hsegs
    obtain ⟨hclosed, hactive⟩ := List.append_inj' hsegs rfl
    refine ⟨before, current, later' ++ [last ++ [payload]], done, rest, ?_, hcur, hoff, hk⟩
    simp only [List.cons.injEq, and_true] at hactive
    simp [WalImage.push, hclosed, hactive]

/-- A torn record behind the frames moves none of them. -/
theorem Locates.tear (h : img.Locates crc32 offset k) (tail : Tail) :
    (img.tear tail).Locates crc32 offset k := h

/-- No append moves an earlier record, whether it succeeds or stops half way. -/
theorem Locates.append (h : img.Locates crc32 offset k) (rotation : UInt64) (payload : Bytes)
    (failpoint : AppendFailpoint) :
    (img.append crc32 rotation payload failpoint).Locates crc32 offset k := by
  cases failpoint with
  | beforeWrite => exact h
  | afterLengthWrite => exact (h.makeRoom rotation payload).tear _
  | afterPayloadWrite => exact (h.makeRoom rotation payload).tear _
  | disabled => exact (h.makeRoom rotation payload).push payload
  | afterWriteBeforeSync => exact (h.makeRoom rotation payload).push payload
  | afterSyncBeforeAck => exact (h.makeRoom rotation payload).push payload

end WalImage

/-! ## The writer on a described directory -/

/-- The outcome of `WalWriter::append`, step by step. -/
theorem WalWriter.append_run (payload : Bytes) (failpoint : AppendFailpoint) (w : WalWriter) :
    WalWriter.append crc32 payload failpoint w =
      let w₁ := if w.size + recordSize payload > w.rotation.toNat then w.rotated else w
      let w₂ := w₁.written (toLeBytes payload.length)
      let w₃ := w₂.written payload
      let w₄ := w₃.written (toLeBytes (crc32 payload).toNat)
      if failpoint = .afterLengthWrite then .error (.injected failpoint) w₂
      else if failpoint = .afterPayloadWrite then .error (.injected failpoint) w₃
      else .ok ⟨w₁.segment, w₁.size⟩ { w₄ with size := w₄.size + recordSize payload } := by
  by_cases hrot : w.size + recordSize payload > w.rotation.toNat <;>
    by_cases h₁ : failpoint = .afterLengthWrite <;>
    by_cases h₂ : failpoint = .afterPayloadWrite <;>
    simp [WalWriter.append, WalWriter.rotate, WalWriter.writeAll, bind, EStateM.bind, get_run,
      modify_run, throw_run, pure, EStateM.pure, hrot, h₁, h₂]

/-- An open store holds the log `img`: the files are the image's, the writer's counters are where the
image ends, every record can be framed and the active segment is a `u64` number of bytes. -/
structure Store.Represents (store : Store) (img : WalImage) : Prop where
  /-- The files of the directory. -/
  describes : img.Describes crc32 store.dataDir
  /-- The writer is on the active segment. -/
  segment_eq : store.writer.segment = img.segment
  /-- The size the writer counts is that of the complete frames. -/
  size_eq : store.writer.size = img.size crc32
  /-- The cursor is behind the tail, at the end of the file. -/
  cursor_eq : store.writer.cursor = img.size crc32 + img.tail.bytes.length
  /-- Every record can be framed. -/
  framable : img.Framable
  /-- The active segment, and the record its tail begins, end below `2 ^ 64`. -/
  bounded : img.size crc32 + img.tail.frameSize < 2 ^ 64

/-- A directory whose last file is `content`. -/
structure AtEnd (w : WalWriter) (first : Nat) (before : List Bytes) (content : Bytes) : Prop where
  /-- The files. -/
  files : Consecutive w.dataDir first (before ++ [content])
  /-- The writer is on the last one. -/
  segment_eq : w.segment = first + before.length
  /-- Its cursor is at the end. -/
  cursor_eq : w.cursor = content.length

variable {crc32}

/-- Writing at the end of the last file appends to it. -/
theorem AtEnd.written {w : WalWriter} {first : Nat} {before : List Bytes} {content : Bytes}
    (h : AtEnd w first before content) (bytes : Bytes) :
    AtEnd (w.written bytes) first before (content ++ bytes) := by
  have hget : w.dataDir.getD w.segment [] = content := by
    rw [Std.ExtTreeMap.getD_eq_getD_getElem?, h.segment_eq, h.files.getElem?]
    simp
  refine ⟨?_, h.segment_eq, ?_⟩
  · show Consecutive (w.dataDir.insert w.segment
      (writeAt (w.dataDir.getD w.segment []) w.cursor bytes)) first _
    rw [hget, h.cursor_eq, writeAt_length, h.segment_eq]
    exact h.files.replace_last _
  · simp [WalWriter.written, h.cursor_eq]

/-- Rotating adds an empty file. -/
theorem AtEnd.rotated {w : WalWriter} {first : Nat} {before : List Bytes} {content : Bytes}
    (h : AtEnd w first before content) : AtEnd w.rotated first (before ++ [content]) [] := by
  have hseg : w.segment + 1 = first + (before ++ [content]).length := by
    rw [h.segment_eq, List.length_append, List.length_singleton, Nat.add_assoc]
  refine ⟨?_, hseg, rfl⟩
  show Consecutive (w.dataDir.insert (w.segment + 1) []) first _
  rw [hseg]
  exact h.files.push []

namespace Store.Represents

variable {store : Store} {img : WalImage}

/-- A represented store is at the end of its last file. -/
theorem atEnd (h : store.Represents crc32 img) :
    AtEnd store.writer img.first (img.closed.map (frames crc32))
      (frames crc32 img.active ++ img.tail.bytes) := by
  refine ⟨?_, ?_, ?_⟩
  · rw [← WalImage.contents_eq]; exact h.describes
  · rw [h.segment_eq, WalImage.segment, List.length_map]
  · rw [h.cursor_eq, WalImage.size, List.length_append]

/-- The writer after the rotation test is at the end of the image after it. -/
theorem atEnd_makeRoom (h : store.Represents crc32 img) (hclean : img.tail = .clean)
    (payload : Bytes) :
    let w := if store.writer.size + recordSize payload > store.writer.rotation.toNat
      then store.writer.rotated else store.writer
    let room := img.makeRoom crc32 store.writer.rotation payload
    AtEnd w room.first (room.closed.map (frames crc32)) (frames crc32 room.active) ∧
      w.segment = room.segment ∧ w.size = room.size crc32 := by
  have hend := h.atEnd
  rw [hclean, Tail.bytes, List.append_nil] at hend
  simp only [WalImage.makeRoom, h.size_eq]
  split
  · refine ⟨?_, ?_, ?_⟩
    · simpa using hend.rotated
    · simp [WalWriter.rotated, WalImage.segment, h.segment_eq, Nat.add_assoc]
    · simp [WalWriter.rotated, WalImage.size]
  · exact ⟨hend, h.segment_eq, h.size_eq⟩

/-- A writer at the end of the image's last file, with the image's size, represents it. -/
theorem of_atEnd {w : WalWriter}
    (hend : AtEnd w img.first (img.closed.map (frames crc32))
      (frames crc32 img.active ++ img.tail.bytes))
    (hsize : w.size = img.size crc32) (hframable : img.Framable)
    (hbounded : img.size crc32 + img.tail.frameSize < 2 ^ 64) :
    Store.Represents crc32 ⟨w⟩ img := by
  refine ⟨?_, ?_, hsize, ?_, hframable, hbounded⟩
  · show Consecutive w.dataDir img.first (img.contents crc32)
    rw [WalImage.contents_eq]
    exact hend.files
  · rw [hend.segment_eq, WalImage.segment, List.length_map]
  · rw [hend.cursor_eq, List.length_append, WalImage.size]

/-- Every record of the log, and a payload that fits the prefix, can be framed after the rotation
test. -/
theorem records_lt (h : store.Represents crc32 img) (rotation : UInt64) (payload : Bytes) :
    ∀ p ∈ (img.makeRoom crc32 rotation payload).records, p.length < 2 ^ 32 := by
  rw [WalImage.makeRoom_records]
  exact h.framable.1

/-- **Appending.** On a log without a torn tail, `Store::append` does to the files and the writer
what the abstract append does to the image, at every failpoint, and keeps the rotation size. -/
theorem append (h : store.Represents crc32 img) (hclean : img.tail = .clean) {payload : Bytes}
    (hlen : payload.length < 2 ^ 32) (failpoint : AppendFailpoint) :
    (store.append crc32 payload failpoint).1 =
        img.appendResult crc32 store.writer.rotation payload failpoint ∧
      (store.append crc32 payload failpoint).2.Represents crc32
        (img.append crc32 store.writer.rotation payload failpoint) ∧
      (store.append crc32 payload failpoint).2.writer.rotation = store.writer.rotation := by
  obtain ⟨hend, hseg, hsize⟩ := h.atEnd_makeRoom hclean payload
  have hrecords := h.records_lt store.writer.rotation payload
  have hroom := img.makeRoom_size_lt crc32 store.writer.rotation hlen
  have hroomTail : (img.makeRoom crc32 store.writer.rotation payload).tail = .clean := by
    rw [WalImage.makeRoom_tail, hclean]
  have hrotation : (if store.writer.size + recordSize payload > store.writer.rotation.toNat
      then store.writer.rotated else store.writer).rotation = store.writer.rotation := by
    split <;> rfl
  generalize hw : (if store.writer.size + recordSize payload > store.writer.rotation.toNat
    then store.writer.rotated else store.writer) = w at hend hseg hsize hrotation
  generalize hr : img.makeRoom crc32 store.writer.rotation payload = room at *
  -- the file handle after the length, after the payload and after the checksum
  have h₂ := hend.written (toLeBytes payload.length)
  have h₃ := h₂.written payload
  have h₄ := h₃.written (toLeBytes (crc32 payload).toNat)
  -- the three ways in which bytes reach the file
  have torn : ∀ (w' : WalWriter) (tail : Tail), tail.Fits → tail.frameSize = recordSize payload →
      AtEnd w' room.first (room.closed.map (frames crc32))
        (frames crc32 room.active ++ tail.bytes) → w'.size = room.size crc32 →
      Store.Represents crc32 ⟨w'⟩ (room.tear tail) := by
    intro w' tail hfits hframe hend' hsize'
    refine of_atEnd hend' hsize' ⟨hrecords, hfits⟩ ?_
    show room.size crc32 + tail.frameSize < 2 ^ 64
    rw [hframe]; exact hroom
  have whole : Store.Represents crc32
      ⟨{ ((w.written (toLeBytes payload.length)).written payload).written
          (toLeBytes (crc32 payload).toNat) with size := w.size + recordSize payload }⟩
      (room.push payload) := by
    refine of_atEnd ⟨?_, h₄.segment_eq, ?_⟩ ?_ ⟨?_, ?_⟩ ?_
    · have hfiles := h₄.files
      simpa [WalImage.push, frames_append, frame, hroomTail, Tail.bytes] using hfiles
    · have hcursor := h₄.cursor_eq
      simpa [WalImage.push, frames_append, frame, hroomTail, Tail.bytes] using hcursor
    · simp [WalImage.push, WalImage.size, frames_append, hsize]
    · intro p hp
      rw [WalImage.push_records, List.mem_append, List.mem_singleton] at hp
      rcases hp with hp | rfl
      · exact hrecords p hp
      · exact hlen
    · show room.tail.Fits
      rw [hroomTail]; trivial
    · show (room.push payload).size crc32 + room.tail.frameSize < 2 ^ 64
      rw [hroomTail]
      simpa [WalImage.push, WalImage.size, frames_append, Tail.frameSize] using hroom
  unfold Store.append
  rw [WalWriter.append_run]
  simp only [hw]
  cases failpoint with
  | beforeWrite => exact ⟨rfl, h, rfl⟩
  | afterLengthWrite =>
      simp only [reduceCtorEq, if_false, if_true, WalImage.append, hr]
      exact ⟨rfl, torn _ (.lengthOnly payload) hlen rfl h₂ hsize, hrotation⟩
  | afterPayloadWrite =>
      simp only [reduceCtorEq, if_false, if_true, WalImage.append, hr]
      refine ⟨rfl, torn _ (.noChecksum payload) hlen rfl ?_ hsize, hrotation⟩
      rw [Tail.bytes, ← List.append_assoc]; exact h₃
  | disabled =>
      simp only [reduceCtorEq, if_false, or_self, WalImage.append, hr]
      refine ⟨?_, whole, hrotation⟩
      rw [WalImage.appendResult, if_pos rfl, hr, hseg, hsize, WalImage.endOffset]
  | afterWriteBeforeSync =>
      simp only [reduceCtorEq, if_false, if_true, true_or, WalImage.append, hr]
      exact ⟨rfl, whole, hrotation⟩
  | afterSyncBeforeAck =>
      simp only [reduceCtorEq, if_false, if_true, or_true, WalImage.append, hr]
      exact ⟨rfl, whole, hrotation⟩

end Store.Represents

/-! ## Opening a root -/

/-- Opening an empty root creates the first segment. -/
theorem openWithRotation_empty (crc32 : Bytes → UInt32) {rotation : UInt64} (hrotation : rotation ≠ 0) :
    ∃ store, Store.openWithRotation crc32 ∅ rotation = .ok store ∧
      store.Represents crc32 WalImage.empty ∧ store.writer.rotation = rotation := by
  have hopen : WalWriter.open crc32 ∅ rotation =
      .ok ⟨(∅ : WalDir).insert 1 [], rotation, 1, 0, 0⟩ := by
    simp [WalWriter.open, listSegments]
  refine ⟨⟨⟨(∅ : WalDir).insert 1 [], rotation, 1, 0, 0⟩⟩, ?_, ?_, rfl⟩
  · rw [Store.openWithRotation, if_neg hrotation, hopen]
    rfl
  · refine Store.Represents.of_atEnd ⟨(Consecutive.nil 1).push [], rfl, rfl⟩ rfl ⟨?_, trivial⟩ ?_
    · simp [WalImage.records, WalImage.empty]
    · simp [WalImage.empty, WalImage.size, Tail.frameSize]

/-- **Reopening.** On the files of a represented store, opening succeeds with any positive rotation
size: it cuts a torn tail and keeps every complete record where it is. -/
theorem Store.Represents.openWithRotation {store : Store} {img : WalImage}
    (h : store.Represents crc32 img) {rotation : UInt64} (hrotation : rotation ≠ 0) :
    ∃ reopened, Store.openWithRotation crc32 store.dataDir rotation = .ok reopened ∧
      reopened.Represents crc32 (img.tear .clean) ∧ reopened.writer.rotation = rotation := by
  have hend := h.atEnd
  have hlast : (listSegments store.dataDir).getLast?.getD 1 = img.first + img.closed.length := by
    rw [listSegments_eq h.describes (img.length_contents crc32), List.getLast?_range']
    simp
  have hget : store.dataDir[img.first + img.closed.length]? =
      some (frames crc32 img.active ++ img.tail.bytes) := by
    rw [hend.files.getElem?]
    simp
  -- only the last segment is scanned, and it is the active one
  have hrecover := recoverLastSegmentTail_frames crc32 (img.first + img.closed.length)
    (fun p hp => h.framable.1 p (List.mem_append_right _ hp)) h.framable.2 h.bounded
  have hopen : WalWriter.open crc32 store.dataDir rotation =
      .ok ⟨store.dataDir.insert (img.first + img.closed.length) (frames crc32 img.active),
        rotation, img.first + img.closed.length, (frames crc32 img.active).length,
        (frames crc32 img.active).length⟩ := by
    unfold WalWriter.open
    simp only [hlast, hget, hrecover]
    rfl
  -- the cut file replaces the last one, and the cursor is put behind it
  have hcut := hend.files.replace_last (frames crc32 img.active)
  rw [List.length_map] at hcut
  have hatEnd : AtEnd
      ⟨store.dataDir.insert (img.first + img.closed.length) (frames crc32 img.active), rotation,
        img.first + img.closed.length, (frames crc32 img.active).length,
        (frames crc32 img.active).length⟩
      (img.tear .clean).first ((img.tear .clean).closed.map (frames crc32))
      (frames crc32 (img.tear .clean).active ++ (img.tear .clean).tail.bytes) := by
    refine ⟨?_, ?_, ?_⟩
    · simpa [WalImage.tear, Tail.bytes] using hcut
    · simp [WalImage.tear]
    · simp [WalImage.tear, Tail.bytes]
  have hbounded : (img.tear .clean).size crc32 + (img.tear .clean).tail.frameSize < 2 ^ 64 := by
    have := h.bounded
    simp only [WalImage.tear, WalImage.size, Tail.frameSize] at this ⊢
    omega
  refine ⟨_, ?_, of_atEnd hatEnd rfl ⟨h.framable.1, trivial⟩ hbounded, rfl⟩
  rw [Store.openWithRotation, if_neg hrotation, hopen]
  rfl

/-- Reading a represented log from an offset that locates its `k`-th record. -/
theorem Store.Represents.streamFrom_eq {store : Store} {img : WalImage}
    (h : store.Represents crc32 img) {offset : Offset} {k : Nat}
    (hloc : img.Locates crc32 offset k) :
    store.streamFrom crc32 offset = .ok (img.records.drop k, img.tail.readError) :=
  h.describes.streamFrom_eq crc32 h.framable hloc

/-- The writer's end offset is that of the image. -/
theorem Store.Represents.endOffset_eq {store : Store} {img : WalImage}
    (h : store.Represents crc32 img) : store.endOffset = img.endOffset crc32 := by
  rw [Store.endOffset, h.segment_eq, h.size_eq, WalImage.endOffset]

/-- Without an injected failure the log takes every record. -/
theorem Store.append_disabled_isOk (crc32 : Bytes → UInt32) (store : Store) (payload : Bytes) :
    ∃ offset, (store.append crc32 payload .disabled).1 = .ok offset := by
  unfold Store.append
  rw [WalWriter.append_run]
  simp

/-- With one it reports the failure. -/
theorem Store.append_injected (crc32 : Bytes → UInt32) (store : Store) (payload : Bytes)
    {failpoint : AppendFailpoint} (hfail : failpoint ≠ .disabled) :
    (store.append crc32 payload failpoint).1 = .error (.injected failpoint) := by
  unfold Store.append
  rw [WalWriter.append_run]
  cases failpoint <;> simp at hfail ⊢

end LiminalDB
