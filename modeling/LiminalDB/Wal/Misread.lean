import LiminalDB.Wal.Writer

/-! # A record too long for its prefix

The writer keeps the low 32 bits of a length and writes the whole payload. Of a payload of `2 ^ 32`
bytes or more the reader takes the beginning, as long as the prefix says, and for its checksum the four
bytes of the payload behind that. `Misread` says that the files hold such a frame behind frames that
are whole. It stays there whatever is appended and however often the root is opened: the repair of the
last segment refuses the file or keeps what it has scanned. So the reader always delivers the beginning
of the payload as a record, or stops with an error. -/

namespace LiminalDB

variable (crc32 : Bytes → UInt32)

/-- Behind frames that are whole, the files hold a frame of `payload` with whatever checksum. -/
def Misread (payload : Bytes) (files : List Bytes) : Prop :=
  ∃ (closed : List (List Bytes)) (active : List Bytes) (checksum more : Bytes) (later : List Bytes),
    files = closed.map (frames crc32) ++
      (frames crc32 active ++ (toLeBytes payload.length ++ (payload ++ (checksum ++ more)))) :: later ∧
    checksum.length = 4 ∧ (∀ p ∈ closed.flatten ++ active, p.length < 2 ^ 32) ∧
    payload.length < 2 ^ 32 ∧ (frames crc32 active).length + recordSize payload < 2 ^ 64

variable {crc32}

/-! ## One frame with whatever checksum -/

/-- Four bytes are the word they are read as. -/
theorem toLeBytes_fromLeBytes {bytes : Bytes} (h : bytes.length = 4) :
    toLeBytes (fromLeBytes bytes) = bytes := by
  match bytes, h with
  | [b₀, b₁, b₂, b₃], _ =>
      have h₀ := b₀.toNat_lt
      have h₁ := b₁.toNat_lt
      have h₂ := b₂.toNat_lt
      have h₃ := b₃.toNat_lt
      simp only [toLeBytes, fromLeBytes, List.cons.injEq, and_true]
      refine ⟨?_, ?_, ?_, ?_⟩ <;>
      · apply UInt8.toNat_inj.mp
        rw [UInt8.toNat_ofNat']
        omega

/-- With the right checksum it is the frame of the payload. -/
theorem eq_frame {payload checksum : Bytes} (hlength : checksum.length = 4)
    (hcrc : (crc32 payload).toNat = fromLeBytes checksum) (more : Bytes) :
    toLeBytes payload.length ++ (payload ++ (checksum ++ more)) = frame crc32 payload ++ more := by
  rw [frame, hcrc, toLeBytes_fromLeBytes hlength]
  simp only [List.append_assoc]

/-- With another one the reader stops. -/
theorem readFrame_mismatch {file : ReadHandle} {payload checksum more : Bytes}
    (hlen : payload.length < 2 ^ 32) (hlength : checksum.length = 4)
    (hcrc : (crc32 payload).toNat ≠ fromLeBytes checksum)
    (h : file.rest = toLeBytes payload.length ++ (payload ++ (checksum ++ more))) :
    WalStream.readFrame crc32 file = .error .checksumMismatch := by
  have h₁ := rest_advance h
  have h₂ := rest_advance h₁
  have r₁ : file.readExact 4 = _ := readExact_of_rest h
  have r₂ := readExact_of_rest h₁
  have r₃ := readExact_of_rest h₂
  rw [hlength] at r₃
  unfold WalStream.readFrame
  simp only [r₁, fromLeBytes_length hlen, r₂, r₃, if_pos hcrc]

/-- With another one the repair refuses the file. -/
theorem recoverFrom_mismatch (segment : Nat) {before payload checksum more : Bytes}
    (hlen : payload.length < 2 ^ 32) (hlength : checksum.length = 4)
    (hcrc : (crc32 payload).toNat ≠ fromLeBytes checksum)
    (hsize : before.length + recordSize payload < 2 ^ 64) :
    recoverFrom crc32 segment
        (before ++ (toLeBytes payload.length ++ (payload ++ (checksum ++ more)))) before.length =
      .error (.checksumMismatchAt segment before.length) := by
  -- The three fields of the frame, as they are read one behind the other.
  have hdrop : (before ++ (toLeBytes payload.length ++ (payload ++ (checksum ++ more)))).drop
      before.length = toLeBytes payload.length ++ (payload ++ (checksum ++ more)) := List.drop_left
  have hpayload : (before ++ (toLeBytes payload.length ++ (payload ++ (checksum ++ more)))).drop
      (before.length + 4) = payload ++ (checksum ++ more) := by
    rw [← List.drop_drop, hdrop]
    exact List.drop_left' (length_toLeBytes _)
  have hchecksum : (before ++ (toLeBytes payload.length ++ (payload ++ (checksum ++ more)))).drop
      (before.length + 4 + payload.length) = checksum ++ more := by
    rw [← List.drop_drop, hpayload, List.drop_left]
  -- The frame is complete, so that only its checksum can be wrong.
  have htotal : (before ++ (toLeBytes payload.length ++ (payload ++ (checksum ++ more)))).length =
      before.length + recordSize payload + more.length := by
    simp only [List.length_append, length_toLeBytes, recordSize, hlength]
    omega
  have hword : fromLeBytes (toLeBytes payload.length ++ (payload ++ (checksum ++ more))) =
      payload.length := by
    rw [fromLeBytes_toLeBytes_append, Nat.mod_eq_of_lt hlen]
  have hend := checkedFrameEnd_record hsize
  rw [recoverFrom, if_pos (by rw [htotal]; simp only [recordSize]; omega)]
  dsimp only
  rw [if_neg (by rw [htotal]; simp only [recordSize]; omega), hdrop, hword]
  split
  · rename_i hnone
    rw [hend] at hnone
    cases hnone
  · rename_i frameEnd hsome
    rw [hend] at hsome
    cases hsome
    rw [if_neg (by rw [htotal]; omega), hpayload, List.take_left, hchecksum,
      fromLeBytes_append (by omega), if_pos hcrc]

/-! ## The repair -/

/-- The repair leaves a beginning of the file, no shorter than what it has scanned. -/
theorem recoverFrom_eq_take {segment : Nat} {content : Bytes} {position : Nat}
    (hposition : position ≤ content.length) {repaired : Bytes} {size : Nat}
    (h : recoverFrom crc32 segment content position = .ok (repaired, size)) :
    repaired = content.take size ∧ position ≤ size := by
  fun_induction recoverFrom crc32 segment content position with
  | case1 position hlt frameStart hshort =>
      obtain ⟨rfl, hsize⟩ := Prod.mk.inj (Except.ok.inj h)
      exact ⟨by rw [← hsize], hsize.le⟩
  | case2 => cases h
  | case3 position hlt frameStart =>
      obtain ⟨rfl, hsize⟩ := Prod.mk.inj (Except.ok.inj h)
      exact ⟨by rw [← hsize], hsize.le⟩
  | case4 => cases h
  | case5 => cases h
  | case6 position hlt frameStart _ _ _ frameEnd hend hle _ _ _ ih =>
      obtain ⟨htake, hsize⟩ := ih (Nat.le_of_not_lt hle) h
      have hstart : position < frameEnd := lt_of_checkedFrameEnd hend
      exact ⟨htake, le_trans hstart.le hsize⟩
  | case7 position hend =>
      cases h
      exact ⟨(List.take_of_length_le (Nat.le_of_not_lt hend)).symm, le_rfl⟩

namespace Misread

variable {payload : Bytes} {files before : List Bytes} {content : Bytes}

/-! ## It stays there -/

/-- Behind another file. -/
theorem push (h : Misread crc32 payload files) (content : Bytes) :
    Misread crc32 payload (files ++ [content]) := by
  obtain ⟨closed, active, checksum, more, later, rfl, hrest⟩ := h
  exact ⟨closed, active, checksum, more, later ++ [content], by simp, hrest⟩

/-- Either the last file is the one that is misread, or one before it is. -/
theorem last_cases (h : Misread crc32 payload (before ++ [content])) :
    (∀ content', Misread crc32 payload (before ++ [content'])) ∨
      ∃ (closed : List (List Bytes)) (active : List Bytes) (checksum more : Bytes),
        before = closed.map (frames crc32) ∧
        content = frames crc32 active ++
          (toLeBytes payload.length ++ (payload ++ (checksum ++ more))) ∧
        checksum.length = 4 ∧ (∀ p ∈ closed.flatten ++ active, p.length < 2 ^ 32) ∧
        payload.length < 2 ^ 32 ∧ (frames crc32 active).length + recordSize payload < 2 ^ 64 := by
  obtain ⟨closed, active, checksum, more, later, hfiles, hrest⟩ := h
  rcases List.eq_nil_or_concat later with rfl | ⟨later', last, rfl⟩
  · obtain ⟨hbefore, hcontent⟩ := List.append_inj' hfiles rfl
    exact .inr ⟨closed, active, checksum, more, hbefore, List.singleton_inj.mp hcontent, hrest⟩
  · rw [List.concat_eq_append, ← List.cons_append, ← List.append_assoc] at hfiles
    obtain ⟨hbefore, -⟩ := List.append_inj' hfiles rfl
    refine .inl fun content' => ⟨closed, active, checksum, more, later' ++ [content'], ?_, hrest⟩
    rw [hbefore]
    simp

/-- Behind more bytes in the last file. -/
theorem extend (h : Misread crc32 payload (before ++ [content])) (bytes : Bytes) :
    Misread crc32 payload (before ++ [content ++ bytes]) := by
  rcases h.last_cases with hother | ⟨closed, active, checksum, more, rfl, rfl, hrest⟩
  · exact hother _
  · exact ⟨closed, active, checksum, more ++ bytes, [], by simp, hrest⟩

/-- After the repair of the last file. -/
theorem repaired (h : Misread crc32 payload (before ++ [content])) {segment size : Nat}
    {repaired : Bytes} (hrecover : recoverLastSegmentTail crc32 segment content = .ok (repaired, size)) :
    Misread crc32 payload (before ++ [repaired]) := by
  rcases h.last_cases with hother | ⟨closed, active, checksum, more, rfl, rfl, hlength, hlen, hp, hsize⟩
  · exact hother _
  · have hactive : ∀ p ∈ active, p.length < 2 ^ 32 := fun p hp => hlen p (List.mem_append_right _ hp)
    have hscan := recoverFrom_frames crc32 segment
      (toLeBytes payload.length ++ (payload ++ (checksum ++ more))) [] hactive
      (by rw [List.nil_append]; omega)
    rw [List.nil_append, frames_nil, List.length_nil] at hscan
    rw [recoverLastSegmentTail, hscan] at hrecover
    by_cases hcrc : (crc32 payload).toNat = fromLeBytes checksum
    · -- the scan takes the beginning for a record and keeps it
      rw [eq_frame hlength hcrc] at hrecover
      rw [← List.append_assoc] at hrecover
      rw [recoverFrom_frame crc32 segment (frames crc32 active) more hp hsize] at hrecover
      obtain ⟨rfl, hle⟩ := recoverFrom_eq_take (by simp) hrecover
      refine ⟨closed, active, checksum, more.take (size - ((frames crc32 active).length
        + recordSize payload)), [], ?_, hlength, hlen, hp, hsize⟩
      rw [eq_frame hlength hcrc, ← List.append_assoc, List.take_append, List.take_of_length_le]
      · simp
      · simpa using hle
    · rw [recoverFrom_mismatch segment hp hlength hcrc hsize] at hrecover
      cases hrecover

end Misread

/-! ## What the reader makes of it -/

section Reader

variable {s : WalStream} {dir : WalDir} {first n : Nat} {content : Bytes}

/-- From the first segment on the reader delivers the segments that are whole and gets to the next. -/
theorem InSegment.collect_closed {closed : List (List Bytes)} {start : Bytes} {later : List Bytes}
    (hdir : Consecutive dir first (closed.map (frames crc32) ++ content :: later))
    (hlen : ∀ p ∈ closed.flatten, p.length < 2 ^ 32) (hn : closed.length < n)
    (hstart : dir[first]? = some start) (h : InSegment s dir first n 0 ⟨start, 0⟩) :
    ∃ s', InSegment s' dir first n closed.length ⟨content, 0⟩ ∧
      s.collect crc32 = (closed.flatten ++ (s'.collect crc32).1, (s'.collect crc32).2) := by
  -- segment by segment
  induction closed using List.reverseRecOn generalizing content later with
  | nil =>
      have hfirst := hdir.getElem? 0
      rw [Nat.add_zero, hstart] at hfirst
      obtain rfl : start = content := by simpa using hfirst
      exact ⟨s, h, rfl⟩
  | append_singleton closed ps ih =>
      rw [List.map_append, List.append_assoc, List.map_singleton, List.singleton_append] at hdir
      rw [List.length_append, List.length_singleton] at hn
      obtain ⟨s', hs', hcollect⟩ := ih hdir (fun p hp => hlen p (by simp [hp])) (by omega)
      have hps : ∀ p ∈ ps, p.length < 2 ^ 32 := fun p hp => hlen p (by simp [hp])
      have hrest : ReadHandle.rest ⟨frames crc32 ps, 0⟩ = frames crc32 ps ++ [] := by
        rw [ReadHandle.rest, List.drop_zero, List.append_nil]
      obtain ⟨s'', file, hs'', hfile, hcollect'⟩ := hs'.collect_frames hps hrest
      have hcontent : dir[first + (closed.length + 1)]? = some content := by
        rw [hdir.getElem?]
        simp
      obtain ⟨s₃, hs₃, hnext⟩ := hs''.collect_next_segment hfile hn hcontent
      refine ⟨s₃, by simpa using hs₃, ?_⟩
      rw [hcollect, hcollect', hnext]
      simp

end Reader

/-- **Reading such files from the start.** The reader delivers the beginning of the payload as a record,
or stops with an error. -/
theorem Misread.streamFrom {store : Store} {payload : Bytes} {files : List Bytes}
    (h : Misread crc32 payload files) (hdir : Consecutive store.dataDir 1 files) :
    ∃ records stop, store.streamFrom crc32 Offset.start = .ok (records, stop) ∧
      (payload ∈ records ∨ stop.isSome = true) := by
  obtain ⟨closed, active, checksum, more, later, rfl, hlength, hlen, hp, -⟩ := h
  have hlast : closed.length < closed.length + later.length + 1 := by omega
  obtain ⟨start, hstart⟩ : ∃ start, store.dataDir[1]? = some start := by
    have hfirst := hdir.getElem? 0
    rw [Nat.add_zero] at hfirst
    rw [hfirst, List.getElem?_eq_getElem (by simp)]
    exact ⟨_, rfl⟩
  obtain ⟨s, hnew, hs⟩ := WalStream.new_eq hdir (i := 0) (n := closed.length + later.length)
    (by simp; omega) hstart (by omega) 0
  -- The segments that are closed are read, and then the frames before the damaged one.
  obtain ⟨s', hs', hcollect⟩ := hs.collect_closed hdir
    (fun p hp => hlen p (List.mem_append_left _ hp)) hlast hstart
  obtain ⟨s'', file, hs'', hfile, hcollect'⟩ := hs'.collect_frames
    (fun p hp => hlen p (List.mem_append_right _ hp)) (by rw [ReadHandle.rest, List.drop_zero])
  have hstream : store.streamFrom crc32 Offset.start = .ok (s.collect crc32) := by
    unfold Store.streamFrom
    show (do
      let stream ← WalStream.new store.dataDir ⟨1 + 0, 0⟩
      return stream.collect crc32) = _
    rw [hnew]
    rfl
  rw [hstream, hcollect, hcollect']
  refine ⟨_, _, rfl, ?_⟩
  -- Where the checksum happens to fit, the payload is read as it is.
  by_cases hcrc : (crc32 payload).toNat = fromLeBytes checksum
  · rw [eq_frame hlength hcrc] at hfile
    have hone : file.rest = frames crc32 [payload] ++ more := by simpa using hfile
    obtain ⟨s₃, file₃, -, -, hrecord⟩ := hs''.collect_frames (by simpa using hp) hone
    left
    simp [hrecord]
  · right
    have hread := readFrame_mismatch hp hlength hcrc hfile
    simp [collect_eq, next_of_file crc32 hs''.file_eq, hread]

/-! ## Stores -/

variable (crc32) in
/-- The writer is at the end of such files. -/
def Store.Misreads (store : Store) (payload : Bytes) : Prop :=
  ∃ before content, AtEnd store.writer 1 before content ∧ Misread crc32 payload (before ++ [content])

variable {store : Store} {payload : Bytes}

/-- Appending leaves it where it is. -/
theorem Store.Misreads.append (h : store.Misreads crc32 payload) (bytes : Bytes) :
    (store.append crc32 bytes .disabled).2.Misreads crc32 payload := by
  obtain ⟨before, content, hend, hmisread⟩ := h
  have hroom : ∃ before content, AtEnd (if store.writer.size + recordSize bytes >
      store.writer.rotation.toNat then store.writer.rotated else store.writer) 1 before content ∧
      Misread crc32 payload (before ++ [content]) := by
    split
    · exact ⟨_, [], hend.rotated, hmisread.push []⟩
    · exact ⟨before, content, hend, hmisread⟩
  unfold Store.append
  rw [WalWriter.append_run]
  simp only [reduceCtorEq, if_false, or_self]
  generalize (if store.writer.size + recordSize bytes > store.writer.rotation.toNat
    then store.writer.rotated else store.writer) = w at hroom
  obtain ⟨before, content, hend, hmisread⟩ := hroom
  have hwritten := ((hend.written (toLeBytes bytes.length)).written bytes).written
    (toLeBytes (crc32 bytes).toNat)
  exact ⟨before, _, ⟨hwritten.files, hwritten.segment_eq, hwritten.cursor_eq⟩,
    ((hmisread.extend _).extend _).extend _⟩

/-- The prefix keeps the low 32 bits. -/
theorem toLeBytes_mod (n : Nat) : toLeBytes (n % 2 ^ 32) = toLeBytes n := by
  simp only [toLeBytes, List.cons.injEq, and_true]
  refine ⟨?_, ?_, ?_, ?_⟩ <;>
  · apply UInt8.toNat_inj.mp
    rw [UInt8.toNat_ofNat', UInt8.toNat_ofNat']
    omega

/-- **A record too long for its prefix** is misread. -/
theorem Store.Represents.misreads_append {img : WalImage} (h : store.Represents crc32 img)
    (hfirst : img.first = 1) (hclean : img.tail = .clean) {bytes : Bytes}
    (hlen : 2 ^ 32 ≤ bytes.length) :
    (store.append crc32 bytes .disabled).2.Misreads crc32
      (bytes.take (bytes.length % 2 ^ 32)) := by
  obtain ⟨hend, -, -⟩ := h.atEnd_makeRoom hclean bytes
  have hrecords := h.records_lt store.writer.rotation bytes
  have hroomFirst := img.makeRoom_first crc32 store.writer.rotation bytes
  have hbegin : (bytes.take (bytes.length % 2 ^ 32)).length = bytes.length % 2 ^ 32 := by
    rw [List.length_take]
    omega
  -- the beginning ends below `2 ^ 64`, as the rotation size does
  have hsize : (frames crc32 (img.makeRoom crc32 store.writer.rotation bytes).active).length +
      recordSize (bytes.take (bytes.length % 2 ^ 32)) < 2 ^ 64 := by
    have hrot := store.writer.rotation.toNat_lt
    simp only [recordSize, hbegin]
    unfold WalImage.makeRoom
    split
    · simp only [frames_nil, List.length_nil]
      omega
    · rename_i hfits
      simp only [WalImage.size, recordSize] at hfits
      omega
  unfold Store.append
  rw [WalWriter.append_run]
  simp only [reduceCtorEq, if_false, or_self]
  generalize (if store.writer.size + recordSize bytes > store.writer.rotation.toNat
    then store.writer.rotated else store.writer) = w at hend
  generalize img.makeRoom crc32 store.writer.rotation bytes = room at *
  rw [hroomFirst, hfirst] at hend
  have hwritten := ((hend.written (toLeBytes bytes.length)).written bytes).written
    (toLeBytes (crc32 bytes).toNat)
  refine ⟨_, _, ⟨hwritten.files, hwritten.segment_eq, hwritten.cursor_eq⟩, room.closed, room.active,
    (bytes.drop (bytes.length % 2 ^ 32)).take 4,
    (bytes.drop (bytes.length % 2 ^ 32)).drop 4 ++ toLeBytes (crc32 bytes).toNat, [], ?_, ?_, hrecords,
    ?_, hsize⟩
  · rw [hbegin, toLeBytes_mod, ← List.append_assoc (List.take 4 _), List.take_append_drop,
      ← List.append_assoc (List.take _ bytes), List.take_append_drop]
    simp only [List.append_assoc]
  · rw [List.length_take, List.length_drop]
    omega
  · rw [hbegin]
    omega

/-- **Opening** fails, or the reader still trips over it. -/
theorem Store.Misreads.openWithRotation (h : store.Misreads crc32 payload) {rotation : UInt64}
    {reopened : Store} (hopen : Store.openWithRotation crc32 store.dataDir rotation = .ok reopened) :
    ∃ records stop, reopened.streamFrom crc32 Offset.start = .ok (records, stop) ∧
      (payload ∈ records ∨ stop.isSome = true) := by
  obtain ⟨before, content, hend, hmisread⟩ := h
  have hlast : (listSegments store.dataDir).getLast?.getD 1 = 1 + before.length := by
    rw [listSegments_eq hend.files List.length_append, List.getLast?_range']
    simp [Nat.add_comm]
  have hget : store.dataDir[1 + before.length]? = some content := by
    rw [hend.files.getElem?]
    simp
  unfold Store.openWithRotation at hopen
  split at hopen
  · cases hopen
  · obtain ⟨w, hw, hreopened⟩ := result_bind_eq_ok.mp hopen
    obtain rfl := Except.ok.inj hreopened
    unfold WalWriter.open at hw
    simp only [hlast, hget] at hw
    obtain ⟨⟨repaired, size⟩, hrecover, hw⟩ := result_bind_eq_ok.mp hw
    obtain rfl := Except.ok.inj hw
    exact (hmisread.repaired hrecover).streamFrom (hend.files.replace_last repaired)

end LiminalDB
