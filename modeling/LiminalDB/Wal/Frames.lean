import LiminalDB.Wal.Stream

/-! # Frames and torn tails

The bytes of one record are its `frame`; a segment written without failure is the concatenation
`frames ps` of its records' frames. An append that stops half way leaves a `Tail` behind them. This
file computes what the reader (`readFrame`) and the repair of the last segment (`recoverFrom`) make
of such bytes. -/

namespace LiminalDB

variable (crc32 : Bytes → UInt32)

/-- The bytes of one record: length, payload, checksum. -/
def frame (payload : Bytes) : Bytes :=
  toLeBytes payload.length ++ payload ++ toLeBytes (crc32 payload).toNat

/-- The bytes of a list of records. -/
def frames (payloads : List Bytes) : Bytes := payloads.flatMap (frame crc32)

/-- The frame of a payload is as long as the size that is reckoned for it. -/
@[simp] theorem length_frame (payload : Bytes) :
    (frame crc32 payload).length = recordSize payload := by
  simp [frame, recordSize]
  omega

/-- No payloads have no bytes. -/
@[simp] theorem frames_nil : frames crc32 [] = [] := rfl

/-- The first payload is framed before the others. -/
@[simp] theorem frames_cons (payload : Bytes) (rest : List Bytes) :
    frames crc32 (payload :: rest) = frame crc32 payload ++ frames crc32 rest := rfl

/-- Appending payloads appends their frames. -/
theorem frames_append (ps qs : List Bytes) :
    frames crc32 (ps ++ qs) = frames crc32 ps ++ frames crc32 qs := by
  simp [frames]

/-! ## What the reader makes of a frame -/

/-- Reading exactly what is next in the file. -/
theorem readExact_of_rest {file : ReadHandle} {bytes more : Bytes}
    (h : file.rest = bytes ++ more) :
    file.readExact bytes.length =
      some (bytes, { file with cursor := file.cursor + bytes.length }) := by
  unfold ReadHandle.readExact
  rw [h, if_pos (by simp), List.take_left]

/-- The rest of the file after such a read. -/
theorem rest_advance {file : ReadHandle} {bytes more : Bytes} (h : file.rest = bytes ++ more) :
    ReadHandle.rest { file with cursor := file.cursor + bytes.length } = more := by
  unfold ReadHandle.rest at h ⊢
  rw [← List.drop_drop, h, List.drop_left]

/-- A read that wants more than is left fails. -/
theorem readExact_eq_none {file : ReadHandle} {n : Nat} (h : file.rest.length < n) :
    file.readExact n = none := by
  unfold ReadHandle.readExact
  rw [if_neg (by omega)]

/-- A length prefix below `2 ^ 32` is read back as it was written. -/
theorem fromLeBytes_length {payload : Bytes} (h : payload.length < 2 ^ 32) :
    fromLeBytes (toLeBytes payload.length) = payload.length := by
  rw [fromLeBytes_toLeBytes, Nat.mod_eq_of_lt h]

/-- The CRC-32 is a `u32`: writing it and reading it back loses nothing. -/
theorem fromLeBytes_crc32 (payload : Bytes) :
    fromLeBytes (toLeBytes (crc32 payload).toNat) = (crc32 payload).toNat := by
  rw [fromLeBytes_toLeBytes, Nat.mod_eq_of_lt (crc32 payload).toNat_lt]

/-- The reader gets back the payload of a frame and stops right behind it. -/
theorem readFrame_frame {file : ReadHandle} {payload more : Bytes} (hlen : payload.length < 2 ^ 32)
    (h : file.rest = frame crc32 payload ++ more) :
    WalStream.readFrame crc32 file =
      .record payload { file with cursor := file.cursor + recordSize payload } := by
  simp only [frame, List.append_assoc] at h
  have h₁ := rest_advance h
  have h₂ := rest_advance h₁
  have r₁ : file.readExact 4 = _ := readExact_of_rest h
  have r₂ := readExact_of_rest h₁
  have r₃ : ReadHandle.readExact _ 4 = _ := readExact_of_rest h₂
  unfold WalStream.readFrame
  simp only [r₁, fromLeBytes_length hlen, r₂, r₃]
  rw [if_neg (by rw [fromLeBytes_crc32]; simp)]
  simp only [length_toLeBytes, recordSize, Nat.add_assoc]

/-- With no complete length prefix left, the reader takes the segment to be finished. -/
theorem readFrame_eof {file : ReadHandle} (h : file.rest.length < 4) :
    WalStream.readFrame crc32 file = .eof := by
  unfold WalStream.readFrame
  rw [readExact_eq_none h]

/-! ## Torn tails -/

/-- What a failed append can leave behind the complete frames of a segment. -/
inductive Tail
  /-- Nothing. -/
  | clean
  /-- The length prefix of the record. -/
  | lengthOnly (payload : Bytes)
  /-- The length prefix and the payload, but no checksum. -/
  | noChecksum (payload : Bytes)

namespace Tail

/-- The bytes of the tail. -/
def bytes : Tail → Bytes
  | clean => []
  | lengthOnly payload => toLeBytes payload.length
  | noChecksum payload => toLeBytes payload.length ++ payload

/-- The size of the frame the tail is the beginning of. -/
def frameSize : Tail → Nat
  | clean => 0
  | lengthOnly payload => recordSize payload
  | noChecksum payload => recordSize payload

/-- The record of the tail has a length that its prefix can hold. -/
def Fits : Tail → Prop
  | clean => True
  | lengthOnly payload => payload.length < 2 ^ 32
  | noChecksum payload => payload.length < 2 ^ 32

/-- The error a reader ends with at the tail: it sees a length prefix and misses the rest. -/
def readError : Tail → Option StoreError
  | clean => none
  | lengthOnly _ => some .unexpectedEof
  | noChecksum _ => some .unexpectedEof

end Tail

/-- The reader misses the checksum of a record whose payload is the end of the file. -/
theorem readFrame_noChecksum {file : ReadHandle} {payload : Bytes} (hlen : payload.length < 2 ^ 32)
    (h : file.rest = toLeBytes payload.length ++ payload) :
    WalStream.readFrame crc32 file = .error .unexpectedEof := by
  have r₁ : file.readExact 4 = _ := readExact_of_rest h
  have h₁ := (rest_advance h).trans (List.append_nil payload).symm
  have r₂ := readExact_of_rest h₁
  have h₂ := rest_advance h₁
  have r₃ := readExact_eq_none (n := 4) (by rw [h₂]; simp)
  unfold WalStream.readFrame
  simp only [r₁, fromLeBytes_length hlen, r₂, r₃]

/-- At a torn record the reader reports an unexpected end of file. -/
theorem readFrame_tail {file : ReadHandle} {tail : Tail} {e : StoreError} (hfits : tail.Fits)
    (htail : tail.readError = some e) (h : file.rest = tail.bytes) :
    WalStream.readFrame crc32 file = .error e := by
  cases tail with
  | clean => cases htail
  | lengthOnly payload =>
      cases htail
      cases payload with
      | nil =>
          -- the empty payload is read, and then its checksum is missing
          exact readFrame_noChecksum crc32 hfits h
      | cons b rest =>
          have h' : file.rest = toLeBytes (b :: rest).length ++ [] := by simpa [Tail.bytes] using h
          have r₁ : file.readExact 4 = _ := readExact_of_rest h'
          have h₁ := rest_advance h'
          have r₂ := readExact_eq_none (n := (b :: rest).length) (by rw [h₁]; simp)
          unfold WalStream.readFrame
          simp only [r₁, fromLeBytes_length hfits, r₂]
  | noChecksum payload =>
      cases htail
      exact readFrame_noChecksum crc32 hfits h

/-! ## What the repair makes of a segment -/

/-- The frame end the repair computes for a record that starts at `start`. -/
theorem checkedFrameEnd_record {start : Nat} {payload : Bytes}
    (h : start + recordSize payload < 2 ^ 64) :
    checkedFrameEnd (start + 4) payload.length = some (start + recordSize payload) := by
  have hsum : start + 4 + payload.length + 4 = start + recordSize payload := by
    simp only [recordSize]; omega
  rw [checkedFrameEnd_eq, hsum, if_pos h]

/-- One step of the repair over a complete frame. -/
theorem recoverFrom_frame (segment : Nat) (before after : Bytes) {payload : Bytes}
    (hlen : payload.length < 2 ^ 32)
    (hsize : before.length + recordSize payload < 2 ^ 64) :
    recoverFrom crc32 segment (before ++ frame crc32 payload ++ after) before.length =
      recoverFrom crc32 segment (before ++ frame crc32 payload ++ after)
        (before.length + recordSize payload) := by
  -- what the scan finds at the start of the frame, behind its header and behind its payload
  have hdrop : (before ++ frame crc32 payload ++ after).drop before.length =
      frame crc32 payload ++ after := by
    rw [List.append_assoc, List.drop_left]
  have hword : fromLeBytes (frame crc32 payload ++ after) = payload.length := by
    rw [frame, List.append_assoc, List.append_assoc, fromLeBytes_toLeBytes_append,
      Nat.mod_eq_of_lt hlen]
  have hpayload : (before ++ frame crc32 payload ++ after).drop (before.length + 4) =
      payload ++ (toLeBytes (crc32 payload).toNat ++ after) := by
    rw [← List.drop_drop, hdrop, frame, List.append_assoc, List.append_assoc]
    exact List.drop_left' (length_toLeBytes payload.length)
  have hcrc : (before ++ frame crc32 payload ++ after).drop (before.length + 4 + payload.length) =
      toLeBytes (crc32 payload).toNat ++ after := by
    rw [← List.drop_drop, hpayload, List.drop_left]
  have hend := checkedFrameEnd_record hsize
  have htotal : (before ++ frame crc32 payload ++ after).length =
      before.length + recordSize payload + after.length := by
    simp [Nat.add_assoc]
  rw [recoverFrom]
  have hpos : before.length < (before ++ frame crc32 payload ++ after).length := by
    rw [htotal]; simp only [recordSize]; omega
  rw [if_pos hpos]
  dsimp only
  rw [if_neg (by rw [htotal]; simp only [recordSize]; omega)]
  rw [hdrop, hword]
  -- the end of the frame does not overflow, it is in the file, and the checksum agrees
  split
  · rename_i hnone
    rw [hend] at hnone
    cases hnone
  · rename_i frameEnd hsome
    rw [hend] at hsome
    cases hsome
    rw [if_neg (by rw [htotal]; omega), hpayload, List.take_left, hcrc,
      fromLeBytes_append (by simp), fromLeBytes_crc32, if_neg (by simp)]

/-- The repair stops at the end of the file. -/
theorem recoverFrom_end (segment : Nat) (content : Bytes) :
    recoverFrom crc32 segment content content.length = .ok (content, content.length) := by
  rw [recoverFrom, if_neg (by omega)]

/-- The repair cuts a torn tail. -/
theorem recoverFrom_tail (segment : Nat) {before : Bytes} {tail : Tail} (hfits : tail.Fits)
    (hsize : before.length + tail.frameSize < 2 ^ 64) :
    recoverFrom crc32 segment (before ++ tail.bytes) before.length = .ok (before, before.length) := by
  -- the two torn shapes: `avail` bytes after the header, none of them or the whole payload
  have torn : ∀ (payload more : Bytes), payload.length < 2 ^ 32 →
      before.length + recordSize payload < 2 ^ 64 → (more = [] ∨ more = payload) →
      recoverFrom crc32 segment (before ++ (toLeBytes payload.length ++ more)) before.length =
        .ok (before, before.length) := by
    intro payload more hlen hsize hmore
    have hdrop : (before ++ (toLeBytes payload.length ++ more)).drop before.length =
        toLeBytes payload.length ++ more := List.drop_left
    have hword : fromLeBytes (toLeBytes payload.length ++ more) = payload.length := by
      rw [fromLeBytes_toLeBytes_append, Nat.mod_eq_of_lt hlen]
    have hend := checkedFrameEnd_record hsize
    have htotal : (before ++ (toLeBytes payload.length ++ more)).length =
        before.length + 4 + more.length := by simp; omega
    have hmoreLen : more.length = 0 ∨ more.length = payload.length := by
      rcases hmore with rfl | rfl
      · exact .inl rfl
      · exact .inr rfl
    rw [recoverFrom, if_pos (by rw [htotal]; omega)]
    dsimp only
    rw [if_neg (by rw [htotal]; omega), hdrop, hword]
    split
    · rename_i hnone
      rw [hend] at hnone
      cases hnone
    · rename_i frameEnd hsome
      rw [hend] at hsome
      cases hsome
      rw [if_pos (by rw [htotal, recordSize]; omega), if_pos (by rw [htotal]; omega),
        List.take_left]
  cases tail with
  | clean =>
      rw [Tail.bytes, List.append_nil]
      exact recoverFrom_end crc32 segment before
  | lengthOnly payload =>
      simpa [Tail.bytes] using torn payload [] hfits hsize (.inl rfl)
  | noChecksum payload => exact torn payload payload hfits hsize (.inr rfl)

/-- The scan passes frames that are whole. -/
theorem recoverFrom_frames (segment : Nat) (more : Bytes) (done : List Bytes) {ps : List Bytes}
    (hlen : ∀ p ∈ ps, p.length < 2 ^ 32) (hsize : (frames crc32 (done ++ ps)).length < 2 ^ 64) :
    recoverFrom crc32 segment (frames crc32 (done ++ ps) ++ more) (frames crc32 done).length =
      recoverFrom crc32 segment (frames crc32 (done ++ ps) ++ more)
        (frames crc32 (done ++ ps)).length := by
  induction ps generalizing done with
  | nil => rw [List.append_nil]
  | cons p rest ih =>
      have hsplit : frames crc32 (done ++ p :: rest) ++ more =
          frames crc32 done ++ frame crc32 p ++ (frames crc32 rest ++ more) := by
        simp [frames_append, List.append_assoc]
      have hdone : (frames crc32 (done ++ [p])).length =
          (frames crc32 done).length + recordSize p := by simp [frames_append]
      have hlist : done ++ [p] ++ rest = done ++ p :: rest := by simp
      have hstep := recoverFrom_frame crc32 segment (frames crc32 done) (frames crc32 rest ++ more)
        (hlen p List.mem_cons_self) (by
          simp only [frames_append, frames_cons, List.length_append, length_frame] at hsize
          omega)
      have hrec := ih (done ++ [p]) (fun q hq => hlen q (List.mem_cons_of_mem _ hq))
        (by rw [hlist]; exact hsize)
      rw [hlist, hdone] at hrec
      rw [← hrec, hsplit, hstep]

/-- **Repair of a segment.** Complete frames stay, a torn tail is cut, and the size is that of the
complete frames. -/
theorem recoverLastSegmentTail_frames (segment : Nat) {ps : List Bytes} {tail : Tail}
    (hlen : ∀ p ∈ ps, p.length < 2 ^ 32) (hfits : tail.Fits)
    (hsize : (frames crc32 ps).length + tail.frameSize < 2 ^ 64) :
    recoverLastSegmentTail crc32 segment (frames crc32 ps ++ tail.bytes) =
      .ok (frames crc32 ps, (frames crc32 ps).length) := by
  have hscan := recoverFrom_frames crc32 segment tail.bytes [] hlen
    (by rw [List.nil_append]; omega)
  rw [List.nil_append, frames_nil, List.length_nil] at hscan
  rw [recoverLastSegmentTail, hscan]
  exact recoverFrom_tail crc32 segment hfits hsize

end LiminalDB
