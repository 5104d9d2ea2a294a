import LiminalDB.Foundations.LittleEndian
import LiminalDB.Foundations.StateResult
import Std.Data.ExtTreeMap

/-! # The segmented write-ahead log: `wal.rs`

The data directory is a map from segment numbers to file contents. A record is framed as a 32-bit
little-endian length, the payload and the CRC-32 of the payload. `WalWriter` owns the last segment:
its file handle has a write cursor of its own, next to the `size` field that the writer uses for
offsets and for rotation, because an append that stops half way moves the first and not the second.

`crc32` is the checksum of the `crc32fast` crate, a parameter throughout: nothing here depends on
which function it is. `Hasher::update` in 8 KiB chunks is the checksum of the whole payload. -/

namespace LiminalDB

/-- Where a record starts: a segment number and a byte position in that segment. -/
structure Offset where
  /-- The number of the segment file. -/
  segment : Nat
  /-- The byte position inside the segment. -/
  position : Nat
  deriving DecidableEq, Repr

/-- `Offset::start()`: the first byte of the first segment. -/
def Offset.start : Offset := ⟨1, 0⟩

/-- The stages at which an append can be made to fail. -/
inductive AppendFailpoint
  /-- No failure. -/
  | disabled
  /-- Before anything is written. -/
  | beforeWrite
  /-- After the length prefix. -/
  | afterLengthWrite
  /-- After the payload, before its checksum. -/
  | afterPayloadWrite
  /-- After the whole frame, before the sync. -/
  | afterWriteBeforeSync
  /-- After the sync, before the acknowledgement. -/
  | afterSyncBeforeAck
  deriving DecidableEq, Repr

/-- The errors of `wal.rs`. The source renders them with the path of the root, which the model does
not carry, so each is named with the numbers its message prints. -/
inductive StoreError
  /-- `wal rotation size must be greater than zero` -/
  | zeroRotation
  /-- An injected append failure; the messages name the stage. -/
  | injected (failpoint : AppendFailpoint)
  /-- `wal frame length overflow in {path} at {frame_start}` -/
  | frameLengthOverflow (segment frameStart : Nat)
  /-- `ambiguous partial WAL payload in {path} at offset {frame_start}` -/
  | ambiguousPartialPayload (segment frameStart : Nat)
  /-- `wal checksum mismatch in {path} at offset {frame_start}` -/
  | checksumMismatchAt (segment frameStart : Nat)
  /-- `wal checksum mismatch`, raised by the reader -/
  | checksumMismatch
  /-- `failed to fill whole buffer`: a read past the end of a file. -/
  | unexpectedEof
  /-- A segment that was listed but cannot be opened. -/
  | segmentMissing (segment : Nat)
  deriving DecidableEq, Repr

/-- The data directory: contents of the segment files by segment number. -/
abbrev WalDir : Type := Std.ExtTreeMap Nat Bytes compare

/-- `list_segments`: the segment numbers in increasing order, or `[1]` for an empty directory. -/
def listSegments (dir : WalDir) : List Nat :=
  if dir.keys.isEmpty then [1] else dir.keys

/-- The active end of the log. -/
structure WalWriter where
  /-- The directory the segments live in. -/
  dataDir : WalDir
  /-- The size above which the writer moves to a new segment. -/
  rotation : UInt64
  /-- The segment the open file handle refers to. -/
  segment : Nat
  /-- The cursor of the open file handle. -/
  cursor : Nat
  /-- The number of bytes of complete frames in the segment, as the writer counts them. -/
  size : Nat

/-- A store is its writer; the snapshot directory belongs to the store's users. -/
structure Store where
  /-- The active end of the log. -/
  writer : WalWriter

/-- The data directory of a store. -/
abbrev Store.dataDir (store : Store) : WalDir := store.writer.dataDir

/-- The bytes one record takes in a segment. -/
def recordSize (payload : Bytes) : Nat := 4 + payload.length + 4

/-! ## Files -/

/-- Write `bytes` at `cursor`: overwrite what is there and grow the file, padding a gap with zeros. -/
def writeAt (content : Bytes) (cursor : Nat) (bytes : Bytes) : Bytes :=
  content.take cursor ++ List.replicate (cursor - content.length) 0 ++ bytes
    ++ content.drop (cursor + bytes.length)

/-- Writing at the end of a file appends. -/
@[simp] theorem writeAt_length (content bytes : Bytes) :
    writeAt content content.length bytes = content ++ bytes := by
  simp [writeAt]

/-- `checked_add` on `u64`. -/
def checkedAdd (a b : Nat) : Option Nat := if a + b < 2 ^ 64 then some (a + b) else none

/-- The end of a frame, `payload_start + payload_len + 4` with both additions checked. -/
def checkedFrameEnd (payloadStart payloadLen : Nat) : Option Nat :=
  (checkedAdd payloadStart payloadLen).bind (checkedAdd · 4)

/-- The two checked additions succeed exactly when the sum is a `u64`. -/
theorem checkedFrameEnd_eq (payloadStart payloadLen : Nat) :
    checkedFrameEnd payloadStart payloadLen =
      if payloadStart + payloadLen + 4 < 2 ^ 64 then some (payloadStart + payloadLen + 4)
      else none := by
  unfold checkedFrameEnd checkedAdd
  by_cases h : payloadStart + payloadLen < 2 ^ 64
  · rw [if_pos h, Option.bind_some]
  · rw [if_neg h, if_neg (by omega), Option.bind_none]

/-- The end of a frame, where its length does not overflow, lies behind its start. -/
theorem lt_of_checkedFrameEnd {start payloadLen frameEnd : Nat}
    (h : checkedFrameEnd (start + 4) payloadLen = some frameEnd) : start < frameEnd := by
  rw [checkedFrameEnd_eq] at h
  split at h
  · cases h; omega
  · cases h

/-! ## Writing -/

/-- The writer after its file handle has taken `bytes` at the cursor. -/
def WalWriter.written (bytes : Bytes) (w : WalWriter) : WalWriter :=
  { w with
    dataDir := w.dataDir.insert w.segment (writeAt (w.dataDir.getD w.segment []) w.cursor bytes)
    cursor := w.cursor + bytes.length }

/-- `write_all` on the writer's file handle. -/
def WalWriter.writeAll (bytes : Bytes) : EStateM StoreError WalWriter PUnit :=
  modify (WalWriter.written bytes)

/-- The writer on a new, empty segment. -/
def WalWriter.rotated (w : WalWriter) : WalWriter :=
  { w with
    dataDir := w.dataDir.insert (w.segment + 1) []
    segment := w.segment + 1
    cursor := 0
    size := 0 }

/-- `rotate`: create the next segment, empty, and make it the active one. -/
def WalWriter.rotate : EStateM StoreError WalWriter PUnit := modify WalWriter.rotated

section

variable (crc32 : Bytes → UInt32)

/-- `WalWriter::append`: frame one payload at the end of the log, in a new segment when the active
one would grow past the rotation size. -/
def WalWriter.append (payload : Bytes) (failpoint : AppendFailpoint) :
    EStateM StoreError WalWriter Offset := do
  if (← get).size + recordSize payload > (← get).rotation.toNat then
    WalWriter.rotate
  let offset : Offset := ⟨(← get).segment, (← get).size⟩
  -- `payload.len() as u32`: the length prefix keeps the low 32 bits
  WalWriter.writeAll (toLeBytes payload.length)
  if failpoint = .afterLengthWrite then
    throw (.injected failpoint)
  WalWriter.writeAll payload
  if failpoint = .afterPayloadWrite then
    throw (.injected failpoint)
  WalWriter.writeAll (toLeBytes (crc32 payload).toNat)
  modify fun w => { w with size := w.size + recordSize payload }
  return offset

/-- `Store::append`, with the stage at which it is made to fail. Syncing does not change what the
file system returns. -/
def Store.append (payload : Bytes) (failpoint : AppendFailpoint) (store : Store) :
    Except StoreError Offset × Store :=
  if failpoint = .beforeWrite then
    (.error (.injected failpoint), store)
  else
    match WalWriter.append crc32 payload failpoint store.writer with
    | .error e w => (.error e, ⟨w⟩)
    | .ok offset w =>
        if failpoint = .afterWriteBeforeSync ∨ failpoint = .afterSyncBeforeAck then
          (.error (.injected failpoint), ⟨w⟩)
        else (.ok offset, ⟨w⟩)

/-- `Store::end_offset`: where the next frame would start in the active segment. -/
def Store.endOffset (store : Store) : Offset := ⟨store.writer.segment, store.writer.size⟩

/-! ## Opening -/

/-- The scan of `recover_last_segment_tail`: check every frame from `position` on, cut a tail that is
a frame without its payload or without all of its checksum, and refuse every other damage. The
result is the file as it is left and the number of valid bytes. -/
def recoverFrom (segment : Nat) (content : Bytes) (position : Nat) :
    Except StoreError (Bytes × Nat) :=
  if position < content.length then
    let frameStart := position
    if content.length - frameStart < 4 then
      -- `truncate_torn_tail`
      .ok (content.take frameStart, frameStart)
    else
      let payloadLen := fromLeBytes (content.drop frameStart)
      let payloadStart := frameStart + 4
      let availableAfterHeader := content.length - payloadStart
      match _hend : checkedFrameEnd payloadStart payloadLen with
      | none => .error (.frameLengthOverflow segment frameStart)
      | some frameEnd =>
          if frameEnd > content.length then
            if availableAfterHeader = 0 ∨
                (availableAfterHeader ≥ payloadLen ∧ availableAfterHeader < payloadLen + 4) then
              .ok (content.take frameStart, frameStart)
            else .error (.ambiguousPartialPayload segment frameStart)
          else
            let payload := (content.drop payloadStart).take payloadLen
            let actual := fromLeBytes (content.drop (payloadStart + payloadLen))
            if (crc32 payload).toNat ≠ actual then
              .error (.checksumMismatchAt segment frameStart)
            else recoverFrom segment content frameEnd
  else .ok (content, position)
termination_by content.length - position
decreasing_by
  have hlt : frameStart < frameEnd := lt_of_checkedFrameEnd _hend
  omega

/-- `recover_last_segment_tail`: scan the whole file. -/
def recoverLastSegmentTail (segment : Nat) (content : Bytes) : Except StoreError (Bytes × Nat) :=
  recoverFrom crc32 segment content 0

/-- `WalWriter::open`: take the last segment, create it when the directory is empty, and otherwise
repair its tail. The cursor is left at the end of the file. -/
def WalWriter.open (dataDir : WalDir) (rotation : UInt64) : Except StoreError WalWriter :=
  let segment := (listSegments dataDir).getLast?.getD 1
  match dataDir[segment]? with
  | none => .ok ⟨dataDir.insert segment [], rotation, segment, 0, 0⟩
  | some content => do
      let (repaired, size) ← recoverLastSegmentTail crc32 segment content
      return ⟨dataDir.insert segment repaired, rotation, segment, repaired.length, size⟩

/-- `Store::open_with_rotation`. -/
def Store.openWithRotation (dataDir : WalDir) (rotation : UInt64) : Except StoreError Store :=
  if rotation = 0 then .error .zeroRotation
  else return ⟨← WalWriter.open crc32 dataDir rotation⟩

end

/-- `DEFAULT_SEGMENT_SIZE`: 32 MiB. -/
def defaultSegmentSize : UInt64 := 32 * 1024 * 1024

end LiminalDB
