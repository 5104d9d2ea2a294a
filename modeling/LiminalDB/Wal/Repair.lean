import LiminalDB.Wal.Crc32
import LiminalDB.Wal.Misread
import LiminalDB.Foundations.StateResult

/-! # The repair, statement by statement

`recoverLastSegmentTail` says what the repair makes of the bytes of a segment. Here the function of the
source runs on an open file: it reads through a cursor, checks the payload in pieces, computes with
`u64` numbers that may overflow, and cuts the file in place. `repair_settles` says that it terminates,
does not overflow and ends as `recoverLastSegmentTail` says; a file that it refuses keeps its bytes.
`repair_exact_iff` says for which frames every cut is repaired exactly. -/

namespace LiminalDB

/-- An open file. -/
structure OpenFile where
  /-- The bytes of the file. -/
  content : Bytes
  /-- Where the next read starts. -/
  cursor : Nat

/-- How a run of the repair can fail. -/
inductive RepairFault
  /-- It returns an error. -/
  | refused (error : StoreError)
  /-- A `u64` computation overflows. -/
  | overflow

/-- A computation on the open file; a failure keeps what has been done to the file. -/
abbrev Repair (α : Type) : Type := EStateM RepairFault OpenFile α

namespace Repair

/-- `a + b` on `u64` -/
def add (a b : Nat) : Repair Nat := if a + b < 2 ^ 64 then pure (a + b) else throw .overflow

/-- `a - b` on `u64` -/
def sub (a b : Nat) : Repair Nat := if b ≤ a then pure (a - b) else throw .overflow

/-- `read_exact`: the next `n` bytes, or the error of a file that ends before. -/
def readExact (n : Nat) : Repair Bytes := do
  let file ← get
  let bytes := (file.content.drop file.cursor).take n
  if bytes.length < n then
    throw (.refused .unexpectedEof)
  set { file with cursor := file.cursor + n }
  return bytes

/-- `truncate_torn_tail`; `set_len` would pad a shorter file with zeros. -/
def truncateTornTail (validLen : Nat) : Repair Nat := do
  modify fun file =>
    { file with
      content := file.content.take validLen ++ List.replicate (validLen - file.content.length) 0 }
  modify fun file => { file with cursor := file.content.length }
  return validLen

/-- The inner loop: `remaining` bytes go through the buffer of 8192 bytes into the hasher, which has
taken `hashed` so far. -/
def hashPayload (hashed : Bytes) (remaining : Nat) : Repair Bytes := do
  if remaining > 0 then
    let chunkLen := min remaining 8192
    let buffer ← readExact chunkLen
    let _ ← sub remaining chunkLen
    hashPayload (hashed ++ buffer) (remaining - chunkLen)
  else return hashed
termination_by remaining
decreasing_by omega

variable (crc32 : Bytes → UInt32) (segment : Nat)

/-- The test for a tail that can be cut. -/
def isTorn (availableAfterHeader payloadLen : Nat) : Repair Bool :=
  if availableAfterHeader = 0 then return true
  else if availableAfterHeader ≥ payloadLen then
    return decide (availableAfterHeader < (← add payloadLen 4))
  else return false

/-- The body of the loop behind the header of the frame. -/
def checkRest (fileLen frameStart payloadStart payloadLen availableAfterHeader : Nat) :
    Repair (Nat ⊕ Nat) :=
  match checkedFrameEnd payloadStart payloadLen with
  | none => throw (.refused (.frameLengthOverflow segment frameStart))
  | some frameEnd => do
      if frameEnd > fileLen then
        if ← isTorn availableAfterHeader payloadLen then
          return .inr (← truncateTornTail frameStart)
        throw (.refused (.ambiguousPartialPayload segment frameStart))
      let payload ← hashPayload [] payloadLen
      let crcBuf ← readExact 4
      if (crc32 payload).toNat ≠ fromLeBytes crcBuf then
        throw (.refused (.checksumMismatchAt segment frameStart))
      return .inl frameEnd

/-- The body of the loop: the position behind the frame, or what the function returns. -/
def checkFrame (fileLen frameStart : Nat) : Repair (Nat ⊕ Nat) := do
  let remainingFrameBytes ← sub fileLen frameStart
  if remainingFrameBytes < 4 then
    return .inr (← truncateTornTail frameStart)
  let lenBuf ← readExact 4
  let payloadLen := fromLeBytes lenBuf
  let payloadStart ← add frameStart 4
  let availableAfterHeader ← sub fileLen payloadStart
  checkRest crc32 segment fileLen frameStart payloadStart payloadLen availableAfterHeader

/-- The loop, at most `fuel` times; `none` when that is not enough. -/
def scan (fileLen : Nat) : Nat → Nat → Repair (Option Nat)
  | 0, _ => return none
  | fuel + 1, position => do
      if position < fileLen then
        match ← checkFrame crc32 segment fileLen position with
        | .inl next => scan fileLen fuel next
        | .inr validLen => return some validLen
      else
        modify fun file => { file with cursor := file.content.length }
        return some position

/-- `recover_last_segment_tail` -/
def recoverTail (fuel : Nat) : Repair (Option Nat) := do
  let fileLen := (← get).content.length
  modify fun file => { file with cursor := 0 }
  scan crc32 segment fileLen fuel 0

/-! ## The statements -/

section Run

variable {content : Bytes} {cursor n a b : Nat}

/-- A sum that fits into a word is the sum, and the file is left alone. -/
theorem add_run (h : a + b < 2 ^ 64) (file : OpenFile) : add a b file = .ok (a + b) file := by
  rw [add, if_pos h]
  rfl

/-- A difference that is not negative is the difference, and the file is left alone. -/
theorem sub_run (h : b ≤ a) (file : OpenFile) : sub a b file = .ok (a - b) file := by
  rw [sub, if_pos h]
  rfl

/-- Reading bytes that are there returns them and moves the cursor past them. -/
theorem readExact_run (h : cursor + n ≤ content.length) :
    readExact n ⟨content, cursor⟩ =
      .ok ((content.drop cursor).take n) ⟨content, cursor + n⟩ := by
  have hlength : ¬ ((content.drop cursor).take n).length < n := by simp; omega
  simp only [readExact, bind, EStateM.bind, get_run, hlength]
  rfl

/-- Truncating at a position cuts the file there and leaves the cursor at its end. -/
theorem truncateTornTail_run (h : n ≤ content.length) :
    truncateTornTail n ⟨content, cursor⟩ = .ok n ⟨content.take n, n⟩ := by
  have hpad : n - content.length = 0 := by omega
  simp [truncateTornTail, bind, EStateM.bind, modify_run, hpad, h, pure, EStateM.pure]

/-- The pieces are the payload. -/
theorem hashPayload_run (hashed : Bytes) (h : cursor + n ≤ content.length) :
    hashPayload hashed n ⟨content, cursor⟩ =
      .ok (hashed ++ (content.drop cursor).take n) ⟨content, cursor + n⟩ := by
  induction n using Nat.strongRecOn generalizing hashed cursor with
  | _ n ih =>
      rw [hashPayload]
      by_cases hpos : n > 0
      · -- one piece, and the rest from behind it
        have hread : readExact (min n 8192) ⟨content, cursor⟩ = _ := readExact_run (by omega)
        have hsub := sub_run (Nat.min_le_left n 8192) ⟨content, cursor + min n 8192⟩
        have hle : cursor + min n 8192 + (n - min n 8192) ≤ content.length := by omega
        have hrest :=
          ih (n - min n 8192) (by omega) (hashed ++ (content.drop cursor).take (min n 8192)) hle
        have hbytes : (content.drop cursor).take n = (content.drop cursor).take (min n 8192) ++
            (content.drop (cursor + min n 8192)).take (n - min n 8192) := by
          rw [← List.drop_drop, ← List.take_add, Nat.add_sub_cancel' (Nat.min_le_left n 8192)]
        have hend : cursor + min n 8192 + (n - min n 8192) = cursor + n := by omega
        simp only [if_pos hpos, bind, EStateM.bind, hread, hsub, hrest, hend, List.append_assoc, hbytes]
      · obtain rfl : n = 0 := by omega
        simp [pure, EStateM.pure]

/-- A tail is torn if nothing follows its header, or the payload without all of its checksum. -/
theorem isTorn_run {availableAfterHeader payloadLen : Nat} (h : payloadLen + 4 < 2 ^ 64)
    (file : OpenFile) :
    isTorn availableAfterHeader payloadLen file =
      .ok (decide (availableAfterHeader = 0 ∨
        (availableAfterHeader ≥ payloadLen ∧ availableAfterHeader < payloadLen + 4))) file := by
  rw [isTorn]
  split_ifs with hzero hge
  · simp [hzero, pure, EStateM.pure]
  · simp [bind, EStateM.bind, add_run h, pure, EStateM.pure, hzero, hge]
  · simp [pure, EStateM.pure, hzero, hge]

end Run

/-! ## The loop -/

/-- The loop ends as the scan of the bytes says: with the repaired file, or with the error and the
file as it was. -/
def Settles (result : EStateM.Result RepairFault OpenFile (Option Nat)) (content : Bytes) :
    Except StoreError (Bytes × Nat) → Prop
  | .ok (repaired, size) => result = .ok (some size) ⟨repaired, repaired.length⟩
  | .error e => ∃ cursor, result = .error (.refused e) ⟨content, cursor⟩

section Loop

variable {content : Bytes} {position : Nat}

/-- A number of four bytes is read from these alone, whatever follows. -/
theorem fromLeBytes_take (h : 4 ≤ content.length - position) :
    fromLeBytes ((content.drop position).take 4) = fromLeBytes (content.drop position) := by
  have hsplit := List.take_append_drop 4 (content.drop position)
  have hlength : ((content.drop position).take 4).length = 4 := by simp; omega
  rw [← fromLeBytes_append hlength.ge, hsplit]

/-- Less than a header is cut off. -/
theorem checkFrame_short (h : content.length - position < 4) (hpos : position ≤ content.length) :
    checkFrame crc32 segment content.length position ⟨content, position⟩ =
      .ok (.inr position) ⟨content.take position, position⟩ := by
  rw [checkFrame, bind_run (sub_run hpos _), if_pos h, bind_run (truncateTornTail_run hpos)]
  rfl

/-- A header that is there is read, and the rest of its frame is checked behind it. -/
theorem checkFrame_header (h : 4 ≤ content.length - position) (hlen : content.length < 2 ^ 64) :
    checkFrame crc32 segment content.length position ⟨content, position⟩ =
      checkRest crc32 segment content.length position (position + 4)
        (fromLeBytes (content.drop position)) (content.length - (position + 4))
        ⟨content, position + 4⟩ := by
  have hread : readExact 4 ⟨content, position⟩ = _ := readExact_run (by omega)
  rw [checkFrame, bind_run (sub_run (by omega) _), if_neg (by omega), bind_run hread,
    bind_run (add_run (by omega) _), bind_run (sub_run (by omega) _), fromLeBytes_take h]

/-- A frame that does not end in the file. -/
theorem checkRest_beyond {payloadLen frameEnd : Nat} (hsmall : payloadLen < 2 ^ 32)
    (hpos : position + 4 ≤ content.length)
    (hend : checkedFrameEnd (position + 4) payloadLen = some frameEnd)
    (hbeyond : frameEnd > content.length) :
    checkRest crc32 segment content.length position (position + 4) payloadLen
        (content.length - (position + 4)) ⟨content, position + 4⟩ =
      if content.length - (position + 4) = 0 ∨ (content.length - (position + 4) ≥ payloadLen ∧
          content.length - (position + 4) < payloadLen + 4) then
        .ok (.inr position) ⟨content.take position, position⟩
      else .error (.refused (.ambiguousPartialPayload segment position)) ⟨content, position + 4⟩ := by
  rw [checkRest, hend]
  dsimp only
  rw [if_pos hbeyond, bind_run (isTorn_run (by omega) _)]
  by_cases htorn : content.length - (position + 4) = 0 ∨
      (content.length - (position + 4) ≥ payloadLen ∧ content.length - (position + 4) < payloadLen + 4)
  · have hcut : truncateTornTail position ⟨content, position + 4⟩ = _ :=
      truncateTornTail_run (by omega)
    rw [if_pos htorn, if_pos (decide_eq_true htorn), bind_run hcut]
    rfl
  · rw [if_neg htorn, if_neg (by simpa using htorn)]
    rfl

/-- A frame that ends in the file. -/
theorem checkRest_within {payloadLen frameEnd : Nat}
    (hend : checkedFrameEnd (position + 4) payloadLen = some frameEnd)
    (hwithin : ¬ frameEnd > content.length) :
    checkRest crc32 segment content.length position (position + 4) payloadLen
        (content.length - (position + 4)) ⟨content, position + 4⟩ =
      if (crc32 ((content.drop (position + 4)).take payloadLen)).toNat ≠
          fromLeBytes (content.drop (position + 4 + payloadLen)) then
        .error (.refused (.checksumMismatchAt segment position)) ⟨content, frameEnd⟩
      else .ok (.inl frameEnd) ⟨content, frameEnd⟩ := by
  have hframeEnd : frameEnd = position + 4 + payloadLen + 4 := by
    rw [checkedFrameEnd_eq] at hend
    split at hend
    · exact (Option.some.inj hend).symm
    · cases hend
  have hhash : hashPayload [] payloadLen ⟨content, position + 4⟩ = _ :=
    hashPayload_run [] (by omega)
  have hread : readExact 4 ⟨content, position + 4 + payloadLen⟩ = _ := readExact_run (by omega)
  rw [checkRest, hend]
  dsimp only
  rw [if_neg hwithin, bind_run hhash, bind_run hread, List.nil_append,
    fromLeBytes_take (by omega), ← hframeEnd]
  split_ifs <;> rfl

/-- One round of the loop. -/
theorem scan_succ (fuel : Nat) (h : position < content.length) (file : OpenFile) :
    scan crc32 segment content.length (fuel + 1) position file =
      match checkFrame crc32 segment content.length position file with
      | .ok (.inl next) file => scan crc32 segment content.length fuel next file
      | .ok (.inr validLen) file => .ok (some validLen) file
      | .error e file => .error e file := by
  rw [scan, if_pos h]
  show EStateM.bind _ _ file = _
  unfold EStateM.bind
  cases checkFrame crc32 segment content.length position file with
  | ok step file => cases step <;> rfl
  | error e file => rfl

/-- **The loop.** As many rounds as bytes are left, and one, are enough. -/
theorem scan_settles (hlen : content.length < 2 ^ 64) {fuel : Nat} (hpos : position ≤ content.length)
    (hfuel : content.length - position ≤ fuel) :
    Settles (scan crc32 segment content.length (fuel + 1) position ⟨content, position⟩) content
      (recoverFrom crc32 segment content position) := by
  fun_induction recoverFrom crc32 segment content position generalizing fuel with
  | case1 position hlt frameStart =>
      rename_i hshort
      rw [scan_succ crc32 segment fuel hlt, checkFrame_short crc32 segment hshort hpos, Settles,
        List.length_take_of_le hpos]
  | case2 position hlt frameStart hheader payloadLen payloadStart =>
      rename_i hend
      have hframe := checkFrame_header crc32 segment (Nat.le_of_not_lt hheader) hlen
      rw [checkRest, hend] at hframe
      rw [scan_succ crc32 segment fuel hlt, hframe]
      exact ⟨_, rfl⟩
  | case3 position hlt frameStart hheader payloadLen payloadStart available frameEnd hend hbeyond =>
      rename_i htorn
      have hsmall : payloadLen < 2 ^ 32 := fromLeBytes_lt _
      have hframe := checkFrame_header crc32 segment (Nat.le_of_not_lt hheader) hlen
      rw [checkRest_beyond crc32 segment hsmall (by omega) hend hbeyond, if_pos htorn] at hframe
      rw [scan_succ crc32 segment fuel hlt, hframe, Settles, List.length_take_of_le hpos]
  | case4 position hlt frameStart hheader payloadLen payloadStart available frameEnd hend hbeyond =>
      rename_i htorn
      have hsmall : payloadLen < 2 ^ 32 := fromLeBytes_lt _
      have hframe := checkFrame_header crc32 segment (Nat.le_of_not_lt hheader) hlen
      rw [checkRest_beyond crc32 segment hsmall (by omega) hend hbeyond, if_neg htorn] at hframe
      rw [scan_succ crc32 segment fuel hlt, hframe]
      exact ⟨_, rfl⟩
  | case5 position hlt frameStart hheader payloadLen payloadStart frameEnd hend hwithin payload
      actual =>
      rename_i hcrc
      have hframe := checkFrame_header crc32 segment (Nat.le_of_not_lt hheader) hlen
      rw [checkRest_within crc32 segment hend hwithin, if_pos hcrc] at hframe
      rw [scan_succ crc32 segment fuel hlt, hframe]
      exact ⟨_, rfl⟩
  | case6 position hlt frameStart hheader payloadLen payloadStart frameEnd hend hwithin payload
      actual hcrc =>
      rename_i ih
      have hframe := checkFrame_header crc32 segment (Nat.le_of_not_lt hheader) hlen
      rw [checkRest_within crc32 segment hend hwithin, if_neg hcrc] at hframe
      rw [scan_succ crc32 segment fuel hlt, hframe]
      -- the next round starts behind the frame, with one round less
      have hstart : position < frameEnd := lt_of_checkedFrameEnd hend
      obtain ⟨fuel, rfl⟩ : ∃ rounds, fuel = rounds + 1 := ⟨fuel - 1, by omega⟩
      exact ih (Nat.le_of_not_lt hwithin) (by omega)
  | case7 position hend =>
      obtain rfl : position = content.length := by omega
      rw [scan, if_neg hend]
      rfl

end Loop

/-- **The repair terminates and does what the scan of the bytes says.** On a file whose length is a
`u64` it ends within as many rounds as the file has bytes, and one, without an overflow. -/
theorem repair_settles {content : Bytes} (hlen : content.length < 2 ^ 64) (cursor : Nat) :
    Settles (recoverTail crc32 segment (content.length + 1) ⟨content, cursor⟩) content
      (recoverLastSegmentTail crc32 segment content) :=
  scan_settles crc32 segment hlen (Nat.zero_le _) (Nat.sub_zero _).le

end Repair

/-! ## What is accepted -/

section Accepted

variable {crc32 : Bytes → UInt32} {segment : Nat} {content : Bytes} {position : Nat}

/-- A word that was read is the bytes it was read from. -/
theorem take_four_eq (h : 4 ≤ content.length - position) :
    (content.drop position).take 4 = toLeBytes (fromLeBytes (content.drop position)) := by
  have hlength : ((content.drop position).take 4).length = 4 := by simp; omega
  rw [← Repair.fromLeBytes_take h, toLeBytes_fromLeBytes hlength]

/-- A frame that the scan passes is the frame of its payload. -/
theorem take_frameEnd {frameEnd : Nat}
    (hend : checkedFrameEnd (position + 4) (fromLeBytes (content.drop position)) = some frameEnd)
    (hwithin : frameEnd ≤ content.length) {payload : Bytes}
    (hpayload : payload = (content.drop (position + 4)).take (fromLeBytes (content.drop position)))
    (hcrc : (crc32 payload).toNat =
      fromLeBytes (content.drop (position + 4 + fromLeBytes (content.drop position)))) :
    content.take frameEnd = content.take position ++ frame crc32 payload := by
  have hframeEnd : frameEnd = position + 4 + fromLeBytes (content.drop position) + 4 := by
    rw [checkedFrameEnd_eq] at hend
    split at hend
    · exact (Option.some.inj hend).symm
    · cases hend
  have hlength : payload.length = fromLeBytes (content.drop position) := by
    rw [hpayload]
    simp
    omega
  rw [hframeEnd, List.take_add, List.take_add, List.take_add, take_four_eq (by omega),
    take_four_eq (by omega), ← hpayload, ← hcrc, ← hlength, frame]
  simp only [List.append_assoc]

/-- What the scan leaves is frames. -/
theorem frames_of_recoverFrom {done : List Bytes} (hdone : ∀ p ∈ done, p.length < 2 ^ 32)
    (hposition : position ≤ content.length) (hbefore : content.take position = frames crc32 done)
    {repaired : Bytes} {size : Nat}
    (h : recoverFrom crc32 segment content position = .ok (repaired, size)) :
    repaired.length = size ∧ ∃ ps, (∀ p ∈ ps, p.length < 2 ^ 32) ∧ repaired = frames crc32 ps := by
  fun_induction recoverFrom crc32 segment content position generalizing done with
  | case1 position hlt frameStart =>
      obtain ⟨rfl, rfl⟩ := Prod.mk.inj (Except.ok.inj h)
      exact ⟨List.length_take_of_le hposition, done, hdone, hbefore⟩
  | case2 => cases h
  | case3 position hlt frameStart =>
      obtain ⟨rfl, rfl⟩ := Prod.mk.inj (Except.ok.inj h)
      exact ⟨List.length_take_of_le hposition, done, hdone, hbefore⟩
  | case4 => cases h
  | case5 => cases h
  | case6 position hlt frameStart hheader payloadLen payloadStart frameEnd hend hwithin payload
      actual hcrc =>
      rename_i ih
      refine @ih (done ++ [payload]) ?_ (Nat.le_of_not_lt hwithin) ?_ h
      · intro p hp
        rcases List.mem_append.mp hp with hp | hp
        · exact hdone p hp
        · rw [List.mem_singleton.mp hp]
          exact lt_of_le_of_lt (List.length_take_le _ _) (fromLeBytes_lt _)
      · rw [take_frameEnd hend (Nat.le_of_not_lt hwithin) rfl (not_not.mp hcrc), hbefore,
          frames_append, frames_cons, frames_nil, List.append_nil]
  | case7 position hend =>
      obtain ⟨rfl, rfl⟩ := Prod.mk.inj (Except.ok.inj h)
      have hwhole : content.take position = content := List.take_of_length_le (Nat.le_of_not_lt hend)
      exact ⟨le_antisymm (Nat.le_of_not_lt hend) hposition, done, hdone, hwhole.symm.trans hbefore⟩

/-! ## Cuts -/

/-- The scan at fewer bytes than a length prefix. -/
theorem recoverFrom_short (segment : Nat) {before tail : Bytes} (h : tail.length < 4) :
    recoverFrom crc32 segment (before ++ tail) before.length = .ok (before, before.length) := by
  cases tail with
  | nil =>
      rw [List.append_nil]
      exact recoverFrom_end crc32 segment before
  | cons b tail =>
      have hlength : (before ++ b :: tail).length = before.length + (tail.length + 1) := by simp
      rw [List.length_cons] at h
      rw [recoverFrom, if_pos (by omega)]
      dsimp only
      rw [if_pos (by omega), List.take_left]

/-- The scan at a frame that is longer than what is left of the file. -/
theorem recoverFrom_torn (segment : Nat) {before tail : Bytes} (h : 4 ≤ tail.length)
    (hshort : tail.length < fromLeBytes tail + 8)
    (hsize : before.length + fromLeBytes tail + 8 < 2 ^ 64) :
    recoverFrom crc32 segment (before ++ tail) before.length =
      if tail.length = 4 ∨ fromLeBytes tail + 4 ≤ tail.length then .ok (before, before.length)
      else .error (.ambiguousPartialPayload segment before.length) := by
  have hlength : (before ++ tail).length = before.length + tail.length := by simp
  have hend : checkedFrameEnd (before.length + 4) (fromLeBytes tail) =
      some (before.length + 4 + fromLeBytes tail + 4) := by
    rw [checkedFrameEnd_eq, if_pos (by omega)]
  rw [recoverFrom, if_pos (by omega)]
  dsimp only
  rw [if_neg (by omega), List.drop_left]
  split
  · rename_i hnone
    rw [hend] at hnone
    cases hnone
  · rename_i frameEnd hsome
    obtain rfl : before.length + 4 + fromLeBytes tail + 4 = frameEnd :=
      Option.some.inj (hend.symm.trans hsome)
    rw [if_pos (by omega), hlength, List.take_left]
    by_cases htorn : tail.length = 4 ∨ fromLeBytes tail + 4 ≤ tail.length
    · rw [if_pos htorn, if_pos (by omega)]
    · rw [if_neg htorn, if_neg (by omega)]

/-- The beginning of a frame holds the low bits of its length. -/
theorem fromLeBytes_take_frame {payload : Bytes} {r : Nat} (h : 4 ≤ r) :
    fromLeBytes ((frame crc32 payload).take r) = payload.length % 2 ^ 32 := by
  have hfront : (frame crc32 payload).take r =
      toLeBytes payload.length ++ (payload ++ toLeBytes (crc32 payload).toNat).take (r - 4) := by
    have hfour : (toLeBytes payload.length).take r = toLeBytes payload.length :=
      List.take_of_length_le h
    rw [frame, List.append_assoc, List.take_append, length_toLeBytes, hfour]
  rw [hfront, fromLeBytes_toLeBytes_append]

/-- The scan at the beginning of a frame whose length fits the prefix. -/
theorem recoverFrom_cut (segment : Nat) {before payload : Bytes} {r : Nat}
    (hlen : payload.length < 2 ^ 32) (hr : r < recordSize payload)
    (hsize : before.length + recordSize payload < 2 ^ 64) :
    recoverFrom crc32 segment (before ++ (frame crc32 payload).take r) before.length =
      if r ≤ 4 ∨ 4 + payload.length ≤ r then .ok (before, before.length)
      else .error (.ambiguousPartialPayload segment before.length) := by
  have htail : ((frame crc32 payload).take r).length = r :=
    List.length_take_of_le (by rw [length_frame]; exact hr.le)
  rw [recordSize] at hr hsize
  by_cases hfour : 4 ≤ r
  · have hword : fromLeBytes ((frame crc32 payload).take r) = payload.length := by
      rw [fromLeBytes_take_frame hfour, Nat.mod_eq_of_lt hlen]
    rw [recoverFrom_torn segment (by omega) (by omega) (by omega), hword, htail]
    by_cases htorn : r ≤ 4 ∨ 4 + payload.length ≤ r
    · rw [if_pos htorn, if_pos (by omega)]
    · rw [if_neg htorn, if_neg (by omega)]
  · rw [recoverFrom_short segment (by omega), if_pos (by omega)]

end Accepted

/-! ## Exactness -/

section Exact

variable (crc32 : Bytes → UInt32)

/-- What the repair must make of a file that ends behind `whole` bytes of frames, inside the frame of a
payload of `payloadLen` bytes: without any of the payload or with all of it the rest is cut, else the
file is refused as it is. -/
def RepairsCut (content : Bytes) (whole payloadLen : Nat) : Prop :=
  ∀ segment cursor,
    if content.length - whole ≤ 4 ∨ 4 + payloadLen ≤ content.length - whole then
      Repair.recoverTail crc32 segment (content.length + 1) ⟨content, cursor⟩ =
        .ok (some whole) ⟨content.take whole, whole⟩
    else ∃ e stop, Repair.recoverTail crc32 segment (content.length + 1) ⟨content, cursor⟩ =
      .error (.refused e) ⟨content, stop⟩

/-- Every beginning of the frames of `ps` is repaired as it must be: `done` are the frames that are
whole, and the file ends inside the next one. -/
def RepairsCuts (ps : List Bytes) : Prop :=
  ∀ k ≤ (frames crc32 ps).length, ∀ done rest, ps = done ++ rest → (frames crc32 done).length ≤ k →
    (∀ next ∈ rest.head?, k < (frames crc32 done).length + recordSize next) →
    RepairsCut crc32 ((frames crc32 ps).take k) (frames crc32 done).length (rest.headD []).length

/-- What the repair makes of a file, whatever is in it: it ends, without an overflow, it accepts only
frames with their checksums, and a file that it refuses is as it was. -/
def RepairSound : Prop :=
  ∀ content : Bytes, content.length < 2 ^ 64 → ∀ segment cursor,
    match Repair.recoverTail crc32 segment (content.length + 1) ⟨content, cursor⟩ with
    | .ok (some m) file => file.content.length = m ∧
        ∃ ps, (∀ p ∈ ps, p.length < 2 ^ 32) ∧ file.content = frames crc32 ps
    | .ok none _ => False
    | .error (.refused _) file => file.content = content
    | .error .overflow _ => False

variable {crc32}

/-- Whatever bytes a segment holds, its repair keeps whole frames and reports where it cut. -/
theorem repairSound (crc32 : Bytes → UInt32) : RepairSound crc32 := by
  intro content hlen segment cursor
  have hsettles := Repair.repair_settles crc32 segment hlen cursor
  cases hresult : recoverLastSegmentTail crc32 segment content with
  | ok result =>
      obtain ⟨repaired, size⟩ := result
      rw [hresult] at hsettles
      rw [show Repair.recoverTail crc32 segment (content.length + 1) ⟨content, cursor⟩ = _ from hsettles]
      exact @frames_of_recoverFrom crc32 segment content 0 [] (by simp) (Nat.zero_le _) rfl _ _ hresult
  | error e =>
      rw [hresult] at hsettles
      obtain ⟨stop, hstop⟩ := hsettles
      rw [hstop]

/-- The repair of a cut, from what the scan makes of it. -/
theorem repairsCut_of_scan {before tail : Bytes} {payloadLen : Nat}
    (hlen : (before ++ tail).length < 2 ^ 64)
    (h : ∀ segment, recoverLastSegmentTail crc32 segment (before ++ tail) =
      if tail.length ≤ 4 ∨ 4 + payloadLen ≤ tail.length then .ok (before, before.length)
      else .error (.ambiguousPartialPayload segment before.length)) :
    RepairsCut crc32 (before ++ tail) before.length payloadLen := by
  intro segment cursor
  have hsettles := Repair.repair_settles crc32 segment hlen cursor
  have htail : (before ++ tail).length - before.length = tail.length := by simp
  rw [h] at hsettles
  rw [htail, List.take_left]
  split_ifs at hsettles ⊢ with htorn
  · exact hsettles
  · obtain ⟨stop, hstop⟩ := hsettles
    exact ⟨_, stop, hstop⟩

/-- A beginning of frames is whole frames and the beginning of the next one. -/
theorem take_frames {done rest : List Bytes} {k : Nat} (hk : k ≤ (frames crc32 (done ++ rest)).length)
    (hdone : (frames crc32 done).length ≤ k)
    (hnext : ∀ next ∈ rest.head?, k < (frames crc32 done).length + recordSize next) :
    (frames crc32 (done ++ rest)).take k = frames crc32 done ++
      (match rest with
      | [] => []
      | next :: _ => (frame crc32 next).take (k - (frames crc32 done).length)) := by
  rw [frames_append, List.take_append, List.take_of_length_le hdone]
  cases rest with
  | nil => rw [frames_nil, List.take_nil]
  | cons next rest =>
      have hr := hnext next rfl
      rw [frames_cons, List.take_append_of_le_length (by rw [length_frame]; omega)]

/-- A segment that was cut anywhere is repaired to the frames before the cut, if its payloads have lengths of
32 bits. -/
theorem repairsCuts {ps : List Bytes} (hsize : (frames crc32 ps).length < 2 ^ 64)
    (h : ∀ p ∈ ps, p.length < 2 ^ 32) : RepairsCuts crc32 ps := by
  rintro k hk done rest rfl hdone hnext
  have hdoneLen : ∀ p ∈ done, p.length < 2 ^ 32 := fun p hp => h p (List.mem_append_left _ hp)
  have hscan : ∀ segment more, recoverLastSegmentTail crc32 segment (frames crc32 done ++ more) =
      recoverFrom crc32 segment (frames crc32 done ++ more) (frames crc32 done).length := by
    intro segment more
    exact recoverFrom_frames crc32 segment more [] hdoneLen (by rw [List.nil_append]; omega)
  rw [take_frames hk hdone hnext]
  cases rest with
  | nil =>
      refine repairsCut_of_scan (by simp; omega) fun segment => ?_
      rw [hscan, recoverFrom_short segment (by simp), if_pos (.inl (by simp))]
  | cons next rest =>
      have hr := hnext next rfl
      have hlong : (frames crc32 done).length + recordSize next < 2 ^ 64 := by
        rw [frames_append, frames_cons, List.length_append, List.length_append, length_frame] at hsize
        omega
      have hlength : ((frame crc32 next).take (k - (frames crc32 done).length)).length =
          k - (frames crc32 done).length :=
        List.length_take_of_le (by rw [length_frame]; omega)
      refine repairsCut_of_scan (by rw [List.length_append, hlength]; omega) fun segment => ?_
      rw [hscan, recoverFrom_cut segment (h next (by simp)) (by omega) hlong, hlength]
      rfl

/-- A frame with a payload too long for its prefix is cut inside its payload. -/
theorem not_repairsCuts_of_long {ps : List Bytes} (hsize : (frames crc32 ps).length < 2 ^ 64)
    {p : Bytes} (hp : p ∈ ps) (hlong : 2 ^ 32 ≤ p.length) : ¬ RepairsCuts crc32 ps := by
  intro h
  -- the first payload that does not fit, and the frames before it
  obtain ⟨done, next, rest, rfl, hdoneLen, hnextLong⟩ :
      ∃ done next rest, ps = done ++ next :: rest ∧ (∀ p ∈ done, p.length < 2 ^ 32) ∧
        2 ^ 32 ≤ next.length := by
    clear h hsize
    induction ps with
    | nil => cases hp
    | cons q qs ih =>
        by_cases hq : q.length < 2 ^ 32
        · obtain ⟨done, next, rest, rfl, hdoneLen, hnext⟩ := ih (by
            rcases List.mem_cons.mp hp with rfl | hp
            · omega
            · exact hp)
          refine ⟨q :: done, next, rest, rfl, ?_, hnext⟩
          intro p' hp'
          rcases List.mem_cons.mp hp' with rfl | hp'
          · exact hq
          · exact hdoneLen p' hp'
        · exact ⟨[], q, qs, rfl, by simp, Nat.le_of_not_lt hq⟩
  have hlow : next.length % 2 ^ 32 + 2 ^ 32 ≤ next.length := by omega
  have hmore : (frames crc32 done).length + recordSize next ≤
      (frames crc32 (done ++ next :: rest)).length := by
    simp only [frames_append, frames_cons, List.length_append, length_frame]
    omega
  rw [recordSize] at hmore
  -- the file ends one byte behind as much payload as the prefix announces
  have hk : (frames crc32 done).length + (next.length % 2 ^ 32 + 5) ≤
      (frames crc32 (done ++ next :: rest)).length := by omega
  have hnext : ∀ n ∈ (next :: rest).head?, (frames crc32 done).length + (next.length % 2 ^ 32 + 5) <
      (frames crc32 done).length + recordSize n := by
    rintro n ⟨⟩
    rw [recordSize]
    omega
  have hcut := h _ hk done (next :: rest) rfl (by omega) hnext 0 0
  have htail : ((frame crc32 next).take (next.length % 2 ^ 32 + 5)).length =
      next.length % 2 ^ 32 + 5 := List.length_take_of_le (by rw [length_frame, recordSize]; omega)
  have hword : fromLeBytes ((frame crc32 next).take (next.length % 2 ^ 32 + 5)) =
      next.length % 2 ^ 32 := fromLeBytes_take_frame (by omega)
  rw [take_frames hk (by omega) hnext, Nat.add_sub_cancel_left, if_neg (by
    simp only [List.length_append, htail, List.headD_cons]
    omega)] at hcut
  obtain ⟨e, stop, hrefused⟩ := hcut
  have hlen : (frames crc32 done ++ (frame crc32 next).take (next.length % 2 ^ 32 + 5)).length <
      2 ^ 64 := by
    rw [List.length_append, htail]
    omega
  have hsettles := Repair.repair_settles crc32 0 hlen 0
  have hscan : recoverLastSegmentTail crc32 0
      (frames crc32 done ++ (frame crc32 next).take (next.length % 2 ^ 32 + 5)) =
      .ok (frames crc32 done, (frames crc32 done).length) := by
    have hpass := recoverFrom_frames crc32 0 ((frame crc32 next).take (next.length % 2 ^ 32 + 5)) []
      hdoneLen (by rw [List.nil_append]; omega)
    refine hpass.trans ?_
    rw [List.nil_append, recoverFrom_torn 0 (by omega) (by rw [hword, htail]; omega)
      (by rw [hword]; omega), if_pos (.inr (by rw [hword, htail]; omega))]
  rw [hscan] at hsettles
  exact absurd (hsettles.symm.trans hrefused) (by simp)

/-- **When the repair of a torn tail is exact.** Whatever a segment holds, the repair ends without an
overflow, accepts only frames with matching checksums, and leaves a file that it refuses as it is. And
every beginning of the frames of `ps` is repaired exactly, precisely when every payload has a length
that its prefix can hold. -/
theorem repair_exact_iff (crc32 : Bytes → UInt32) {ps : List Bytes}
    (hsize : (frames crc32 ps).length < 2 ^ 64) :
    (RepairsCuts crc32 ps ∧ RepairSound crc32) ↔ ∀ p ∈ ps, p.length < 2 ^ 32 := by
  constructor
  · rintro ⟨hcuts, -⟩ p hp
    by_contra hlong
    exact not_repairsCuts_of_long hsize hp (Nat.le_of_not_lt hlong) hcuts
  · exact fun h => ⟨repairsCuts hsize h, repairSound crc32⟩

/-- A frame of one byte and an empty frame. -/
theorem repair_exact_two_frames :
    RepairsCuts crc32Ieee [[7], []] ∧ RepairSound crc32Ieee := by
  have hsize : (frames crc32Ieee [[7], []]).length < 2 ^ 64 := by
    simp [recordSize]
  exact (repair_exact_iff crc32Ieee hsize).mpr (by simp)

/-- A payload of 2^32 bytes or more is not repaired to: the length in its frame is another one. -/
theorem not_repairsCuts_replicate {n : Nat} (hlong : 2 ^ 32 ≤ n) (hsize : n + 8 < 2 ^ 64) :
    ¬ RepairsCuts crc32 [List.replicate n 0] := by
  have hlength : (frames crc32 [List.replicate n 0]).length < 2 ^ 64 := by
    rw [frames_cons, frames_nil, List.append_nil, length_frame, recordSize, List.length_replicate]
    omega
  refine not_repairsCuts_of_long hlength (List.mem_singleton_self _) ?_
  rwa [List.length_replicate]

/-- The length of a payload of `2 ^ 32` bytes is written as zero. -/
theorem not_repairs_cuts_four_gib : ¬ RepairsCuts crc32Ieee [List.replicate (2 ^ 32) 0] :=
  not_repairsCuts_replicate le_rfl (by decide)

end Exact

end LiminalDB
