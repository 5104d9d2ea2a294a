import LiminalDB.Foundations.LittleEndian
import Mathlib.Tactic.Common
import Std.Data.ExtTreeMap

/-! # The log of the storage abstraction layer

`SledSal` keeps a log next to its key-value trees: a file of records, each behind its length, addressed
by the offset of its frame. There is no checksum and no repair: `WalWriter::open` takes the length of the
file for the next offset, whatever the file ends with, and `read_from` only tolerates an end inside a
length. `torn_append_survives_iff` says after which crashes the log still reads back. -/

namespace LiminalDB

/-! ## The log -/

/-- The errors of the log. -/
inductive SalError
  /-- `record too large` -/
  | recordTooLarge
  /-- `failed to fill whole buffer` -/
  | unexpectedEof
  deriving DecidableEq, Repr

/-- `SledSal`, as far as the log goes: the file `events.wal` and its `WalWriter`. -/
structure SledSal where
  /-- The bytes of the file. -/
  wal : Bytes
  /-- `WalWriter::next_offset` -/
  nextOffset : Nat

namespace SledSal

/-- `SledSal::open`, on the file as it is. -/
def «open» (wal : Bytes) : SledSal := ⟨wal, wal.length⟩

/-- What `append` writes for a record. -/
def frame (record : Bytes) : Bytes := toLeBytes record.length ++ record

/-- `wal_append`: `u32::try_from` refuses a record that does not fit its length; the file is opened for
appending, so the frame goes to its end. -/
def walAppend (self : SledSal) (record : Bytes) : Except SalError Nat × SledSal :=
  let offset := self.nextOffset
  if record.length < 2 ^ 32 then
    (.ok offset,
      { wal := self.wal ++ toLeBytes record.length ++ record
        nextOffset := self.nextOffset + (4 + record.length) })
  else (.error .recordTooLarge, self)

/-- The loop of `read_from`, with the bytes that are left. -/
def readFrom (max : Nat) (rest : Bytes) (currentOffset read : Nat)
    (out : Std.ExtTreeMap Nat Bytes compare) : Except SalError (Std.ExtTreeMap Nat Bytes compare) :=
  if read ≥ max then .ok out
  -- an end inside the length is the end of the log
  else if rest.length < 4 then .ok out
  else
    let len := fromLeBytes rest
    -- an end inside the record is an error
    if (rest.drop 4).length < len then .error .unexpectedEof
    else
      readFrom max (rest.drop (4 + len)) (currentOffset + (4 + len)) (read + 1)
        (out.insert currentOffset ((rest.drop 4).take len))
termination_by rest.length
decreasing_by simp only [List.length_drop]; omega

/-- `wal_read` -/
def walRead (self : SledSal) (offset max : Nat) :
    Except SalError (Std.ExtTreeMap Nat Bytes compare) :=
  readFrom max (self.wal.drop offset) offset 0 ∅

/-- `wal_append` of records in turn, and what was acknowledged: the offsets with their records. -/
def walAppendAll (self : SledSal) : List Bytes → List (Nat × Bytes) × SledSal
  | [] => ([], self)
  | record :: records =>
      match self.walAppend record with
      | (.ok offset, self) =>
          let (acknowledged, self) := self.walAppendAll records
          ((offset, record) :: acknowledged, self)
      | (.error _, self) => self.walAppendAll records

/-- The process stops while the frame of `record` is written: `cut` bytes of it are in the file. The log
is opened again. -/
def crashDuring (self : SledSal) (record : Bytes) (cut : Nat) : SledSal :=
  .open (self.wal ++ (frame record).take cut)

/-- The map that holds the acknowledged records under their offsets. -/
def acknowledgedMap (acknowledged : List (Nat × Bytes)) : Std.ExtTreeMap Nat Bytes compare :=
  acknowledged.foldl (fun out (offset, record) => out.insert offset record) ∅

/-! ## What the file holds -/

/-- The records that `wal_append` takes. -/
def Fits (record : Bytes) : Prop := record.length < 2 ^ 32

instance (record : Bytes) : Decidable (Fits record) := inferInstanceAs (Decidable (_ < _))

/-- The frames of records. -/
def frames (records : List Bytes) : Bytes := records.flatMap frame

/-- The records under the offsets of their frames, from an offset on. -/
def keyed (offset : Nat) : List Bytes → List (Nat × Bytes)
  | [] => []
  | record :: records => (offset, record) :: keyed (offset + (4 + record.length)) records

/-- The frame of a record is as long as the record and its length of four bytes. -/
@[simp] theorem length_frame (record : Bytes) : (frame record).length = 4 + record.length := by
  simp [frame]

/-- No records have no bytes. -/
@[simp] theorem frames_nil : frames [] = [] := rfl

/-- The first record is framed before the others. -/
@[simp] theorem frames_cons (record : Bytes) (records : List Bytes) :
    frames (record :: records) = frame record ++ frames records := rfl

/-- Appending records appends their frames. -/
theorem frames_append (records more : List Bytes) :
    frames (records ++ more) = frames records ++ frames more := List.flatMap_append

/-- Opening a log does not change it. -/
@[simp] theorem wal_open (wal : Bytes) : (SledSal.open wal).wal = wal := rfl

/-- The offset a log was opened with or counts is the length of its file. -/
def AtEnd (self : SledSal) : Prop := self.nextOffset = self.wal.length

/-- Appending writes the frames of the records that fit and acknowledges them under their offsets. -/
theorem walAppendAll_eq {self : SledSal} (h : self.AtEnd) (records : List Bytes) :
    self.walAppendAll records =
      (keyed self.wal.length (records.filter (Fits ·)),
        .open (self.wal ++ frames (records.filter (Fits ·)))) := by
  induction records generalizing self with
  | nil =>
      rw [walAppendAll, List.filter_nil, frames_nil, List.append_nil, keyed, SledSal.open, ← h]
  | cons record records ih =>
      by_cases hfits : record.length < 2 ^ 32
      · have hnext : AtEnd ⟨self.wal ++ toLeBytes record.length ++ record,
            self.nextOffset + (4 + record.length)⟩ := by
          rw [AtEnd, h]
          simp
        have hfilter : (record :: records).filter (Fits ·) = record :: records.filter (Fits ·) :=
          List.filter_cons_of_pos (decide_eq_true hfits)
        have hlength : (self.wal ++ toLeBytes record.length ++ record).length =
            self.wal.length + (4 + record.length) := by
          simp
        rw [walAppendAll, walAppend, if_pos hfits]
        dsimp only
        rw [ih hnext, hfilter, keyed, frames_cons, h, hlength, frame]
        simp only [List.append_assoc]
      · have hfilter : (record :: records).filter (Fits ·) = records.filter (Fits ·) :=
          List.filter_cons_of_neg fun h => hfits (of_decide_eq_true h)
        rw [walAppendAll, walAppend, if_neg hfits]
        dsimp only
        rw [ih h, hfilter]

/-! ## Reading -/

section Read

variable {max offset read : Nat} {rest : Bytes} {out : Std.ExtTreeMap Nat Bytes compare}

/-- The reader passes whole frames. -/
theorem readFrom_frames {records : List Bytes} (hfits : ∀ record ∈ records, Fits record)
    (hmax : read + records.length ≤ max) :
    readFrom max (frames records ++ rest) offset read out =
      readFrom max rest (offset + (frames records).length) (read + records.length)
        ((keyed offset records).foldl (fun out (offset, record) => out.insert offset record) out) := by
  induction records generalizing offset read out with
  | nil => rfl
  | cons record records ih =>
      rw [List.length_cons] at hmax
      have hword : fromLeBytes (frames (record :: records) ++ rest) = record.length := by
        have hfit : record.length < 2 ^ 32 := hfits record List.mem_cons_self
        rw [frames_cons, frame, List.append_assoc, List.append_assoc, fromLeBytes_toLeBytes_append,
          Nat.mod_eq_of_lt hfit]
      have hdrop : (frames (record :: records) ++ rest).drop 4 = record ++ (frames records ++ rest) := by
        rw [frames_cons, frame, List.append_assoc, List.append_assoc]
        exact List.drop_left' (length_toLeBytes record.length)
      have hlength : ¬ (frames (record :: records) ++ rest).length < 4 := by
        simp
        omega
      rw [readFrom, if_neg (by omega), if_neg hlength]
      dsimp only
      rw [hword, ← List.drop_drop, hdrop, if_neg (by simp), List.drop_left, List.take_left,
        ih (fun r hr => hfits r (List.mem_cons_of_mem _ hr)) (by omega), keyed, List.foldl_cons,
        List.length_cons, frames_cons, List.length_append, length_frame]
      congr 1 <;> omega

/-- An end inside a length is the end of the log. -/
theorem readFrom_short (h : rest.length < 4) : readFrom max rest offset read out = .ok out := by
  rw [readFrom]
  split_ifs <;> rfl

/-- An end inside a record is an error. -/
theorem readFrom_torn {record : Bytes} {cut : Nat} (hfits : Fits record) (hmax : read < max)
    (hcut : 4 ≤ cut) (htorn : cut < 4 + record.length) :
    readFrom max ((frame record).take cut) offset read out = .error .unexpectedEof := by
  have hfit : record.length < 2 ^ 32 := hfits
  have hlength : ((frame record).take cut).length = cut :=
    List.length_take_of_le (by rw [length_frame]; exact htorn.le)
  have hword : fromLeBytes ((frame record).take cut) = record.length := by
    rw [frame, List.take_append, length_toLeBytes, List.take_of_length_le hcut,
      fromLeBytes_toLeBytes_append, Nat.mod_eq_of_lt hfit]
  rw [readFrom, if_neg (by omega), if_neg (by omega)]
  dsimp only
  rw [hword, List.length_drop, hlength, if_pos (by omega)]

/-- What was read stays. -/
theorem mem_of_readFrom {result : Std.ExtTreeMap Nat Bytes compare}
    (h : readFrom max rest offset read out = .ok result) {key : Nat} (hkey : key ∈ out) :
    key ∈ result := by
  fun_induction readFrom max rest offset read out with
  | case1 =>
      obtain rfl := Except.ok.inj h
      exact hkey
  | case2 =>
      obtain rfl := Except.ok.inj h
      exact hkey
  | case3 => cases h
  | case4 rest offset read out hmax hlength len hlen ih =>
      refine ih h ?_
      rw [Std.ExtTreeMap.mem_insert]
      exact .inr hkey

/-- The reader that finds a length reports a record at its offset, or fails. -/
theorem mem_offset_of_readFrom {result : Std.ExtTreeMap Nat Bytes compare}
    (h : readFrom max rest offset read out = .ok result) (hmax : read < max) (hrest : 4 ≤ rest.length) :
    offset ∈ result := by
  rw [readFrom, if_neg (by omega), if_neg (by omega)] at h
  dsimp only at h
  split at h
  · cases h
  · exact mem_of_readFrom h Std.ExtTreeMap.mem_insert_self

end Read

/-! ## Offsets -/

/-- The offsets of records lie inside their frames. -/
theorem mem_keyed {offset key : Nat} {records : List Bytes}
    (h : key ∈ (keyed offset records).map Prod.fst) :
    offset ≤ key ∧ key < offset + (frames records).length := by
  induction records generalizing offset with
  | nil => cases h
  | cons record records ih =>
      rw [frames_cons, List.length_append, length_frame]
      rcases List.mem_cons.mp h with rfl | h
      · exact ⟨le_rfl, by omega⟩
      · have hrest := ih h
        omega

/-- The keys of the map are the offsets that were acknowledged. -/
theorem mem_acknowledgedMap {acknowledged : List (Nat × Bytes)} {key : Nat} :
    key ∈ acknowledgedMap acknowledged ↔ key ∈ acknowledged.map Prod.fst := by
  induction acknowledged using List.reverseRecOn with
  | nil => simp [acknowledgedMap]
  | append_singleton acknowledged pair ih =>
      rw [acknowledgedMap] at ih ⊢
      rw [List.foldl_append, List.foldl_cons, List.foldl_nil, Std.ExtTreeMap.mem_insert, ih,
        List.map_append, List.mem_append, List.map_singleton, List.mem_singleton, or_comm]
      exact or_congr_right ⟨fun h => (Std.LawfulEqCmp.eq_of_compare h).symm, fun h => by simp [h]⟩

/-- The records that follow others have offsets behind the frames of those. -/
theorem keyed_append (offset : Nat) (records more : List Bytes) :
    keyed offset (records ++ more) =
      keyed offset records ++ keyed (offset + (frames records).length) more := by
  induction records generalizing offset with
  | nil => rfl
  | cons record records ih =>
      rw [List.cons_append, keyed, ih, keyed, List.cons_append, frames_cons, List.length_append,
        length_frame]
      rw [Nat.add_assoc]

/-! ## A torn append -/

/-- A log without a torn frame reads back. -/
theorem walRead_frames {records : List Bytes} (hfits : ∀ record ∈ records, Fits record) {tail : Bytes}
    (htail : tail.length < 4) {max : Nat} (hmax : records.length ≤ max) :
    (SledSal.open (frames records ++ tail)).walRead 0 max =
      .ok (acknowledgedMap (keyed 0 records)) := by
  rw [walRead, SledSal.open, List.drop_zero, readFrom_frames hfits (by omega), readFrom_short htail]
  rfl

/-- Behind a torn frame nothing can be appended that reads back. -/
theorem not_walRead_appended {records more : List Bytes} (hfits : ∀ record ∈ records, Fits record)
    {tail : Bytes} (htail : tail ≠ []) (hmore : more ≠ []) {max : Nat} (hmax : records.length < max) :
    (SledSal.open (frames records ++ (tail ++ frames more))).walRead 0 max ≠
      .ok (acknowledgedMap (keyed 0 records ++
        keyed (frames records ++ tail).length more)) := by
  intro h
  rw [walRead, SledSal.open, List.drop_zero, readFrom_frames hfits (by omega)] at h
  -- the reader reports something at the torn frame, where nothing was acknowledged
  have hrest : 4 ≤ (tail ++ frames more).length := by
    obtain ⟨record, more, rfl⟩ := List.exists_cons_of_ne_nil hmore
    simp
    omega
  have hmem := mem_offset_of_readFrom h (by omega) hrest
  rw [mem_acknowledgedMap, List.map_append, List.mem_append] at hmem
  have hpos : 0 < tail.length := List.length_pos_iff.mpr htail
  rw [List.length_append] at hmem
  rcases hmem with hmem | hmem
  · have hkey := mem_keyed hmem
    omega
  · have hkey := mem_keyed hmem
    omega

/-- The records of `before` are appended, the process stops in the frame of `torn`, and the records of
`after` are appended: reading from the start gives the acknowledged records under their offsets, and
nothing else, when enough records are asked for. -/
def Survives (before after : List Bytes) (torn : Bytes) (cut : Nat) : Prop :=
  let first := (SledSal.open []).walAppendAll before
  let second := (first.2.crashDuring torn cut).walAppendAll after
  ∃ enough, ∀ max ≥ enough, second.2.walRead 0 max = .ok (acknowledgedMap (first.1 ++ second.1))

section Survival

variable {before after : List Bytes} {torn : Bytes} {cut : Nat}

/-- The file and what was acknowledged, in frames. -/
theorem survives_iff_frames : Survives before after torn cut ↔
    ∃ enough, ∀ max ≥ enough,
      (SledSal.open (frames (before.filter (Fits ·)) ++
          ((frame torn).take cut ++ frames (after.filter (Fits ·))))).walRead 0 max =
        .ok (acknowledgedMap (keyed 0 (before.filter (Fits ·)) ++
          keyed (frames (before.filter (Fits ·)) ++ (frame torn).take cut).length
            (after.filter (Fits ·)))) := by
  have hatEnd : ∀ wal, (SledSal.open wal).AtEnd := fun _ => rfl
  unfold Survives
  dsimp only
  rw [walAppendAll_eq (hatEnd []) before, crashDuring, walAppendAll_eq (hatEnd _) after]
  simp only [wal_open, List.nil_append, List.length_nil, List.append_assoc]

/-- What is left after filtering fits. -/
theorem fits_filter {records : List Bytes} : ∀ record ∈ records.filter (Fits ·), Fits record :=
  fun _ h => of_decide_eq_true (List.mem_filter.mp h).2

/-- Nothing is left exactly if no record fits. -/
theorem filter_fits_eq_nil {records : List Bytes} :
    records.filter (Fits ·) = [] ↔ ∀ record ∈ records, ¬ Fits record := by
  simp [List.filter_eq_nil_iff]

/-- A torn append is survived if nothing of it was written, or less than a header and nothing was appended
behind it. -/
theorem survives_of (h : cut = 0 ∨ cut < 4 ∧ ∀ record ∈ after, ¬ Fits record) :
    Survives before after torn cut := by
  rw [survives_iff_frames]
  rcases h with rfl | ⟨hshort, hnone⟩
  · refine ⟨(before.filter (Fits ·) ++ after.filter (Fits ·)).length, fun max hmax => ?_⟩
    have hboth : ∀ record ∈ before.filter (Fits ·) ++ after.filter (Fits ·), Fits record :=
      fun record hr => (List.mem_append.mp hr).elim (fits_filter record) (fits_filter record)
    have hread := walRead_frames hboth (by decide : ([] : Bytes).length < 4) hmax
    rw [keyed_append, Nat.zero_add, frames_append, List.append_nil] at hread
    rwa [List.take_zero, List.nil_append, List.append_nil]
  · refine ⟨(before.filter (Fits ·)).length, fun max hmax => ?_⟩
    have htail : ((frame torn).take cut).length < 4 :=
      (List.length_take_le _ _).trans_lt hshort
    have hread := walRead_frames fits_filter htail hmax
    rw [filter_fits_eq_nil.mpr hnone, frames_nil, List.append_nil, keyed, List.append_nil]
    exact hread

/-- Otherwise reading the log fails, or gives what was never acknowledged. -/
theorem not_survives_of (hfits : Fits torn) (hcut : cut < (frame torn).length) (hpos : cut ≠ 0)
    (hlong : ¬ (cut < 4 ∧ ∀ record ∈ after, ¬ Fits record)) : ¬ Survives before after torn cut := by
  rw [survives_iff_frames]
  rintro ⟨enough, h⟩
  have hlength : ((frame torn).take cut).length = cut := List.length_take_of_le hcut.le
  have hread := h (enough + (before.filter (Fits ·)).length + 1) (by omega)
  rw [length_frame] at hcut
  by_cases hmore : after.filter (Fits ·) = []
  · -- nothing was appended behind a torn record
    have hfour : 4 ≤ cut := by
      by_contra hshort
      exact hlong ⟨Nat.lt_of_not_le hshort, filter_fits_eq_nil.mp hmore⟩
    rw [hmore, frames_nil, List.append_nil, walRead, wal_open, List.drop_zero,
      readFrom_frames fits_filter (by omega), readFrom_torn hfits (by omega) hfour hcut] at hread
    cases hread
  · have htorn : (frame torn).take cut ≠ [] := by
      intro hnil
      rw [hnil] at hlength
      exact hpos hlength.symm
    exact not_walRead_appended fits_filter htorn hmore (by omega) hread

end Survival

/-- **When a torn append survives.** The process stops while a record is appended and leaves a proper
beginning of its frame; the log is opened again and more is appended. It reads back exactly when nothing
of the torn frame is in the file, or when the file ends inside its length and nothing was acknowledged
behind it. -/
theorem torn_append_survives_iff (before after : List Bytes) {torn : Bytes} {cut : Nat}
    (hfits : Fits torn) (hcut : cut < (frame torn).length) :
    Survives before after torn cut ↔ cut = 0 ∨ cut < 4 ∧ ∀ record ∈ after, ¬ Fits record := by
  refine ⟨fun h => ?_, survives_of⟩
  by_contra hnot
  obtain ⟨hpos, hlong⟩ := not_or.mp hnot
  exact not_survives_of hfits hcut hpos hlong h

/-- Two bytes of a length, and nothing appended behind them. -/
theorem torn_append_survives_two_bytes : Survives [[1]] [] [2, 3] 2 :=
  (@torn_append_survives_iff [[1]] [] [2, 3] 2 (by decide) (by decide)).mpr
    (.inr ⟨by decide, by simp⟩)

/-- A length and one byte of the record, and a record appended behind them. -/
theorem not_survives_appended : ¬ Survives [[1]] [[9]] [2, 3] 5 :=
  not_survives_of (by decide) (by decide) (by decide) (by simp)

end SledSal

end LiminalDB
