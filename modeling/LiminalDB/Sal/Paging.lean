import LiminalDB.Foundations.KeyedFold
import LiminalDB.Foundations.OrderedEntries
import LiminalDB.Sal.Wal

/-! # Reading the log of the storage abstraction layer page by page

Three parties count offsets on their own: the writer by what it writes, the reader by the lengths it finds,
and the client that asks for the next page by the last entry of the page it has. Without a crash they agree:
`paging_loses_nothing` says that a page is the records of its turn, and that the pages are all records. -/

namespace LiminalDB

/-- What happens to a log that no crash meets. -/
inductive SalStep
  /-- `wal_append` -/
  | append (record : Bytes)
  /-- The log is closed and opened again. -/
  | reopen

namespace SledSal

/-- One step, with what was acknowledged in it. -/
def step (sal : SledSal) : SalStep → List (Nat × Bytes) × SledSal
  | .append record => sal.walAppendAll [record]
  | .reopen => ([], .open sal.wal)

/-- A run: the acknowledged offsets with their records, in order, and the log that is left. -/
def run (sal : SledSal) : List SalStep → List (Nat × Bytes) × SledSal
  | [] => ([], sal)
  | step :: steps =>
      let first := sal.step step
      let rest := first.2.run steps
      (first.1 ++ rest.1, rest.2)

/-- The records of a run that `wal_append` takes. -/
def appended (steps : List SalStep) : List Bytes :=
  steps.flatMap fun
    | .append record => [record].filter (Fits ·)
    | .reopen => []

/-- A client that reads page by page, each page right after the last frame of the one before, to the first
page without an entry. Nothing is returned when a page fails or the end is not reached in `fuel` pages. -/
def readPages (sal : SledSal) (max : Nat) : Nat → Nat → Option (List (List (Nat × Bytes)))
  | 0, _ => none
  | fuel + 1, offset =>
      match sal.walRead offset max with
      | .error _ => none
      | .ok page =>
          match page.toList.getLast? with
          | none => some []
          | some (last, record) =>
              (sal.readPages max fuel (last + (4 + record.length))).map (page.toList :: ·)

/-! ## The run in frames -/

/-- A step that is made at the end of the log acknowledges what it appends, under offsets from the end on, and
leads to the log with the new frames. -/
theorem step_eq {sal : SledSal} (h : sal.AtEnd) (step : SalStep) :
    sal.step step = (keyed sal.wal.length (appended [step]),
      .open (sal.wal ++ frames (appended [step]))) := by
  cases step with
  | append record =>
      rw [SledSal.step, walAppendAll_eq h, appended, List.flatMap_singleton]
  | reopen =>
      rw [SledSal.step, appended, List.flatMap_singleton, frames_nil, List.append_nil, keyed]

/-- What some steps append is what the first appends and then what the others do. -/
theorem appended_cons (step : SalStep) (steps : List SalStep) :
    appended (step :: steps) = appended [step] ++ appended steps := by
  simp [appended]

/-- The writer acknowledges records under the offsets of their frames, whenever the log is reopened. -/
theorem run_eq {sal : SledSal} (h : sal.AtEnd) (steps : List SalStep) :
    sal.run steps = (keyed sal.wal.length (appended steps),
      .open (sal.wal ++ frames (appended steps))) := by
  induction steps generalizing sal with
  | nil =>
      have hnil : appended [] = [] := rfl
      rw [run, hnil, keyed, frames_nil, List.append_nil, SledSal.open, ← h]
  | cons step steps ih =>
      have hfirst := step_eq h step
      have hatEnd : AtEnd (.open (sal.wal ++ frames (appended [step]))) := rfl
      rw [run, hfirst]
      dsimp only
      rw [ih hatEnd, appended_cons step steps, keyed_append, frames_append, wal_open,
        List.length_append, List.append_assoc]

/-- Everything that is appended fits into a frame. -/
theorem fits_appended {steps : List SalStep} : ∀ record ∈ appended steps, Fits record := by
  intro record hrecord
  obtain ⟨step, -, hstep⟩ := List.mem_flatMap.mp hrecord
  cases step with
  | append other => exact fits_filter record hstep
  | reopen => cases hstep

/-! ## The offsets of the frames -/

section Keyed

variable {offset : Nat} {records : List Bytes}

/-- The records with their offsets are the records. -/
theorem keyed_map_snd (offset : Nat) (records : List Bytes) :
    (keyed offset records).map Prod.snd = records := by
  induction records generalizing offset with
  | nil => rfl
  | cons record records ih => rw [keyed, List.map_cons, ih]

/-- There are as many offsets as records. -/
@[simp] theorem length_keyed : (keyed offset records).length = records.length := by
  rw [← List.length_map Prod.snd, keyed_map_snd]

/-- The first records have the offsets they have among all. -/
theorem keyed_take (offset n : Nat) (records : List Bytes) :
    keyed offset (records.take n) = (keyed offset records).take n := by
  induction records generalizing offset n with
  | nil => simp [keyed]
  | cons record records ih =>
      cases n with
      | zero => rfl
      | succ n => rw [List.take_succ_cons, keyed, keyed, List.take_succ_cons, ih]

/-- So do the later ones, whose offsets start behind the frames of the first. -/
theorem keyed_drop (offset n : Nat) (records : List Bytes) :
    keyed (offset + (frames (records.take n)).length) (records.drop n) =
      (keyed offset records).drop n := by
  have hsplit := keyed_append offset (records.take n) (records.drop n)
  rw [List.take_append_drop, keyed_take] at hsplit
  rw [hsplit]
  by_cases hn : n ≤ records.length
  · rw [List.drop_left' (by simpa using hn)]
  · rw [List.drop_of_length_le (by omega), keyed, List.append_nil, List.drop_take, Nat.sub_self,
      List.take_zero]

/-- The offset of a record is where the frames of the records before it end. -/
theorem getElem?_keyed {i key : Nat} {record : Bytes}
    (h : (keyed offset records)[i]? = some (key, record)) :
    key = offset + (frames (records.take i)).length ∧ records[i]? = some record := by
  induction records generalizing offset i with
  | nil => simp [keyed] at h
  | cons first records ih =>
      rw [keyed] at h
      cases i with
      | zero =>
          simp only [List.getElem?_cons_zero, Option.some.injEq, Prod.mk.injEq] at h
          obtain ⟨rfl, rfl⟩ := h
          simp
      | succ i =>
          obtain ⟨rfl, hrecord⟩ := ih h
          refine ⟨?_, hrecord⟩
          rw [List.take_succ_cons, frames_cons, List.length_append, length_frame]
          omega

/-- Offsets ascend, those of empty records too: a frame has at least its length. -/
theorem ascending_keyed (offset : Nat) (records : List Bytes) : Ascending (keyed offset records) := by
  induction records generalizing offset with
  | nil => exact List.Pairwise.nil
  | cons record records ih =>
      refine List.pairwise_cons.mpr ⟨fun entry hentry => ?_, ih _⟩
      have hkey := (mem_keyed (List.mem_map_of_mem hentry)).1
      exact Nat.lt_of_lt_of_le (by omega) hkey

end Keyed

/-! ## The map of acknowledged records -/

section AcknowledgedMap

variable {acknowledged : List (Nat × Bytes)}

/-- A record put under its offset touches no other offset. -/
theorem touchesKey_insert : TouchesKey (fun (map : Std.ExtTreeMap Nat Bytes compare) key => map[key]?)
    (fun map key record => map.insert key record) (fun _ (record : Bytes) => some record) where
  self := fun map key record => Std.ExtTreeMap.getElem?_insert_self
  other := fun map key other record hne => by
    rw [Std.ExtTreeMap.getElem?_insert, if_neg]
    exact fun heq => hne (Std.LawfulEqCmp.eq_of_compare heq).symm

/-- The map finds what was acknowledged, if the offsets ascend. -/
theorem getElem?_acknowledgedMap (h : Ascending acknowledged) {key : Nat} {record : Bytes} :
    (acknowledgedMap acknowledged)[key]? = some record ↔ (key, record) ∈ acknowledged := by
  have hdistinct : acknowledged.Pairwise fun a b => a.1 ≠ b.1 := h.imp fun hlt => hlt.ne
  constructor
  · intro hget
    have hmem : key ∈ acknowledgedMap acknowledged := Std.ExtTreeMap.mem_iff_isSome_getElem?.mpr (by
      rw [hget]
      rfl)
    obtain ⟨⟨_, other⟩, hentry, rfl⟩ := List.mem_map.mp (mem_acknowledgedMap.mp hmem)
    have hother := look_foldl_of_mem touchesKey_insert hdistinct hentry ∅
    rw [acknowledgedMap] at hget
    obtain rfl : other = record := Option.some.inj (hother.symm.trans hget)
    exact hentry
  · intro hentry
    exact look_foldl_of_mem touchesKey_insert hdistinct hentry ∅

/-- Its entries in order are what was acknowledged in order. -/
theorem toList_acknowledgedMap (h : Ascending acknowledged) :
    (acknowledgedMap acknowledged).toList = acknowledged := by
  have hkeys : Ascending (acknowledgedMap acknowledged).toList :=
    (Std.ExtTreeMap.ordered_keys_toList ).imp
      fun {a b} hlt => compare_lt_iff_lt.mp hlt
  refine hkeys.eq_of_perm h ((List.perm_ext_iff_of_nodup ?_ ?_).mpr fun entry => ?_)
  · exact hkeys.imp fun {a b} hlt heq => hlt.ne (congrArg Prod.fst heq)
  · exact h.imp fun {a b} hlt heq => hlt.ne (congrArg Prod.fst heq)
  · rw [Std.ExtTreeMap.mem_toList_iff_getElem?_eq_some, getElem?_acknowledgedMap h]

/-- The offsets of a page ascend as those of all records do. -/
theorem ascending_page (i max : Nat) (h : Ascending acknowledged) :
    Ascending ((acknowledged.drop i).take max) :=
  h.sublist ((List.take_sublist _ _).trans (List.drop_sublist _ _))

end AcknowledgedMap

/-! ## Pages -/

section Pages

variable {records : List Bytes} {max : Nat}

/-- A page is the records of its turn. -/
theorem walRead_page (hfits : ∀ record ∈ records, Fits record) (i max : Nat) :
    (SledSal.open (frames records)).walRead (frames (records.take i)).length max =
      .ok (acknowledgedMap (((keyed 0 records).drop i).take max)) := by
  -- The reader seeks to the frames from `i` on, passes those of the page, and stops at the next one.
  have hseek : (frames records).drop (frames (records.take i)).length = frames (records.drop i) := by
    have hsplit := frames_append (records.take i) (records.drop i)
    rw [List.take_append_drop] at hsplit
    rw [hsplit]
    exact List.drop_left
  have hpage : frames (records.drop i) =
      frames ((records.drop i).take max) ++ frames ((records.drop i).drop max) := by
    rw [← frames_append, List.take_append_drop]
  have hturn : ∀ record ∈ (records.drop i).take max, Fits record := fun record hrecord =>
    hfits record (List.mem_of_mem_drop (List.mem_of_mem_take hrecord))
  rw [← keyed_drop 0 i records, ← keyed_take, Nat.zero_add, acknowledgedMap, walRead, wal_open, hseek, hpage,
    readFrom_frames hturn (by rw [Nat.zero_add]; exact List.length_take_le _ _)]
  by_cases hlast : (records.drop i).length ≤ max
  · rw [List.drop_of_length_le hlast, frames_nil, readFrom_short (by decide)]
  · rw [readFrom, if_pos]
    rw [List.length_take]
    omega

/-- The entries of a page stand one behind another from `i` on. -/
theorem mem_page_iff {i : Nat} {entry : Nat × Bytes} : entry ∈ ((keyed 0 records).drop i).take max ↔
    ∃ j, i ≤ j ∧ j < i + max ∧ (keyed 0 records)[j]? = some entry := by
  rw [List.mem_iff_getElem?]
  constructor
  · rintro ⟨k, hk⟩
    have hlt : k < max := by
      have hbound := (List.getElem?_eq_some_iff.mp hk).1
      rw [List.length_take] at hbound
      omega
    rw [List.getElem?_take_of_lt hlt, List.getElem?_drop] at hk
    exact ⟨i + k, by omega, by omega, hk⟩
  · rintro ⟨j, hij, hj, hget⟩
    refine ⟨j - i, ?_⟩
    rw [List.getElem?_take_of_lt (by omega), List.getElem?_drop, Nat.add_sub_cancel' hij, hget]

/-- Behind the last entry of a page the next record begins. -/
theorem next_page {i last : Nat} {record : Bytes} {page : List (Nat × Bytes)}
    (hpage : page <+: (keyed 0 records).drop i) (hlast : page.getLast? = some (last, record)) :
    0 < page.length ∧ i + page.length ≤ records.length ∧
      last + (4 + record.length) = (frames (records.take (i + page.length))).length := by
  have hrest := List.prefix_iff_eq_append.mp hpage
  have hpos : 0 < page.length := List.length_pos_of_mem (List.mem_of_getLast? hlast)
  have hentry : (keyed 0 records)[i + (page.length - 1)]? = some (last, record) := by
    rw [← List.getElem?_drop, ← hrest, List.getElem?_append_left (by omega), ← List.getLast?_eq_getElem?, hlast]
  obtain ⟨hoffset, hrecord⟩ := getElem?_keyed hentry
  have hbound : i + (page.length - 1) < records.length := (List.getElem?_eq_some_iff.mp hrecord).1
  refine ⟨hpos, by omega, ?_⟩
  have hcount : i + page.length = i + (page.length - 1) + 1 := by omega
  rw [hcount, List.take_add_one, hrecord, Option.toList_some, frames_append, List.length_append, frames_cons,
    frames_nil, List.append_nil, length_frame, hoffset, Nat.zero_add]

/-- The client reads the records from the `i`th on in pages, each of them once. -/
theorem readPages_frames (hfits : ∀ record ∈ records, Fits record) (hmax : 1 ≤ max) {fuel : Nat} (i : Nat)
    (hfuel : records.length - i < fuel) :
    ∃ pages, (SledSal.open (frames records)).readPages max fuel (frames (records.take i)).length =
        some pages ∧ pages.flatten = (keyed 0 records).drop i := by
  induction fuel generalizing i with
  | zero => omega
  | succ fuel ih =>
      have hascending := ascending_page i max (ascending_keyed 0 records)
      rw [readPages, walRead_page hfits i max]
      dsimp only
      rw [toList_acknowledgedMap hascending]
      have hprefix := List.take_prefix max ((keyed 0 records).drop i)
      generalize hpage : ((keyed 0 records).drop i).take max = page at hprefix
      cases hlast : page.getLast? with
      | none =>
          -- An empty page is the end: nothing is left from `i` on.
          obtain rfl := List.getLast?_eq_none_iff.mp hlast
          refine ⟨[], rfl, ?_⟩
          rcases List.take_eq_nil_iff.mp hpage with rfl | hnil
          · omega
          · exact hnil.symm
      | some entry =>
          obtain ⟨last, record⟩ := entry
          have hrest := List.prefix_iff_eq_append.mp hprefix
          obtain ⟨hpos, hbound, hnext⟩ := next_page hprefix hlast
          obtain ⟨pages, hpages, hflatten⟩ := ih (i + page.length) (by omega)
          refine ⟨page :: pages, ?_, ?_⟩
          · dsimp only
            rw [hnext, hpages, Option.map_some]
          · rw [List.flatten_cons, hflatten, ← List.drop_drop, hrest]

end Pages

/-- **Paging loses nothing.** Records are appended and the log is reopened in any order. The acknowledged
records are those that fit a length; read from the offset of one of them, the log gives it and those that
follow it, as many as were asked for; read from its end it gives nothing; and pages of any size, each asked
for right after the last frame of the one before, are all acknowledged records in order. -/
theorem paging_loses_nothing (steps : List SalStep) :
    let acknowledged := ((SledSal.open []).run steps).1
    let log := ((SledSal.open []).run steps).2
    acknowledged.map Prod.snd = appended steps ∧
      (∀ i offset record, acknowledged[i]? = some (offset, record) → ∀ max, ∃ page,
        log.walRead offset max = .ok page ∧ ∀ key value, page[key]? = some value ↔
          ∃ j, i ≤ j ∧ j < i + max ∧ acknowledged[j]? = some (key, value)) ∧
      (∀ max, log.walRead log.wal.length max = .ok ∅) ∧
      ∀ max ≥ 1, ∀ fuel > acknowledged.length, ∃ pages,
        log.readPages max fuel 0 = some pages ∧ pages.flatten = acknowledged := by
  have hatEnd : (SledSal.open []).AtEnd := rfl
  have hfits := @fits_appended steps
  rw [run_eq hatEnd steps]
  dsimp only
  rw [wal_open, List.nil_append, List.length_nil]
  generalize appended steps = records at hfits
  refine ⟨keyed_map_snd 0 records, fun i offset record hrecord max => ?_, fun max => ?_,
    fun max hmax fuel hfuel => ?_⟩
  · obtain ⟨rfl, -⟩ := getElem?_keyed hrecord
    rw [Nat.zero_add]
    refine ⟨_, walRead_page hfits i max, fun key value => ?_⟩
    have hascending := ascending_page i max (ascending_keyed 0 records)
    rw [getElem?_acknowledgedMap hascending, mem_page_iff]
  · have hend := walRead_page hfits records.length max
    rw [List.take_length, List.drop_of_length_le (by rw [length_keyed]), List.take_nil] at hend
    exact hend
  · rw [length_keyed] at hfuel
    exact readPages_frames hfits hmax 0 hfuel

end SledSal

end LiminalDB
