import LiminalDB.Wal.Crc32
import LiminalDB.Wal.Writer

/-! # Runs of the log

A run is a list of appends, each with the stage at which it is made to fail, and of close/reopen
cycles, each with a rotation size of its own.

Without failures (`wal_round_trip`) every run succeeds and every offset it hands out keeps its
meaning to the end of the run: the offset of an append, and the end offset read between two steps.

With failures (`acked_delivered`) every acknowledged record is delivered, in the same process and
after a reopening, as long as nothing is written behind a torn record. `Store` itself does not
prevent that: `torn_then_acked_lost` is an acknowledged record that no reader ever gets. -/

namespace LiminalDB

variable (crc32 : Bytes → UInt32)

/-- One step of a caller of the log. -/
inductive WalOp
  /-- `append(payload)`, made to fail at a stage. -/
  | append (payload : Bytes) (failpoint : AppendFailpoint)
  /-- Close the store and open the root again with the given rotation size. -/
  | reopen (rotation : UInt64)
  deriving DecidableEq, Repr

namespace WalOp

/-- The payloads of the appends of a run, in order. -/
def payloads : List WalOp → List Bytes
  | [] => []
  | append payload _ :: ops => payload :: payloads ops
  | reopen _ :: ops => payloads ops

/-- The payload's length fits the 32-bit prefix, or the rotation size is positive. -/
def Legal : WalOp → Prop
  | append payload _ => payload.length < 2 ^ 32
  | reopen rotation => rotation ≠ 0

/-- The step is not made to fail. -/
def Unfailing : WalOp → Prop
  | append _ failpoint => failpoint = .disabled
  | reopen _ => True

/-- The payloads of two parts of a run. -/
theorem payloads_append (before after : List WalOp) :
    payloads (before ++ after) = payloads before ++ payloads after := by
  fun_induction payloads before with
  | case1 => rfl
  | case2 payload failpoint ops ih => rw [List.cons_append, payloads, ih, List.cons_append]
  | case3 rotation ops ih => rw [List.cons_append, payloads, ih]

end WalOp

/-- Run a list of operations: each append's payload with the result it got, and the store at the
end. Only a failed opening ends the run early. -/
def Store.run :
    List WalOp → Store → Except StoreError (List (Bytes × Except StoreError Offset) × Store)
  | [], store => .ok ([], store)
  | .append payload failpoint :: ops, store => do
      let (result, store') := store.append crc32 payload failpoint
      let (outcomes, last) ← Store.run ops store'
      return ((payload, result) :: outcomes, last)
  | .reopen rotation :: ops, store => do
      let store' ← Store.openWithRotation crc32 store.dataDir rotation
      Store.run ops store'

/-- The payloads of the appends that returned `Ok`. -/
def acked (outcomes : List (Bytes × Except StoreError Offset)) : List Bytes :=
  (outcomes.filter fun outcome => outcome.2.isOk).map Prod.fst

/-- `later` continues `img` by the records `added`: nothing was lost and nothing moved. -/
structure WalImage.Extends (img later : WalImage) (added : List Bytes) : Prop where
  /-- The oldest segment is the same. -/
  first_eq : later.first = img.first
  /-- The records of `img`, followed by the added ones. -/
  records_eq : later.records = img.records ++ added
  /-- Every offset locates the record it located before. -/
  locates : ∀ {offset k}, img.Locates crc32 offset k → later.Locates crc32 offset k

/-- The payload, if the append gets as far as its checksum. -/
def AppendFailpoint.stored (payload : Bytes) : AppendFailpoint → List Bytes
  | .beforeWrite => []
  | .afterLengthWrite => []
  | .afterPayloadWrite => []
  | .disabled => [payload]
  | .afterWriteBeforeSync => [payload]
  | .afterSyncBeforeAck => [payload]

/-- The failure comes after the whole frame: the record is in the log, but not acknowledged. -/
def AppendFailpoint.completes : AppendFailpoint → Bool
  | .afterWriteBeforeSync => true
  | .afterSyncBeforeAck => true
  | _ => false

namespace WalImage.Extends

variable {crc32} {img mid later : WalImage} {added more : List Bytes}

/-- A log extends itself by nothing. -/
theorem refl (img : WalImage) : img.Extends crc32 img [] := ⟨rfl, (List.append_nil _).symm, id⟩

/-- Extending goes on from one log to the next. -/
theorem trans (h : img.Extends crc32 mid added) (h' : mid.Extends crc32 later more) :
    img.Extends crc32 later (added ++ more) := by
  refine ⟨?_, ?_, fun hloc => h'.locates (h.locates hloc)⟩
  · rw [h'.first_eq, h.first_eq]
  · rw [h'.records_eq, h.records_eq, List.append_assoc]

variable (crc32)

/-- An append adds its payload when it gets as far as the checksum, and nothing otherwise. -/
theorem of_append (img : WalImage) (rotation : UInt64) (payload : Bytes)
    (failpoint : AppendFailpoint) :
    img.Extends crc32 (img.append crc32 rotation payload failpoint) (failpoint.stored payload) := by
  refine ⟨?_, ?_, fun hloc => hloc.append rotation payload failpoint⟩
  · cases failpoint <;> simp [WalImage.append, WalImage.push, WalImage.tear]
  · cases failpoint <;> simp [WalImage.append, AppendFailpoint.stored]

/-- Cutting a torn tail adds nothing. -/
theorem of_tear (img : WalImage) (tail : Tail) : img.Extends crc32 (img.tear tail) [] :=
  ⟨rfl, by simp, fun hloc => hloc.tear tail⟩

end WalImage.Extends

/-! ## Runs without failures -/

variable {crc32}

/-- From a represented store with no torn tail every run without failures succeeds; the log at the
end extends the one at the start by the payloads appended, and the `i`-th offset returned locates
the `i`-th of them. -/
theorem Store.Represents.run_unfailing {ops : List WalOp} (hops : ∀ op ∈ ops, op.Legal)
    (hfail : ∀ op ∈ ops, op.Unfailing) {store : Store} {img : WalImage}
    (h : store.Represents crc32 img) (hclean : img.tail = .clean) :
    ∃ (offsets : List Offset) (last : Store) (later : WalImage),
      store.run crc32 ops = .ok ((WalOp.payloads ops).zip (offsets.map .ok), last) ∧
      last.Represents crc32 later ∧ later.tail = .clean ∧
      img.Extends crc32 later (WalOp.payloads ops) ∧
      offsets.length = (WalOp.payloads ops).length ∧
      ∀ i offset, offsets[i]? = some offset →
        later.Locates crc32 offset (img.records.length + i) := by
  -- induction on the run; each step is the lemma of its operation
  induction ops generalizing store img with
  | nil => exact ⟨[], store, img, rfl, h, hclean, .refl img, rfl, by simp⟩
  | cons op ops ih =>
      have hops' : ∀ op ∈ ops, op.Legal := fun op hop => hops op (List.mem_cons_of_mem _ hop)
      have hfail' : ∀ op ∈ ops, op.Unfailing :=
        fun op hop => hfail op (List.mem_cons_of_mem _ hop)
      cases op with
      | append payload failpoint =>
          obtain rfl : failpoint = .disabled := hfail _ List.mem_cons_self
          obtain ⟨hres, hrep, -⟩ := h.append hclean (hops _ List.mem_cons_self) .disabled
          have hext := WalImage.Extends.of_append crc32 img store.writer.rotation payload .disabled
          obtain ⟨offsets, last, later, hrun, hlast, hlater, hext', hcount, hoffsets⟩ :=
            ih hops' hfail' hrep (by simp [WalImage.append, WalImage.push, hclean])
          -- the returned offset is the end of the log after the rotation test
          have hloc := (WalImage.locates_endOffset crc32
            (img.makeRoom crc32 store.writer.rotation payload)).push payload
          rw [WalImage.makeRoom_records] at hloc
          refine ⟨(img.makeRoom crc32 store.writer.rotation payload).endOffset crc32 :: offsets,
            last, later, ?_, hlast, hlater, hext.trans hext', ?_, ?_⟩
          · simp only [Store.run, hrun, hres]
            rfl
          · simp [WalOp.payloads, hcount]
          · rintro (_ | i) offset hi
            · obtain rfl : _ = offset := by simpa using hi
              exact hext'.locates hloc
            · have hi' := hoffsets i offset (by simpa using hi)
              rw [hext.records_eq, List.length_append] at hi'
              rwa [show img.records.length + (i + 1) = img.records.length + 1 + i by omega]
      | reopen rotation =>
          obtain ⟨store', hopen, hrep, -⟩ := h.openWithRotation (hops _ List.mem_cons_self)
          have hext := WalImage.Extends.of_tear crc32 img .clean
          obtain ⟨offsets, last, later, hrun, hlast, hlater, hext', hcount, hoffsets⟩ :=
            ih hops' hfail' hrep rfl
          refine ⟨offsets, last, later, ?_, hlast, hlater, hext.trans hext', hcount, hoffsets⟩
          simp only [Store.run, hopen]
          exact hrun

/-- **WAL round trip with offsets.** On a new root, with any positive rotation size, every list of
appends and reopenings succeeds. Reading from the start gives the payloads in order and then the
end; reading from the offset of the `i`-th append gives the payloads from the `i`-th on; and reading
from the end offset taken between two parts of the run gives the payloads of the second part. -/
theorem wal_round_trip (crc32 : Bytes → UInt32) {rotation : UInt64} (hrotation : rotation ≠ 0)
    (before after : List WalOp) (hops : ∀ op ∈ before ++ after, op.Legal)
    (hfail : ∀ op ∈ before ++ after, op.Unfailing) :
    ∃ (store mid last : Store) (firstOffsets laterOffsets : List Offset),
      Store.openWithRotation crc32 ∅ rotation = .ok store ∧
      store.run crc32 before =
        .ok ((WalOp.payloads before).zip (firstOffsets.map .ok), mid) ∧
      mid.run crc32 after = .ok ((WalOp.payloads after).zip (laterOffsets.map .ok), last) ∧
      (firstOffsets ++ laterOffsets).length = (WalOp.payloads (before ++ after)).length ∧
      last.streamFrom crc32 Offset.start = .ok (WalOp.payloads (before ++ after), none) ∧
      (∀ i offset, (firstOffsets ++ laterOffsets)[i]? = some offset →
        last.streamFrom crc32 offset =
          .ok ((WalOp.payloads (before ++ after)).drop i, none)) ∧
      last.streamFrom crc32 mid.endOffset = .ok (WalOp.payloads after, none) := by
  obtain ⟨store, hopen, hstore, -⟩ := openWithRotation_empty crc32 hrotation
  obtain ⟨firstOffsets, mid, midImg, hbefore, hmid, hmidClean, hext, hcount, hfirst⟩ :=
    hstore.run_unfailing (fun op hop => hops op (List.mem_append_left _ hop))
      (fun op hop => hfail op (List.mem_append_left _ hop)) rfl
  obtain ⟨laterOffsets, last, lastImg, hafter, hlast, hlastClean, hext', hcount', hlater⟩ :=
    hmid.run_unfailing (fun op hop => hops op (List.mem_append_right _ hop))
      (fun op hop => hfail op (List.mem_append_right _ hop)) hmidClean
  have hmidRecords : midImg.records = WalOp.payloads before := by
    rw [hext.records_eq]; rfl
  have hrecords : lastImg.records = WalOp.payloads (before ++ after) := by
    rw [hext'.records_eq, hmidRecords, WalOp.payloads_append]
  -- reading from an offset that locates the `k`-th payload
  have read : ∀ {offset k}, lastImg.Locates crc32 offset k →
      last.streamFrom crc32 offset = .ok ((WalOp.payloads (before ++ after)).drop k, none) := by
    intro offset k hloc
    rw [hlast.streamFrom_eq hloc, hrecords, hlastClean]
    rfl
  refine ⟨store, mid, last, firstOffsets, laterOffsets, hopen, hbefore, hafter, ?_, ?_, ?_, ?_⟩
  · rw [List.length_append, hcount, hcount', WalOp.payloads_append, List.length_append]
  · have hstart := WalImage.locates_start crc32 WalImage.empty rfl
    exact read (hext'.locates (hext.locates hstart))
  · intro i offset hi
    rcases Nat.lt_or_ge i firstOffsets.length with hlt | hge
    · rw [List.getElem?_append_left hlt] at hi
      have hloc := hfirst i offset hi
      rw [show WalImage.empty.records.length + i = i by simp [WalImage.records, WalImage.empty]]
        at hloc
      exact read (hext'.locates hloc)
    · rw [List.getElem?_append_right hge] at hi
      have hloc := hlater _ offset hi
      rw [hmidRecords, ← hcount, Nat.add_sub_cancel' hge] at hloc
      exact read hloc
  · have hend := hext'.locates (WalImage.locates_endOffset crc32 midImg)
    rw [← hmid.endOffset_eq, hmidRecords] at hend
    rw [read hend, WalOp.payloads_append, List.drop_left]

/-- Two appends, a reopening with a smaller rotation size and a third append: the end offset taken
before the reopening leads to the third payload, across the rotation. -/
theorem wal_round_trip_across_rotation :
    ∃ (store mid last : Store) (firstOffsets laterOffsets : List Offset),
      Store.openWithRotation crc32Ieee ∅ 64 = .ok store ∧
      store.run crc32Ieee [.append [1, 2, 3] .disabled, .append [] .disabled] =
        .ok ([[1, 2, 3], []].zip (firstOffsets.map .ok), mid) ∧
      mid.run crc32Ieee [.reopen 16, .append [4] .disabled] =
        .ok ([[4]].zip (laterOffsets.map .ok), last) ∧
      last.streamFrom crc32Ieee Offset.start = .ok ([[1, 2, 3], [], [4]], none) ∧
      last.streamFrom crc32Ieee mid.endOffset = .ok ([[4]], none) := by
  obtain ⟨store, mid, last, firstOffsets, laterOffsets, hopen, hbefore, hafter, -, hstart, -, hend⟩ :=
    wal_round_trip crc32Ieee (by decide : (64 : UInt64) ≠ 0)
      [.append [1, 2, 3] .disabled, .append [] .disabled] [.reopen 16, .append [4] .disabled]
      (by simp [WalOp.Legal]) (by simp [WalOp.Unfailing])
  exact ⟨store, mid, last, firstOffsets, laterOffsets, hopen, hbefore, hafter, hstart, hend⟩

/-! ## Runs with failures -/

/-- The failure leaves the beginning of a frame in the file. -/
def AppendFailpoint.tears : AppendFailpoint → Bool
  | .afterLengthWrite => true
  | .afterPayloadWrite => true
  | _ => false

namespace WalOp

/-- Nothing is written behind a torn record: after an append that fails between its length prefix
and its checksum (`torn`), every append fails before it writes, until the root is reopened. -/
def Undamaged : Bool → List WalOp → Prop
  | _, [] => True
  | torn, append _ failpoint :: ops =>
      (torn = true → failpoint = .beforeWrite) ∧ Undamaged (torn || failpoint.tears) ops
  | _, reopen _ :: ops => Undamaged false ops

/-- The payloads whose frames the run completes, whether it acknowledges them or not. -/
def stored : List WalOp → List Bytes
  | [] => []
  | append payload failpoint :: ops => failpoint.stored payload ++ stored ops
  | reopen _ :: ops => stored ops

/-- What a run stores was handed to it. -/
theorem stored_sublist_payloads (ops : List WalOp) : (stored ops).Sublist (payloads ops) := by
  fun_induction payloads ops with
  | case1 => exact .slnil
  | case2 payload failpoint ops ih =>
      have hone : (failpoint.stored payload).Sublist [payload] := by
        cases failpoint <;> simp [AppendFailpoint.stored]
      exact hone.append ih
  | case3 rotation ops ih => exact ih

end WalOp

/-- What the log owes its callers at the end of a run: the acknowledged records are delivered from the
start, in order and before any error, by the same store and by every reopening of its root; and
nothing is delivered that was not handed to `append`. -/
def AckedDelivered (crc32 : Bytes → UInt32) (acks calls : List Bytes) (store : Store) : Prop :=
  (∃ delivered e, store.streamFrom crc32 Offset.start = .ok (delivered, e) ∧
    acks.Sublist delivered ∧ delivered.Sublist calls) ∧
  ∀ rotation : UInt64, rotation ≠ 0 →
    ∃ reopened, Store.openWithRotation crc32 store.dataDir rotation = .ok reopened ∧
      ∃ delivered e, reopened.streamFrom crc32 Offset.start = .ok (delivered, e) ∧
        acks.Sublist delivered ∧ delivered.Sublist calls

/-- An append that is acknowledged stored its payload. -/
theorem acked_cons_sublist (img : WalImage) (rotation : UInt64) (payload : Bytes)
    (failpoint : AppendFailpoint) {outcomes : List (Bytes × Except StoreError Offset)}
    {records : List Bytes} (h : (acked outcomes).Sublist records) :
    (acked ((payload, img.appendResult crc32 rotation payload failpoint) :: outcomes)).Sublist
      (failpoint.stored payload ++ records) := by
  by_cases hfail : failpoint = .disabled
  · subst hfail
    exact h.cons_cons payload
  · have hskip : acked ((payload, img.appendResult crc32 rotation payload failpoint) :: outcomes) =
        acked outcomes := by
      simp [acked, WalImage.appendResult, hfail, Except.isOk, Except.toBool]
    rw [hskip]
    exact h.trans (List.sublist_append_right _ _)

/-- From a represented store every undamaged run goes through: the log at the end extends the one at
the start by the stored payloads, and those include the acknowledged ones. -/
theorem Store.Represents.run_undamaged {ops : List WalOp} (hops : ∀ op ∈ ops, op.Legal)
    {torn : Bool} (hund : WalOp.Undamaged torn ops) {store : Store} {img : WalImage}
    (h : store.Represents crc32 img) (htail : torn = false → img.tail = .clean) :
    ∃ outcomes last later, store.run crc32 ops = .ok (outcomes, last) ∧
      last.Represents crc32 later ∧ img.Extends crc32 later (WalOp.stored ops) ∧
      (acked outcomes).Sublist (WalOp.stored ops) := by
  -- `torn` bounds what is behind the frames: where it is false, nothing is
  induction ops generalizing store img torn with
  | nil => exact ⟨[], store, img, rfl, h, .refl img, .slnil⟩
  | cons op ops ih =>
      have hops' : ∀ op ∈ ops, op.Legal := fun op hop => hops op (List.mem_cons_of_mem _ hop)
      cases op with
      | append payload failpoint =>
          obtain ⟨hquiet, hund'⟩ := hund
          -- what this call does: on a torn log it is a call that fails before the write
          have step : (store.append crc32 payload failpoint).1 =
                img.appendResult crc32 store.writer.rotation payload failpoint ∧
              (store.append crc32 payload failpoint).2.Represents crc32
                (img.append crc32 store.writer.rotation payload failpoint) ∧
              ((torn || failpoint.tears) = false →
                (img.append crc32 store.writer.rotation payload failpoint).tail = .clean) := by
            cases torn with
            | true =>
                obtain rfl := hquiet rfl
                exact ⟨rfl, h, by simp⟩
            | false =>
                obtain ⟨hres, hrep, -⟩ := h.append (htail rfl) (hops _ List.mem_cons_self) failpoint
                refine ⟨hres, hrep, fun hno => ?_⟩
                cases failpoint <;>
                  simp_all [AppendFailpoint.tears, WalImage.append, WalImage.push]
          obtain ⟨hres, hrep, htail'⟩ := step
          obtain ⟨outcomes, last, later, hrun, hlast, hext, hacked⟩ := ih hops' hund' hrep htail'
          have hext₀ := WalImage.Extends.of_append crc32 img store.writer.rotation payload failpoint
          refine ⟨(payload, img.appendResult crc32 store.writer.rotation payload failpoint) :: outcomes,
            last, later, ?_, hlast, hext₀.trans hext,
            acked_cons_sublist img store.writer.rotation payload failpoint hacked⟩
          simp only [Store.run, hrun, hres]
          rfl
      | reopen rotation =>
          obtain ⟨store', hopen, hrep, -⟩ := h.openWithRotation (hops _ List.mem_cons_self)
          obtain ⟨outcomes, last, later, hrun, hlast, hext, hacked⟩ :=
            ih hops' hund hrep (fun _ => rfl)
          have hext₀ := WalImage.Extends.of_tear crc32 img .clean
          refine ⟨outcomes, last, later, ?_, hlast, hext₀.trans hext, hacked⟩
          simp only [Store.run, hopen]
          exact hrun

/-- **No acknowledged record is lost, and none is made up,** in a run on a new root in which nothing is
written behind a torn record. -/
theorem acked_delivered (crc32 : Bytes → UInt32) {rotation : UInt64} (hrotation : rotation ≠ 0)
    (ops : List WalOp) (hops : ∀ op ∈ ops, op.Legal) (hund : WalOp.Undamaged false ops) :
    ∃ store outcomes last, Store.openWithRotation crc32 ∅ rotation = .ok store ∧
      store.run crc32 ops = .ok (outcomes, last) ∧
      AckedDelivered crc32 (acked outcomes) (WalOp.payloads ops) last := by
  obtain ⟨store, hopen, hstore, -⟩ := openWithRotation_empty crc32 hrotation
  obtain ⟨outcomes, last, img, hrun, hlast, hext, hacked⟩ :=
    hstore.run_undamaged hops hund (fun _ => rfl)
  have hrecords : img.records = WalOp.stored ops := by
    rw [hext.records_eq]; rfl
  have hstart : img.Locates crc32 Offset.start 0 :=
    WalImage.locates_start crc32 img (by rw [hext.first_eq]; rfl)
  have hcalls := WalOp.stored_sublist_payloads ops
  refine ⟨store, outcomes, last, hopen, hrun, ⟨_, _, hlast.streamFrom_eq hstart, ?_⟩, ?_⟩
  · rw [List.drop_zero, hrecords]
    exact ⟨hacked, hcalls⟩
  · intro rotation' hrotation'
    obtain ⟨reopened, hreopen, hrep, -⟩ := hlast.openWithRotation hrotation'
    refine ⟨reopened, hreopen, _, _, hrep.streamFrom_eq (hstart.tear .clean), ?_⟩
    rw [List.drop_zero, WalImage.tear_records, hrecords]
    exact ⟨hacked, hcalls⟩

/-- A record before, a torn one behind it, a call that fails before the write, a reopening and a
record after: both acknowledged records are delivered. -/
theorem acked_delivered_after_reopen :
    ∃ store outcomes last, Store.openWithRotation crc32Ieee ∅ 64 = .ok store ∧
      store.run crc32Ieee [.append [1] .disabled, .append [2, 3] .afterPayloadWrite,
        .append [9] .beforeWrite, .reopen 16, .append [4] .disabled] = .ok (outcomes, last) ∧
      AckedDelivered crc32Ieee (acked outcomes) [[1], [2, 3], [9], [4]] last :=
  acked_delivered crc32Ieee (by decide : (64 : UInt64) ≠ 0)
    [.append [1] .disabled, .append [2, 3] .afterPayloadWrite, .append [9] .beforeWrite,
      .reopen 16, .append [4] .disabled]
    (by simp [WalOp.Legal]) (by simp [WalOp.Undamaged, AppendFailpoint.tears])

/-! ### Writing behind a torn record -/

/-- The file after the length prefix of a lost record of twenty bytes and a complete frame. -/
def tornFile : Bytes := toLeBytes 20 ++ frame crc32Ieee [1]

/-- The reader takes the complete frame for the payload of the lost record, and misses the rest. -/
theorem tornFile_streamFrom {store : Store} (h : Consecutive store.dataDir 1 [tornFile]) :
    store.streamFrom crc32Ieee Offset.start = .ok ([], some .unexpectedEof) := by
  obtain ⟨s, hnew, hs⟩ := WalStream.new_eq (n := 0) h rfl (h.getElem? 0) Nat.one_pos 0
  have hread : WalStream.readFrame crc32Ieee ⟨tornFile, 0⟩ = .error .unexpectedEof := rfl
  unfold Store.streamFrom
  rw [show Offset.start = ⟨1 + 0, 0⟩ from rfl, hnew]
  show Except.ok (s.collect crc32Ieee) = _
  rw [collect_eq, next_of_file crc32Ieee hs.file_eq, hread]

/-- The repair does the same, and refuses to cut what may be a payload. -/
theorem tornFile_openWithRotation {dir : WalDir} (h : Consecutive dir 1 [tornFile])
    {rotation : UInt64} (hrotation : rotation ≠ 0) :
    Store.openWithRotation crc32Ieee dir rotation = .error (.ambiguousPartialPayload 1 0) := by
  have hrecover : recoverLastSegmentTail crc32Ieee 1 tornFile =
      .error (.ambiguousPartialPayload 1 0) := by
    rw [recoverLastSegmentTail, recoverFrom]
    rfl
  have hlast : (listSegments dir).getLast?.getD 1 = 1 := by
    rw [listSegments_eq (n := 0) h rfl]
    rfl
  have hget : dir[1]? = some tornFile := h.getElem? 0
  rw [Store.openWithRotation, if_neg hrotation, WalWriter.open]
  simp only [hlast, hget, hrecover]
  rfl

/-- An acknowledged record that no reader gets: behind the length prefix of a failed append the
store writes the next record and returns `Ok`; the same store reads an error in its place and the
root does not open any more. -/
theorem torn_then_acked_lost :
    ∃ store outcomes last, Store.openWithRotation crc32Ieee ∅ defaultSegmentSize = .ok store ∧
      store.run crc32Ieee
        [.append (List.replicate 20 7) .afterLengthWrite, .append [1] .disabled] =
          .ok (outcomes, last) ∧
      acked outcomes = [[1]] ∧
      last.streamFrom crc32Ieee Offset.start = .ok ([], some .unexpectedEof) ∧
      Store.openWithRotation crc32Ieee last.dataDir defaultSegmentSize =
        .error (.ambiguousPartialPayload 1 0) ∧
      ¬ AckedDelivered crc32Ieee (acked outcomes) [List.replicate 20 7, [1]] last := by
  -- the run itself is evaluated
  have hrun : ∃ store outcomes last,
      Store.openWithRotation crc32Ieee ∅ defaultSegmentSize = .ok store ∧
      store.run crc32Ieee
        [.append (List.replicate 20 7) .afterLengthWrite, .append [1] .disabled] =
          .ok (outcomes, last) ∧
      acked outcomes = [[1]] ∧ last.dataDir = (∅ : WalDir).insert 1 tornFile :=
    ⟨_, _, _, rfl, rfl, by decide +kernel, rfl⟩
  obtain ⟨store, outcomes, last, hopen, hrun, hacked, hdir⟩ := hrun
  have hfiles : Consecutive last.dataDir 1 [tornFile] := by
    rw [hdir]
    exact (Consecutive.nil 1).push tornFile
  have hread := tornFile_streamFrom hfiles
  refine ⟨store, outcomes, last, hopen, hrun, hacked, hread,
    tornFile_openWithRotation hfiles (by decide), ?_⟩
  rintro ⟨⟨delivered, e, hstream, hsub, -⟩, -⟩
  rw [hread] at hstream
  cases hstream
  rw [hacked] at hsub
  cases hsub

/-! ### A length that does not fit its prefix -/

/-- Behind a prefix that was truncated to zero the repair finds an empty record, and takes the first
bytes of the payload for its checksum. -/
theorem recoverLastSegmentTail_truncated (segment : Nat) {payload : Bytes}
    (hlen : payload.length = 2 ^ 32) (hcrc : (crc32 []).toNat ≠ fromLeBytes payload) (more : Bytes) :
    recoverLastSegmentTail crc32 segment (toLeBytes payload.length ++ (payload ++ more)) =
      .error (.checksumMismatchAt segment 0) := by
  have hsize : (toLeBytes payload.length ++ (payload ++ more)).length =
      4 + (2 ^ 32 + more.length) := by
    rw [List.length_append, List.length_append, hlen, length_toLeBytes]
  have hprefix : fromLeBytes (toLeBytes payload.length ++ (payload ++ more)) = 0 := by
    rw [fromLeBytes_toLeBytes_append, hlen, Nat.mod_self]
  have hchecksum : fromLeBytes ((toLeBytes payload.length ++ (payload ++ more)).drop 4) =
      fromLeBytes payload := by
    rw [List.drop_left' (length_toLeBytes _), fromLeBytes_append (by omega)]
  generalize toLeBytes payload.length ++ (payload ++ more) = content at *
  -- the empty record the scan sees ends behind its checksum
  have hend : checkedFrameEnd (0 + 4) (fromLeBytes (content.drop 0)) = some 8 := by
    rw [List.drop_zero, hprefix, checkedFrameEnd_eq]
    rfl
  rw [recoverLastSegmentTail, recoverFrom, if_pos (by omega)]
  simp only [List.drop_zero, Nat.sub_zero, Nat.zero_add, hprefix, hchecksum, List.take_zero]
  rw [if_neg (by omega)]
  split
  · rename_i hnone
    rw [hend] at hnone
    cases hnone
  · rename_i frameEnd hsome
    rw [hend] at hsome
    cases hsome
    rw [if_neg (by omega), if_pos hcrc]

/-- A record of `2 ^ 32` bytes on an empty log is acknowledged, and the root does not open any
more. -/
theorem Store.Represents.oversize {store : Store} (h : store.Represents crc32 WalImage.empty)
    {payload : Bytes} (hlen : payload.length = 2 ^ 32)
    (hcrc : (crc32 []).toNat ≠ fromLeBytes payload)
    (hrot : store.writer.rotation.toNat < 2 ^ 32) {rotation : UInt64} (hrotation : rotation ≠ 0) :
    Store.openWithRotation crc32 (store.append crc32 payload .disabled).2.dataDir rotation =
      .error (.checksumMismatchAt 2 0) := by
  -- the record does not fit the first segment, which stays empty
  have hsize : store.writer.size + recordSize payload > store.writer.rotation.toNat := by
    unfold recordSize
    omega
  have hend := (((h.atEnd.rotated.written (toLeBytes payload.length)).written payload).written
    (toLeBytes (crc32 payload).toNat)).files
  have hdir : (store.append crc32 payload .disabled).2.dataDir =
      (((store.writer.rotated.written (toLeBytes payload.length)).written payload).written
        (toLeBytes (crc32 payload).toNat)).dataDir := by
    unfold Store.append
    rw [WalWriter.append_run]
    simp only [if_pos hsize, reduceCtorEq, if_false, or_self]
  rw [hdir]
  have hfiles : Consecutive (((store.writer.rotated.written (toLeBytes payload.length)).written
      payload).written (toLeBytes (crc32 payload).toNat)).dataDir 1
      [[], toLeBytes payload.length ++ (payload ++ toLeBytes (crc32 payload).toNat)] := by
    simpa [WalImage.empty, Tail.bytes] using hend
  generalize (((store.writer.rotated.written (toLeBytes payload.length)).written payload).written
    (toLeBytes (crc32 payload).toNat)).dataDir = dir at hfiles
  have hlast : (listSegments dir).getLast?.getD 1 = 2 := by
    rw [listSegments_eq (n := 1) hfiles rfl]
    rfl
  have hget : dir[2]? =
      some (toLeBytes payload.length ++ (payload ++ toLeBytes (crc32 payload).toNat)) :=
    hfiles.getElem? 1
  rw [Store.openWithRotation, if_neg hrotation, WalWriter.open]
  simp only [hlast, hget, recoverLastSegmentTail_truncated 2 hlen hcrc]
  rfl

end LiminalDB
