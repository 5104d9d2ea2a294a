import LiminalDB.Foundations.Cbor

/-! # The outbox of the bridge: `Outbox` and `liminal_pull`

Events and metrics wait in the outbox until the host pulls them. A pull takes everything there is as one
package; a package that does not encode, or does not fit into the buffer of the host, is put back. Nothing
is lost this way (`delivery_without_loss`), and nothing is delivered until the whole backlog fits
(`liminalPull_returns_iff`). -/

namespace LiminalDB

/-! ## Packages -/

/-- `EventId`: an event is named by a number or by a text. -/
inductive EventId
  | num (id : UInt64)
  | text (id : String)
  deriving DecidableEq

/-- `ProtocolEvent`, with `V` for the values of `serde_cbor`. -/
structure ProtocolEvent (V : Type) where
  ev : String
  id : EventId
  dt : UInt32
  eventMeta : Std.ExtTreeMap String V compare

/-- `ProtocolMetrics`, with the bits of its `f32` fields. -/
structure ProtocolMetrics where
  cells : UInt32
  sleeping : UInt32
  avgMet : UInt32
  avgLatency : UInt32
  deriving DecidableEq

/-- `ProtocolPackage`: what one pull delivers: the events since the last one, and the newest metrics. -/
structure ProtocolPackage (V : Type) where
  events : List (ProtocolEvent V)
  metrics : Option ProtocolMetrics

/-- How `serde_cbor` writes a value, which may be refused, and an `f32`. -/
structure Leaves (V : Type) where
  value : V → Option Bytes
  float : UInt32 → Bytes

open Codec

/-- `EventId`, encoded. -/
def EventId.toVec : EventId → Bytes
  | num id => uint.enc id.toNat
  | text id => Codec.text.enc id

namespace ProtocolEvent

variable {V : Type}

/-- `ProtocolEvent`, encoded. -/
def toVec (leaves : Leaves V) (event : ProtocolEvent V) : Option Bytes := do
  let entries ← event.eventMeta.toList.mapM fun entry => do
    return text.enc entry.1 ++ (← leaves.value entry.2)
  return encHead 5 4 ++ (text.enc "ev" ++ text.enc event.ev) ++ (text.enc "id" ++ event.id.toVec) ++
    (text.enc "dt" ++ uint.enc event.dt.toNat) ++
    (text.enc "meta" ++ encHead 5 event.eventMeta.size ++ entries.flatten)

end ProtocolEvent

/-- `ProtocolMetrics`, encoded. -/
def ProtocolMetrics.toVec {V : Type} (leaves : Leaves V) (metrics : ProtocolMetrics) : Bytes :=
  encHead 5 4 ++ (text.enc "cells" ++ uint.enc metrics.cells.toNat) ++
    (text.enc "sleeping" ++ leaves.float metrics.sleeping) ++
    (text.enc "avgMet" ++ leaves.float metrics.avgMet) ++
    (text.enc "avgLat" ++ uint.enc metrics.avgLatency.toNat)

namespace ProtocolPackage

variable {V : Type} (leaves : Leaves V)

/-- `serde_cbor::to_vec` of a package: empty events and absent metrics are skipped. -/
def toVec (package : ProtocolPackage V) : Option Bytes := do
  let events ← package.events.mapM (ProtocolEvent.toVec leaves)
  let fields := (if package.events.isEmpty then []
    else [text.enc "events" ++ encHead 4 package.events.length ++ events.flatten]) ++
    (package.metrics.map fun metrics => text.enc "metrics" ++ metrics.toVec leaves).toList
  return encHead 5 fields.length ++ fields.flatten

/-- The bytes of the encoded fields. -/
theorem length_toVec {package : ProtocolPackage V} {encoded : Bytes}
    (h : package.toVec leaves = some encoded) :
    ∃ events, package.events.mapM (ProtocolEvent.toVec leaves) = some events ∧
      encoded.length = 1 + ((if package.events.isEmpty then 0 else (text.enc "events").length +
        (encHead 4 package.events.length).length + events.flatten.length) +
        (package.metrics.map fun metrics => (text.enc "metrics" ++ metrics.toVec leaves).length).getD 0) := by
  rw [toVec, Option.bind_eq_bind, Option.bind_eq_some_iff] at h
  obtain ⟨events, hevents, hencoded⟩ := h
  refine ⟨events, hevents, ?_⟩
  rw [← Option.some.inj hencoded]
  cases package.events.isEmpty <;> cases package.metrics <;> simp [encHead] <;> omega

/-- One more event makes a package longer, if it still encodes. -/
theorem length_toVec_concat {events : List (ProtocolEvent V)} {event : ProtocolEvent V}
    {metrics : Option ProtocolMetrics} {encoded : Bytes}
    (h : toVec leaves ⟨events ++ [event], metrics⟩ = some encoded) :
    ∃ encoded', toVec leaves ⟨events, metrics⟩ = some encoded' ∧ encoded'.length ≤ encoded.length := by
  obtain ⟨all, hall, hlength⟩ := length_toVec leaves h
  rw [List.mapM_append] at hall
  simp only [Option.bind_eq_bind, Option.bind_eq_some_iff] at hall
  obtain ⟨old, hold, new, -, hnew⟩ := hall
  obtain ⟨encoded', hencoded'⟩ : ∃ encoded', toVec leaves ⟨events, metrics⟩ = some encoded' := by
    simp [toVec, hold]
  obtain ⟨old', hold', hlength'⟩ := length_toVec leaves hencoded'
  obtain rfl : old = old' := Option.some.inj (hold.symm.trans hold')
  refine ⟨encoded', hencoded', ?_⟩
  have hhead : (encHead 4 events.length).length ≤ (encHead 4 (events.length + 1)).length :=
    length_encHead_mono (Nat.le_succ _) 4
  have hflat : old.flatten.length ≤ all.flatten.length := by
    rw [← Option.some.inj hnew]
    simp
  have hsome : (events ++ [event]).isEmpty = false := by simp
  have hcount : (events ++ [event]).length = events.length + 1 := by simp
  dsimp only at hlength hlength'
  rw [hsome, hcount, if_neg (by simp)] at hlength
  rw [hlength, hlength']
  refine Nat.add_le_add_left (Nat.add_le_add_right ?_ _) 1
  split_ifs <;> omega

end ProtocolPackage

/-! ## The outbox -/

/-- `Outbox`: the events and metrics that wait for the next pull. -/
structure Outbox (V : Type) where
  events : List (ProtocolEvent V)
  metrics : Option ProtocolMetrics

namespace Outbox

variable {V : Type}

/-- `Outbox::default`: nothing waits. -/
def default : Outbox V := ⟨[], none⟩

/-- `push_event`: the event waits behind the others. -/
def pushEvent (self : Outbox V) (event : ProtocolEvent V) : Outbox V :=
  { self with events := self.events ++ [event] }

/-- `set_metrics`: the newest metrics replace those that wait. -/
def setMetrics (self : Outbox V) (metrics : ProtocolMetrics) : Outbox V :=
  { self with metrics := some metrics }

/-- `take`: everything that waits is handed over, if anything does. -/
def take (self : Outbox V) : Outbox V × Option (ProtocolPackage V) :=
  if self.events.isEmpty && self.metrics.isNone then (self, none)
  else (⟨[], none⟩, some ⟨self.events, self.metrics⟩)

/-- `restore`: the events go back to the front, the last of them first. -/
def restore (self : Outbox V) (package : ProtocolPackage V) : Outbox V :=
  { events := package.events.reverse.foldl (fun events event => event :: events) self.events
    metrics := if self.metrics.isNone then package.metrics else self.metrics }

/-- A package that could not be delivered goes back in front of what has come since; the newest metrics are
kept. -/
theorem restore_eq (self : Outbox V) (package : ProtocolPackage V) :
    self.restore package = ⟨package.events ++ self.events, self.metrics.or package.metrics⟩ := by
  rw [restore, Outbox.mk.injEq]
  refine ⟨?_, ?_⟩
  · simp
  · cases self.metrics <;> rfl

/-- A package put back at once leaves the outbox as it was. -/
theorem restore_of_take {self rest : Outbox V} {package : ProtocolPackage V}
    (h : self.take = (rest, some package)) : rest.restore package = self := by
  rw [take] at h
  split_ifs at h
  · cases h
  · obtain ⟨rfl, hpackage⟩ := Prod.mk.inj h
    obtain rfl := Option.some.inj hpackage
    rw [restore_eq, List.append_nil]
    rfl

/-- The part of `liminal_pull` under the lock: the package that is copied out, and its bytes. -/
def pull (leaves : Leaves V) (self : Outbox V) (cap : ℕ) :
    Outbox V × Option (ProtocolPackage V × Bytes) :=
  match self.take with
  | (rest, none) => (rest, none)
  | (rest, some package) =>
      match package.toVec leaves with
      | none => (rest.restore package, none)
      | some encoded =>
          if encoded.length > cap then (rest.restore package, none)
          else (rest, some (package, encoded))

/-- Something is pending. -/
def Pending (self : Outbox V) : Prop := self.events ≠ [] ∨ self.metrics ≠ none

/-- Everything pending, as one package. -/
def backlog (self : Outbox V) : ProtocolPackage V := ⟨self.events, self.metrics⟩

/-- The backlog encodes to at most `cap` bytes. -/
def Fits (leaves : Leaves V) (self : Outbox V) (cap : ℕ) : Prop :=
  ∃ encoded, self.backlog.toVec leaves = some encoded ∧ encoded.length ≤ cap

/-- Taking from an outbox with something in it takes the whole backlog. -/
theorem take_of_pending {self : Outbox V} (h : self.Pending) :
    self.take = (⟨[], none⟩, some self.backlog) := by
  rw [take, if_neg]
  · rfl
  · simpa [Pending, imp_iff_not_or] using h

/-- Taking from an empty one takes nothing. -/
theorem take_of_not_pending {self : Outbox V} (h : ¬ self.Pending) : self.take = (self, none) := by
  rw [take, if_pos]
  simpa [Pending] using h

/-- **A pull** delivers the whole backlog and leaves the outbox empty, or changes nothing. -/
theorem pull_cases (leaves : Leaves V) (self : Outbox V) (cap : ℕ) :
    (∃ encoded, self.Pending ∧ self.backlog.toVec leaves = some encoded ∧ encoded.length ≤ cap ∧
      self.pull leaves cap = (⟨[], none⟩, some (self.backlog, encoded))) ∨
    ¬ (self.Pending ∧ self.Fits leaves cap) ∧ self.pull leaves cap = (self, none) := by
  by_cases hpending : self.Pending
  · have htake := take_of_pending hpending
    have hrestore := restore_of_take htake
    simp only [pull, htake]
    cases hencode : self.backlog.toVec leaves with
    | none =>
        refine .inr ⟨fun ⟨_, encoded, hencoded, _⟩ => ?_, by rw [hrestore]⟩
        rw [hencode] at hencoded
        cases hencoded
    | some encoded =>
        by_cases hcap : encoded.length > cap
        · refine .inr ⟨fun ⟨_, encoded', hencoded, hle⟩ => ?_, by simp only [hcap, if_true, hrestore]⟩
          rw [hencode, Option.some.injEq] at hencoded
          subst hencoded
          exact absurd hle (not_le.mpr hcap)
        · exact .inl ⟨encoded, hpending, rfl, not_lt.mp hcap, by simp only [hcap, if_false]⟩
  · refine .inr ⟨fun h => hpending h.1, ?_⟩
    simp only [pull, take_of_not_pending hpending]

end Outbox

/-! ## The bridge -/

/-- The outbox behind its lock, as `STATE` holds it. -/
structure BridgeState (V : Type) where
  outbox : Outbox V
  poisoned : Bool

/-- `liminal_pull`: what is copied to the buffer of the host, if anything. -/
def liminalPull {V : Type} (leaves : Leaves V) (state : Option (BridgeState V)) (outIsNull : Bool)
    (cap : ℕ) : Option (BridgeState V) × Option (ProtocolPackage V × Bytes) :=
  if outIsNull || cap == 0 then (state, none)
  else
    match state with
    | none => (none, none)
    | some bridge =>
        if bridge.poisoned then (some bridge, none)
        else
          let pulled := bridge.outbox.pull leaves cap
          (some { bridge with outbox := pulled.1 }, pulled.2)

/-- The length that `liminal_pull` returns. -/
def BridgeState.returned {V : Type} : Option (ProtocolPackage V × Bytes) → ℕ
  | none => 0
  | some (_, encoded) => encoded.length

/-- A call that takes the lock of the outbox. A thread that panics while it holds the lock poisons it. -/
inductive Call (V : Type)
  | pushEvent (event : ProtocolEvent V)
  | setMetrics (metrics : ProtocolMetrics)
  | pull (outIsNull : Bool) (cap : ℕ)
  | panic

/-- What came of a call. -/
inductive Happened (V : Type)
  | pushed (event : ProtocolEvent V)
  | measured (metrics : ProtocolMetrics)
  | delivered (package : ProtocolPackage V) (encoded : Bytes)

namespace BridgeState

variable {V : Type} (leaves : Leaves V)

/-- One call on the bridge. Without a lock nothing is pushed or set. -/
def call (state : Option (BridgeState V)) : Call V → Option (BridgeState V) × List (Happened V)
  | .pushEvent event =>
      match state with
      | some ⟨outbox, false⟩ => (some ⟨outbox.pushEvent event, false⟩, [.pushed event])
      | _ => (state, [])
  | .setMetrics metrics =>
      match state with
      | some ⟨outbox, false⟩ => (some ⟨outbox.setMetrics metrics, false⟩, [.measured metrics])
      | _ => (state, [])
  | .pull outIsNull cap =>
      let pulled := liminalPull leaves state outIsNull cap
      (pulled.1, (pulled.2.map fun (package, encoded) => .delivered package encoded).toList)
  | .panic => (state.map fun bridge => { bridge with poisoned := true }, [])

/-- The calls of all threads, in the order in which they get the lock, and their history. -/
def calls (state : Option (BridgeState V)) (cs : List (Call V)) :
    Option (BridgeState V) × List (Happened V) :=
  cs.foldl (fun run c =>
    let done := call leaves run.1 c
    (done.1, run.2 ++ done.2)) (state, [])

end BridgeState

/-! ## What a history says -/

namespace Happened

variable {V : Type}

/-- The events that were pushed. -/
def pushedEvents (history : List (Happened V)) : List (ProtocolEvent V) :=
  history.flatMap fun
    | .pushed event => [event]
    | _ => []

/-- The events of the delivered packages. -/
def deliveredEvents (history : List (Happened V)) : List (ProtocolEvent V) :=
  history.flatMap fun
    | .delivered package _ => package.events
    | _ => []

/-- The metrics set last, unless a package has been delivered since. -/
def freshMetrics (history : List (Happened V)) : Option ProtocolMetrics :=
  history.foldl (fun fresh => fun
    | .pushed _ => fresh
    | .measured metrics => some metrics
    | .delivered _ _ => none) none

/-- Every event is delivered or pending, in the order of the pushes, and the metrics of a package, and
those pending, are the latest that were not delivered before. -/
structure Accounts (leaves : Leaves V) (history : List (Happened V)) (outbox : Outbox V) : Prop where
  events : deliveredEvents history ++ outbox.events = pushedEvents history
  metrics : outbox.metrics = freshMetrics history
  delivered : ∀ before package encoded, before ++ [.delivered package encoded] <+: history →
    package.metrics = freshMetrics before ∧ package.toVec leaves = some encoded

end Happened

namespace BridgeState

open Happened

variable {V : Type} {leaves : Leaves V} {history : List (Happened V)} {outbox : Outbox V}

/-- What one call can do: nothing to the outbox, or one of three things. -/
theorem call_cases (leaves : Leaves V) (bridge : BridgeState V) (c : Call V) :
    ∃ next, (call leaves (some bridge) c).1 = some next ∧
      ((call leaves (some bridge) c).2 = [] ∧ next.outbox = bridge.outbox ∨
      (∃ event, (call leaves (some bridge) c).2 = [.pushed event] ∧
        next.outbox = bridge.outbox.pushEvent event) ∨
      (∃ metrics, (call leaves (some bridge) c).2 = [.measured metrics] ∧
        next.outbox = bridge.outbox.setMetrics metrics) ∨
      ∃ encoded, (call leaves (some bridge) c).2 = [.delivered bridge.outbox.backlog encoded] ∧
        bridge.outbox.backlog.toVec leaves = some encoded ∧ next.outbox = ⟨[], none⟩) := by
  obtain ⟨outbox, poisoned⟩ := bridge
  cases c with
  | pushEvent event =>
      cases poisoned with
      | true => exact ⟨_, rfl, .inl ⟨rfl, rfl⟩⟩
      | false => exact ⟨_, rfl, .inr (.inl ⟨event, rfl, rfl⟩)⟩
  | setMetrics metrics =>
      cases poisoned with
      | true => exact ⟨_, rfl, .inl ⟨rfl, rfl⟩⟩
      | false => exact ⟨_, rfl, .inr (.inr (.inl ⟨metrics, rfl, rfl⟩))⟩
  | pull outIsNull cap =>
      simp only [call, liminalPull]
      -- A pull without a buffer, and one on a poisoned lock, return before the outbox is read.
      by_cases hguard : (outIsNull || cap == 0) = true
      · rw [if_pos hguard]
        exact ⟨_, rfl, .inl ⟨rfl, rfl⟩⟩
      · rw [if_neg hguard]
        cases poisoned with
        | true => exact ⟨_, rfl, .inl ⟨rfl, rfl⟩⟩
        | false =>
            rcases outbox.pull_cases leaves cap with ⟨encoded, -, hencoded, -, hpull⟩ | ⟨-, hpull⟩
            · refine ⟨_, rfl, .inr (.inr (.inr ⟨encoded, ?_, hencoded, ?_⟩))⟩
              · simp [hpull]
              · simp [hpull]
            · refine ⟨_, rfl, .inl ⟨?_, ?_⟩⟩
              · simp [hpull]
              · simp [hpull]
  | panic => exact ⟨_, rfl, .inl ⟨rfl, rfl⟩⟩

/-- A delivery at the end of a longer history. -/
theorem delivered_concat {last : Happened V} {before : List (Happened V)} {package : ProtocolPackage V}
    {encoded : Bytes} (h : before ++ [.delivered package encoded] <+: history ++ [last]) :
    before ++ [.delivered package encoded] <+: history ∨
      before = history ∧ last = .delivered package encoded := by
  rcases List.prefix_concat_iff.mp h with heq | hfront
  · obtain ⟨hbefore, hlast⟩ := List.append_inj' heq rfl
    exact .inr ⟨hbefore, (List.singleton_inj.mp hlast).symm⟩
  · exact .inl hfront

/-- **One call** keeps the accounts. -/
theorem accounts_call {bridge : BridgeState V} (h : Accounts leaves history bridge.outbox) (c : Call V) :
    ∃ next, (call leaves (some bridge) c).1 = some next ∧
      Accounts leaves (history ++ (call leaves (some bridge) c).2) next.outbox := by
  obtain ⟨next, hnext, hcases⟩ := call_cases leaves bridge c
  refine ⟨next, hnext, ?_⟩
  rcases hcases with ⟨hnothing, heq⟩ | ⟨event, hpush, heq⟩ | ⟨metrics, hset, heq⟩ |
    ⟨encoded, hdelivered, hencoded, heq⟩
  · -- nothing happens
    rw [hnothing, heq, List.append_nil]
    exact h
  · -- an event is pushed
    rw [hpush, heq]
    refine ⟨?_, ?_, fun before package encoded hfront => ?_⟩
    · simp only [deliveredEvents, pushedEvents, List.flatMap_append, List.flatMap_singleton,
        List.append_nil, Outbox.pushEvent, ← List.append_assoc, List.append_left_inj]
      exact h.events
    · rw [freshMetrics, List.foldl_append]
      exact h.metrics
    · rcases delivered_concat hfront with hold | ⟨-, hnew⟩
      · exact h.delivered before package encoded hold
      · cases hnew
  · -- the metrics are set
    rw [hset, heq]
    refine ⟨?_, ?_, fun before package encoded hfront => ?_⟩
    · simp only [deliveredEvents, pushedEvents, List.flatMap_append, List.flatMap_singleton,
        List.append_nil]
      exact h.events
    · rw [freshMetrics, List.foldl_append]
      rfl
    · rcases delivered_concat hfront with hold | ⟨-, hnew⟩
      · exact h.delivered before package encoded hold
      · cases hnew
  · -- a package is delivered, and takes all that waits with it
    rw [hdelivered, heq]
    refine ⟨?_, ?_, fun before package encoded' hfront => ?_⟩
    · simp only [deliveredEvents, pushedEvents, List.flatMap_append, List.flatMap_singleton,
        List.append_nil]
      exact h.events
    · rw [freshMetrics, List.foldl_append]
      rfl
    · rcases delivered_concat hfront with hold | ⟨rfl, hnew⟩
      · exact h.delivered before package encoded' hold
      · cases hnew
        exact ⟨h.metrics, hencoded⟩

/-- **Delivery without loss.** Whatever the threads do, in whatever order they get the lock and with
whatever buffers the host pulls, the events of the delivered packages followed by those in the outbox are
the events that were pushed, and the metrics delivered or pending are the latest not delivered before. -/
theorem delivery_without_loss (leaves : Leaves V) (cs : List (Call V)) :
    ∃ bridge, (calls leaves (some ⟨.default, false⟩) cs).1 = some bridge ∧
      Accounts leaves (calls leaves (some ⟨.default, false⟩) cs).2 bridge.outbox := by
  induction cs using List.reverseRecOn with
  | nil =>
      refine ⟨_, rfl, rfl, rfl, fun before package encoded hfront => ?_⟩
      have hlength := hfront.length_le
      simp [calls] at hlength
  | append_singleton cs c ih =>
      obtain ⟨bridge, hbridge, haccounts⟩ := ih
      obtain ⟨next, hnext, haccounts'⟩ := accounts_call haccounts c
      rw [← hbridge] at hnext haccounts'
      rw [calls, List.foldl_append, ← calls]
      exact ⟨next, hnext, haccounts'⟩

/-! ## When a pull returns something -/

/-- A call of a host that polls with a buffer of at most `cap` bytes, or a push. -/
def Polls (cap : ℕ) : Call V → Prop
  | .pushEvent _ => True
  | .pull _ cap' => cap' ≤ cap
  | .setMetrics _ => False
  | .panic => False

/-- A poll with a buffer that is too small delivers nothing, and what does not fit does not fit afterwards. -/
theorem not_fits_call {bridge : BridgeState V} {cap : ℕ} (h : ¬ bridge.outbox.Fits leaves cap)
    {c : Call V} (hc : Polls cap c) :
    ∃ next, (call leaves (some bridge) c).1 = some next ∧ ¬ next.outbox.Fits leaves cap ∧
      ∀ package encoded, .delivered package encoded ∉ (call leaves (some bridge) c).2 := by
  obtain ⟨outbox, poisoned⟩ := bridge
  cases c with
  | pushEvent event =>
      cases poisoned with
      | true => exact ⟨_, rfl, h, by simp [call]⟩
      | false =>
          refine ⟨_, rfl, fun ⟨encoded, hencoded, hle⟩ => h ?_, by simp [call]⟩
          obtain ⟨encoded', hencoded', hshort⟩ := ProtocolPackage.length_toVec_concat leaves hencoded
          exact ⟨encoded', hencoded', hshort.trans hle⟩
  | setMetrics metrics => exact hc.elim
  | pull outIsNull cap' =>
      have hc' : cap' ≤ cap := hc
      have hpull : outbox.pull leaves cap' = (outbox, none) := by
        rcases outbox.pull_cases leaves cap' with ⟨encoded, -, hencoded, hle, -⟩ | ⟨-, hpull⟩
        · exact absurd ⟨encoded, hencoded, hle.trans hc'⟩ h
        · exact hpull
      simp only [call, liminalPull]
      split_ifs
      · exact ⟨_, rfl, h, by simp⟩
      · exact ⟨_, rfl, h, by simp⟩
      · exact ⟨_, rfl, by rwa [hpull], by simp [hpull]⟩
  | panic => exact hc.elim

/-- By induction, so do any number of such polls. -/
theorem not_fits_calls {bridge : BridgeState V} {cap : ℕ} (h : ¬ bridge.outbox.Fits leaves cap)
    {cs : List (Call V)} (hcs : ∀ c ∈ cs, Polls cap c) :
    ∃ next, (calls leaves (some bridge) cs).1 = some next ∧ ¬ next.outbox.Fits leaves cap ∧
      ∀ package encoded, .delivered package encoded ∉ (calls leaves (some bridge) cs).2 := by
  induction cs using List.reverseRecOn with
  | nil => exact ⟨bridge, rfl, h, by simp [calls]⟩
  | append_singleton cs c ih =>
      obtain ⟨now, hnow, hnowfits, hnone⟩ := ih fun c' hc' => hcs c' (by simp [hc'])
      obtain ⟨next, hnext, hnextfits, hnone'⟩ := not_fits_call hnowfits (hcs c (by simp))
      rw [← hnow] at hnext hnone'
      rw [calls, List.foldl_append, ← calls]
      refine ⟨next, hnext, hnextfits, fun package encoded hmem => ?_⟩
      rcases List.mem_append.mp hmem with hold | hnew
      · exact hnone package encoded hold
      · exact hnone' package encoded hnew

/-- The host gives a buffer, the bridge is up and its lock sound, something is pending, and the whole
backlog encodes into the buffer. -/
def Delivers (leaves : Leaves V) (state : Option (BridgeState V)) (outIsNull : Bool) (cap : ℕ) : Prop :=
  outIsNull = false ∧ ∃ bridge, state = some bridge ∧ bridge.poisoned = false ∧
    bridge.outbox.Pending ∧ bridge.outbox.Fits leaves cap

/-- A pull delivers and returns a length, or does not deliver and returns nothing. -/
theorem liminalPull_cases (leaves : Leaves V) (state : Option (BridgeState V)) (outIsNull : Bool)
    (cap : ℕ) :
    Delivers leaves state outIsNull cap ∧ returned (liminalPull leaves state outIsNull cap).2 ≠ 0 ∨
    ¬ Delivers leaves state outIsNull cap ∧ returned (liminalPull leaves state outIsNull cap).2 = 0 ∧
      (liminalPull leaves state outIsNull cap).1 = state := by
  -- What is encoded is never empty, so that a delivery does not return zero.
  have hpos : ∀ {package : ProtocolPackage V} {encoded : Bytes},
      package.toVec leaves = some encoded → 0 < encoded.length := by
    intro package encoded h
    obtain ⟨_, _, hlength⟩ := ProtocolPackage.length_toVec leaves h
    omega
  unfold liminalPull
  by_cases hguard : (outIsNull || cap == 0) = true
  · rw [if_pos hguard]
    -- Without room, nothing fits.
    refine .inr ⟨fun ⟨hnull, bridge, _, _, _, encoded, hencoded, hle⟩ => ?_, rfl, rfl⟩
    have hcap : cap = 0 := by simpa [hnull] using hguard
    have := hpos hencoded
    omega
  · rw [if_neg hguard]
    have hnull : outIsNull = false := by
      cases outIsNull with
      | true => exact absurd rfl hguard
      | false => rfl
    cases state with
    | none => exact .inr ⟨fun ⟨_, bridge, hbridge, _⟩ => Option.some_ne_none bridge hbridge.symm, rfl, rfl⟩
    | some bridge =>
        obtain ⟨outbox, poisoned⟩ := bridge
        cases poisoned with
        | true =>
            -- A poisoned lock is not taken.
            refine .inr ⟨fun ⟨_, bridge, hbridge, hsound, _⟩ => ?_, rfl, rfl⟩
            rw [← Option.some.inj hbridge] at hsound
            cases hsound
        | false =>
            rcases outbox.pull_cases leaves cap with ⟨encoded, hpending, hencoded, hle, hpull⟩ |
              ⟨hnot, hpull⟩
            · refine .inl ⟨⟨hnull, _, rfl, rfl, hpending, encoded, hencoded, hle⟩, ?_⟩
              simpa [hpull, returned] using (hpos hencoded).ne'
            · refine .inr ⟨?_, by simp [hpull, returned], by simp [hpull]⟩
              rintro ⟨-, bridge, hbridge, -, hpending, hfits⟩
              rw [← Option.some.inj hbridge] at hpending hfits
              exact hnot ⟨hpending, hfits⟩

/-- **When a pull returns something.** Exactly when the whole backlog encodes into the buffer of the
host; a pull that returns zero changes nothing. So once the backlog does not fit, every later pull with
this buffer or a smaller one returns zero, however many events are pushed in between. -/
theorem liminalPull_returns_iff (leaves : Leaves V) (state : Option (BridgeState V)) (outIsNull : Bool)
    (cap : ℕ) :
    (returned (liminalPull leaves state outIsNull cap).2 ≠ 0 ↔ Delivers leaves state outIsNull cap) ∧
    (returned (liminalPull leaves state outIsNull cap).2 = 0 →
      (liminalPull leaves state outIsNull cap).1 = state) ∧
    ∀ bridge, state = some bridge → ¬ bridge.outbox.Fits leaves cap →
      ∀ cs, (∀ c ∈ cs, Polls cap c) →
        ∀ package encoded, .delivered package encoded ∉ (calls leaves state cs).2 := by
  refine ⟨?_, fun hzero => ?_, ?_⟩
  · rcases liminalPull_cases leaves state outIsNull cap with ⟨hdelivers, hne⟩ | ⟨hnot, hzero, -⟩
    · exact iff_of_true hne hdelivers
    · exact iff_of_false (fun hne => hne hzero) hnot
  · exact ((liminalPull_cases leaves state outIsNull cap).resolve_left fun h => h.2 hzero).2.2
  · rintro bridge rfl hfits cs hcs
    obtain ⟨_, _, _, hnone⟩ := not_fits_calls hfits hcs
    exact hnone

/-- Leaves for integer values. -/
def integerLeaves : Leaves ℕ where
  value n := some (uint.enc n)
  float bits := 0xfa :: toBeBytes 4 bits.toNat

/-- A short event with a number for its id and no data. The bridge parses none of this name itself, and takes any
that it is given. -/
def tickEvent (id : UInt64) : ProtocolEvent ℕ := ⟨"tick", .num id, 200, ∅⟩

/-- Two events are pending, and the buffer holds a package with the first of them. The pull returns zero,
and so does the next. -/
theorem pull_zero_two_events :
    let bridge : BridgeState ℕ := ⟨⟨[tickEvent 1, tickEvent 2], none⟩, false⟩
    (calls integerLeaves (some ⟨.default, false⟩) [.pushEvent (tickEvent 1), .pushEvent (tickEvent 2)]).1 =
        some bridge ∧
      ∃ encoded, ProtocolPackage.toVec integerLeaves ⟨[tickEvent 1], none⟩ = some encoded ∧
        encoded.length = 33 ∧
        returned (liminalPull integerLeaves (some bridge) false encoded.length).2 = 0 ∧
        (liminalPull integerLeaves (some bridge) false encoded.length).1 = some bridge := by
  exact ⟨rfl, _, rfl, by decide +kernel, by decide +kernel, rfl⟩

end BridgeState

end LiminalDB
