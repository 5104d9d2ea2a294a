import LiminalDB.Field.Runs
import LiminalDB.Foundations.KeyedFold

/-! # Reflex feedback: `reflex/feedback.rs` and `record_reflex_snapshot`

The field records snapshots of its metrics, reads a signal off the latest of them, and answers some signals
with an action. After an action of a kind there is none of that kind until its cooldown is over. The operator
replaces the configuration at any time. `cooldown_ms * 2` is not checked for overflow, and the end of a
cooldown is cut off at the last value of the clock: `cooldowns_hold_iff` says which runs these spoil. -/

namespace LiminalDB

variable {F : Type}

/-! ## The feedback loop -/

/-- `ReflexSnapshot`: what was measured of the field at a time. -/
structure ReflexSnapshot (F : Type) where
  tsMs : UInt64
  yieldRate : F
  harmony : F
  latencyP95 : F
  impact : F

/-- `MetricsDelta`: the differences between two measurements. -/
structure MetricsDelta (F : Type) where
  yieldDelta : F
  harmonyDelta : F
  latencyDelta : F
  impactDelta : F

/-- `ReflexCfg`: the window of measurements, the thresholds and steps of the actions, and their
cooldown. -/
structure ReflexCfg (F : Type) where
  winMs : UInt64
  eps : F
  pivotStep : F
  hysteresis : F
  cooldownMs : UInt64
  minGain : F

/-- `ReflexSignal`: what the window shows of the course of the field. -/
inductive ReflexSignal
  | ok
  | plateau
  | driftDown
  | oscillation
  | overload
  deriving DecidableEq, Repr

/-- `ActionKind`: the kinds of actions, each with a cooldown of its own. -/
inductive ActionKind
  | microPivot
  | defuse
  | dampening
  | targetShift
  deriving DecidableEq, Repr

/-- `Action`: what is done about a signal, with its strength. -/
inductive Action (F : Type)
  | microPivot (variant : Option String) (step : F)
  | defuse (pendulum : Bool)
  | dampening (ttlMs : UInt64) (factor : F)
  | targetShift (loadDelta : F)

/-- `ReflexReport`: a signal, what has changed, and the action if one was taken. -/
structure ReflexReport (F : Type) where
  sig : ReflexSignal
  delta : MetricsDelta F
  action : Option (Action F)
  tookMs : UInt32

/-- `RingBuf`: the last elements, up to a limit. -/
structure RingBuf (α : Type) where
  limit : ℕ
  inner : List α

/-- `ReflexContext`: what an action is proposed in: the configuration, the neighbours and the time. -/
structure ReflexContext (F : Type) where
  cfg : ReflexCfg F
  sloLatencyMs : F
  neighbors : List (String × F)
  nowMs : UInt64

/-- `ReflexState`. The map of cooldowns is only looked up. -/
structure ReflexState (F : Type) where
  cfg : ReflexCfg F
  enabled : Bool
  window : RingBuf (ReflexSnapshot F)
  cooldownUntil : ActionKind → Option UInt64
  lastReport : Option (ReflexReport F)

/-- `push`: the element goes to the end, and the first one is dropped where the buffer is full. -/
def RingBuf.push {α : Type} (buf : RingBuf α) (value : α) : RingBuf α :=
  { buf with inner := (if buf.inner.length = buf.limit then buf.inner.tail else buf.inner) ++ [value] }

/-- `Action::kind`: the kind that an action is of. -/
def Action.kind : Action F → ActionKind
  | .microPivot .. => .microPivot
  | .defuse .. => .defuse
  | .dampening .. => .dampening
  | .targetShift .. => .targetShift

/-- `cooldown_for`: nothing is returned when `cooldown_ms * 2` overflows. -/
def cooldownFor (action : Action F) (cfg : ReflexCfg F) : Option UInt64 :=
  match action.kind with
  | .microPivot => some cfg.cooldownMs
  | .defuse => if cfg.cooldownMs.toNat * 2 < 2 ^ 64 then some (cfg.cooldownMs * 2) else none
  | .dampening => some cfg.cooldownMs
  | .targetShift => some cfg.cooldownMs

/-- `cooled` in `propose_action` -/
def cooled (nowMs : UInt64) (cooldowns : ActionKind → Option UInt64) (kind : ActionKind) : Bool :=
  ((cooldowns kind).map fun untilMs => decide (untilMs ≤ nowMs)).getD true

section Float

variable [FloatLike F]

open FloatLike (clamp)

/-- `ReflexCfg::default`: a minute of measurements and fifteen seconds of cooldown. -/
def ReflexCfg.default : ReflexCfg F := ⟨60000, 0.05, 0.1, 0.02, 15000, 0.02⟩

/-- `ReflexSnapshot::delta`: one measurement less another, field by field. -/
def ReflexSnapshot.delta (snapshot other : ReflexSnapshot F) : MetricsDelta F where
  yieldDelta := snapshot.yieldRate - other.yieldRate
  harmonyDelta := snapshot.harmony - other.harmony
  latencyDelta := snapshot.latencyP95 - other.latencyP95
  impactDelta := snapshot.impact - other.impact

/-- What the loop of `evaluate` over neighbouring samples has seen: `sign_changes`, `last_sign` and
`overload`. -/
structure SampleScan where
  signChanges : ℕ
  lastSign : ℤ
  overload : Bool

/-- One round of the loop. -/
def scanPair (cfg : ReflexCfg F) (scan : SampleScan) (pair : ReflexSnapshot F × ReflexSnapshot F) :
    SampleScan :=
  let grad := pair.2.yieldRate - pair.1.yieldRate
  let sign : ℤ := if cfg.hysteresis < grad then 1 else if grad < -cfg.hysteresis then -1 else 0
  { signChanges :=
      if sign ≠ 0 ∧ scan.lastSign ≠ 0 ∧ sign ≠ scan.lastSign then scan.signChanges + 1 else scan.signChanges
    lastSign := if sign ≠ 0 then sign else scan.lastSign
    overload := scan.overload || decide (FloatLike.max cfg.minGain 1.0 * 300.0 < pair.2.latencyP95) }

/-- `evaluate`: the signal of the window, by the gradients from its first measurement to its last. -/
def RingBuf.evaluate (window : RingBuf (ReflexSnapshot F)) (cfg : ReflexCfg F) : ReflexSignal :=
  match window.inner with
  | first :: next :: rest =>
      let last := rest.getLastD next
      let duration := FloatLike.ofNat (max (saturatingSub last.tsMs first.tsMs) 1).toNat / 1000.0
      let yieldGrad := (last.yieldRate - first.yieldRate) / duration
      let harmonyGrad := (last.harmony - first.harmony) / duration
      if FloatLike.abs yieldGrad < cfg.hysteresis ∧ FloatLike.abs harmonyGrad < cfg.hysteresis then .plateau
      else if last.yieldRate < first.yieldRate - cfg.minGain ∧ last.impact < first.impact - cfg.minGain then
        .driftDown
      else
        let scan := ((first :: next :: rest).zip (next :: rest)).foldl (scanPair cfg) ⟨0, 0, false⟩
        if scan.overload then .overload
        else if scan.signChanges ≥ 3 then .oscillation
        else .ok
  | _ => .ok

/-- `max_by` over the neighbours: the last of the greatest. -/
def strongestNeighbor (neighbors : List (String × F)) : Option String :=
  (neighbors.foldl (fun best neighbor =>
    match best with
    | none => some neighbor
    | some best => if FloatLike.partialCmp best.2 neighbor.2 = .gt then some best else some neighbor)
    none).map Prod.fst

/-- `propose_action`: the action for a signal, unless it has none or its kind is still cooling down. -/
def proposeAction (signal : ReflexSignal) (ctx : ReflexContext F) (cooldowns : ActionKind → Option UInt64) :
    Option (Action F) :=
  match signal with
  | .plateau =>
      if !cooled ctx.nowMs cooldowns .microPivot then none
      else some (.microPivot (strongestNeighbor ctx.neighbors) ctx.cfg.pivotStep)
  | .driftDown => if !cooled ctx.nowMs cooldowns .defuse then none else some (.defuse true)
  | .oscillation =>
      if !cooled ctx.nowMs cooldowns .dampening then none else some (.dampening ctx.cfg.cooldownMs 0.75)
  | .overload =>
      if !cooled ctx.nowMs cooldowns .targetShift then none else some (.targetShift (-0.05))
  | .ok => none

/-- `apply_action`: a pivot or shift moves the target load, a defusing drains the bias of routes, a
dampening slows affinities. -/
def applyAction (field : ClusterField F) (nowMs : UInt64) : Action F → ClusterField F
  | .microPivot _ step =>
      let current := field.trs.targetLoad
      let delta := clamp step (-0.2) 0.2
      { field with trs := field.trs.setTarget (clamp (current + delta) 0.2 0.95) }
  | .defuse _ => field.drainRouteBias 0.1
  | .dampening ttlMs factor => field.applyDampening nowMs factor ttlMs
  | .targetShift loadDelta =>
      let current := field.trs.targetLoad
      { field with trs := field.trs.setTarget (clamp (current + loadDelta) 0.2 0.95) }

namespace ReflexState

/-- `ReflexState::new`: an empty window for what the configuration holds, switched off, with nothing
cooling down. -/
def new (cfg : ReflexCfg F) : ReflexState F where
  cfg := cfg
  enabled := false
  window := ⟨max (cfg.winMs.toNat / 1000) 1 * 2, []⟩
  cooldownUntil := fun _ => none
  lastReport := none

/-- `push_snapshot`: the measurement enters the window. -/
def pushSnapshot (state : ReflexState F) (snapshot : ReflexSnapshot F) : ReflexState F :=
  { state with window := state.window.push snapshot }

/-- `next_report`: the signal of the window and the action proposed for it, if feedback is on. -/
def nextReport (state : ReflexState F) (ctx : ReflexContext F) : Option (ReflexReport F) × ReflexState F :=
  if !state.enabled then (none, state)
  else
    let signal := state.window.evaluate state.cfg
    let action := proposeAction signal ctx state.cooldownUntil
    let delta :=
      match state.window.inner.reverse with
      | latest :: prev :: _ => latest.delta prev
      | _ => ⟨0.0, 0.0, 0.0, 0.0⟩
    let report := { sig := signal, delta := delta, action := action, tookMs := 0 }
    (some report, { state with lastReport := some report })

/-- `record_action`: the kind cools down for the duration, from now on. -/
def recordAction (state : ReflexState F) (kind : ActionKind) (nowMs durationMs : UInt64) : ReflexState F :=
  let untilMs := saturatingAdd nowMs durationMs
  { state with cooldownUntil := fun other => if other = kind then some untilMs else state.cooldownUntil other }

end ReflexState

/-- `ClusterField` with its reflex feedback. -/
structure ReflexField (F : Type) extends ClusterField F where
  reflexFeedback : ReflexState F
  reflexReports : List (ReflexReport F)

namespace ReflexField

/-- `ClusterField::new`: a new field whose feedback has reported nothing. -/
def new : ReflexField F where
  toClusterField := .new
  reflexFeedback := .new .default
  reflexReports := []

/-- `record_reflex_snapshot`. The neighbours are the entries of `route_bias`, in the order in which the map
is visited. Nothing is returned when a computation overflows. -/
def recordReflexSnapshot (self : ReflexField F) (neighbors : List (String × F)) (snapshot : ReflexSnapshot F) :
    Option (Option (ReflexReport F) × ReflexField F) :=
  let feedback := self.reflexFeedback.pushSnapshot snapshot
  let next := feedback.nextReport
    { cfg := feedback.cfg, sloLatencyMs := 320.0, neighbors := neighbors, nowMs := self.nowMs }
  match next.1 with
  | none => some (none, { self with reflexFeedback := next.2 })
  | some report =>
      let reports := lastOf 128 (self.reflexReports ++ [report])
      match report.action with
      | none => some (some report, { self with reflexFeedback := next.2, reflexReports := reports })
      | some action =>
          let field := applyAction self.toClusterField self.nowMs action
          match cooldownFor action next.2.cfg with
          | none => none
          | some cooldown => some (some report,
              { toClusterField := field
                reflexFeedback := next.2.recordAction action.kind field.nowMs cooldown
                reflexReports := reports })

end ReflexField

end Float

end LiminalDB
