import LiminalDB.Field.Runs
import LiminalDB.Foundations.Clamped
import Mathlib.Algebra.Order.Field.Basic
import Mathlib.Tactic.FieldSimp
import Mathlib.Tactic.Positivity

/-! # The load controller: `trs.rs`, `morph_mind.rs` and `types.rs`

What the field is doing is summed up in metrics, and a controller turns the distance between its load and a
target into a change of tempo, affinities, metabolism and sleep. In exact numbers its state stays in bounds
whatever it is told, and no single step goes far (`controller_bounded`); and as long as the load stays on one
side of the target, it pushes to the other (`controller_follows_error`). -/

namespace LiminalDB

variable {F : Type}

/-! ## Metrics -/

/-- `Metrics`: what is measured of a field: how many cells there are, how awake, how fast and under which
load. -/
structure Metrics (F : Type) where
  cells : ℕ
  sleepingPct : F
  avgMetabolism : F
  avgLatencyMs : F
  activePct : F
  liveLoad : F

section Definitions

variable [FloatLike F]

open FloatLike (abs clamp ofNat round toNat)

namespace Metrics

/-- `Metrics::default`: the measurement of a field without cells. -/
def default : Metrics F := ⟨0, 0.0, 0.0, 0.0, 0.0, 0.0⟩

/-- `observed_load`: the load that the controller goes by. -/
def observedLoad (self : Metrics F) : F := self.liveLoad

/-- `suggest_target`: the load as it is, drawn half the way towards the range from 0.55 to 0.7. -/
def suggestTarget (self : Metrics F) : F :=
  let target := self.liveLoad
  let target := if target < 0.55 then (target + 0.55) * 0.5 else target
  let target := if 0.7 < target then (target + 0.7) * 0.5 else target
  clamp target 0.3 0.8

/-- `analyze`, which visits the cells in any order. -/
def analyze (order : Order NodeId) (field : ClusterField F) : Metrics F :=
  let snapshot := (order.arrange field.cells.keys).filterMap fun id => field.cells[id]?
  if snapshot.isEmpty then default
  else
    let cells := snapshot.length
    let sleeping := snapshot.countP fun cell => cell.state = .sleep
    let active := snapshot.countP fun cell => cell.state = .active
    let metabolismSum := (snapshot.map NodeCell.metabolism).foldl (· + ·) 0.0
    let latencySum := (snapshot.map fun cell =>
      (ofNat (saturatingSub field.nowMs cell.lastResponseMs).toNat : F)).foldl (· + ·) 0.0
    let sleepingPct := (ofNat sleeping : F) / ofNat cells
    let activePct := (ofNat active : F) / ofNat cells
    let avgMetabolism := metabolismSum / ofNat cells
    let avgLatencyMs := latencySum / ofNat cells
    let latencyNorm := clamp (avgLatencyMs / 320.0) 0.0 1.0
    let metabolismNorm := clamp avgMetabolism 0.0 1.0
    let vitality := clamp (1.0 - sleepingPct) 0.0 1.0
    let liveLoad := (activePct + (1.0 - latencyNorm) + metabolismNorm + vitality) / 4.0
    { cells, sleepingPct, avgMetabolism, avgLatencyMs, activePct, liveLoad := clamp liveLoad 0.0 1.0 }

/-- `hints`, with what the generator draws if it is asked. -/
def hints (self : Metrics F) (coin : Bool) : List Hint :=
  (if 0.7 < self.sleepingPct then [.slowTick] else []) ++
    (if 0.8 < self.avgMetabolism then [.trimField] else []) ++
    (if 150.0 < self.avgLatencyMs then [.fastTick] else []) ++
    if self.cells < 3 then (if coin then [.wakeSeeds] else [])
    else if 0.6 < self.sleepingPct && coin then [.wakeSeeds] else []

end Metrics

/-! ## The controller -/

/-- `softsign`: a number squeezed between -1 and 1, its sign kept. -/
def softsign (x : F) : F := x / (1.0 + abs x)

/-- A rounded number as a signed integer. -/
def toInt (x : F) : ℤ := if x < 0.0 then -(toNat (-x) : ℤ) else toNat x

namespace TrsState

/-- The milliseconds since the last step. -/
def elapsed (self : TrsState F) (nowMs : UInt64) : UInt64 :=
  -- Before its first step a controller goes by one second.
  if self.lastTs = 0 then 1000
  else
    let since := saturatingSub nowMs self.lastTs
    if since < 1 then 1 else since

/-- The error of an observed load. -/
def error (self : TrsState F) (observedLoad : F) : F := clamp self.targetLoad 0.0 1.0 - clamp observedLoad 0.0 1.0

/-- The integral of the error after a step. -/
def integral (self : TrsState F) (nowMs : UInt64) (observedLoad : F) : F :=
  let dt := ofNat (self.elapsed nowMs).toNat / 1000.0
  clamp (self.errI * clamp self.beta 0.0 0.95 + self.error observedLoad * dt) (-3.0) 3.0

/-- The control of a step. -/
def control (self : TrsState F) (nowMs : UInt64) (observedLoad : F) : F :=
  let err := self.error observedLoad
  let dt := ofNat (self.elapsed nowMs).toNat / 1000.0
  let errD := if self.lastTs = 0 then 0.0 else (err - self.lastErr) / dt
  let damping := clamp (1.0 - clamp self.beta 0.0 0.95) 0.15 1.0
  softsign (self.kP * err + self.kI * self.integral nowMs observedLoad + self.kD * errD) * damping

/-- `step`: a step of the controller, which turns the control into a gain, a change of tempo and the
scales. -/
def step (self : TrsState F) (nowMs : UInt64) (observedLoad : F) : TrsOutput F × TrsState F :=
  let control := self.control nowMs observedLoad
  let alpha := clamp (self.alpha + control * 0.06) 0.05 0.95
  ({ alphaNew := alpha
     tickAdjustMs := toInt (clamp (round (-control * 140.0)) (-80.0) 80.0)
     affinityScale := clamp (1.0 + control * 0.25) 0.7 1.35
     metabolismScale := clamp (1.0 + control * 0.3) 0.5 1.5
     sleepThresholdDelta := clamp (-control * 0.1) (-0.2) 0.2 },
    { self with
      errI := self.integral nowMs observedLoad
      alpha
      lastErr := self.error observedLoad
      lastTs := nowMs })

end TrsState

/-- What the controller is told. -/
inductive TrsCall (F : Type)
  | applyConfig (cfg : TrsConfig F)
  | setTarget (target : F)
  | step (nowMs : UInt64) (observedLoad : F)

namespace TrsState

/-- What a call does to the state. -/
def call (self : TrsState F) : TrsCall F → TrsState F
  | .applyConfig cfg => self.applyConfig cfg
  | .setTarget target => self.setTarget target
  | .step nowMs observedLoad => (self.step nowMs observedLoad).2

/-- A run from a new controller. -/
def run (calls : List (TrsCall F)) : TrsState F := calls.foldl call default

end TrsState

end Definitions

/-! ## Bounds -/

section Exact

open FloatLike (clamp)

variable {x y : ℚ} {state : TrsState ℚ} {nowMs : UInt64} {observedLoad : ℚ}

/-- `softsign` keeps the sign and stays below one. -/
theorem abs_softsign_lt (x : ℚ) : |softsign x| < 1 := by
  have hone : (1.0 : ℚ) = 1 := by norm_num
  have hpos : 0 < 1 + |x| := by positivity
  rw [softsign, abs_rat, hone, abs_div, abs_of_pos hpos, div_lt_one hpos]
  exact lt_one_add _

/-- Softening keeps a sign that is not negative. -/
theorem softsign_nonneg (h : 0 ≤ x) : 0 ≤ softsign x := by
  have hone : (1.0 : ℚ) = 1 := by norm_num
  rw [softsign, abs_rat, hone]
  positivity

/-- It keeps one that is not positive. -/
theorem softsign_nonpos (h : x ≤ 0) : softsign x ≤ 0 := by
  have hone : (1.0 : ℚ) = 1 := by norm_num
  rw [softsign, abs_rat, hone]
  exact div_nonpos_of_nonpos_of_nonneg h (by positivity)

/-- Rounding keeps a sign that is not positive. -/
theorem round_nonpos (h : x ≤ 0) : FloatLike.round x ≤ 0 := by
  show (if x < 0 then -(⌊-x + 1 / 2⌋ : ℚ) else ⌊x + 1 / 2⌋) ≤ 0
  split
  · rw [neg_nonpos]
    exact_mod_cast Int.floor_nonneg.mpr (by linarith)
  · rename_i hpos
    have hzero : x = 0 := le_antisymm h (not_lt.mp hpos)
    rw [hzero]
    norm_num

/-- It keeps one that is not negative. -/
theorem round_nonneg (h : 0 ≤ x) : 0 ≤ FloatLike.round x := by
  show 0 ≤ if x < 0 then -(⌊-x + 1 / 2⌋ : ℚ) else (⌊x + 1 / 2⌋ : ℚ)
  rw [if_neg (not_lt.mpr h)]
  exact_mod_cast Int.floor_nonneg.mpr (by linarith)

/-- Truncating to an integer keeps a sign that is not negative. -/
theorem toInt_nonneg (h : 0 ≤ x) : 0 ≤ toInt x := by
  have hzero : (0.0 : ℚ) = 0 := by norm_num
  rw [toInt, hzero, if_neg (not_lt.mpr h)]
  exact Int.natCast_nonneg _

/-- It keeps one that is not positive. -/
theorem toInt_nonpos (h : x ≤ 0) : toInt x ≤ 0 := by
  have hzero : (0.0 : ℚ) = 0 := by norm_num
  rw [toInt, hzero]
  split
  · exact Int.neg_nonpos_of_nonneg (Int.natCast_nonneg _)
  · rename_i hpos
    have hnone : x = 0 := le_antisymm h (not_lt.mp hpos)
    rw [hnone]
    rfl

/-- A signed integer is no further from zero than the number. -/
theorem abs_toInt_le {bound : ℕ} (hlow : -(bound : ℚ) ≤ x) (hhigh : x ≤ bound) : |toInt x| ≤ bound := by
  have hzero : (0.0 : ℚ) = 0 := by norm_num
  have hfloor {y : ℚ} (hy : y ≤ bound) : (FloatLike.toNat y : ℤ) ≤ bound := by
    have hle : ⌊y⌋ ≤ (bound : ℤ) := Int.cast_le.mp ((Int.floor_le y).trans (by exact_mod_cast hy))
    show ((⌊y⌋.toNat : ℕ) : ℤ) ≤ bound
    omega
  rw [toInt, hzero]
  split
  · rw [abs_neg, abs_of_nonneg (Int.natCast_nonneg _)]
    exact hfloor (by linarith)
  · rw [abs_of_nonneg (Int.natCast_nonneg _)]
    exact hfloor hhigh

namespace TrsState

/-- The bounds of a controller. -/
structure Bounded (state : TrsState ℚ) : Prop where
  alpha : 0.01 ≤ state.alpha ∧ state.alpha ≤ 0.95
  beta : 0 ≤ state.beta ∧ state.beta ≤ 0.95
  targetLoad : 0 ≤ state.targetLoad ∧ state.targetLoad ≤ 1
  gains : 0 ≤ state.kP ∧ 0 ≤ state.kI ∧ 0 ≤ state.kD
  errI : |state.errI| ≤ 3
  lastErr : |state.lastErr| ≤ 1

/-- The default state is in its bounds. -/
theorem bounded_default : (default : TrsState ℚ).Bounded := by
  constructor <;> norm_num [default]

/-- A configuration is clamped, whatever it holds. -/
theorem bounded_applyConfig (state : TrsState ℚ) (cfg : TrsConfig ℚ) : (state.applyConfig cfg).Bounded where
  alpha := ⟨le_clamp (by norm_num) _, clamp_le (by norm_num) _⟩
  beta := ⟨clamp_nonneg (by norm_num) _, clamp_le (by norm_num) _⟩
  targetLoad := ⟨clamp_nonneg (by norm_num) _, clamp_le_one (by norm_num) _⟩
  gains := ⟨max_zero_nonneg _, max_zero_nonneg _, max_zero_nonneg _⟩
  errI := by norm_num [applyConfig]
  lastErr := by norm_num [applyConfig]

/-- Load and target are from zero to one, so that their distance is one at most. -/
theorem abs_error_le (state : TrsState ℚ) (observedLoad : ℚ) : |state.error observedLoad| ≤ 1 := by
  have htarget := @clamp_nonneg 1.0 (by norm_num) state.targetLoad
  have htarget' := @clamp_le_one 0.0 (by norm_num) state.targetLoad
  have hload := @clamp_nonneg 1.0 (by norm_num) observedLoad
  have hload' := @clamp_le_one 0.0 (by norm_num) observedLoad
  rw [error, abs_le]
  constructor <;> linarith

/-- The control is softened, and so less than one either way. -/
theorem abs_control_lt (state : TrsState ℚ) (nowMs : UInt64) (observedLoad : ℚ) :
    |state.control nowMs observedLoad| < 1 := by
  -- The damping is no more than one.
  have hlow := @le_clamp 0.15 1.0 (by norm_num) (1.0 - clamp state.beta 0.0 0.95)
  have hhigh := @clamp_le_one 0.15 (by norm_num) (1.0 - clamp state.beta 0.0 0.95)
  have hpos : 0 ≤ clamp (1.0 - clamp state.beta 0.0 0.95) 0.15 1.0 := le_trans (by norm_num) hlow
  rw [control, abs_mul, abs_of_nonneg hpos]
  exact (mul_le_of_le_one_right (abs_nonneg _) hhigh).trans_lt (abs_softsign_lt _)

/-- A step keeps the state in its bounds, for it clamps what it remembers. -/
theorem Bounded.step (h : state.Bounded) (nowMs : UInt64) (observedLoad : ℚ) :
    (state.step nowMs observedLoad).2.Bounded where
  alpha := ⟨le_trans (by norm_num) (@le_clamp 0.05 0.95 (by norm_num) _), clamp_le (by norm_num) _⟩
  beta := h.beta
  targetLoad := h.targetLoad
  gains := h.gains
  errI := (@abs_clamp_le 3.0 (by norm_num) _).trans (by norm_num)
  lastErr := state.abs_error_le observedLoad

/-- By induction over the calls, the state is in its bounds after a run. -/
theorem bounded_run (calls : List (TrsCall ℚ)) : (run calls).Bounded := by
  refine List.foldlRecOn (motive := Bounded) calls call bounded_default fun state h c _ => ?_
  cases c with
  | applyConfig cfg => exact bounded_applyConfig state cfg
  | setTarget target =>
      exact ⟨h.alpha, h.beta, ⟨clamp_nonneg (by norm_num) _, clamp_le_one (by norm_num) _⟩, h.gains, h.errI,
        h.lastErr⟩
  | step nowMs observedLoad => exact h.step nowMs observedLoad

/-- The output of a step. -/
theorem step_output (state : TrsState ℚ) (nowMs : UInt64) (observedLoad : ℚ) :
    let output := (state.step nowMs observedLoad).1
    let control := state.control nowMs observedLoad
    output.affinityScale = 1 + control * 0.25 ∧ output.metabolismScale = 1 + control * 0.3 ∧
      output.sleepThresholdDelta = -control * 0.1 := by
  obtain ⟨hlow, hhigh⟩ := abs_lt.mp (state.abs_control_lt nowMs observedLoad)
  have hone : (1.0 : ℚ) = 1 := by norm_num
  refine ⟨?_, ?_, ?_⟩
  · show clamp _ _ _ = _
    rw [hone]
    exact clamp_of_mem (by linarith) (by linarith)
  · show clamp _ _ _ = _
    rw [hone]
    exact clamp_of_mem (by linarith) (by linarith)
  · exact clamp_of_mem (by linarith) (by linarith)

end TrsState

/-- Whatever a controller has been told, its state is in bounds. One more step moves `alpha` by no more than
0.06 and the tick by no more than 80 ms. The scales that it hands out are less than a quarter and three tenths
away from one, and the delta of the sleep threshold less than a tenth away from zero, so that the bounds of
`apply_trs_output` cut nothing off. -/
theorem controller_bounded (calls : List (TrsCall ℚ)) (nowMs : UInt64) (observedLoad : ℚ)
    (field : ClusterField ℚ) (at_ms : UInt64) :
    let state := TrsState.run calls
    let output := (state.step nowMs observedLoad).1
    state.Bounded ∧ |output.alphaNew - state.alpha| ≤ 0.06 ∧ |output.tickAdjustMs| ≤ 80 ∧
      |output.affinityScale - 1| < 0.25 ∧ |output.metabolismScale - 1| < 0.3 ∧ |output.sleepThresholdDelta| < 0.1 ∧
      (field.applyTrsOutput at_ms observedLoad output).harmony =
        ⟨output.alphaNew, output.affinityScale, output.metabolismScale, output.sleepThresholdDelta⟩ := by
  intro state output
  have hbounded : state.Bounded := TrsState.bounded_run calls
  have hcontrol := state.abs_control_lt nowMs observedLoad
  obtain ⟨hlow, hhigh⟩ := abs_lt.mp hcontrol
  obtain ⟨haffinity, hmetabolism, hsleep⟩ := state.step_output nowMs observedLoad
  have halpha : output.alphaNew = clamp (state.alpha + state.control nowMs observedLoad * 0.06) 0.05 0.95 := rfl
  have hin : 0.05 ≤ output.alphaNew ∧ output.alphaNew ≤ 0.95 :=
    ⟨le_clamp (by norm_num) _, clamp_le (by norm_num) _⟩
  refine ⟨hbounded, ?_, ?_, ?_, ?_, ?_, ?_⟩
  · obtain ⟨hmin, hmax⟩ := hbounded.alpha
    rw [halpha, clamp_eq (by norm_num), abs_le]
    constructor
    · have hle : state.alpha - 0.06 ≤
          Max.max 0.05 (Min.min (state.alpha + state.control nowMs observedLoad * 0.06) 0.95) :=
        le_max_of_le_right (le_min (by linarith) (by linarith))
      linarith
    · have hle : Max.max 0.05 (Min.min (state.alpha + state.control nowMs observedLoad * 0.06) 0.95) ≤
          state.alpha + 0.06 := max_le (by linarith) ((min_le_left _ _).trans (by linarith))
      linarith
  · exact abs_toInt_le (le_trans (by norm_num) (@le_clamp (-80.0) 80.0 (by norm_num) _))
      (le_trans (@clamp_le (-80.0) 80.0 (by norm_num) _) (by norm_num))
  · rw [haffinity, abs_lt]
    constructor <;> linarith
  · rw [hmetabolism, abs_lt]
    constructor <;> linarith
  · rw [hsleep, abs_lt]
    constructor <;> linarith
  -- The outputs lie within the bounds that they are clamped to once more.
  · show HarmonyTuning.mk _ _ _ _ = _
    rw [clamp_of_mem hin.1 hin.2, clamp_of_mem (by rw [haffinity]; linarith) (by rw [haffinity]; linarith),
      clamp_of_mem (by rw [hmetabolism]; linarith) (by rw [hmetabolism]; linarith),
      clamp_of_mem (by rw [hsleep]; linarith) (by rw [hsleep]; linarith)]

/-! ## The direction of the control -/

/-- A sign. -/
def IsSign (sign : ℚ) : Prop := sign = 1 ∨ sign = -1

/-- Clamping to bounds around zero, on either side of it. -/
theorem IsSign.mul_clamp {sign bound : ℚ} (h : IsSign sign) (hbound : 0 ≤ bound) (hx : 0 ≤ sign * x) :
    sign * clamp x (-bound) bound = Min.min (sign * x) bound := by
  rw [clamp_eq (neg_le_self hbound)]
  rcases h with rfl | rfl
  · rw [one_mul, one_mul] at *
    exact max_eq_right (le_min ((neg_nonpos.mpr hbound).trans hx) (neg_le_self hbound))
  · rw [min_eq_left (by linarith : x ≤ bound)]
    rcases le_total (-bound) x with hle | hle
    · rw [max_eq_right hle, min_eq_left (by linarith)]
    · rw [max_eq_left hle, min_eq_right (by linarith)]
      linarith

/-- Softening keeps what has a sign on the side of this sign. -/
theorem IsSign.mul_softsign {sign : ℚ} (h : IsSign sign) (hx : 0 ≤ sign * x) : 0 ≤ sign * softsign x := by
  rcases h with rfl | rfl
  · rw [one_mul] at *
    exact softsign_nonneg hx
  · have hneg := softsign_nonpos (by linarith : x ≤ 0)
    linarith

namespace TrsState

/-- What a controller keeps while the load is on one side of the target: its memory is on the same side. -/
structure Leaning (start : TrsState ℚ) (sign : ℚ) (state : TrsState ℚ) : Prop where
  gains : state.kP = start.kP ∧ state.kI = start.kI ∧ state.kD = start.kD ∧ state.beta = start.beta
  alpha : 0.05 ≤ state.alpha ∧ state.alpha ≤ 0.95
  lastErr : 0 ≤ sign * state.lastErr ∧ sign * state.lastErr ≤ 1
  errI : sign * state.lastErr ≤ sign * state.errI ∧ sign * state.errI ≤ 3

variable {start : TrsState ℚ} {sign : ℚ}

/-- The change of the error never outweighs the error and the memory of the last one. -/
theorem outweighed {kP kI kD beta err last memory dt change : ℚ} (hkP : 0 ≤ kP) (hkI : 0 ≤ kI) (hkD : 0 ≤ kD)
    (hbeta : 0 ≤ beta) (hbeta' : beta ≤ 1) (hgains : kD ≤ kI * beta) (herr : 0 ≤ err) (hlast' : last ≤ 1)
    (hmemory : last ≤ memory) (hgrown : err ≤ err * dt) (hchange : -last ≤ change) (hpast : 0 ≤ memory) :
    0 ≤ kP * err + kI * Min.min (memory * beta + err * dt) 3 + kD * change := by
  have hloss : -(kD * last) ≤ kD * change := by
    rw [← mul_neg]
    exact mul_le_mul_of_nonneg_left hchange hkD
  have herrPart : 0 ≤ kP * err := mul_nonneg hkP herr
  -- The integral makes up for the loss, whether it is cut off or not.
  have hgain : kD * last ≤ kI * Min.min (memory * beta + err * dt) 3 := by
    rcases le_total last 0 with hnone | hsome
    · have hpos : 0 ≤ Min.min (memory * beta + err * dt) 3 :=
        le_min (add_nonneg (mul_nonneg hpast hbeta) (herr.trans hgrown)) (by norm_num)
      exact (mul_nonpos_of_nonneg_of_nonpos hkD hnone).trans (mul_nonneg hkI hpos)
    · have hpart : last * beta ≤ Min.min (memory * beta + err * dt) 3 := by
        refine le_min ?_ ?_
        · linarith [mul_le_mul_of_nonneg_right hmemory hbeta, herr.trans hgrown]
        · linarith [mul_le_mul hlast' hbeta' hbeta zero_le_one]
      calc kD * last ≤ kI * beta * last := mul_le_mul_of_nonneg_right hgains hsome
        _ = kI * (last * beta) := by ring
        _ ≤ kI * Min.min (memory * beta + err * dt) 3 := mul_le_mul_of_nonneg_left hpart hkI
  linarith

/-- The seconds since the last step, when they are at least one. -/
theorem one_le_elapsed (hdt : 1000 ≤ (state.elapsed nowMs).toNat) :
    1 ≤ (FloatLike.ofNat (state.elapsed nowMs).toNat / 1000.0 : ℚ) := by
  have hcast : (1000 : ℚ) ≤ ((state.elapsed nowMs).toNat : ℚ) := by exact_mod_cast hdt
  have hthousand : (1000.0 : ℚ) = 1000 := by norm_num
  rw [hthousand, le_div_iff₀ (by norm_num), one_mul]
  exact hcast

/-- The integral of a controller whose memory and error are on one side. -/
theorem mul_integral (hsign : IsSign sign) (hbeta : 0 ≤ state.beta) (hbeta' : state.beta ≤ 0.95)
    (hmemory : 0 ≤ sign * state.errI) (hload : 0 ≤ sign * state.error observedLoad)
    (hdt : 1000 ≤ (state.elapsed nowMs).toNat) :
    sign * state.integral nowMs observedLoad =
      Min.min (sign * state.errI * state.beta +
        sign * state.error observedLoad * (FloatLike.ofNat (state.elapsed nowMs).toNat / 1000.0)) 3 := by
  have hzero : (0.0 : ℚ) = 0 := by norm_num
  have hthree : (3.0 : ℚ) = 3 := by norm_num
  have hdecay : clamp state.beta 0.0 0.95 = state.beta := clamp_of_mem (hzero ▸ hbeta) hbeta'
  have hdt := one_le_elapsed hdt
  rw [integral, hdecay, hthree, hsign.mul_clamp (by norm_num)]
  · rw [mul_add, mul_assoc, mul_assoc]
  · rw [mul_add, ← mul_assoc, ← mul_assoc]
    exact add_nonneg (mul_nonneg hmemory hbeta) (mul_nonneg hload (zero_le_one.trans hdt))

/-- The change of the error takes back no more than the last error was, if a second has passed. -/
theorem neg_last_le_change {err last dt : ℚ} (hdt : 1 ≤ dt) (herr : 0 ≤ sign * err) (hlast : 0 ≤ sign * last)
    (fresh : Prop) [Decidable fresh] :
    -(sign * last) ≤ sign * (if fresh then 0.0 else (err - last) / dt) := by
  have hzero : (0.0 : ℚ) = 0 := by norm_num
  split
  · rw [hzero, mul_zero]
    exact neg_nonpos.mpr hlast
  -- Over a second or more the change is no steeper than it is large.
  · rw [mul_div_assoc', le_div_iff₀ (zero_lt_one.trans_le hdt), mul_sub]
    linarith [le_mul_of_one_le_right hlast hdt]

/-- One step of a controller that leans. -/
theorem Leaning.control (h : Leaning start sign state) (hsign : IsSign sign) (hstart : start.Bounded)
    (hgains : start.kD ≤ start.kI * start.beta) (hdt : 1000 ≤ (state.elapsed nowMs).toNat)
    (hload : 0 ≤ sign * state.error observedLoad) : 0 ≤ sign * state.control nowMs observedLoad := by
  obtain ⟨hkP, hkI, hkD⟩ := hstart.gains
  obtain ⟨hbeta, hbeta'⟩ := hstart.beta
  obtain ⟨hsameP, hsameI, hsameD, hsameBeta⟩ := h.gains
  rw [← hsameP] at hkP
  rw [← hsameI] at hkI hgains
  rw [← hsameD] at hkD hgains
  rw [← hsameBeta] at hbeta hbeta' hgains
  have hpast := h.lastErr.1.trans h.errI.1
  have hseconds := one_le_elapsed hdt
  have hintegral := @mul_integral state nowMs observedLoad sign hsign hbeta hbeta' hpast hload hdt
  have hchange := @neg_last_le_change sign (state.error observedLoad) state.lastErr _ hseconds hload h.lastErr.1
    (state.lastTs = 0) _
  have hraw := outweighed hkP hkI hkD hbeta (hbeta'.trans (by norm_num)) hgains hload h.lastErr.2 h.errI.1
    (le_mul_of_one_le_right hload hseconds) hchange hpast
  rw [← hintegral] at hraw
  have hdamping : 0 ≤ clamp (1.0 - clamp state.beta 0.0 0.95) 0.15 1.0 :=
    le_trans (by norm_num) (@le_clamp 0.15 1.0 (by norm_num) _)
  rw [TrsState.control, ← mul_assoc]
  refine mul_nonneg (hsign.mul_softsign ?_) hdamping
  linarith

/-- A call that keeps a controller leaning: a new target, or a step that finds the load on that side, at least a
second after the last one. -/
def Leans (sign : ℚ) (state : TrsState ℚ) : TrsCall ℚ → Prop
  | .applyConfig _ => False
  | .setTarget _ => True
  | .step nowMs observedLoad => 1000 ≤ (state.elapsed nowMs).toNat ∧ 0 ≤ sign * state.error observedLoad

/-- A call that leans to one side leaves the memory of the state on this side. -/
theorem Leaning.call (h : Leaning start sign state) (hsign : IsSign sign) (hstart : start.Bounded)
    {c : TrsCall ℚ} (hc : Leans sign state c) : Leaning start sign (state.call c) := by
  cases c with
  | applyConfig cfg => exact hc.elim
  | setTarget target => exact ⟨h.gains, h.alpha, h.lastErr, h.errI⟩
  | step nowMs observedLoad =>
      obtain ⟨hdt, hload⟩ := hc
      obtain ⟨hbeta, hbeta'⟩ := hstart.beta
      rw [← h.gains.2.2.2] at hbeta hbeta'
      have hpast := h.lastErr.1.trans h.errI.1
      have hseconds := one_le_elapsed hdt
      have hintegral := @mul_integral state nowMs observedLoad sign hsign hbeta hbeta' hpast hload hdt
      have herr : sign * state.error observedLoad ≤ 1 := by
        have habs := abs_le.mp (state.abs_error_le observedLoad)
        rcases hsign with rfl | rfl
        · linarith [habs.2]
        · linarith [habs.1]
      refine ⟨h.gains, ⟨le_clamp (by norm_num) _, clamp_le (by norm_num) _⟩, ⟨hload, herr⟩, ?_, ?_⟩
      -- What has just been seen is in the memory.
      · show sign * state.error observedLoad ≤ sign * state.integral nowMs observedLoad
        rw [hintegral]
        refine le_min ?_ (herr.trans (by norm_num))
        linarith [mul_nonneg hpast hbeta, le_mul_of_one_le_right hload hseconds]
      · show sign * state.integral nowMs observedLoad ≤ 3
        rw [hintegral]
        exact min_le_right _ _

/-- Calls that keep a controller leaning, one after another. -/
def LeansThroughout (sign : ℚ) : TrsState ℚ → List (TrsCall ℚ) → Prop
  | _, [] => True
  | state, c :: calls => Leans sign state c ∧ LeansThroughout sign (state.call c) calls

/-- At every call of such a run the controller leans. -/
theorem leaning_run (hsign : IsSign sign) (hstart : start.Bounded) {c : TrsCall ℚ} {after : List (TrsCall ℚ)}
    (before : List (TrsCall ℚ)) (h : Leaning start sign state)
    (hcalls : LeansThroughout sign state (before ++ c :: after)) :
    Leaning start sign (before.foldl TrsState.call state) ∧ Leans sign (before.foldl TrsState.call state) c := by
  induction before generalizing state with
  | nil => exact ⟨h, hcalls.1⟩
  | cons first before ih => exact ih (h.call hsign hstart hcalls.1) hcalls.2

/-- The output of a step whose control is on one side. -/
theorem output_follows (hsign : IsSign sign) (halpha : 0.05 ≤ state.alpha ∧ state.alpha ≤ 0.95)
    (hcontrol : 0 ≤ sign * state.control nowMs observedLoad) :
    let output := (state.step nowMs observedLoad).1
    0 ≤ sign * (output.alphaNew - state.alpha) ∧ sign * output.tickAdjustMs ≤ 0 ∧
      0 ≤ sign * (output.affinityScale - 1) ∧ 0 ≤ sign * (output.metabolismScale - 1) ∧
      sign * output.sleepThresholdDelta ≤ 0 := by
  obtain ⟨haffinity, hmetabolism, hsleep⟩ := state.step_output nowMs observedLoad
  intro output
  have halphaNew : output.alphaNew = clamp (state.alpha + state.control nowMs observedLoad * 0.06) 0.05 0.95 := rfl
  have htick : output.tickAdjustMs =
      toInt (clamp (FloatLike.round (-state.control nowMs observedLoad * 140.0)) (-80.0) 80.0) := rfl
  refine ⟨?_, ?_, ?_, ?_, ?_⟩
  · rw [halphaNew]
    rcases hsign with rfl | rfl
    · have hup := le_clamp_of_le halpha.2 (by norm_num : (0.05 : ℚ) ≤ 0.95)
        (by linarith : state.alpha ≤ state.alpha + state.control nowMs observedLoad * 0.06)
      linarith
    · have hdown := clamp_le_of_le halpha.1 (by norm_num : (0.05 : ℚ) ≤ 0.95)
        (by linarith : state.alpha + state.control nowMs observedLoad * 0.06 ≤ state.alpha)
      linarith
  · rw [htick]
    rcases hsign with rfl | rfl
    · have hround := round_nonpos (by linarith : -state.control nowMs observedLoad * 140.0 ≤ 0)
      have hint := toInt_nonpos (@clamp_le_of_le _ 0 (-80.0) 80.0 (by norm_num) (by norm_num) hround)
      rw [one_mul]
      exact_mod_cast hint
    · have hround := round_nonneg (by linarith : 0 ≤ -state.control nowMs observedLoad * 140.0)
      have hint := toInt_nonneg (@le_clamp_of_le _ 0 (-80.0) 80.0 (by norm_num) (by norm_num) hround)
      rw [neg_one_mul, neg_nonpos]
      exact_mod_cast hint
  · rw [haffinity]
    linarith
  · rw [hmetabolism]
    linarith
  · rw [hsleep]
    linarith

end TrsState

/-- From a new configuration on, as long as the load stays on one side of the target and the steps are at least
a second apart, every step of the controller is on the other side: below the target it does not lower `alpha` or
lengthen the tick, its scales are one at least and its delta of the sleep threshold is zero at most, and above the
target it is the other way round. From one step to the next a scale may well come closer to one. The gain of the
change must not outweigh that of the memory, which by default it does not. -/
theorem controller_follows_error (cfg : TrsConfig ℚ) (sign : ℚ) (hsign : IsSign sign)
    (halpha : 0.05 ≤ (TrsState.default.applyConfig cfg).alpha)
    (hgains : (TrsState.default.applyConfig cfg).kD ≤
      (TrsState.default.applyConfig cfg).kI * (TrsState.default.applyConfig cfg).beta)
    (calls : List (TrsCall ℚ)) (hcalls : TrsState.LeansThroughout sign (TrsState.default.applyConfig cfg) calls) :
    ∀ before nowMs observedLoad after, calls = before ++ .step nowMs observedLoad :: after →
      let state := before.foldl TrsState.call (TrsState.default.applyConfig cfg)
      let output := (state.step nowMs observedLoad).1
      0 ≤ sign * (output.alphaNew - state.alpha) ∧ sign * output.tickAdjustMs ≤ 0 ∧
        0 ≤ sign * (output.affinityScale - 1) ∧ 0 ≤ sign * (output.metabolismScale - 1) ∧
        sign * output.sleepThresholdDelta ≤ 0 := by
  intro before nowMs observedLoad after heq
  set start := (TrsState.default.applyConfig cfg : TrsState ℚ) with hstart
  have hbounded : start.Bounded := TrsState.bounded_applyConfig _ cfg
  have hfresh : start.lastErr = 0 ∧ start.errI = 0 := by
    constructor
    · show (0.0 : ℚ) = 0
      norm_num
    · show (0.0 : ℚ) = 0
      norm_num
  have hnew : TrsState.Leaning start sign start := by
    refine ⟨⟨rfl, rfl, rfl, rfl⟩, ⟨halpha, hbounded.alpha.2⟩, ?_, ?_⟩
    · rw [hfresh.1, mul_zero]
      exact ⟨le_rfl, zero_le_one⟩
    · rw [hfresh.1, hfresh.2, mul_zero]
      exact ⟨le_rfl, by norm_num⟩
  rw [heq] at hcalls
  obtain ⟨hleaning, hdt, hload⟩ := TrsState.leaning_run hsign hbounded before hnew hcalls
  exact TrsState.output_follows hsign hleaning.alpha (hleaning.control hsign hbounded hgains hdt hload)

/-- A load below the target, twice. -/
def sampleTrsCalls : List (TrsCall ℚ) := [.setTarget 0.65, .step 1000 0.25, .step 2000 0.5]

/-- In the sample the load is below the target twice, and the tick is not lengthened. -/
theorem controller_follows_error_sampleTrsCalls :
    let cfg : TrsConfig ℚ := ⟨0.22, 0.6, 0.6, 0.85, 0.18, 0.05⟩
    let state := [TrsCall.setTarget 0.65, .step 1000 0.25].foldl TrsState.call (TrsState.default.applyConfig cfg)
    (1 : ℚ) * (state.step 2000 0.5).1.tickAdjustMs ≤ 0 := by
  intro cfg state
  have halpha : (0.05 : ℚ) ≤ (TrsState.default.applyConfig cfg).alpha := by
    norm_num [cfg, TrsState.applyConfig, clamp]
  have hgains : (TrsState.default.applyConfig cfg).kD ≤
      (TrsState.default.applyConfig cfg).kI * (TrsState.default.applyConfig cfg).beta := by
    norm_num [cfg, TrsState.applyConfig, clamp, FloatLike.max, FloatLike.isNan]
  have hcalls : TrsState.LeansThroughout 1 (TrsState.default.applyConfig cfg) sampleTrsCalls := by
    refine ⟨trivial, ⟨?_, ?_⟩, ⟨?_, ?_⟩, trivial⟩
    · decide
    · norm_num [TrsState.error, TrsState.call, TrsState.setTarget, clamp]
    · decide
    · norm_num [TrsState.error, TrsState.call, TrsState.step, TrsState.setTarget, clamp]
  exact (controller_follows_error cfg 1 (.inl rfl) halpha hgains sampleTrsCalls hcalls
    [.setTarget 0.65, .step 1000 0.25] 2000 0.5 [] rfl).2.1

end Exact

end LiminalDB
