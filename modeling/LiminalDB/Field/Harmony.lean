import LiminalDB.Field.Cooldowns
import LiminalDB.Foundations.Clamped
import LiminalDB.Foundations.Leading
import LiminalDB.Foundations.Narration
import Mathlib.Algebra.Order.BigOperators.Group.List

/-! # The harmony of a field: `symmetry.rs` and `ReflexEngine`

Every so often the engine takes the samples of its window and measures them: their mean strength and latency,
how evenly the patterns are spread, and which of them leads. What is far from the running means, or spread
widely, is no longer in order, and calls for an impulse the other way (`harmony_reports_sound`). -/

namespace LiminalDB

variable {F : Type}

/-- `SymmetryStatus`: whether the loop is calm, drifts, or is overloaded. -/
inductive SymmetryStatus
  | ok
  | drift
  | overload
  deriving DecidableEq

/-- `MirrorImpulse`: what the loop sends back into the field when harmony is off. -/
structure MirrorImpulse (F : Type) where
  kind : String
  pattern : String
  strength : F
  timestampMs : UInt64

/-- `HarmonySnapshot`: what the loop knows of the harmony after a measurement. -/
structure HarmonySnapshot (F : Type) where
  metrics : HarmonyMetrics F
  deltaStrength : F
  deltaLatency : F
  entropyRatio : F
  dominantPattern : Option String
  status : SymmetryStatus
  mirror : Option (MirrorImpulse F)

/-- `SymmetryLoop`: the running mean, the last measurement, and how they differ. -/
structure SymmetryLoop (F : Type) where
  last : HarmonyMetrics F
  decay : F
  windowMs : UInt32
  current : HarmonyMetrics F
  deltaStrength : F
  deltaLatency : F
  entropyRatio : F
  dominantPattern : Option String
  status : SymmetryStatus
  lastMirror : Option (MirrorImpulse F)

/-- `ReflexEngine`: the loop with the interval at which it measures. -/
structure ReflexEngine (F : Type) where
  symmetry : SymmetryLoop F
  intervalMs : UInt64
  accumMs : UInt64

section Engine

variable [FloatLike F]

open FloatLike (abs clamp epsilon ofNat)

/-- `HarmonyMetrics::default`: all three means at zero. -/
def HarmonyMetrics.default : HarmonyMetrics F := ⟨0.0, 0.0, 0.0⟩

/-- `entropy_of`, with the natural logarithm and the order in which the counts are visited. -/
def entropyOf (ln : F → F) (order : Order (String × ℕ)) (data : List String) : F :=
  if data.isEmpty then 0.0
  else
    let counts := order.arrange (data.eraseDups.map fun item => (item, data.count item))
    let total : F := ofNat data.length
    if total ≤ epsilon then 0.0
    else
      let entropy := counts.foldl (fun entropy e =>
        let p := ofNat e.2 / total
        if 0.0 < p then entropy - p * ln p else entropy) 0.0
      -- A single pattern has no spread: the logarithm of one is not above 0.
      let maxEntropy := ln (ofNat counts.length)
      if 0.0 < maxEntropy then clamp (entropy / maxEntropy) 0.0 1.0 else 0.0

namespace SymmetryLoop

/-- `SymmetryLoop::new`: a loop that has measured nothing, its decay below one and its window at least
200 ms. -/
def new (decay : F) (windowMs : UInt32) : SymmetryLoop F :=
  { last := .default
    decay := clamp decay 0.0 0.999
    windowMs := if windowMs < 200 then 200 else windowMs
    current := .default
    deltaStrength := 0.0
    deltaLatency := 0.0
    entropyRatio := 0.0
    dominantPattern := none
    status := .ok
    lastMirror := none }

/-- The first branch of `update_with_samples`: there is nothing to measure. -/
def fade (self : SymmetryLoop F) : SymmetryLoop F :=
  { self with
    current := .default
    deltaStrength := 0.0
    deltaLatency := 0.0
    entropyRatio := 0.0
    dominantPattern := none
    status := .ok
    lastMirror := none
    last := ⟨self.last.avgStrength * self.decay, self.last.avgLatency * self.decay,
      self.last.entropy * self.decay⟩ }

/-- What the samples come to. -/
def measure (ln : F → F) (order : Order (String × ℕ)) (samples : List (String × Hit F)) : HarmonyMetrics F :=
  let totalStrength := samples.foldl (fun total sample => total + sample.2.strength) 0.0
  let totalLatency := samples.foldl (fun total sample => total + ofNat sample.2.latencyMs.toNat) 0.0
  let totalCount := samples.length
  { avgStrength := if 0 < totalCount then totalStrength / ofNat totalCount else 0.0
    avgLatency := if 0 < totalCount then totalLatency / ofNat totalCount else 0.0
    entropy := entropyOf ln order (samples.map Prod.fst) }

/-- The status that the spread of the patterns and the change of the strength stand for. -/
def statusOf (entropy deltaStrength : F) : SymmetryStatus :=
  if 0.85 < entropy || decide (0.35 < abs deltaStrength) then .overload
  else if 0.7 < entropy || decide (0.2 < abs deltaStrength) then .drift
  else .ok

/-- A running mean takes in a new value. -/
def blend (decay last value : F) : F := last * decay + value * (1.0 - decay)

/-- `update_with_samples`: a measurement against the running mean, which may ask for an impulse back into
the field. -/
def updateWithSamples (ln : F → F) (order : Order (String × ℕ)) (self : SymmetryLoop F) (nowMs : UInt64)
    (samples : List (String × Hit F)) : SymmetryLoop F × Option (MirrorImpulse F) :=
  if samples.isEmpty then (self.fade, none)
  else
    let metrics := measure ln order samples
    let dominantPattern := ((samples.map Prod.fst).foldl Lead.see Lead.start).leader
    -- The change is measured against the running mean, not against the last measurement.
    let deltaStrength := metrics.avgStrength - self.last.avgStrength
    let deltaLatency := metrics.avgLatency - self.last.avgLatency
    let mirror := if 0.2 < abs deltaStrength || decide (0.7 < metrics.entropy) then
      some ⟨"mirror", dominantPattern.getD "*", -deltaStrength, nowMs⟩ else none
    ({ self with
        current := metrics
        deltaStrength
        deltaLatency
        entropyRatio := metrics.entropy
        dominantPattern
        status := statusOf metrics.entropy deltaStrength
        lastMirror := mirror
        last := ⟨blend self.decay self.last.avgStrength metrics.avgStrength,
          blend self.decay self.last.avgLatency metrics.avgLatency,
          blend self.decay self.last.entropy metrics.entropy⟩ }, mirror)

/-- `snapshot`: what the loop knows, as it is handed out. -/
def snapshot (self : SymmetryLoop F) : HarmonySnapshot F :=
  ⟨self.current, self.deltaStrength, self.deltaLatency, self.entropyRatio, self.dominantPattern, self.status,
    self.lastMirror⟩

/-- `set_window`: the window is changed, and stays at least 200 ms. -/
def setWindow (self : SymmetryLoop F) (windowMs : UInt32) : SymmetryLoop F :=
  { self with windowMs := if windowMs < 200 then 200 else windowMs }

end SymmetryLoop

namespace ReflexEngine

/-- `ReflexEngine::new`: an engine with a decay of 0.85, and at least 200 ms between its measurements. -/
def new (intervalMs : UInt64) : ReflexEngine F :=
  ⟨.new 0.85 intervalMs.toUInt32, if intervalMs < 200 then 200 else intervalMs, 0⟩

/-- `tick`. The log file is left out. -/
def tick (ln : F → F) (order : Order (String × ℕ)) (self : ReflexEngine F) (nowMs dtMs : UInt64)
    (samples : List (String × Hit F)) : ReflexEngine F × Option (HarmonySnapshot F) :=
  let accumMs := saturatingAdd self.accumMs dtMs
  if accumMs < self.intervalMs then ({ self with accumMs }, none)
  else
    let updated := self.symmetry.updateWithSamples ln order nowMs samples
    ({ self with accumMs := 0, symmetry := updated.1 },
      some { updated.1.snapshot with mirror := updated.2 })

/-- `set_interval`: the interval is changed along with the window of the loop. -/
def setInterval (self : ReflexEngine F) (intervalMs : UInt64) : ReflexEngine F :=
  let interval := if intervalMs < 200 then 200 else intervalMs
  { self with intervalMs := interval, symmetry := self.symmetry.setWindow interval.toUInt32 }

end ReflexEngine

/-! ## Runs -/

/-- What is done with an engine. -/
inductive EngineCall (F : Type)
  | tick (order : Order (String × ℕ)) (nowMs dtMs : UInt64) (samples : List (String × Hit F))
  | setInterval (intervalMs : UInt64)

/-- An engine, and how much time has gone by since it last made a snapshot. -/
structure Watched (F : Type) where
  engine : ReflexEngine F
  waitedMs : ℕ

/-- One tick, with what it was given and how long the engine had waited by then. -/
structure HarmonyRound (F : Type) where
  nowMs : UInt64
  samples : List (String × Hit F)
  intervalMs : UInt64
  waitedMs : ℕ
  snapshot : Option (HarmonySnapshot F)

namespace Watched

/-- A new engine. -/
def start (intervalMs : UInt64) : Watched F := ⟨.new intervalMs, 0⟩

/-- A call to the engine that is watched: the time waited for a round is counted beside it. -/
def step (ln : F → F) (self : Watched F) : EngineCall F → Watched F
  | .tick order nowMs dtMs samples =>
      let ticked := self.engine.tick ln order nowMs dtMs samples
      ⟨ticked.1, if ticked.2.isSome then 0 else self.waitedMs + dtMs.toNat⟩
  | .setInterval intervalMs => { self with engine := self.engine.setInterval intervalMs }

/-- What there is to see of a step. -/
def rounds (ln : F → F) (self : Watched F) : EngineCall F → List (HarmonyRound F)
  | .tick order nowMs dtMs samples =>
      [⟨nowMs, samples, self.engine.intervalMs, self.waitedMs + dtMs.toNat,
        (self.engine.tick ln order nowMs dtMs samples).2⟩]
  | .setInterval _ => []

end Watched

end Engine

/-! ## Exact samples -/

section Exact

open SymmetryLoop (statusOf blend measure)

variable {low high x y : ℚ}

/-- The running mean of numbers in bounds. -/
theorem blend_mem {decay : ℚ} (hdecay : decay ∈ Set.Icc (0 : ℚ) 1) (hx : x ∈ Set.Icc low high)
    (hy : y ∈ Set.Icc low high) : blend decay x y ∈ Set.Icc low high := by
  have hone : (1.0 : ℚ) = 1 := by norm_num
  have htowards := mem_of_towards hx hy (sub_nonneg.mpr hdecay.2) (sub_le_self 1 hdecay.1)
  have heq : blend decay x y = x + (y - x) * (1 - decay) := by
    rw [blend, hone]
    ring
  rw [heq]
  exact htowards

/-- Adding up from a start is the start and the sum. -/
theorem foldl_add {α : Type} (f : α → ℚ) (l : List α) (start : ℚ) :
    l.foldl (fun total a => total + f a) start = start + (l.map f).sum := by
  induction l generalizing start with
  | nil => simp
  | cons a l ih => rw [List.foldl_cons, ih, List.map_cons, List.sum_cons, add_assoc]

/-- The mean of numbers in bounds. -/
theorem mean_mem {α : Type} {f : α → ℚ} {l : List α} (hne : l ≠ []) (h : ∀ a ∈ l, f a ∈ Set.Icc low high) :
    l.foldl (fun total a => total + f a) 0.0 / FloatLike.ofNat l.length ∈ Set.Icc low high := by
  have hzero : (0.0 : ℚ) = 0 := by norm_num
  have hpos : (0 : ℚ) < (l.map f).length := by
    rw [List.length_map]
    exact_mod_cast List.length_pos_of_ne_nil hne
  have hlow := List.card_nsmul_le_sum (l.map f) low fun b hb => by
    obtain ⟨a, ha, rfl⟩ := List.mem_map.mp hb
    exact (h a ha).1
  have hhigh := List.sum_le_card_nsmul (l.map f) high fun b hb => by
    obtain ⟨a, ha, rfl⟩ := List.mem_map.mp hb
    exact (h a ha).2
  rw [nsmul_eq_mul] at hlow hhigh
  rw [foldl_add, hzero, zero_add, show FloatLike.ofNat l.length = ((l.map f).length : ℚ) by
    rw [List.length_map]; rfl]
  exact ⟨(le_div_iff₀ hpos).mpr (by linarith), (div_le_iff₀ hpos).mpr (by linarith)⟩

/-- An entropy is clamped to the interval from 0 to 1. -/
theorem entropyOf_mem (ln : ℚ → ℚ) (order : Order (String × ℕ)) (data : List String) :
    entropyOf ln order data ∈ Set.Icc (0 : ℚ) 1 := by
  have hzero : (0.0 : ℚ) ∈ Set.Icc (0 : ℚ) 1 := by norm_num
  unfold entropyOf
  dsimp only
  split_ifs
  · exact hzero
  · exact hzero
  · rw [show (0.0 : ℚ) = 0 by norm_num, show (1.0 : ℚ) = 1 by norm_num]
    exact clamp_mem zero_le_one le_rfl _
  · exact hzero

/-- The means of a loop are within the bounds of what it measures. -/
structure SymmetryLoop.Bounded (low high : ℚ) (symmetry : SymmetryLoop ℚ) : Prop where
  decay : symmetry.decay ∈ Set.Icc (0 : ℚ) 1
  strength : symmetry.last.avgStrength ∈ Set.Icc low high
  latency : symmetry.last.avgLatency ∈ Set.Icc (0 : ℚ) 0xffffffff
  entropy : symmetry.last.entropy ∈ Set.Icc (0 : ℚ) 1
  window : 200 ≤ symmetry.windowMs

/-- The strengths of samples are within bounds. -/
def StrengthsIn (low high : ℚ) (samples : List (String × Hit ℚ)) : Prop :=
  ∀ sample ∈ samples, sample.2.strength ∈ Set.Icc low high

/-- What a snapshot tells of the samples is true of them, and in order. -/
structure HarmonySnapshot.Sound (low high : ℚ) (nowMs : UInt64) (samples : List (String × Hit ℚ))
    (snapshot : HarmonySnapshot ℚ) : Prop where
  strength : snapshot.metrics.avgStrength ∈ Set.Icc low high
  latency : snapshot.metrics.avgLatency ∈ Set.Icc (0 : ℚ) 0xffffffff
  entropy : snapshot.entropyRatio ∈ Set.Icc (0 : ℚ) 1
  delta : |snapshot.deltaStrength| ≤ high - low
  /-- A pattern that leads, unless there are no samples. -/
  pattern_none : snapshot.dominantPattern = none ↔ samples = []
  pattern : ∀ a, snapshot.dominantPattern = some a → FirstToLead (samples.map Prod.fst) a
  /-- An impulse the other way, of the pattern that leads, unless all is in order. -/
  mirror_none : snapshot.mirror = none ↔ snapshot.status = .ok
  mirror : ∀ impulse, snapshot.mirror = some impulse → snapshot.dominantPattern = some impulse.pattern ∧
    impulse.strength = -snapshot.deltaStrength ∧ impulse.timestampMs = nowMs

/-- A window is never below 200 ms. -/
theorem le_window (windowMs : UInt32) : 200 ≤ if windowMs < 200 then 200 else windowMs := by
  split
  · exact UInt32.le_refl _
  · rename_i h
    exact UInt32.not_lt.mp h

/-- Nor is an interval. -/
theorem le_interval (intervalMs : UInt64) : 200 ≤ if intervalMs < 200 then 200 else intervalMs := by
  split
  · exact UInt64.le_refl _
  · rename_i h
    exact UInt64.not_lt.mp h

/-- The means of a new loop are zero, which is within bounds that have zero between them. -/
theorem bounded_new (hlow : low ≤ 0) (hhigh : 0 ≤ high) (decay : ℚ) (windowMs : UInt32) :
    (SymmetryLoop.new decay windowMs).Bounded low high := by
  have hzero : (0.0 : ℚ) = 0 := by norm_num
  have hdefault : (SymmetryLoop.new decay windowMs).last = ⟨0, 0, 0⟩ := by
    show (⟨0.0, 0.0, 0.0⟩ : HarmonyMetrics ℚ) = ⟨0, 0, 0⟩
    rw [hzero]
  constructor
  · show FloatLike.clamp decay 0.0 0.999 ∈ Set.Icc (0 : ℚ) 1
    rw [hzero]
    exact clamp_mem (by norm_num) (by norm_num) _
  · rw [hdefault]
    exact ⟨hlow, hhigh⟩
  · rw [hdefault]
    exact ⟨le_rfl, by norm_num⟩
  · rw [hdefault]
    exact ⟨le_rfl, zero_le_one⟩
  · exact le_window windowMs

/-- What is measured of some samples is within the bounds of their strengths, their latencies are 32-bit
numbers, and the entropy is a share. -/
theorem measure_mem (ln : ℚ → ℚ) (order : Order (String × ℕ)) {samples : List (String × Hit ℚ)}
    (hne : samples ≠ []) (h : StrengthsIn low high samples) :
    (measure ln order samples).avgStrength ∈ Set.Icc low high ∧
      (measure ln order samples).avgLatency ∈ Set.Icc (0 : ℚ) 0xffffffff ∧
      (measure ln order samples).entropy ∈ Set.Icc (0 : ℚ) 1 := by
  have hpos := List.length_pos_of_ne_nil hne
  refine ⟨?_, ?_, entropyOf_mem ln order _⟩
  · show (if 0 < samples.length then _ else _) ∈ _
    rw [if_pos hpos]
    exact mean_mem hne h
  · show (if 0 < samples.length then _ else _) ∈ _
    rw [if_pos hpos]
    refine mean_mem hne fun sample _ => ⟨Nat.cast_nonneg sample.2.latencyMs.toNat, ?_⟩
    have hword : sample.2.latencyMs.toNat ≤ 0xffffffff := Nat.le_of_lt_succ sample.2.latencyMs.toNat_lt
    show (sample.2.latencyMs.toNat : ℚ) ≤ 0xffffffff
    exact_mod_cast hword

/-- Fading moves the means towards zero, and so leaves them within their bounds. -/
theorem SymmetryLoop.Bounded.fade {self : SymmetryLoop ℚ} (h : self.Bounded low high) (hlow : low ≤ 0)
    (hhigh : 0 ≤ high) : self.fade.Bounded low high := by
  -- To fade is to measure nothing but zero.
  have hfades {x a b : ℚ} (hx : x ∈ Set.Icc a b) (hzero : (0 : ℚ) ∈ Set.Icc a b) :
      x * self.decay ∈ Set.Icc a b := by
    have hblend := blend_mem h.decay hx hzero
    rwa [blend, zero_mul, add_zero] at hblend
  exact ⟨h.decay, hfades h.strength ⟨hlow, hhigh⟩, hfades h.latency ⟨le_rfl, by norm_num⟩,
    hfades h.entropy ⟨le_rfl, zero_le_one⟩, h.window⟩

/-- An update mixes the means with what is measured, both of which are within the bounds. -/
theorem SymmetryLoop.Bounded.updateWithSamples {self : SymmetryLoop ℚ} (h : self.Bounded low high) (hlow : low ≤ 0)
    (hhigh : 0 ≤ high) (ln : ℚ → ℚ) (order : Order (String × ℕ)) (nowMs : UInt64)
    {samples : List (String × Hit ℚ)} (hsamples : StrengthsIn low high samples) :
    (self.updateWithSamples ln order nowMs samples).1.Bounded low high := by
  unfold SymmetryLoop.updateWithSamples
  by_cases hnil : samples = []
  · rw [hnil]
    exact h.fade hlow hhigh
  · rw [if_neg (mt List.isEmpty_iff.mp hnil)]
    obtain ⟨hstrength, hlatency, hentropy⟩ := measure_mem ln order hnil hsamples
    exact ⟨h.decay, blend_mem h.decay h.strength hstrength, blend_mem h.decay h.latency hlatency,
      blend_mem h.decay h.entropy hentropy, h.window⟩

/-- An impulse is called for whenever the status is not `Ok`. -/
theorem statusOf_eq_ok_iff (entropy deltaStrength : ℚ) : statusOf entropy deltaStrength = .ok ↔
    ¬ (0.2 < FloatLike.abs deltaStrength || decide (0.7 < entropy)) = true := by
  -- The bounds of `Overload` lie beyond those of the impulse, and those of `Drift` are the same.
  have hwide : (0.85 : ℚ) < entropy → 0.7 < entropy := fun h => lt_trans (by norm_num) h
  have hfar : (0.35 : ℚ) < FloatLike.abs deltaStrength → 0.2 < FloatLike.abs deltaStrength :=
    fun h => lt_trans (by norm_num) h
  unfold statusOf
  simp only [Bool.or_eq_true, decide_eq_true_eq]
  split_ifs with hoverload hdrift
  · simp only [false_iff, not_not]
    exact hoverload.symm.imp hfar hwide
  · simp only [false_iff, not_not]
    exact hdrift.symm
  · simp only [true_iff]
    exact fun h => hdrift h.symm

/-- What is reported without samples is sound: the faded means, and no mirror. -/
theorem sound_fade (hlow : low ≤ 0) (hhigh : 0 ≤ high) (symmetry : SymmetryLoop ℚ) (nowMs : UInt64) :
    HarmonySnapshot.Sound low high nowMs [] { symmetry.fade.snapshot with mirror := none } := by
  have hzero : (0.0 : ℚ) = 0 := by norm_num
  constructor
  · show (0.0 : ℚ) ∈ Set.Icc low high
    exact hzero ▸ ⟨hlow, hhigh⟩
  · show (0.0 : ℚ) ∈ Set.Icc (0 : ℚ) 0xffffffff
    norm_num
  · show (0.0 : ℚ) ∈ Set.Icc (0 : ℚ) 1
    norm_num
  · show |(0.0 : ℚ)| ≤ high - low
    rw [hzero, abs_zero]
    linarith
  · exact iff_of_true rfl rfl
  · intro a ha
    cases ha
  · exact iff_of_true rfl rfl
  · intro impulse himpulse
    cases himpulse

/-- What one measurement shows. -/
theorem sound_updateWithSamples {self : SymmetryLoop ℚ} (h : self.Bounded low high) (hlow : low ≤ 0)
    (hhigh : 0 ≤ high) (ln : ℚ → ℚ) (order : Order (String × ℕ)) (nowMs : UInt64)
    {samples : List (String × Hit ℚ)} (hsamples : StrengthsIn low high samples) :
    HarmonySnapshot.Sound low high nowMs samples
      { (self.updateWithSamples ln order nowMs samples).1.snapshot with
        mirror := (self.updateWithSamples ln order nowMs samples).2 } := by
  unfold SymmetryLoop.updateWithSamples
  by_cases hnil : samples = []
  · subst hnil
    exact sound_fade hlow hhigh self nowMs
  rw [if_neg (mt List.isEmpty_iff.mp hnil)]
  obtain ⟨hstrength, hlatency, hentropy⟩ := measure_mem ln order hnil hsamples
  have hkeeps := keeps_foldl_see (samples.map Prod.fst)
  have hfirst : ∀ a, ((samples.map Prod.fst).foldl Lead.see Lead.start).leader = some a →
      FirstToLead (samples.map Prod.fst) a := fun a => leader_foldl_see
  dsimp only
  generalize measure ln order samples = metrics at hstrength hlatency hentropy ⊢
  generalize (samples.map Prod.fst).foldl Lead.see Lead.start = lead at hkeeps hfirst ⊢
  have hnone : lead.leader = none ↔ samples = [] := hkeeps.none_iff.trans List.map_eq_nil_iff
  constructor
  · exact hstrength
  · exact hlatency
  · exact hentropy
  · show |metrics.avgStrength - self.last.avgStrength| ≤ high - low
    have hbefore := h.strength
    exact abs_le.mpr ⟨by linarith [hstrength.1, hbefore.2], by linarith [hstrength.2, hbefore.1]⟩
  · exact hnone
  · exact hfirst
  · refine Iff.trans ?_ (statusOf_eq_ok_iff _ _).symm
    simp
  · intro impulse himpulse
    -- Where there are samples a pattern leads, so that the impulse never goes by the wildcard.
    obtain ⟨a, ha⟩ := Option.ne_none_iff_exists'.mp (mt hnone.mp hnil)
    dsimp only at himpulse
    split_ifs at himpulse
    cases himpulse
    exact ⟨by simp [SymmetryLoop.snapshot, ha], rfl, rfl⟩

/-- What an engine keeps: it does not forget the time, and its means stay in bounds. -/
structure Watched.Fits (low high : ℚ) (watched : Watched ℚ) : Prop where
  symmetry : watched.engine.symmetry.Bounded low high
  accum : watched.engine.accumMs.toNat = min watched.waitedMs (2 ^ 64 - 1)
  interval : 200 ≤ watched.engine.intervalMs

/-- What is asked of the samples of a call. -/
def EngineCall.In (low high : ℚ) : EngineCall ℚ → Prop
  | .tick _ _ _ samples => StrengthsIn low high samples
  | .setInterval _ => True

/-- A snapshot is made exactly when the interval has passed, and it is sound. -/
structure HarmonyRound.Sound (low high : ℚ) (round : HarmonyRound ℚ) : Prop where
  interval : 200 ≤ round.intervalMs
  due : round.snapshot.isSome = true ↔ round.intervalMs.toNat ≤ round.waitedMs
  snapshot : ∀ snapshot, round.snapshot = some snapshot → snapshot.Sound low high round.nowMs round.samples

/-- A new engine has not waited, and its means are zero. -/
theorem fits_start (hlow : low ≤ 0) (hhigh : 0 ≤ high) (intervalMs : UInt64) :
    (Watched.start intervalMs).Fits low high :=
  ⟨bounded_new hlow hhigh _ _, rfl, le_interval intervalMs⟩

/-- A tick adds its time to that waited and reports exactly if that makes an interval; the report is sound,
and the means stay in bounds. -/
theorem Watched.Fits.tick {watched : Watched ℚ} (h : watched.Fits low high) (hlow : low ≤ 0) (hhigh : 0 ≤ high)
    (ln : ℚ → ℚ) (order : Order (String × ℕ)) (nowMs dtMs : UInt64) {samples : List (String × Hit ℚ)}
    (hsamples : StrengthsIn low high samples) :
    (watched.step ln (.tick order nowMs dtMs samples)).Fits low high ∧
      HarmonyRound.Sound low high ⟨nowMs, samples, watched.engine.intervalMs, watched.waitedMs + dtMs.toNat,
        (watched.engine.tick ln order nowMs dtMs samples).2⟩ := by
  have hword := watched.engine.intervalMs.toNat_lt
  have haccum : (saturatingAdd watched.engine.accumMs dtMs).toNat =
      min (watched.waitedMs + dtMs.toNat) (2 ^ 64 - 1) := by
    rw [FeedbackRun.toNat_saturatingAdd, h.accum]
    omega
  -- The clock of the engine saturates, and no interval is longer than where it does.
  by_cases hearly : saturatingAdd watched.engine.accumMs dtMs < watched.engine.intervalMs
  · have hticked : watched.engine.tick ln order nowMs dtMs samples =
        ({ watched.engine with accumMs := saturatingAdd watched.engine.accumMs dtMs }, none) := if_pos hearly
    rw [Watched.step, hticked]
    rw [UInt64.lt_iff_toNat_lt, haccum] at hearly
    refine ⟨⟨h.symmetry, haccum, h.interval⟩, h.interval, ?_, fun snapshot hsnapshot => by cases hsnapshot⟩
    simp only [Option.isSome_none, Bool.false_eq_true, false_iff]
    omega
  · have hticked : watched.engine.tick ln order nowMs dtMs samples =
        ({ watched.engine with
            accumMs := 0
            symmetry := (watched.engine.symmetry.updateWithSamples ln order nowMs samples).1 },
          some { (watched.engine.symmetry.updateWithSamples ln order nowMs samples).1.snapshot with
            mirror := (watched.engine.symmetry.updateWithSamples ln order nowMs samples).2 }) := if_neg hearly
    rw [Watched.step, hticked]
    rw [UInt64.lt_iff_toNat_lt, haccum] at hearly
    refine ⟨⟨h.symmetry.updateWithSamples hlow hhigh ln order nowMs hsamples, rfl, h.interval⟩, h.interval, ?_, ?_⟩
    · simp only [Option.isSome_some, true_iff]
      omega
    · rintro snapshot ⟨⟩
      exact sound_updateWithSamples h.symmetry hlow hhigh ln order nowMs hsamples

/-- Every call keeps what holds of an engine, and every round that it makes is sound, by the kinds of
calls. -/
theorem Watched.Fits.step {watched : Watched ℚ} (h : watched.Fits low high) (hlow : low ≤ 0) (hhigh : 0 ≤ high)
    (ln : ℚ → ℚ) {call : EngineCall ℚ} (hcall : call.In low high) :
    (watched.step ln call).Fits low high ∧ ∀ round ∈ watched.rounds ln call, round.Sound low high := by
  cases call with
  | tick order nowMs dtMs samples =>
      obtain ⟨hfits, hsound⟩ := h.tick hlow hhigh ln order nowMs dtMs hcall
      refine ⟨hfits, fun round hround => ?_⟩
      obtain rfl := List.mem_singleton.mp hround
      exact hsound
  | setInterval intervalMs =>
      refine ⟨⟨⟨h.symmetry.decay, h.symmetry.strength, h.symmetry.latency, h.symmetry.entropy, le_window _⟩,
        h.accum, le_interval intervalMs⟩, fun round hround => ?_⟩
      cases hround

/-- **Snapshots come on time and tell the truth.** Whatever is done with a new engine, a tick makes a snapshot
exactly when the interval of that moment, which is never below 200 ms, has passed since the last one. A snapshot
has means within the bounds of the strengths, the spread of the patterns between 0 and 1, as its pattern the
most frequent one that had its number first, and a mirror impulse, the other way, exactly when the status is
not `Ok`. -/
theorem harmony_reports_sound (ln : ℚ → ℚ) (intervalMs : UInt64) (hlow : low ≤ 0) (hhigh : 0 ≤ high)
    (calls : List (EngineCall ℚ)) (hcalls : ∀ call ∈ calls, call.In low high) :
    ∀ round ∈ narrate (Watched.step ln) (Watched.rounds ln) (Watched.start intervalMs) calls,
      round.Sound low high := by
  refine forall_mem_narrate (fun watched call hfits hcall => ?_) (fits_start hlow hhigh intervalMs) hcalls
  exact Watched.Fits.step hfits hlow hhigh ln hcall

/-- One sample, and a second in which nothing happens. -/
def sampleEngineCalls : List (EngineCall ℚ) :=
  [.tick .listed 1000 1000 [("cpu/load", ⟨1, 900, 1, 0.9, 40⟩)], .setInterval 400, .tick .listed 1500 500 []]

/-- With a logarithm that is right at one, where alone it is taken here. -/
theorem harmony_reports_sound_sampleEngineCalls :
    ¬ ∃ round ∈ narrate (Watched.step fun x => x - 1) (Watched.rounds fun x => x - 1) (Watched.start 500)
      sampleEngineCalls, ¬ round.Sound 0 1 := by
  rintro ⟨round, hround, hunsound⟩
  refine hunsound (harmony_reports_sound _ 500 le_rfl zero_le_one sampleEngineCalls ?_ round hround)
  intro call hcall
  simp only [sampleEngineCalls, List.mem_cons, List.not_mem_nil, or_false] at hcall
  rcases hcall with rfl | rfl | rfl
  · intro sample hsample
    obtain rfl := List.mem_singleton.mp hsample
    norm_num
  · trivial
  · intro sample hsample
    cases hsample

end Exact

end LiminalDB
