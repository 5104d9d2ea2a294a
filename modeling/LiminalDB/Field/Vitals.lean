import LiminalDB.Field.Lasting
import LiminalDB.Field.ViewRuns
import LiminalDB.Foundations.Clamped
import Mathlib.Tactic.Positivity

/-! # The vitals of cells

In exact numbers the vitals of every cell stay in range in every run (`vitals_in_range`). A tick costs every cell
energy, and only impulses, awakenings and new cells bring any: so a field that is left alone dies out
(`left_alone_dies_out`). -/

namespace LiminalDB

open ClusterField (Everywhere expires ite_ne_dead)
open FloatLike (clamp)

/-! ## One cell -/

/-- The vitals of a cell are in range at a time. -/
structure Vital (now : UInt64) (cell : NodeCell ℚ) : Prop where
  alive : cell.state ≠ .dead
  energy : cell.energy ∈ Set.Icc (0 : ℚ) 1
  salience : cell.salience ∈ Set.Icc (0 : ℚ) 1
  affinity : cell.affinity ∈ Set.Icc (0 : ℚ) 2
  seedAffinity : cell.seed.affinity ∈ Set.Icc (0 : ℚ) 1
  baseMetabolism : cell.seed.baseMetabolism ∈ Set.Icc (0.3 : ℚ) 1
  metabolism : cell.metabolism ∈ Set.Icc (0.05 : ℚ) 5
  lastResponseMs : cell.lastResponseMs ≤ now

/-- What is clamped to the unit interval lies in it. -/
theorem clamp_unit (x : ℚ) : clamp x 0.0 1.0 ∈ Set.Icc (0 : ℚ) 1 :=
  ⟨clamp_nonneg (by norm_num) x, clamp_le_one (by norm_num) x⟩

/-- A number of the unit interval is one of the interval up to two. -/
theorem unit_le_two {x : ℚ} (h : x ∈ Set.Icc (0 : ℚ) 1) : x ∈ Set.Icc (0 : ℚ) 2 := ⟨h.1, h.2.trans (by norm_num)⟩

namespace Vital

variable {now : UInt64} {cell : NodeCell ℚ}

/-- A change of state, unless it kills the cell, leaves the vitals in their bounds. -/
theorem of_state (h : Vital now cell) {state : NodeState} (halive : state ≠ .dead) :
    Vital now { cell with state } :=
  { h with alive := halive }

/-- So does any energy of the unit interval. -/
theorem of_energy (h : Vital now cell) {energy : ℚ} (henergy : energy ∈ Set.Icc (0 : ℚ) 1) :
    Vital now { cell with energy } :=
  { h with energy := henergy }

/-- Salience that is bumped is clamped, so that it stays in its bounds. -/
theorem bumpSalience (h : Vital now cell) (amount : ℚ) : Vital now (cell.bumpSalience amount) :=
  { h with salience := clamp_unit _ }

/-- The time of the last recall is not bounded. -/
theorem of_recall (h : Vital now cell) (lastRecallMs : UInt64) : Vital now { cell with lastRecallMs } := { h with }

/-- A cell may be stamped with the present time as that of its last response. -/
theorem responded (h : Vital now cell) : Vital now { cell with lastResponseMs := now } :=
  { h with lastResponseMs := UInt64.le_refl now }

/-! ### Ticks -/

/-- The metabolism after a tick. -/
def paced (cell : NodeCell ℚ) (scale : ℚ) : ℚ :=
  cell.metabolism + (cell.seed.baseMetabolism * clamp scale 0.5 1.5 - cell.metabolism) * 0.05

/-- The metabolism that a tick works with is clamped, whatever the scale is. -/
theorem paced_mem (h : Vital now cell) (scale : ℚ) : paced cell scale ∈ Set.Icc (0.05 : ℚ) 5 := by
  have hlow : 0.5 ≤ clamp scale 0.5 1.5 := le_clamp (by norm_num) scale
  have hhigh : clamp scale 0.5 1.5 ≤ 1.5 := clamp_le (by norm_num) scale
  obtain ⟨hbase, hbase'⟩ := h.baseMetabolism
  obtain ⟨hmin, hmax⟩ := h.metabolism
  -- The pace goes a twentieth of the way to a target from 0.15 to 1.5.
  have hslow : 0.15 ≤ cell.seed.baseMetabolism * clamp scale 0.5 1.5 := by nlinarith
  have hfast : cell.seed.baseMetabolism * clamp scale 0.5 1.5 ≤ 1.5 := by nlinarith
  unfold paced
  constructor
  · linarith
  · linarith

/-- What a tick does to a living cell. -/
theorem tick_eq (halive : cell.state ≠ .dead) (dtMs : UInt64) (scale shift : ℚ) :
    ∃ state, state ≠ NodeState.dead ∧ cell.tick dtMs scale shift =
      { cell with
        metabolism := paced cell scale
        energy := clamp (cell.energy - paced cell scale * dtMs.toNat * 0.0003) 0.0 1.0
        state } := by
  unfold NodeCell.tick
  rw [if_neg halive]
  exact ⟨_, ite_ne_dead (by simp) (ite_ne_dead (by simp) (ite_ne_dead (by simp) halive)), rfl⟩

/-- An affinity on its way to that of the seed. -/
theorem drift_mem (h : Vital now cell) (drive : ℚ) : (cell.driftAffinity drive).affinity ∈ Set.Icc (0 : ℚ) 2 := by
  have hlow : 0 ≤ clamp (drive * 0.05) 0.0 0.25 := clamp_nonneg (by norm_num) _
  have hhigh : clamp (drive * 0.05) 0.0 0.25 ≤ 1 := (clamp_le (by norm_num) _).trans (by norm_num)
  exact mem_of_towards h.affinity (unit_le_two h.seedAffinity) hlow hhigh

/-- A tick moves the energy of a cell within its bounds, for it clamps what comes out. -/
theorem tick (h : Vital now cell) (dtMs : UInt64) (scale shift : ℚ) :
    Vital now (cell.tick dtMs scale shift) := by
  obtain ⟨state, halive, heq⟩ := tick_eq h.alive dtMs scale shift
  rw [heq]
  exact { h with alive := halive, energy := clamp_unit _, metabolism := h.paced_mem scale }

/-- The affinity of a cell drifts within its bounds. -/
theorem driftAffinity (h : Vital now cell) (drive : ℚ) : Vital now (cell.driftAffinity drive) :=
  { h with affinity := h.drift_mem drive }

/-- A cell that divides was strong, and the new cell has half of what it had. -/
theorem maybeDivide_eq {parent child : NodeCell ℚ} {variation : ℚ}
    (hdivided : cell.maybeDivide variation = (parent, some child)) :
    0.8 < cell.energy ∧ parent = { cell with energy := cell.energy * 0.55 } ∧
      child =
        { id := 0
          seed := { cell.seed with affinity := clamp (cell.affinity + variation) 0.0 1.0 }
          state := .idle
          links := ∅
          metabolism := (cell.metabolism + cell.seed.baseMetabolism) / 2.0
          affinity := clamp (cell.affinity + variation) 0.0 1.0
          lastResponseMs := cell.lastResponseMs
          energy := 0.45
          salience := clamp (cell.salience * 0.5) 0.0 1.0
          adrenoTag := cell.adrenoTag
          lastRecallMs := cell.lastRecallMs } := by
  unfold NodeCell.maybeDivide at hdivided
  split at hdivided
  · cases hdivided
  · rename_i hstrong
    rw [Bool.or_eq_true, not_or, decide_eq_true_eq] at hstrong
    obtain ⟨hparent, hchild⟩ := Prod.mk.inj hdivided
    exact ⟨not_le.mp fun hle => hstrong.2 (decide_eq_true hle), hparent.symm, (Option.some.inj hchild).symm⟩

/-- What `maybe_sleep_or_die` does to a cell is a change of its state. -/
theorem rested_eq (cell : NodeCell ℚ) (now : UInt64) (shift : ℚ) :
    ∃ state, (cell.maybeSleepOrDie now shift).1 = { cell with state } := by
  unfold NodeCell.maybeSleepOrDie
  split
  · exact ⟨cell.state, rfl⟩
  · dsimp only
    split
    · split
      · exact ⟨_, rfl⟩
      · exact ⟨_, rfl⟩
    · split
      · exact ⟨_, rfl⟩
      · exact ⟨cell.state, rfl⟩

/-- What trimming does to a cell that it keeps is a change of its state as well. -/
theorem doze_eq (cell : NodeCell ℚ) (now : UInt64) (dozes dies : Bool) :
    ∃ state, ClusterField.doze now dozes dies cell = { cell with state } := by
  unfold ClusterField.doze
  split
  · exact ⟨cell.state, rfl⟩
  · split
    · dsimp only
      split
      · split
        · exact ⟨_, rfl⟩
        · exact ⟨_, rfl⟩
      · split
        · exact ⟨_, rfl⟩
        · exact ⟨cell.state, rfl⟩
    · exact ⟨cell.state, rfl⟩

/-! ### Impulses, dreams and awakenings -/

/-- What an impulse adds to salience is clamped, and the tag of adrenaline has no bounds. -/
theorem feel (h : Vital now cell) (imp : Impulse ℚ) (matchScore : ℚ) : Vital now (cell.feel imp matchScore) := by
  unfold NodeCell.feel
  split
  · exact h.bumpSalience _
  · exact h

/-- Remembering a cell raises its salience within bounds, and sets a time. -/
theorem noteRecall (h : Vital now cell) (matchScore : ℚ) (nowMs : UInt64) :
    Vital now (cell.noteRecall matchScore nowMs) := by
  unfold NodeCell.noteRecall
  split
  · dsimp only
    split
    · exact (h.of_recall nowMs).bumpSalience _
    · exact h.of_recall nowMs
  · exact h

/-- A response moves energy and metabolism of a cell, and clamps both. -/
theorem respond (h : Vital now cell) (imp : Impulse ℚ) (matchScore : ℚ) (nowMs : UInt64) :
    Vital now (cell.respond imp matchScore nowMs).1 := by
  unfold NodeCell.respond
  split
  · refine noteRecall ?_ matchScore nowMs
    split
    · exact h.of_state (by simp)
    · exact h
  · exact h.of_state (by simp)
  · dsimp only
    split
    · exact h.of_state (by simp)
    · split
      · exact h.of_state (by simp)
      · exact h

/-- `ingest` is these three in turn, each of which keeps the vitals in their bounds. -/
theorem ingest (h : Vital now cell) (platform : Platform ℚ) (imp : Impulse ℚ) (nowMs : UInt64) :
    Vital now (cell.ingest platform imp nowMs).1 := by
  unfold NodeCell.ingest
  rw [if_neg h.alive]
  split
  · exact h.of_energy (clamp_unit _)
  · rename_i matchScore _
    exact ((h.feel imp matchScore).respond imp matchScore nowMs).of_energy (clamp_unit _)

/-- A cell that is woken has an energy of three tenths at least, and of one at most as before. -/
theorem woken (h : Vital now cell) :
    Vital now { cell with state := .idle, energy := FloatLike.max cell.energy 0.3, lastResponseMs := now } := by
  have henergy : FloatLike.max cell.energy 0.3 ∈ Set.Icc (0 : ℚ) 1 := by
    unfold FloatLike.max
    split
    · norm_num
    · exact h.energy
  exact ((h.of_state (by simp)).of_energy henergy).responded

/-- Aligning a cell clamps its affinity, and its metabolism where it is not protected. -/
theorem aligned (h : Vital now cell) (weight centroid : ℚ) :
    Vital now (ClusterField.aligned weight centroid cell).1 := by
  have hmoved : Vital now (if 0.002 < FloatLike.abs (centroid - cell.affinity) then
      { cell with affinity := clamp (cell.affinity + (centroid - cell.affinity) * 0.08) 0.0 1.0 } else cell) := by
    split
    · exact { h with affinity := unit_le_two (clamp_unit _) }
    · exact h
  have hpaced (x : ℚ) : clamp x 0.05 5.0 ∈ Set.Icc (0.05 : ℚ) 5 := clamp_mem (by norm_num) (by norm_num) x
  unfold ClusterField.aligned
  dsimp only
  simp only [decide_eq_true_eq]
  split
  · exact hmoved
  · exact { hmoved with metabolism := hpaced _ }

/-- An awakening clamps the energy that it gives, and then the salience. -/
theorem awakened (h : Vital now cell) (cfg : AwakeningConfig ℚ) (magnitude amount : ℚ) : Vital now
    ({ cell with energy := ClusterField.awakened cfg magnitude cell.energy }.bumpSalience amount) :=
  (h.of_energy (clamp_unit _)).bumpSalience amount

/-- A mirrored epoch clamps the affinity to two and the metabolism to two and a half. -/
theorem mirrored (h : Vital now cell) (kind : EpochKind) (scale : ℚ) :
    Vital now (ClusterField.mirrored kind scale cell) := by
  have hmetabolism (x : ℚ) :
      (if kind = .awaken then clamp x 0.05 2.5 else cell.metabolism) ∈ Set.Icc (0.05 : ℚ) 5 := by
    split
    · exact clamp_mem (by norm_num) (by norm_num) x
    · exact h.metabolism
  have haffinity (x : ℚ) : clamp x 0.0 2.0 ∈ Set.Icc (0 : ℚ) 2 :=
    ⟨clamp_nonneg (by norm_num) x, (clamp_le (by norm_num) x).trans (by norm_num)⟩
  exact { h with metabolism := hmetabolism _, affinity := haffinity _ }

end Vital

/-! ## Every run -/

/-- The generator of seeds draws numbers from 0 to 1. -/
def Platform.DrawsUnit (platform : Platform ℚ) : Prop :=
  ∀ bytes, 0 ≤ (platform.chacha bytes).2.1 ∧ (platform.chacha bytes).2.1 < 1

/-- The energy that a bud draws. -/
def BudEnergy (energy : ℚ) : Prop := 0 ≤ energy ∧ energy < 0.3

/-- A clock that stops at its last number does not go back. -/
theorem le_saturatingAdd (now dtMs : UInt64) : now ≤ saturatingAdd now dtMs := by
  have hlt := now.toNat_lt
  rw [UInt64.le_iff_toNat_le, FeedbackRun.toNat_saturatingAdd]
  omega

/-- What is in its bounds at some time is so at every later one: a response lies no less in the past. -/
theorem Vital.later {now later : UInt64} {cell : NodeCell ℚ} (h : Vital now cell) (hle : now ≤ later) :
    Vital later cell :=
  { h with lastResponseMs := UInt64.le_trans h.lastResponseMs hle }

/-- A root is in range, if the generator of seeds draws from the unit interval what its metabolism is made of.
-/
theorem vital_fromSeed {platform : Platform ℚ} (hunit : platform.DrawsUnit) (now : UInt64) (id : NodeId)
    (seed : String) : Vital now (.fromSeed id (createSeed platform seed)) := by
  obtain ⟨hlow, hhigh⟩ := hunit (deriveSeedBytes seed)
  have hbase : 0.3 + (platform.chacha (deriveSeedBytes seed)).2.1 * 0.7 ∈ Set.Icc (0.3 : ℚ) 1 := by
    constructor
    · linarith
    · linarith
  exact
    { alive := by simp [NodeCell.fromSeed]
      energy := by norm_num [NodeCell.fromSeed]
      salience := by norm_num [NodeCell.fromSeed]
      affinity := unit_le_two (clamp_unit _)
      seedAffinity := clamp_unit _
      baseMetabolism := hbase
      metabolism := ⟨le_trans (by norm_num) hbase.1, hbase.2.trans (by norm_num)⟩
      lastResponseMs := UInt64.zero_le }

/-- Nothing takes the vitals of a cell out of range. -/
theorem endures_vital : Endures Vital where
  alive h := h.alive
  aged dtMs scale shift drive h := ((h.later (le_saturatingAdd _ dtMs)).tick dtMs scale shift).driftAffinity drive
  divided variation h hdivided := by
    obtain ⟨hstrong, rfl, rfl⟩ := Vital.maybeDivide_eq hdivided
    obtain ⟨hlow, hhigh⟩ := h.energy
    refine ⟨h.of_energy ⟨by linarith, by linarith⟩, fun id corePattern => ?_⟩
    obtain ⟨hbase, hbase'⟩ := h.baseMetabolism
    obtain ⟨hmin, hmax⟩ := h.metabolism
    exact
      { alive := by simp
        energy := by norm_num
        salience := clamp_unit _
        affinity := unit_le_two (clamp_unit _)
        seedAffinity := clamp_unit _
        baseMetabolism := h.baseMetabolism
        metabolism := ⟨by linarith, by linarith⟩
        lastResponseMs := UInt64.le_refl _ }
  linked links h := { h with }
  rested shift h hlives := by
    obtain ⟨state, heq⟩ := Vital.rested_eq _ _ shift
    rw [heq] at hlives ⊢
    exact h.of_state hlives
  dozed dozes dies h hlives := by
    obtain ⟨state, heq⟩ := Vital.doze_eq _ _ dozes dies
    rw [heq] at hlives ⊢
    exact h.of_state hlives
  aligned weight centroid h := h.aligned weight centroid
  mirrored kind scale h := h.mirrored kind scale

/-- Nothing that befalls a cell takes its vitals out of their bounds: one case for each way in which a cell
changes or is made. -/
theorem lasts_vital {platform : Platform ℚ} (hunit : platform.DrawsUnit) : Lasts platform BudEnergy Vital where
  toEndures := endures_vital
  root now id seed := vital_fromSeed hunit now id seed
  seeded now id seed x :=
    { vital_fromSeed hunit now id seed with
      affinity := unit_le_two (clamp_unit x), seedAffinity := clamp_unit x }
  budded now id seed corePattern x energy hdraw :=
    { vital_fromSeed hunit now id seed with
      energy := by
        obtain ⟨hlow, hhigh⟩ := hdraw
        exact ⟨by linarith, by linarith⟩
      affinity := unit_le_two (clamp_unit x)
      seedAffinity := clamp_unit x
      lastResponseMs := UInt64.le_refl now }
  woken h := h.woken
  ingested imp h := ⟨h.ingest _ imp _, (h.ingest _ imp _).responded⟩
  awakened cfg magnitude amount h := h.awakened cfg magnitude amount

/-- In every run, the vitals of every cell are in range: it is alive, its energy and its salience are from 0 to 1,
its affinity from 0 to 2, its metabolism from 0.05 to 5, and it has not responded later than now. -/
theorem vitals_in_range (platform : Platform ℚ) (hunit : platform.DrawsUnit) (calls : List (FieldCall ℚ))
    (hdrawn : ∀ c ∈ calls, c.Drawn BudEnergy) : Everywhere Vital (ClusterField.run platform calls) :=
  ClusterField.everywhere_run (lasts_vital hunit) calls hdrawn

/-! ## Alone -/

/-- What a full cell has left after so many milliseconds alone. -/
def leftOver (ms : ℕ) : ℚ := Max.max 0 (1 - ms * 0.000015)

/-- The longer a cell is left alone, the less is left of its energy at most. -/
theorem leftOver_le_of_le {ms later : ℕ} (h : ms ≤ later) : leftOver later ≤ leftOver ms := by
  have hcast : (ms : ℚ) ≤ later := by exact_mod_cast h
  exact max_le_max le_rfl (by linarith)

/-- It takes more than 13333 ms to lose what makes a cell divide. -/
theorem leftOver_le {ms : ℕ} (h : 13334 ≤ ms) : leftOver ms ≤ 0.8 := by
  have hcast : (13334 : ℚ) ≤ ms := by exact_mod_cast h
  exact max_le (by norm_num) (by linarith)

/-- After 63334 ms less than a twentieth is left, too little for a cell to live on. -/
theorem leftOver_lt {ms : ℕ} (h : 63334 ≤ ms) : leftOver ms < 0.05 := by
  have hcast : (63334 : ℚ) ≤ ms := by exact_mod_cast h
  exact max_lt (by norm_num) (by linarith)

/-- A cell that has got no energy since `start`. -/
structure Fading (start : ℕ) (now : UInt64) (cell : NodeCell ℚ) : Prop extends Vital now cell where
  since : start ≤ now.toNat
  energy_le : cell.energy ≤ leftOver (now.toNat - start)
  respondedMs_le : cell.lastResponseMs.toNat ≤ start + 13333

namespace Fading

variable {start : ℕ} {now : UInt64} {cell : NodeCell ℚ}

/-- A cell in its bounds may have all the energy that can be left after no time at all. -/
theorem of_vital (h : Vital now cell) : Fading now.toNat now cell where
  toVital := h
  since := le_rfl
  energy_le := by
    rw [Nat.sub_self]
    exact h.energy.2.trans (by norm_num [leftOver])
  respondedMs_le := (UInt64.le_iff_toNat_le.mp h.lastResponseMs).trans (Nat.le_add_right _ _)

/-- A tick costs every cell energy: its metabolism is at least a twentieth. -/
theorem energy_tick_le (h : Fading start now cell) (dtMs : UInt64) (scale shift : ℚ) :
    (cell.tick dtMs scale shift).energy ≤ leftOver (now.toNat - start + dtMs.toNat) := by
  obtain ⟨state, -, heq⟩ := Vital.tick_eq h.alive dtMs scale shift
  have hpaced := (h.toVital.paced_mem scale).1
  have hdt : (0 : ℚ) ≤ dtMs.toNat := Nat.cast_nonneg _
  -- A millisecond costs 0.0003 times the metabolism.
  have hcost : dtMs.toNat * 0.000015 ≤ Vital.paced cell scale * dtMs.toNat * 0.0003 := by nlinarith
  have hclamp : clamp (cell.energy - Vital.paced cell scale * dtMs.toNat * 0.0003) 0.0 1.0 ≤
      Max.max 0 (cell.energy - Vital.paced cell scale * dtMs.toNat * 0.0003) :=
    clamp_le_of_le ((by norm_num : (0.0 : ℚ) ≤ 0).trans (le_max_left _ _)) (by norm_num) (le_max_right _ _)
  rw [heq]
  refine hclamp.trans (max_le (le_max_left _ _) ?_)
  have henergy := h.energy_le
  unfold leftOver at henergy ⊢
  -- There was nothing left before, or the tick takes its share of it.
  rcases le_max_iff.mp henergy with hnone | hsome
  · exact le_max_of_le_left (by linarith)
  · refine le_max_of_le_right ?_
    push_cast
    linarith

/-- A tick takes from a cell, left alone, no less than what the bound loses in the meantime. -/
theorem aged (h : Fading start now cell) (dtMs : UInt64) (scale shift drive : ℚ) :
    Fading start (saturatingAdd now dtMs) ((cell.tick dtMs scale shift).driftAffinity drive) := by
  have hlater := UInt64.le_iff_toNat_le.mp (le_saturatingAdd now dtMs)
  have hsum : (saturatingAdd now dtMs).toNat - start ≤ now.toNat - start + dtMs.toNat := by
    have hsince := h.since
    rw [FeedbackRun.toNat_saturatingAdd]
    omega
  obtain ⟨state, -, heq⟩ := Vital.tick_eq h.alive dtMs scale shift
  refine ⟨endures_vital.aged dtMs scale shift drive h.toVital, h.since.trans hlater, ?_, ?_⟩
  · exact (h.energy_tick_le dtMs scale shift).trans (leftOver_le_of_le hsum)
  · have hsame : ((cell.tick dtMs scale shift).driftAffinity drive).lastResponseMs = cell.lastResponseMs := by
      rw [heq]
      rfl
    rw [hsame]
    exact h.respondedMs_le

/-- Only a cell that has been alone for at most 13333 ms is strong enough to divide. -/
theorem divided (h : Fading start now cell) {parent child : NodeCell ℚ} {variation : ℚ}
    (hdivided : cell.maybeDivide variation = (parent, some child)) :
    Fading start now parent ∧ ∀ id corePattern, Fading start now
      { child with id, seed := { child.seed with corePattern }, lastResponseMs := now } := by
  obtain ⟨hparent, hchild⟩ := endures_vital.divided variation h.toVital hdivided
  obtain ⟨hstrong, rfl, rfl⟩ := Vital.maybeDivide_eq hdivided
  have hleft := hstrong.trans_le h.energy_le
  -- It has more than 0.8, which nobody has who has been alone for longer.
  have hyoung : now.toNat - start ≤ 13333 := by
    by_contra hold
    exact absurd (leftOver_le (by omega)) (not_le.mpr hleft)
  have hsince := h.since
  refine ⟨⟨hparent, hsince, ?_, h.respondedMs_le⟩, fun id corePattern => ⟨hchild id corePattern, hsince, ?_, ?_⟩⟩
  · have hnonneg := h.energy.1
    have hle := h.energy_le
    show cell.energy * 0.55 ≤ _
    linarith
  · show (0.45 : ℚ) ≤ _
    linarith
  · show now.toNat ≤ _
    omega

/-- What changes neither the energy nor the time of the last response does not matter. -/
theorem of_same (h : Fading start now cell) {after : NodeCell ℚ} (hvital : Vital now after)
    (henergy : after.energy = cell.energy) (hresponded : after.lastResponseMs = cell.lastResponseMs) :
    Fading start now after where
  toVital := hvital
  since := h.since
  energy_le := henergy.trans_le h.energy_le
  respondedMs_le := by
    rw [hresponded]
    exact h.respondedMs_le

/-- Nothing that gives no energy ends it. -/
theorem endures_fading (start : ℕ) : Endures (Fading start) where
  alive h := h.alive
  aged dtMs scale shift drive h := h.aged dtMs scale shift drive
  divided variation h hdivided := h.divided hdivided
  linked links h := h.of_same (endures_vital.linked links h.toVital) rfl rfl
  rested {now cell} shift h hlives := by
    obtain ⟨state, heq⟩ := Vital.rested_eq cell now shift
    exact h.of_same (endures_vital.rested shift h.toVital hlives) (by rw [heq]) (by rw [heq])
  dozed {now cell} dozes dies h hlives := by
    obtain ⟨state, heq⟩ := Vital.doze_eq cell now dozes dies
    exact h.of_same (endures_vital.dozed dozes dies h.toVital hlives) (by rw [heq]) (by rw [heq])
  aligned weight centroid h := by
    refine h.of_same (endures_vital.aligned weight centroid h.toVital) ?_ ?_
    · unfold ClusterField.aligned
      dsimp only
      split <;> split <;> rfl
    · unfold ClusterField.aligned
      dsimp only
      split <;> split <;> rfl
  mirrored kind scale h := h.of_same (endures_vital.mirrored kind scale h.toVital) rfl rfl

/-- After 63334 ms alone a cell dies in the next tick. -/
theorem expires (h : Fading start now cell) (hlong : start + 63334 ≤ now.toNat) :
    cell.energy ≤ 0.8 ∧ ClusterField.expires now cell = true := by
  have hweak : cell.energy < 0.05 := h.energy_le.trans_lt (leftOver_lt (by omega))
  -- The last response, be it its birth, is longer ago than the six seconds before death.
  have hidle : 6000 < saturatingSub now cell.lastResponseMs := by
    have hresponded := h.respondedMs_le
    have hsix : (6000 : UInt64).toNat = 6000 := rfl
    rw [UInt64.lt_iff_toNat_lt, toNat_saturatingSub, hsix]
    omega
  refine ⟨by linarith, ?_⟩
  unfold ClusterField.expires
  simp [h.alive, hidle]
  exact hweak

end Fading

/-- A root and a bud of it. -/
def sampleBirths : List (FieldCall ℚ) :=
  [.addRoot "cpu/load", .injectSeedVariation .listed 0.05 0.1 (fun _ => true) "cpu/load"]

/-- The platform of the samples draws one half, which is in the unit interval. -/
theorem drawsUnit_constantPlatform : (ClusterField.constantPlatform ℚ 0.5).DrawsUnit := by
  intro bytes
  show (0 : ℚ) ≤ 0.5 ∧ (0.5 : ℚ) < 1
  norm_num

/-- The bud of the sample has an energy that a bud may have. -/
theorem drawn_sampleBirths : ∀ c ∈ sampleBirths, c.Drawn BudEnergy := by
  intro c hc
  rcases List.mem_pair.mp hc with rfl | rfl
  · trivial
  · show (0 : ℚ) ≤ 0.1 ∧ (0.1 : ℚ) < 0.3
    norm_num

/-- A root and a bud of it: the vitals of both are in range. -/
theorem vitals_in_range_sampleBirths :
    Everywhere Vital (ClusterField.run (ClusterField.constantPlatform ℚ 0.5) sampleBirths) :=
  vitals_in_range (ClusterField.constantPlatform ℚ 0.5) drawsUnit_constantPlatform sampleBirths drawn_sampleBirths

/-- Since `start` no cell has got energy, and when that is long enough there is none. -/
structure Faded (start : ℕ) (field : ClusterField ℚ) : Prop where
  fading : Everywhere (Fading start) field
  gone : start + 63334 ≤ field.nowMs.toNat → ∀ id : NodeId, field.cells[id]? = none

/-- A field whose cells are in their bounds has faded since now, which says little yet. -/
theorem faded_start {field : ClusterField ℚ} (h : Everywhere Vital field) : Faded field.nowMs.toNat field where
  fading id cell hcell := .of_vital (h id cell hcell)
  gone hlong := by omega

/-- A call that gives no cell energy lets a field fade on, whatever else it does. -/
theorem faded_call {platform : Platform ℚ} {start : ℕ} {field : ClusterField ℚ} (h : Faded start field)
    {c : FieldCall ℚ} (hquiet : c.isQuiet = true) : Faded start (field.call platform c) where
  fading := ClusterField.everywhere_call_of_quiet (Fading.endures_fading start) h.fading hquiet
  gone hlong := by
    cases htick : c.isTick with
    | false =>
        -- Where there is no cell, a quiet call brings none.
        rw [nowMs_call htick] at hlong
        have hnobody : Everywhere (fun _ _ => False) field := fun id cell hcell => by
          rw [h.gone hlong id] at hcell
          cases hcell
        have hendures : Endures fun (_ : UInt64) (_ : NodeCell ℚ) => False :=
          ⟨⟨False.elim, fun _ _ _ _ => id, fun _ h => h.elim, fun _ => id, fun _ h => h.elim⟩,
            fun _ _ h => h.elim, fun _ _ => id, fun _ _ => id⟩
        have hafter := @ClusterField.everywhere_call_of_quiet ℚ _ platform _ field hendures hnobody c hquiet
        exact fun id => Option.eq_none_iff_forall_ne_some.mpr fun cell hcell => hafter id cell hcell
    | true =>
        cases c with
        | tickAll visits variation dtMs =>
            have hnow : (field.call platform (.tickAll visits variation dtMs)).nowMs =
                saturatingAdd field.nowMs dtMs :=
              congrArg Notes.nowMs (ClusterField.notes_tickAll visits variation dtMs)
            rw [hnow] at hlong
            exact ClusterField.tickAll_deserts (Fading.endures_fading start).toAges h.fading visits variation dtMs
              fun cell hcell => hcell.expires hlong
        | _ => cases htick

/-- A field that gets no impulse, no seed and no awakening dies out, however it ticks, dreams, is trimmed or
configured meanwhile: when 63334 ms have passed, there is no cell. -/
theorem left_alone_dies_out (platform : Platform ℚ) (hunit : platform.DrawsUnit) (calls : List (FieldCall ℚ))
    (hdrawn : ∀ c ∈ calls, c.Drawn BudEnergy) (alone : List (FieldCall ℚ)) (hquiet : ∀ c ∈ alone, c.isQuiet = true)
    (hlong : (ClusterField.run platform calls).nowMs.toNat + 63334 ≤
      (ClusterField.run platform (calls ++ alone)).nowMs.toNat) :
    (ClusterField.run platform (calls ++ alone)).cells.isEmpty = true := by
  have hvital := ClusterField.everywhere_run (lasts_vital hunit) calls hdrawn
  have hfaded : Faded (ClusterField.run platform calls).nowMs.toNat (ClusterField.run platform (calls ++ alone)) := by
    unfold ClusterField.run
    rw [List.foldl_append]
    exact List.foldlRecOn alone _ (faded_start hvital) fun field hfield c hc => faded_call hfield (hquiet c hc)
  rw [Std.ExtTreeMap.isEmpty_iff]
  exact Std.ExtTreeMap.ext_getElem? fun id => (hfaded.gone hlong id).trans Std.ExtTreeMap.getElem?_empty.symm

/-- The cells of the sample, left alone for seventy seconds, are all gone. -/
theorem left_alone_dies_out_sampleBirths :
    (ClusterField.run (ClusterField.constantPlatform ℚ 0.5)
      (sampleBirths ++ [.tickAll .listed (fun _ => 0) 70000])).cells.isEmpty = true := by
  refine left_alone_dies_out (ClusterField.constantPlatform ℚ 0.5) drawsUnit_constantPlatform sampleBirths
    drawn_sampleBirths [.tickAll .listed (fun _ => 0) 70000] (by simp [FieldCall.isQuiet]) ?_
  have hticked : (ClusterField.run (ClusterField.constantPlatform ℚ 0.5)
      (sampleBirths ++ [.tickAll .listed (fun _ => 0) 70000])).nowMs =
        saturatingAdd (ClusterField.run (ClusterField.constantPlatform ℚ 0.5) sampleBirths).nowMs 70000 := by
    unfold ClusterField.run
    rw [List.foldl_append]
    exact congrArg Notes.nowMs (ClusterField.notes_tickAll .listed (fun _ => 0) 70000)
  have hborn : (ClusterField.run (ClusterField.constantPlatform ℚ 0.5) sampleBirths).nowMs = 0 := by
    unfold sampleBirths ClusterField.run
    rw [List.foldl_cons, List.foldl_cons, List.foldl_nil, nowMs_call rfl, nowMs_call rfl]
    rfl
  rw [hticked, hborn]
  decide

end LiminalDB
