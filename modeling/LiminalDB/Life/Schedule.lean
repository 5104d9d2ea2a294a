import LiminalDB.Field.ViewRuns
import LiminalDB.Life.Clockwork
import LiminalDB.Life.Loop

/-! # When the life loop does what it does

Every round of the life loop is a round of its clockwork (`round_step`), whatever the field is like and whatever
others do to it meanwhile. So its tempo, its measurements and its dreams are as regular as those of the clockwork
(`life_keeps_time`). -/

namespace LiminalDB

variable {F : Type} [FloatLike F] {platform : Platform F} {self : LifeLoop F}

open Clockwork (InRange)

/-! ## The clockwork of a loop -/

omit [FloatLike F] in
/-- What the schedule shows of a beat. -/
def Beat.pulse : Beat F → Option Pulse
  | .slept tickMs => some (.slept tickMs.toNat)
  | .onMetrics _ => some .measured
  | .dream nowMs cfg => some (.dreamt nowMs.toNat (cfg.minIdleS.toNat * 1000))
  | .collectiveDream nowMs cfg => some (.shared nowMs.toNat cfg.phaseLenMs.toNat cfg.phaseGapMs.toNat)
  | .onHint _ => none
  | .partialSnapshot .. => none

namespace LifeLoop

omit [FloatLike F] in
/-- The pulses of a loop. -/
def pulses (self : LifeLoop F) : List Pulse := self.beats.filterMap Beat.pulse

omit [FloatLike F] in
/-- The clockwork of a loop. -/
def clockwork (self : LifeLoop F) : Clockwork :=
  { now := self.field.nowMs.toNat
    tick := self.tickMs.toNat
    sinceMetrics := self.elapsedSinceMetrics.toNat
    isMeasured := self.lastMetrics.isSome
    dreamtAt := self.dreamState.lastStartMs.toNat
    dreamRestore := self.dreamState.restoreTick.map UInt64.toNat
    slowedOnce := self.dreamState.slowedOnce
    active := self.sharedState.active
    phaseUntil := self.sharedState.phaseUntil.toNat
    phaseEnd := self.sharedState.lastPhaseEnd.toNat
    sharedRestore := self.sharedState.restoreTick.map UInt64.toNat
    pulses := self.pulses }

/-! ## Up to the measurement -/

omit [FloatLike F] in
/-- Giving back the tempo is that step of the clockwork. -/
theorem clockwork_restoreTempo (self : LifeLoop F) : self.restoreTempo.clockwork = self.clockwork.restore := by
  obtain ⟨field, tickMs, sinceMetrics, sincePartial, lastMetrics, ⟨last, restoreTick, slowedOnce⟩, shared, seq,
    beats⟩ := self
  cases restoreTick with
  | none => rfl
  | some original => cases slowedOnce <;> rfl

omit [FloatLike F] in
/-- A beat adds its pulse, if it has one. -/
theorem pulses_beat (self : LifeLoop F) (beat : Beat F) :
    (self.beat beat).pulses = self.pulses ++ beat.pulse.toList := by
  rw [pulses, LifeLoop.beat, List.filterMap_append, pulses]
  cases beat <;> rfl

omit [FloatLike F] in
/-- The loop sleeps. -/
theorem clockwork_sleep (self : LifeLoop F) :
    self.sleep.clockwork = { self.clockwork.sleep with now := self.clockwork.now } ∧
      self.sleep.field = self.field ∧ self.sleep.tickMs = self.tickMs := by
  have hpulses := self.pulses_beat (.slept self.tickMs)
  obtain ⟨field, tickMs, sinceMetrics, sincePartial, lastMetrics, ⟨last, restoreTick, slowedOnce⟩, shared, seq,
    beats⟩ := self
  refine ⟨?_, ?_, ?_⟩
  · cases restoreTick with
    | none => cases slowedOnce <;> simp [clockwork, sleep, Clockwork.sleep, LifeLoop.beat] <;> exact hpulses
    | some original => cases slowedOnce <;> simp [clockwork, sleep, Clockwork.sleep, LifeLoop.beat] <;> exact hpulses
  · cases restoreTick <;> cases slowedOnce <;> rfl
  · cases restoreTick <;> cases slowedOnce <;> rfl

/-- The loop sleeps, and the field ticks. -/
theorem clockwork_tick (now : Round F) (self : LifeLoop F) :
    (self.sleep.tick platform now).clockwork = self.clockwork.sleep := by
  obtain ⟨hclock, hfield, htick⟩ := self.clockwork_sleep
  have hticked := @ClusterField.notes_tickAll F _ platform (now.meanwhile self.sleep.field).toClusterField now.visits
    now.variation self.sleep.tickMs
  have hticked : (self.sleep.tick platform now).field.nowMs =
      saturatingAdd (now.meanwhile self.sleep.field).nowMs self.sleep.tickMs := congrArg Notes.nowMs hticked
  rw [now.still, hfield, htick] at hticked
  have hafter : (self.sleep.tick platform now).clockwork =
      { self.sleep.clockwork with now := (self.sleep.tick platform now).field.nowMs.toNat } := rfl
  rw [hafter, hticked, FeedbackRun.toNat_saturatingAdd, hclock]
  rfl

omit [FloatLike F] in
/-- Ending a phase is that step of the clockwork. -/
theorem clockwork_endPhase (self : LifeLoop F) : self.endPhase.clockwork = self.clockwork.endPhase := by
  have hover : (self.sharedState.active && decide (self.sharedState.phaseUntil ≤ self.field.nowMs)) =
      (self.clockwork.active && decide (self.clockwork.phaseUntil ≤ self.clockwork.now)) :=
    congrArg (self.sharedState.active && ·) (decide_eq_decide.mpr UInt64.le_iff_toNat_le)
  unfold endPhase Clockwork.endPhase
  rw [hover]
  split
  · have htick : (self.sharedState.restoreTick.getD self.tickMs).toNat =
        (self.sharedState.restoreTick.map UInt64.toNat).getD self.tickMs.toNat := by
      cases self.sharedState.restoreTick <;> rfl
    unfold clockwork
    rw [htick]
    rfl
  · rfl

omit [FloatLike F] in
/-- The time that is counted does not overflow. -/
theorem clockwork_countTime (hroom : self.elapsedSinceMetrics.toNat + self.tickMs.toNat < 2 ^ 64) :
    self.countTime.clockwork = self.clockwork.count := by
  have hsum : (self.elapsedSinceMetrics + self.tickMs).toNat = self.clockwork.sinceMetrics + self.clockwork.tick := by
    rw [UInt64.toNat_add, Nat.mod_eq_of_lt hroom]
    rfl
  -- A partial snapshot is not part of the schedule.
  have hkept : self.countTime.clockwork =
      { self.clockwork with sinceMetrics := (self.elapsedSinceMetrics + self.tickMs).toNat } := by
    unfold countTime
    dsimp only
    split
    · split
      · rfl
      · unfold clockwork
        rw [pulses_beat]
        simp [pulses, Beat.pulse, LifeLoop.beat]
    · rfl
  rw [hkept, hsum]
  rfl

/-! ## The measurement -/

omit [FloatLike F] in
/-- Something is done to the cells that leaves the clock alone. -/
theorem clockwork_onField {change : ClusterField F → ClusterField F}
    (h : (change self.field.toClusterField).nowMs = self.field.nowMs) :
    (self.onField change).clockwork = self.clockwork := by
  have hafter : (self.onField change).clockwork =
      { self.clockwork with now := (change self.field.toClusterField).nowMs.toNat } := rfl
  rw [hafter, h]
  rfl

omit [FloatLike F] in
/-- An adjusted tick is in the bounds that it is clamped to. -/
theorem adjustTick_range (tickMs : UInt64) (adjust : ℤ) {low high : ℕ} (hle : low ≤ high) (hhigh : high < 2 ^ 64) :
    low ≤ (adjustTick tickMs adjust low high).toNat ∧ (adjustTick tickMs adjust low high).toNat ≤ high := by
  unfold adjustTick
  set sum := tickMs.toInt64.toInt + adjust
  have hlow : low ≤ (max (low : ℤ) (min sum high)).toNat := by omega
  have hmax : (max (low : ℤ) (min sum high)).toNat ≤ high := by omega
  rw [UInt64.toNat_ofNat_of_lt' (hmax.trans_lt hhigh)]
  exact ⟨hlow, hmax⟩

/-- A tick that is slowed is in the range of the loop. -/
theorem slower_range (factor : F) (tickMs : UInt64) : InRange (slower factor tickMs).toNat := by
  have hclamp (slow : UInt64) : InRange (if slow < 80 then 80 else if 800 < slow then 800 else slow).toNat := by
    split
    · exact ⟨le_refl 80, Nat.le_of_ble_eq_true rfl⟩
    · split
      · exact ⟨Nat.le_of_ble_eq_true rfl, le_refl 800⟩
      · rename_i hlow hhigh
        exact ⟨UInt64.not_lt.mp hlow, UInt64.not_lt.mp hhigh⟩
  exact hclamp _

/-- The clock is the same but for its tempo, which is one that a measurement leaves. -/
structure Retimed (before after : Clockwork) : Prop where
  same : after = { before with tick := after.tick }
  range : 80 ≤ after.tick ∧ after.tick ≤ 450

/-- What the controller does to the loop is, for the clockwork, a new tempo in range. -/
theorem retimed_regulate (metrics : Metrics F) (self : LifeLoop F) :
    Retimed self.clockwork (self.regulate metrics).clockwork := by
  have hrange := @adjustTick_range self.tickMs
    ((self.field.trs.setTarget metrics.suggestTarget).step self.field.nowMs metrics.observedLoad).1.tickAdjustMs 80 450
    (by decide) (by decide)
  exact ⟨rfl, hrange⟩

/-- The hints keep the tempo within its bounds. -/
theorem retimed_applyHint {before : Clockwork} (now : Round F) (h : Retimed before self.clockwork) (hint : Hint) :
    Retimed before (self.applyHint platform now hint).clockwork := by
  obtain ⟨hsame, hlow, hhigh⟩ := h
  have hlow : 80 ≤ self.tickMs.toNat := hlow
  have hhigh : self.tickMs.toNat ≤ 450 := hhigh
  -- A hint that changes nothing but the tempo, within its range.
  have hretime (tickMs : UInt64) (hrange : 80 ≤ tickMs.toNat ∧ tickMs.toNat ≤ 450) :
      Retimed before { self with tickMs }.clockwork := by
    refine ⟨?_, hrange⟩
    have hafter : { self with tickMs }.clockwork = { self.clockwork with tick := tickMs.toNat } := rfl
    rw [hafter, hsame]
  cases hint with
  | slowTick =>
      -- No more than 400, or 400.
      refine hretime _ ?_
      have hsum : (self.tickMs + 50).toNat = self.tickMs.toNat + 50 := by
        have hfifty : (50 : UInt64).toNat = 50 := rfl
        rw [UInt64.toNat_add, hfifty]
        exact Nat.mod_eq_of_lt (by omega)
      split
      · exact ⟨by decide, by decide⟩
      · rename_i hle
        have hle : (self.tickMs + 50).toNat ≤ 400 := UInt64.not_lt.mp hle
        omega
  | fastTick =>
      by_cases hslow : 100 < self.tickMs
      · have hafter : self.applyHint platform now .fastTick = { self with
            tickMs := if saturatingSub self.tickMs 10 < 100 then 100 else saturatingSub self.tickMs 10 } :=
          if_pos hslow
        rw [hafter]
        -- No less than 100, or 100.
        refine hretime _ ?_
        have hfaster : (saturatingSub self.tickMs 10).toNat = self.tickMs.toNat - 10 := toNat_saturatingSub _ _
        split
        · exact ⟨by decide, by decide⟩
        · rename_i hle
          have hle : 100 ≤ (saturatingSub self.tickMs 10).toNat := UInt64.not_lt.mp hle
          omega
      · -- It is fast already.
        have hafter : self.applyHint platform now .fastTick = self := if_neg hslow
        rw [hafter]
        exact ⟨hsame, hlow, hhigh⟩
  | trimField =>
      have hstill := congrArg Notes.nowMs
        (@ClusterField.notes_trimLowEnergy F _ platform self.field.toClusterField now.visits now.dozes now.dies)
      have hkept := clockwork_onField hstill
      unfold applyHint
      rw [hkept]
      exact ⟨hsame, hlow, hhigh⟩
  | wakeSeeds =>
      have hstill := congrArg Notes.nowMs
        (@ClusterField.notes_injectSeedVariation F _ platform self.field.toClusterField now.visits now.shift now.energy
          now.budCoin "liminal/wake")
      have hkept := @clockwork_onField F self (fun field => field.injectSeedVariation platform now.visits now.shift
        now.energy now.budCoin "liminal/wake") hstill
      unfold applyHint
      rw [hkept]
      exact ⟨hsame, hlow, hhigh⟩

/-- Reflecting on the metrics leaves the clockwork alone. -/
theorem clockwork_reflect (now : Round F) (metrics : Metrics F) (self : LifeLoop F) :
    (self.reflect now metrics).clockwork = self.clockwork := by
  unfold reflect
  split
  · dsimp only
    split
    · rename_i recorded hrecorded
      have hstill := nowMs_recordReflexSnapshot hrecorded
      have hafter : { self with field := recorded.2 }.clockwork =
          { self.clockwork with now := recorded.2.nowMs.toNat } := rfl
      rw [hafter, hstill]
      rfl
    · rfl
  · rfl

omit [FloatLike F] in
/-- So do the hints, by induction over them. -/
theorem clockwork_onHints (hints : List Hint) (self : LifeLoop F) :
    (hints.foldl (fun self hint => self.beat (.onHint hint)) self).clockwork = self.clockwork := by
  have hone (self : LifeLoop F) (hint : Hint) : (self.beat (.onHint hint)).clockwork = self.clockwork := by
    unfold clockwork
    rw [pulses_beat]
    simp [Beat.pulse, pulses, LifeLoop.beat]
  exact list_foldl_keeps clockwork hone hints self

/-- A round measures when it is time. -/
theorem measures_measure (now : Round F) (self : LifeLoop F) :
    Clockwork.Measures self.clockwork (self.measure platform now).clockwork := by
  have hdue : 1000 ≤ self.elapsedSinceMetrics ↔ 1000 ≤ self.clockwork.sinceMetrics := UInt64.le_iff_toNat_le
  by_cases h : 1000 ≤ self.elapsedSinceMetrics
  · set metrics := Metrics.analyze now.visits.cells self.field.toClusterField with hmetrics
    set hinted := (metrics.hints now.coin).foldl (fun self hint => self.beat (.onHint hint)) (self.regulate metrics)
      with hhinted
    set advised := ((metrics.hints now.coin).foldl (applyHint platform now) hinted).reflect now metrics with hadvised
    have hafter : self.measure platform now =
        { advised.beat (.onMetrics metrics) with lastMetrics := some metrics, elapsedSinceMetrics := 0 } := if_pos h
    have hretimed : Retimed self.clockwork advised.clockwork := by
      rw [hadvised, clockwork_reflect]
      refine List.foldlRecOn (motive := fun loop : LifeLoop F => Retimed self.clockwork loop.clockwork)
        (metrics.hints now.coin) (applyHint platform now) ?_ fun loop hloop hint _ => retimed_applyHint now hloop hint
      rw [hhinted, clockwork_onHints]
      exact retimed_regulate metrics self
    have hclock : (self.measure platform now).clockwork =
        { advised.clockwork with sinceMetrics := 0, isMeasured := true, pulses := advised.pulses ++ [.measured] } := by
      rw [hafter]
      have hpulses := advised.pulses_beat (.onMetrics metrics)
      unfold clockwork
      simp only [Clockwork.mk.injEq]
      exact ⟨rfl, rfl, rfl, rfl, rfl, rfl, rfl, rfl, rfl, rfl, rfl, hpulses⟩
    obtain ⟨hsame, hlow, hhigh⟩ := hretimed
    have hpulses : advised.pulses = self.clockwork.pulses := congrArg Clockwork.pulses hsame
    rw [hclock, hpulses, hsame]
    exact .measure advised.clockwork.tick (hdue.mp h) ⟨hlow, hhigh.trans (by decide)⟩
  · have hafter : self.measure platform now = self := if_neg h
    rw [hafter]
    exact .skip (not_le.mp (mt hdue.mpr h))

/-! ## Dreams -/

/-- So does what the loop reflects on by itself. -/
theorem clockwork_autoReflect (now : Round F) (self : LifeLoop F) :
    (self.autoReflect platform now).clockwork = self.clockwork := by
  unfold autoReflect
  split
  · dsimp only
    split
    · rfl
    · refine clockwork_onField ?_
      unfold replayEpoch
      split
      · rename_i epoch _
        unfold replayFound
        dsimp only
        split
        · exact congrArg Notes.nowMs (ClusterField.notes_applyMirrorEpoch now.visits epoch _ _ _)
        · rfl
      · rfl
  · rfl

/-- So does an epoch that is recorded. -/
theorem clockwork_pushEpoch (now : Round F) (kind : EpochKind) (startMs : UInt64)
    (tensionBefore latencyBefore latencyAfter : F) (self : LifeLoop F) :
    (self.pushEpoch platform now kind startMs tensionBefore latencyBefore latencyAfter).clockwork =
      self.clockwork := by
  unfold pushEpoch
  rw [clockwork_autoReflect]
  rfl

/-- A new model and an awakening may set the tempo, and nothing else. -/
theorem clockwork_rebuildAndAwaken (now : Round F) (self : LifeLoop F) :
    ∃ tick, (tick = self.clockwork.tick ∨ InRange tick) ∧
      (self.rebuildAndAwaken platform now).clockwork = { self.clockwork with tick } := by
  unfold rebuildAndAwaken
  dsimp only
  split
  · exact ⟨self.clockwork.tick, Or.inl rfl, rfl⟩
  · set model := self.field.buildModel now.visits self.field.syncLog ((lastOf 8 self.field.dreamReports).map Prod.snd)
    have hawaken : (self.onField fun field =>
        { ({ field with cachedResonantModel := some model }.awaken model field.awakeningCfg field.trs).1 with
          trs := ({ field with cachedResonantModel := some model }.awaken model field.awakeningCfg
            field.trs).2 }).clockwork = self.clockwork :=
      clockwork_onField (congrArg Notes.nowMs
        (@ClusterField.notes_awaken F _ { self.field.toClusterField with cachedResonantModel := some model } model
          self.field.awakeningCfg self.field.trs))
    rw [clockwork_pushEpoch]
    split
    · exact ⟨self.clockwork.tick, Or.inl rfl, hawaken⟩
    · have hrange := @adjustTick_range self.tickMs (ClusterField.awakeningTickAdjust model self.field.awakeningCfg) 80
        800 (by decide) (by decide)
      refine ⟨_, Or.inr hrange, ?_⟩
      rw [← hawaken]
      rfl

/-- Reviewing an epoch may set the tempo, within the range, and nothing else. -/
theorem clockwork_review (now : Round F) (kind : EpochKind) (tensionBefore latencyBefore : F)
    (hmeasured : self.lastMetrics.isSome = true) :
    ∃ tick, (tick = self.clockwork.tick ∨ InRange tick) ∧
      (self.review platform now kind tensionBefore latencyBefore).clockwork = { self.clockwork with tick } := by
  unfold review
  dsimp only
  set after := Metrics.analyze now.visits.cells self.field.toClusterField
  set pushed := self.pushEpoch platform now kind self.field.nowMs tensionBefore latencyBefore after.avgLatencyMs
    with hpushed
  have hpush : pushed.clockwork = self.clockwork := clockwork_pushEpoch now kind _ _ _ _ self
  have hclock : { pushed with lastMetrics := some after }.clockwork = self.clockwork := by
    have hafter : { pushed with lastMetrics := some after }.clockwork = { pushed.clockwork with isMeasured := true } :=
      rfl
    rw [hafter, hpush]
    unfold clockwork
    rw [hmeasured]
  have hawaken := @clockwork_rebuildAndAwaken F _ platform now { pushed with lastMetrics := some after }
  rw [hclock] at hawaken
  exact hawaken

omit [FloatLike F] in
/-- A tick that is there or a default one, as a number. -/
theorem getD_toNat (tick : Option UInt64) (other : UInt64) :
    (tick.getD other).toNat = (tick.map UInt64.toNat).getD other.toNat := by
  cases tick <;> rfl

/-- A dream of the loop slows the tempo, keeps the one before it, and adds its pulse. -/
theorem clockwork_dreamt (now : Round F) (self : LifeLoop F) :
    (self.dreamt now).clockwork =
      { self.clockwork with
        tick := (slower (1.15 : F) self.tickMs).toNat
        dreamtAt := self.clockwork.now
        dreamRestore := some (self.clockwork.dreamRestore.getD self.clockwork.tick)
        slowedOnce := false
        pulses := self.clockwork.pulses ++
          [.dreamt self.clockwork.now (self.field.dreamCfg.minIdleS.toNat * 1000)] } := by
  have hstill := clockwork_onField (congrArg Notes.nowMs
    (@ClusterField.notes_runDreamCycle F _ self.field.toClusterField now.visits now.dreamTookMs))
  set asleep := self.onField (·.runDreamCycle now.visits now.dreamTookMs) with hasleep
  have hafter : (self.dreamt now).clockwork =
      { asleep.clockwork with
        tick := (slower (1.15 : F) self.tickMs).toNat
        dreamtAt := self.clockwork.now
        dreamRestore := some (self.dreamState.restoreTick.getD self.tickMs).toNat
        slowedOnce := false
        pulses := (asleep.beat (.dream self.field.nowMs self.field.dreamCfg)).pulses } := rfl
  have hpulses : asleep.pulses = self.clockwork.pulses := congrArg Clockwork.pulses hstill
  rw [hafter, pulses_beat, hpulses, hstill, getD_toNat]
  rfl

/-- A dream comes when it may. -/
theorem dreams_dreamAlone (now : Round F) (metrics : Metrics F) (hmeasured : self.lastMetrics.isSome = true) :
    Clockwork.Dreams self.clockwork (self.dreamAlone platform now metrics).clockwork := by
  unfold dreamAlone
  split
  · rename_i hidle
    have hidle : self.field.dreamCfg.minIdleS.toNat * 1000 < self.clockwork.now - self.clockwork.dreamtAt := by
      obtain ⟨hfront, -⟩ := Bool.and_eq_true_iff.mp hidle
      have hlong := of_decide_eq_true (Bool.and_eq_true_iff.mp hfront).2
      have hproduct : (self.field.dreamCfg.minIdleS.toUInt64 * 1000).toNat =
          self.field.dreamCfg.minIdleS.toNat * 1000 := by
        have hsmall := self.field.dreamCfg.minIdleS.toNat_lt
        have hthousand : (1000 : UInt64).toNat = 1000 := rfl
        rw [UInt64.toNat_mul, UInt32.toNat_toUInt64, hthousand]
        exact Nat.mod_eq_of_lt (by omega)
      rw [UInt64.lt_iff_toNat_lt, toNat_saturatingSub, hproduct] at hlong
      exact hlong
    obtain ⟨tick, htick, hclock⟩ := @clockwork_review F _ platform (self.dreamt now) now .dream
      self.field.averageTension metrics.avgLatencyMs hmeasured
    have hrange : InRange tick := by
      rcases htick with rfl | htick
      · rw [clockwork_dreamt]
        exact slower_range _ _
      · exact htick
    rw [hclock, clockwork_dreamt]
    exact .dream _ tick hmeasured hidle hrange
  · exact .skip

/-- A dream of groups adds its pulse, with the length of its phase and the gap to the next. -/
theorem clockwork_sharedDream (now : Round F) (groups : List ClusterField.SyncGroup) (self : LifeLoop F) :
    (self.sharedDream platform now groups).clockwork =
      { self.clockwork with
        pulses := self.clockwork.pulses ++ [.shared self.clockwork.now self.field.syncCfg.phaseLenMs.toNat
          self.field.syncCfg.phaseGapMs.toNat] } := by
  have hstill := @clockwork_onField F self (fun field =>
    field.runCollectiveDream platform now.sharedTookMs groups field.syncCfg field.nowMs) (congrArg Notes.nowMs
      (@ClusterField.notes_runCollectiveDream F _ platform self.field.toClusterField now.sharedTookMs groups
        self.field.syncCfg self.field.nowMs))
  set asleep := self.onField fun field =>
    field.runCollectiveDream platform now.sharedTookMs groups field.syncCfg field.nowMs with hasleep
  have hafter : (self.sharedDream platform now groups).clockwork =
      { asleep.clockwork with
        pulses := (asleep.beat (.collectiveDream self.field.nowMs self.field.syncCfg)).pulses } := rfl
  have hpulses : asleep.pulses = self.clockwork.pulses := congrArg Clockwork.pulses hstill
  rw [hafter, pulses_beat, hpulses, hstill]
  rfl

/-- Opening a phase slows the tempo and keeps the one before it. -/
theorem clockwork_openPhase (cfg : SyncConfig F) (self : LifeLoop F) :
    (self.openPhase cfg).clockwork =
      { self.clockwork with
        tick := (slower (1.1 : F) self.tickMs).toNat
        active := true
        phaseUntil := Clockwork.cap (self.clockwork.now + cfg.phaseLenMs.toNat)
        sharedRestore := some (self.clockwork.dreamRestore.getD
          (self.clockwork.sharedRestore.getD self.clockwork.tick)) } := by
  have huntil : (saturatingAdd self.field.nowMs cfg.phaseLenMs.toUInt64).toNat =
      Clockwork.cap (self.field.nowMs.toNat + cfg.phaseLenMs.toNat) := by
    rw [FeedbackRun.toNat_saturatingAdd, UInt32.toNat_toUInt64]
    rfl
  have hafter : (self.openPhase cfg).clockwork =
      { self.clockwork with
        tick := (slower (1.1 : F) self.tickMs).toNat
        active := true
        phaseUntil := (saturatingAdd self.field.nowMs cfg.phaseLenMs.toUInt64).toNat
        sharedRestore := some (self.dreamState.restoreTick.getD
          (self.sharedState.restoreTick.getD self.tickMs)).toNat } := rfl
  rw [hafter, huntil, getD_toNat, getD_toNat]
  rfl

/-- Groups dream together when they may. -/
theorem shares_dreamTogether (now : Round F) (metrics : Metrics F) (hmeasured : self.lastMetrics.isSome = true) :
    Clockwork.Shares self.clockwork (self.dreamTogether platform now metrics).clockwork := by
  unfold dreamTogether
  dsimp only
  split
  · exact .skip
  · rename_i hgroups
    -- There are only groups where no phase goes on and the last one is over for long enough.
    have hdue : self.sharedState.active = false ∧
        self.field.syncCfg.phaseGapMs.toNat ≤ self.clockwork.now - self.clockwork.phaseEnd := by
      unfold dueGroups at hgroups
      dsimp only at hgroups
      split at hgroups
      · rename_i hdue
        obtain ⟨hfront, hgap⟩ := Bool.and_eq_true_iff.mp hdue
        have hgap := of_decide_eq_true hgap
        rw [UInt64.le_iff_toNat_le, toNat_saturatingSub, UInt32.toNat_toUInt64] at hgap
        refine ⟨?_, hgap⟩
        cases hactive : self.sharedState.active with
        | false => rfl
        | true => simp [hactive] at hfront
      · exact absurd rfl hgroups
    set dreaming := self.sharedDream platform now (self.dueGroups platform now metrics) with hdreaming
    obtain ⟨awake, hawake, hclock⟩ := @clockwork_review F _ platform dreaming now .collective
      self.field.averageTension (self.lastMetrics.getD .default).avgLatencyMs hmeasured
    rw [clockwork_openPhase, hclock, hdreaming, clockwork_sharedDream]
    rw [hdreaming, clockwork_sharedDream] at hawake
    exact .share _ _ awake _ hmeasured hdue.1 hdue.2 hawake (slower_range _ _)

/-! ## Rounds -/

/-- The loop up to its measurement. -/
theorem clockwork_wake (now : Round F) (hroom : self.clockwork.sinceMetrics + self.clockwork.wake.tick < 2 ^ 64) :
    (self.restoreTempo.sleep.tick platform now).endPhase.countTime.clockwork = self.clockwork.wake := by
  set ended := (self.restoreTempo.sleep.tick platform now).endPhase with hended
  have hclock : ended.clockwork = self.clockwork.restore.sleep.endPhase := by
    rw [hended, clockwork_endPhase, clockwork_tick, clockwork_restoreTempo]
  have hsince : ended.elapsedSinceMetrics.toNat = self.clockwork.sinceMetrics := by
    show ended.clockwork.sinceMetrics = _
    rw [hclock, (Clockwork.endPhase_keeps _).2.2.1]
    exact (Clockwork.restore_keeps _).2.2.1
  have htick : ended.tickMs.toNat = self.clockwork.wake.tick := congrArg Clockwork.tick hclock
  rw [clockwork_countTime (by rw [hsince, htick]; exact hroom), hclock]
  rfl

/-- One round of a loop is a round of its clockwork, as long as the time that is counted does not overflow. -/
theorem round_step (now : Round F) (hroom : self.clockwork.sinceMetrics + self.clockwork.wake.tick < 2 ^ 64) :
    self.clockwork.Round (self.step platform now).clockwork := by
  set woken := (self.restoreTempo.sleep.tick platform now).endPhase.countTime with hwoken
  have hwake : woken.clockwork = self.clockwork.wake := clockwork_wake now hroom
  have hmeasures := @measures_measure F _ platform now woken
  rw [hwake] at hmeasures
  set measured := woken.measure platform now with hmeasured
  have hstep : self.step platform now = measured.dreams platform now := rfl
  rw [hstep, dreams]
  cases hmetrics : measured.lastMetrics with
  | none => exact ⟨measured.clockwork, measured.clockwork, hmeasures, .skip, .skip⟩
  | some metrics =>
      have hsome : measured.lastMetrics.isSome = true := by
        rw [hmetrics]
        rfl
      have hdreams := @dreams_dreamAlone F _ platform measured now metrics hsome
      have hsome' : (measured.dreamAlone platform now metrics).lastMetrics.isSome = true :=
        hdreams.isMeasured_eq.trans hsome
      exact ⟨measured.clockwork, _, hmeasures, hdreams, shares_dreamTogether now metrics hsome'⟩

/-- What a run keeps, and that it sleeps once in every round. -/
theorem regular_run (field : ReflexField F) {tickMs : UInt64} (htick : tickMs.toNat < 2 ^ 32) (epochSeq : UInt64)
    (rounds : List (Round F)) :
    Clockwork.Regular tickMs.toNat (run platform (start field tickMs epochSeq) rounds).clockwork ∧
      (run platform (start field tickMs epochSeq) rounds).pulses.countP Pulse.isSleep = rounds.length := by
  induction rounds using List.reverseRecOn with
  | nil => exact ⟨Clockwork.regular_start field.nowMs.toNat_lt tickMs.toNat, rfl⟩
  | append_singleton rounds now ih =>
      rw [run, List.foldl_append, List.foldl_cons, List.foldl_nil, ← run]
      set self := run platform (start field tickMs epochSeq) rounds
      -- Less than a second has been counted, and the tempo is the first one or one in range.
      obtain ⟨ih, hsleeps⟩ := ih
      have htempo : self.clockwork.wake.tick < 2 ^ 32 := by
        have hpaced := ih.paced.wake
        cases hmeasured : self.clockwork.wake.isMeasured with
        | true =>
            have hrange := (hpaced.measured hmeasured).1.2
            omega
        | false =>
            rw [(hpaced.unmeasured hmeasured).1]
            exact htick
      have hlt := ih.sinceMetrics_lt
      have hround := @round_step F _ platform self now (by omega)
      refine ⟨ih.round hround, hround.sleeps.trans ?_⟩
      rw [List.length_append, List.length_singleton, ← hsleeps]
      rfl

end LifeLoop

/-- In every run of the life loop at a tempo below 2^32 ms, from any field on, whatever others do to the field
meanwhile but move its clock, the loop sleeps once in every round, and each beat is right after those before it
(`Clockwork.Right`): the tempo is the given one until the field is measured, which is when such sleeps have added
up to a second, and from 80 to 800 ms from then on; afterwards it is measured at least every thirteenth time that
the loop sleeps, and never after a single sleep; a dream comes more than its idle time after any other; and a
phase begins no earlier than its gap after the end of any other. -/
theorem life_keeps_time (platform : Platform F) (field : ReflexField F) (tickMs epochSeq : UInt64)
    (htick : tickMs.toNat < 2 ^ 32) (rounds : List (Round F)) :
    let pulses := (LifeLoop.run platform (.start field tickMs epochSeq) rounds).pulses
    pulses.countP Pulse.isSleep = rounds.length ∧
      ∀ before pulse after, pulses = before ++ pulse :: after → Clockwork.Right tickMs.toNat before pulse :=
  ⟨(LifeLoop.regular_run field htick epochSeq rounds).2, (LifeLoop.regular_run field htick epochSeq rounds).1.right⟩

/-- A round in which nobody else does anything. -/
def quietRound : Round ℚ where
  meanwhile := id
  still _ := rfl
  visits := .listed
  syncVisits := ⟨.listed, .listed, .listed⟩
  variation _ := 0
  harmony := ⟨0, 0, 0⟩
  neighbors := []
  coin := false
  dozes _ := false
  dies _ := false
  shift := 0
  energy := 1
  budCoin _ := false
  dreamTookMs := 0
  sharedTookMs := 0
  replayTookMs := 0
  hashes _ := (0, 0)

/-- Two cells, in a field that dreams after a second of idling. -/
def drowsyField : ReflexField ℚ :=
  let calls : List (FieldCall ℚ) :=
    [.addRoot "cpu/load", .addRoot "memory", .setDreamConfig ⟨1, 3000, 0.15, 0.10, 0.6, true, 256⟩]
  { ReflexField.new with toClusterField := ClusterField.run (ClusterField.constantPlatform ℚ 0.5) calls }

/-- The cells fall asleep, and when the field has been measured three times, it dreams: the loop slows down and
takes up its tempo again. -/
theorem life_keeps_time_drowsyField :
    let pulses := (LifeLoop.run (ClusterField.constantPlatform ℚ 0.5) (.start drowsyField 200 1)
      (List.replicate 24 quietRound)).pulses
    pulses.count .measured = 4 ∧ pulses.drop 19 = [.measured, .dreamt 3196 1000, .slept 246, .slept 206, .slept 206,
      .slept 206, .slept 206, .measured, .slept 195, .slept 195] ∧
      pulses.countP Pulse.isSleep = 24 ∧ ¬ ∃ before pulse after, pulses = before ++ pulse :: after ∧
        ¬ Clockwork.Right (200 : UInt64).toNat before pulse := by
  intro pulses
  have hdream : pulses.count .measured = 4 ∧ pulses.drop 19 = [.measured, .dreamt 3196 1000, .slept 246, .slept 206,
      .slept 206, .slept 206, .slept 206, .measured, .slept 195, .slept 195] := by
    decide +kernel
  obtain ⟨hsleeps, hright⟩ := life_keeps_time (ClusterField.constantPlatform ℚ 0.5) drowsyField 200 1 (by decide)
    (List.replicate 24 quietRound)
  refine ⟨hdream.1, hdream.2, hsleeps, ?_⟩
  rintro ⟨before, pulse, after, hpulses, hwrong⟩
  exact hwrong (hright before pulse after hpulses)

end LiminalDB
