import LiminalDB.Foundations.KeyedFold
import Mathlib.Algebra.Order.Ring.Nat

/-! # The clockwork of the life loop

What the life loop does is decided by the field, but when it does it is not: a machine over times in milliseconds
that measures, dreams and slows down at moments that are open within the rules of the loop. Its tempo stays within
bounds once it has been measured, measurements come at a steady rate, and dreams and phases keep their distance
(`Clockwork.Regular`). -/

namespace LiminalDB

/-- What can be seen of the clockwork. -/
inductive Pulse
  | slept (ms : ℕ)
  | measured
  | dreamt (now idle : ℕ)
  | shared (now phase gap : ℕ)
  deriving DecidableEq

/-- The loop sleeps. -/
def Pulse.isSleep : Pulse → Bool
  | slept _ => true
  | _ => false

/-- The state of the clockwork, and what has been seen of it, oldest first. -/
structure Clockwork where
  now : ℕ
  tick : ℕ
  sinceMetrics : ℕ
  isMeasured : Bool
  dreamtAt : ℕ
  dreamRestore : Option ℕ
  slowedOnce : Bool
  active : Bool
  phaseUntil : ℕ
  phaseEnd : ℕ
  sharedRestore : Option ℕ
  pulses : List Pulse

namespace Clockwork

/-- Times stop at the end of the clock. -/
def cap (ms : ℕ) : ℕ := min ms (2 ^ 64 - 1)

/-- A clock that starts. -/
def start (now tick : ℕ) : Clockwork :=
  { now, tick, sinceMetrics := 0, isMeasured := false, dreamtAt := 0, dreamRestore := none, slowedOnce := false
    active := false, phaseUntil := 0, phaseEnd := 0, sharedRestore := none, pulses := [] }

/-- The tempo before a dream is taken up again. -/
def restore (self : Clockwork) : Clockwork :=
  match self.dreamRestore with
  | some tick =>
      if self.slowedOnce then { self with tick, dreamRestore := none, slowedOnce := false } else self
  | none => self

/-- A sleep, after which it is later. -/
def sleep (self : Clockwork) : Clockwork :=
  { self with
    now := cap (self.now + self.tick)
    slowedOnce := self.slowedOnce || self.dreamRestore.isSome
    pulses := self.pulses ++ [.slept self.tick] }

/-- The end of a phase that is over. -/
def endPhase (self : Clockwork) : Clockwork :=
  if self.active && self.phaseUntil ≤ self.now then
    { self with
      tick := self.sharedRestore.getD self.tick, active := false, phaseEnd := self.now, sharedRestore := none }
  else self

/-- The time is counted. -/
def count (self : Clockwork) : Clockwork := { self with sinceMetrics := self.sinceMetrics + self.tick }

/-- A tempo that the loop sets. -/
def InRange (tick : ℕ) : Prop := 80 ≤ tick ∧ tick ≤ 800

/-- A measurement, when a second has been counted. -/
inductive Measures (self : Clockwork) : Clockwork → Prop
  | skip (h : self.sinceMetrics < 1000) : Measures self self
  | measure (tick : ℕ) (h : 1000 ≤ self.sinceMetrics) (htick : InRange tick) :
      Measures self
        { self with tick, sinceMetrics := 0, isMeasured := true, pulses := self.pulses ++ [.measured] }

/-- A dream, when the last one is more than `idle` ago. -/
inductive Dreams (self : Clockwork) : Clockwork → Prop
  | skip : Dreams self self
  | dream (idle tick : ℕ) (hmeasured : self.isMeasured = true) (h : idle < self.now - self.dreamtAt)
      (htick : InRange tick) :
      Dreams self
        { self with
          tick
          dreamtAt := self.now
          dreamRestore := some (self.dreamRestore.getD self.tick)
          slowedOnce := false
          pulses := self.pulses ++ [.dreamt self.now idle] }

/-- A dream of groups, which opens a phase, when the last one is over for as long as `gap`. In between an
awakening may have set the tempo. -/
inductive Shares (self : Clockwork) : Clockwork → Prop
  | skip : Shares self self
  | share (phase gap awake tick : ℕ) (hmeasured : self.isMeasured = true) (hidle : self.active = false)
      (h : gap ≤ self.now - self.phaseEnd) (hawake : awake = self.tick ∨ InRange awake) (htick : InRange tick) :
      Shares self
        { self with
          tick
          active := true
          phaseUntil := cap (self.now + phase)
          sharedRestore := some (self.dreamRestore.getD (self.sharedRestore.getD awake))
          pulses := self.pulses ++ [.shared self.now phase gap] }

/-- From one round's end to the tick of the next. -/
def wake (self : Clockwork) : Clockwork := self.restore.sleep.endPhase.count

/-- A round. -/
def Round (before after : Clockwork) : Prop :=
  ∃ measured dreamt, Measures before.wake measured ∧ Dreams measured dreamt ∧ Shares dreamt after

/-! ## What is regular about the pulses -/

/-- The sleeps since the last measurement, after one more pulse. -/
def rest (sleeps : ℕ) : Pulse → ℕ
  | .slept _ => sleeps + 1
  | .measured => 0
  | .dreamt .. | .shared .. => sleeps

/-- The sleeps since the last measurement, or since the start. -/
def resting (pulses : List Pulse) : ℕ := pulses.foldl rest 0

/-- What is known of the sleeps behind a run of pulses is known of one pulse more by one step. -/
@[simp] theorem resting_append (pulses : List Pulse) (pulse : Pulse) :
    resting (pulses ++ [pulse]) = rest (resting pulses) pulse := by
  rw [resting, List.foldl_append, List.foldl_cons, List.foldl_nil, resting]

/-- A pulse is right after those before it. A sleep is as long as the tempo at the start, as long as nothing has
been measured and such sleeps have not added up to a second, and from 80 to 800 ms from then on, with no more than
twelve sleeps before it since the last measurement. The first measurement comes when the first sleeps have added
up to a second, and every other after two to thirteen sleeps. A dream comes more than its idle time after the
start and after any other, and a phase no earlier than its gap after the end of any other. -/
def Right (first : ℕ) (before : List Pulse) : Pulse → Prop
  | .slept ms =>
      if .measured ∈ before then InRange ms ∧ resting before ≤ 12
      else ms = first ∧ first * resting before < 1000
  | .measured =>
      if .measured ∈ before then 2 ≤ resting before ∧ resting before ≤ 13
      else 1000 ≤ first * resting before ∧ first * (resting before - 1) < 1000
  | .dreamt now idle => idle < now ∧ ∀ earlier other, .dreamt earlier other ∈ before → earlier + idle < now
  | .shared now _ gap => ∀ earlier phase other, .shared earlier phase other ∈ before →
      cap (earlier + phase) + gap ≤ now

/-! ## Tempo -/

/-- The tempo that a clock goes by: the first one until it is measured, and one in range from then on. -/
structure Paced (first : ℕ) (clock : Clockwork) : Prop where
  unmeasured : clock.isMeasured = false →
    clock.tick = first ∧ clock.dreamRestore = none ∧ clock.sharedRestore = none ∧ clock.active = false
  measured : clock.isMeasured = true →
    InRange clock.tick ∧ (∀ tick ∈ clock.dreamRestore, InRange tick) ∧ ∀ tick ∈ clock.sharedRestore, InRange tick
  measured_iff : clock.isMeasured = true ↔ .measured ∈ clock.pulses

variable {self after : Clockwork} {first : ℕ}

/-- A clock starts with the first tempo, unmeasured, and with none to take up again. -/
theorem paced_start (now first : ℕ) : Paced first (start now first) where
  unmeasured _ := ⟨rfl, rfl, rfl, rfl⟩
  measured h := by cases h
  measured_iff := by simp [start]

/-- The tempo from before a dream is in range, so that it may be taken up again; before a measurement there is
none. -/
theorem Paced.restore (h : Paced first self) : Paced first self.restore := by
  unfold Clockwork.restore
  cases hrestore : self.dreamRestore with
  | none => exact h
  | some tick =>
      dsimp only
      split
      · refine ⟨fun hmeasured => ?_, fun hmeasured => ?_, h.measured_iff⟩
        · have hnone := (h.unmeasured hmeasured).2.1
          rw [hrestore] at hnone
          cases hnone
        · obtain ⟨-, hdream, hshared⟩ := h.measured hmeasured
          exact ⟨hdream tick hrestore, by simp, hshared⟩
      · exact h

/-- Sleeping does not touch the tempo. -/
theorem Paced.sleep (h : Paced first self) : Paced first self.sleep where
  unmeasured := h.unmeasured
  measured := h.measured
  measured_iff := by
    rw [Clockwork.sleep, List.mem_append, h.measured_iff]
    simp

/-- The tempo from before a phase is in range too, and may be taken up again when the phase is over. -/
theorem Paced.endPhase (h : Paced first self) : Paced first self.endPhase := by
  unfold Clockwork.endPhase
  split
  · rename_i hover
    have hactive : self.active = true := (Bool.and_eq_true_iff.mp hover).1
    refine ⟨fun hmeasured => ?_, fun hmeasured => ?_, h.measured_iff⟩
    · rw [(h.unmeasured hmeasured).2.2.2] at hactive
      cases hactive
    · obtain ⟨htick, hdream, hshared⟩ := h.measured hmeasured
      refine ⟨?_, hdream, by simp⟩
      show InRange (self.sharedRestore.getD self.tick)
      cases hrestore : self.sharedRestore with
      | none => exact htick
      | some tick => exact hshared tick hrestore
  · exact h

/-- Counting the time does not touch the tempo. -/
theorem Paced.count (h : Paced first self) : Paced first self.count :=
  ⟨h.unmeasured, h.measured, h.measured_iff⟩

/-- A measurement sets a tempo in range, and the clock is measured from then on. -/
theorem Paced.measures (h : Paced first self) (hm : Measures self after) : Paced first after := by
  cases hm with
  | skip _ => exact h
  | measure tick _ htick =>
      refine ⟨fun hmeasured => (by cases hmeasured), fun _ => ⟨htick, ?_, ?_⟩, by simp⟩
      · cases hmeasured : self.isMeasured with
        | true => exact (h.measured hmeasured).2.1
        | false => simp [(h.unmeasured hmeasured).2.1]
      · cases hmeasured : self.isMeasured with
        | true => exact (h.measured hmeasured).2.2
        | false => simp [(h.unmeasured hmeasured).2.2.1]

/-- A dream sets a tempo in range and keeps the one before it, which was in range as well: dreams come after a
measurement only. -/
theorem Paced.dreams (h : Paced first self) (hd : Dreams self after) : Paced first after := by
  cases hd with
  | skip => exact h
  | dream idle tick hmeasured _ htick =>
      obtain ⟨hold, hdream, hshared⟩ := h.measured hmeasured
      refine ⟨fun hnot => ?_, fun _ => ⟨htick, ?_, hshared⟩, ?_⟩
      · rw [show self.isMeasured = false from hnot] at hmeasured
        cases hmeasured
      · rintro restore ⟨⟩
        cases hrestore : self.dreamRestore with
        | none => exact hold
        | some before => exact hdream before hrestore
      · show self.isMeasured = true ↔ _
        rw [List.mem_append, h.measured_iff]
        simp

/-- Whether anything was measured does not change by a dream. -/
theorem Dreams.isMeasured_eq (hd : Dreams self after) : after.isMeasured = self.isMeasured := by
  cases hd <;> rfl

/-- So does a dream of groups, be the tempo before it that of the last round or of an awakening. -/
theorem Paced.shares (h : Paced first self) (hs : Shares self after) : Paced first after := by
  cases hs with
  | skip => exact h
  | share phase gap awake tick hmeasured _ _ hawake htick =>
      obtain ⟨hold, hdream, hshared⟩ := h.measured hmeasured
      have hawake : InRange awake := by
        rcases hawake with rfl | hawake
        · exact hold
        · exact hawake
      refine ⟨fun hnot => ?_, fun _ => ⟨htick, hdream, ?_⟩, ?_⟩
      · rw [show self.isMeasured = false from hnot] at hmeasured
        cases hmeasured
      · rintro restore ⟨⟩
        cases hdreamRestore : self.dreamRestore with
        | some before => exact hdream before hdreamRestore
        | none =>
            cases hsharedRestore : self.sharedRestore with
            | some before => exact hshared before hsharedRestore
            | none => exact hawake
      · show self.isMeasured = true ↔ _
        rw [List.mem_append, h.measured_iff]
        simp

/-- From one round to the tick of the next the clock keeps a proper tempo, through each of the four steps. -/
theorem Paced.wake (h : Paced first self) : Paced first self.wake := h.restore.sleep.endPhase.count

/-! ## Measurements -/

/-- What a round leaves alone until the end of a phase. -/
theorem restore_keeps (self : Clockwork) : self.restore.now = self.now ∧ self.restore.pulses = self.pulses ∧
    self.restore.sinceMetrics = self.sinceMetrics ∧ self.restore.isMeasured = self.isMeasured ∧
    self.restore.dreamtAt = self.dreamtAt ∧ self.restore.active = self.active ∧
    self.restore.phaseUntil = self.phaseUntil ∧ self.restore.phaseEnd = self.phaseEnd := by
  unfold restore
  split
  · split <;> simp
  · simp

/-- Ending a phase changes nothing but the phase and the tempo. -/
theorem endPhase_keeps (self : Clockwork) : self.endPhase.now = self.now ∧ self.endPhase.pulses = self.pulses ∧
    self.endPhase.sinceMetrics = self.sinceMetrics ∧ self.endPhase.isMeasured = self.isMeasured ∧
    self.endPhase.dreamtAt = self.dreamtAt := by
  unfold endPhase
  split <;> simp

/-- One waking of the loop adds one pulse, the sleep that it woke from. -/
theorem wake_pulses (self : Clockwork) : self.wake.pulses = self.pulses ++ [.slept self.restore.tick] := by
  rw [wake, count, (endPhase_keeps _).2.1, sleep, (restore_keeps _).2.1]

/-- Whether anything was measured does not change by waking. -/
theorem wake_isMeasured (self : Clockwork) : self.wake.isMeasured = self.isMeasured := by
  rw [wake, count, (endPhase_keeps _).2.2.2.1, sleep, (restore_keeps _).2.2.2.1]

/-- Waking adds the tempo that it ends with to the time that is counted, not the one that was slept. -/
theorem wake_sinceMetrics (self : Clockwork) : self.wake.sinceMetrics = self.sinceMetrics + self.wake.tick := by
  rw [wake, count, (endPhase_keeps _).2.2.1, sleep, (restore_keeps _).2.2.1]

/-- Waking moves the clock by the sleep, up to the last number that it can show. -/
theorem wake_now (self : Clockwork) : self.wake.now = cap (self.now + self.restore.tick) := by
  rw [wake, count, (endPhase_keeps _).1, sleep, (restore_keeps _).1]

/-- The time that is counted, by the sleeps since it was measured. -/
structure Counted (first : ℕ) (clock : Clockwork) : Prop where
  unmeasured : clock.isMeasured = false → clock.sinceMetrics = first * resting clock.pulses
  measured : clock.isMeasured = true →
    80 * resting clock.pulses ≤ clock.sinceMetrics ∧ clock.sinceMetrics ≤ 800 * resting clock.pulses

/-- At the start nothing is counted and nothing was measured. -/
theorem counted_start (now first : ℕ) : Counted first (start now first) := ⟨fun _ => rfl, fun h => by cases h⟩

/-- With one more sleep behind it the clock has counted one more tempo, the first one or one in range. -/
theorem Counted.wake (h : Counted first self) (hpaced : Paced first self.wake) : Counted first self.wake where
  unmeasured hmeasured := by
    have htick := (hpaced.unmeasured hmeasured).1
    rw [wake_isMeasured] at hmeasured
    rw [wake_sinceMetrics, wake_pulses, resting_append, h.unmeasured hmeasured, htick, rest, Nat.mul_succ]
  measured hmeasured := by
    obtain ⟨hlow, hhigh⟩ := (hpaced.measured hmeasured).1
    rw [wake_isMeasured] at hmeasured
    obtain ⟨hmin, hmax⟩ := h.measured hmeasured
    rw [wake_sinceMetrics, wake_pulses, resting_append, rest]
    omega

/-- Taking up an earlier tempo does not touch what is counted. -/
theorem Counted.restore (h : Counted first self) : Counted first self.restore := by
  obtain ⟨-, hpulses, hsince, hmeasured, -⟩ := restore_keeps self
  refine ⟨fun hnot => ?_, fun hmeasured' => ?_⟩
  · rw [hsince, hpulses]
    exact h.unmeasured (hmeasured ▸ hnot)
  · rw [hsince, hpulses]
    exact h.measured (hmeasured ▸ hmeasured')

/-- The next sleep of a clock is right, with less than a second counted. -/
theorem Paced.right (h : Paced first self) (hcounted : Counted first self) (hlt : self.sinceMetrics < 1000) :
    Right first self.pulses (.slept self.tick) := by
  show if _ then _ else _
  split
  · rename_i hmem
    have hmeasured : self.isMeasured = true := h.measured_iff.mpr hmem
    have hmin := (hcounted.measured hmeasured).1
    exact ⟨(h.measured hmeasured).1, by omega⟩
  · rename_i hmem
    have hnot : self.isMeasured = false := by
      rw [← Bool.not_eq_true, h.measured_iff]
      exact hmem
    refine ⟨(h.unmeasured hnot).1, ?_⟩
    rw [← hcounted.unmeasured hnot]
    exact hlt

/-- A measurement is right: at the end of the last round there was less than a second to count. -/
theorem measured_right (h : Counted first self) (hpaced : Paced first self.wake) (hlt : self.sinceMetrics < 1000)
    (hdue : 1000 ≤ self.wake.sinceMetrics) : Right first self.wake.pulses .measured := by
  have hcounted := h.wake hpaced
  have hresting : resting self.wake.pulses = resting self.pulses + 1 := by rw [wake_pulses, resting_append, rest]
  show if _ then _ else _
  cases hmeasured : self.wake.isMeasured with
  | true =>
      rw [if_pos (hpaced.measured_iff.mp hmeasured)]
      obtain ⟨-, hmax⟩ := hcounted.measured hmeasured
      rw [wake_isMeasured] at hmeasured
      obtain ⟨hmin, -⟩ := h.measured hmeasured
      omega
  | false =>
      rw [if_neg fun hmem => by simp [hpaced.measured_iff.mpr hmem] at hmeasured]
      have hnow := hcounted.unmeasured hmeasured
      rw [wake_isMeasured] at hmeasured
      have hbefore := h.unmeasured hmeasured
      rw [hresting] at hnow ⊢
      rw [Nat.add_sub_cancel]
      omega

/-! ## Dreams and phases -/

/-- The times of the dreams and the phases. -/
structure Spaced (clock : Clockwork) : Prop where
  dreamtAt_le : clock.dreamtAt ≤ clock.now
  phaseEnd_le : clock.phaseEnd ≤ clock.now
  dreams : ∀ now idle, .dreamt now idle ∈ clock.pulses → now ≤ clock.dreamtAt
  phases : ∀ now phase gap, .shared now phase gap ∈ clock.pulses →
    cap (now + phase) ≤ clock.phaseEnd ∨ clock.active = true ∧ cap (now + phase) ≤ clock.phaseUntil

/-- At the start there has been no dream and no phase. -/
theorem spaced_start (now tick : ℕ) : Spaced (start now tick) where
  dreamtAt_le := Nat.zero_le _
  phaseEnd_le := Nat.zero_le _
  dreams now idle h := by cases h
  phases now phase gap h := by cases h

/-- A clock that stops at its last number does not go back. -/
theorem le_cap_add {a b : ℕ} (ha : a < 2 ^ 64) : a ≤ cap (a + b) := by
  unfold cap
  omega

/-- Taking up an earlier tempo moves no time of a dream or a phase. -/
theorem Spaced.restore (h : Spaced self) : Spaced self.restore := by
  unfold Clockwork.restore
  split
  · split
    · exact ⟨h.dreamtAt_le, h.phaseEnd_le, h.dreams, h.phases⟩
    · exact h
  · exact h

/-- A pulse that is no dream. -/
theorem Spaced.append (h : Spaced self) {pulse : Pulse} (hdream : ∀ now idle, .dreamt now idle ≠ pulse)
    (hphase : ∀ now phase gap, .shared now phase gap ≠ pulse) :
    (∀ now idle, .dreamt now idle ∈ self.pulses ++ [pulse] → now ≤ self.dreamtAt) ∧
      ∀ now phase gap, .shared now phase gap ∈ self.pulses ++ [pulse] →
        cap (now + phase) ≤ self.phaseEnd ∨ self.active = true ∧ cap (now + phase) ≤ self.phaseUntil := by
  constructor
  · intro now idle hmem
    rcases List.mem_append.mp hmem with hold | hnew
    · exact h.dreams now idle hold
    · exact absurd (List.mem_singleton.mp hnew) (hdream now idle)
  · intro now phase gap hmem
    rcases List.mem_append.mp hmem with hold | hnew
    · exact h.phases now phase gap hold
    · exact absurd (List.mem_singleton.mp hnew) (hphase now phase gap)

/-- While the clock moves on, what is past stays past. -/
theorem Spaced.sleep (h : Spaced self) (hnow : self.now < 2 ^ 64) : Spaced self.sleep := by
  have hlater := @le_cap_add self.now self.tick hnow
  obtain ⟨hdreams, hphases⟩ := @Spaced.append self h (.slept self.tick) (fun _ _ heq => by cases heq)
    (fun _ _ _ heq => by cases heq)
  exact ⟨h.dreamtAt_le.trans hlater, h.phaseEnd_le.trans hlater, hdreams, hphases⟩

/-- A phase that is over ends now, no earlier than it was to end. -/
theorem Spaced.endPhase (h : Spaced self) : Spaced self.endPhase := by
  unfold Clockwork.endPhase
  split
  · rename_i hover
    have hover : self.phaseUntil ≤ self.now := of_decide_eq_true (Bool.and_eq_true_iff.mp hover).2
    refine ⟨h.dreamtAt_le, le_refl _, h.dreams, fun now phase gap hmem => Or.inl ?_⟩
    rcases h.phases now phase gap hmem with hended | ⟨-, hends⟩
    · exact hended.trans h.phaseEnd_le
    · exact hends.trans hover
  · exact h

/-- Waking dreams nothing and opens no phase, and ends at most the one that is over. -/
theorem Spaced.wake (h : Spaced self) (hnow : self.now < 2 ^ 64) : Spaced self.wake := by
  have hslept := h.restore.sleep ((restore_keeps self).1.symm ▸ hnow)
  have hended := hslept.endPhase
  exact ⟨hended.dreamtAt_le, hended.phaseEnd_le, hended.dreams, hended.phases⟩

/-! ## Runs -/

/-- What a clock keeps from round to round. -/
structure Regular (first : ℕ) (clock : Clockwork) : Prop where
  paced : Paced first clock
  counted : Counted first clock
  spaced : Spaced clock
  sinceMetrics_lt : clock.sinceMetrics < 1000
  now_lt : clock.now < 2 ^ 64
  right : ∀ before pulse after, clock.pulses = before ++ pulse :: after → Right first before pulse

/-- The clock is regular from the start, for there is no pulse yet that could be wrong. -/
theorem regular_start {now : ℕ} (hnow : now < 2 ^ 64) (first : ℕ) : Regular first (start now first) where
  paced := paced_start now first
  counted := counted_start now first
  spaced := spaced_start now first
  sinceMetrics_lt := Nat.succ_pos _
  now_lt := hnow
  right before pulse after h := by simp [start] at h

/-- What holds of a clock from its tick on. -/
structure Awake (first : ℕ) (clock : Clockwork) : Prop where
  paced : Paced first clock
  spaced : Spaced clock
  now_lt : clock.now < 2 ^ 64
  right : ∀ before pulse after, clock.pulses = before ++ pulse :: after → Right first before pulse

/-- Waking adds the sleep, which is right by what was counted before it, and the round may go on. -/
theorem Regular.wake (h : Regular first self) : Awake first self.wake where
  paced := h.paced.wake
  spaced := h.spaced.wake h.now_lt
  now_lt := by
    rw [wake_now, cap]
    omega
  right := by
    rw [wake_pulses]
    refine forall_split_append_singleton.mpr ⟨h.right, ?_⟩
    obtain ⟨-, hpulses, hsince, -⟩ := restore_keeps self
    have hright := h.paced.restore.right h.counted.restore (hsince ▸ h.sinceMetrics_lt)
    rw [hpulses] at hright
    exact hright

/-- After its measurement, or none, a clock has less than a second to count again. -/
theorem Regular.measures (h : Regular first self) (hm : Measures self.wake after) :
    Awake first after ∧ Counted first after ∧ after.sinceMetrics < 1000 := by
  have hawake := h.wake
  have hcounted := h.counted.wake hawake.paced
  have hpaced := hawake.paced.measures hm
  cases hm with
  | skip hlt => exact ⟨hawake, hcounted, hlt⟩
  | measure tick hdue htick =>
      have hright := measured_right h.counted hawake.paced h.sinceMetrics_lt hdue
      obtain ⟨hdreams, hphases⟩ := @Spaced.append self.wake hawake.spaced .measured (fun _ _ heq => by cases heq)
        (fun _ _ _ heq => by cases heq)
      refine ⟨⟨hpaced, ⟨hawake.spaced.dreamtAt_le, hawake.spaced.phaseEnd_le, hdreams, hphases⟩, hawake.now_lt,
        forall_split_append_singleton.mpr ⟨hawake.right, hright⟩⟩, ⟨fun hnot => (by cases hnot), fun _ => ?_⟩,
        Nat.succ_pos _⟩
      simp [rest]

/-- A round may go on when it has dreamt, and the pulse of the dream is right. -/
theorem Awake.dreams (h : Awake first self) (hd : Dreams self after) : Awake first after := by
  have hpaced := h.paced.dreams hd
  cases hd with
  | skip => exact h
  | dream idle tick hmeasured hidle htick =>
      refine ⟨hpaced, ⟨le_refl _, h.spaced.phaseEnd_le, ?_, ?_⟩, h.now_lt,
        forall_split_append_singleton.mpr ⟨h.right, ?_⟩⟩
      · intro now other hmem
        rcases List.mem_append.mp hmem with hold | hnew
        · exact (h.spaced.dreams now other hold).trans h.spaced.dreamtAt_le
        · cases List.mem_singleton.mp hnew
          exact le_refl _
      · intro now phase gap hmem
        rcases List.mem_append.mp hmem with hold | hnew
        · exact h.spaced.phases now phase gap hold
        · cases List.mem_singleton.mp hnew
      · refine ⟨by omega, fun earlier other hmem => ?_⟩
        have hle := h.spaced.dreams earlier other hmem
        omega

/-- A round may go on when groups have dreamt, and the pulse of the phase is right. -/
theorem Awake.shares (h : Awake first self) (hs : Shares self after) : Awake first after := by
  have hpaced := h.paced.shares hs
  cases hs with
  | skip => exact h
  | share phase gap awake tick hmeasured hidle hgap hawake htick =>
      -- No phase goes on, so every earlier one has ended.
      have hended : ∀ now phase gap, .shared now phase gap ∈ self.pulses → cap (now + phase) ≤ self.phaseEnd := by
        intro now phase gap hmem
        rcases h.spaced.phases now phase gap hmem with hended | ⟨hactive, -⟩
        · exact hended
        · rw [hidle] at hactive
          cases hactive
      refine ⟨hpaced, ⟨h.spaced.dreamtAt_le, h.spaced.phaseEnd_le, ?_, ?_⟩, h.now_lt,
        forall_split_append_singleton.mpr ⟨h.right, ?_⟩⟩
      · intro now other hmem
        rcases List.mem_append.mp hmem with hold | hnew
        · exact h.spaced.dreams now other hold
        · cases List.mem_singleton.mp hnew
      · intro now other room hmem
        rcases List.mem_append.mp hmem with hold | hnew
        · exact Or.inl (hended now other room hold)
        · cases List.mem_singleton.mp hnew
          exact Or.inr ⟨rfl, le_refl _⟩
      · intro earlier other room hmem
        have hle := hended earlier other room hmem
        have hend := h.spaced.phaseEnd_le
        omega

/-- What a dream and a phase leave alone. -/
theorem counted_of_dreams (h : Counted first self) (hd : Dreams self after) :
    Counted first after ∧ after.sinceMetrics = self.sinceMetrics := by
  cases hd with
  | skip => exact ⟨h, rfl⟩
  | dream idle tick _ _ _ =>
      refine ⟨⟨fun hnot => ?_, fun hmeasured => ?_⟩, rfl⟩
      · rw [resting_append]
        exact h.unmeasured hnot
      · rw [resting_append]
        exact h.measured hmeasured

/-- A dream of groups does not touch what is counted. -/
theorem counted_of_shares (h : Counted first self) (hs : Shares self after) :
    Counted first after ∧ after.sinceMetrics = self.sinceMetrics := by
  cases hs with
  | skip => exact ⟨h, rfl⟩
  | share phase gap awake tick _ _ _ _ _ =>
      refine ⟨⟨fun hnot => ?_, fun hmeasured => ?_⟩, rfl⟩
      · rw [resting_append]
        exact h.unmeasured hnot
      · rw [resting_append]
        exact h.measured hmeasured

/-- What one round keeps. -/
theorem Regular.round (h : Regular first self) (hround : Round self after) : Regular first after := by
  obtain ⟨measured, dreamt, hmeasures, hdreams, hshares⟩ := hround
  obtain ⟨hawake, hcounted, hlt⟩ := h.measures hmeasures
  obtain ⟨hcounted, hsame⟩ := counted_of_dreams hcounted hdreams
  obtain ⟨hcounted, hsame'⟩ := counted_of_shares hcounted hshares
  have hawake := (hawake.dreams hdreams).shares hshares
  exact ⟨hawake.paced, hcounted, hawake.spaced, by rw [hsame', hsame]; exact hlt, hawake.now_lt, hawake.right⟩

/-- A round sleeps once. -/
theorem Round.sleeps (hround : Round self after) :
    after.pulses.countP Pulse.isSleep = self.pulses.countP Pulse.isSleep + 1 := by
  obtain ⟨measured, dreamt, hmeasures, hdreams, hshares⟩ := hround
  have hwake : self.wake.pulses.countP Pulse.isSleep = self.pulses.countP Pulse.isSleep + 1 := by
    rw [wake_pulses, List.countP_append]
    rfl
  have hmeasured : measured.pulses.countP Pulse.isSleep = self.wake.pulses.countP Pulse.isSleep := by
    cases hmeasures <;> simp [List.countP_append, Pulse.isSleep]
  have hdreamt : dreamt.pulses.countP Pulse.isSleep = measured.pulses.countP Pulse.isSleep := by
    cases hdreams <;> simp [List.countP_append, Pulse.isSleep]
  have hshared : after.pulses.countP Pulse.isSleep = dreamt.pulses.countP Pulse.isSleep := by
    cases hshares <;> simp [List.countP_append, Pulse.isSleep]
  rw [hshared, hdreamt, hmeasured, hwake]

end Clockwork

end LiminalDB
