import LiminalDB.Noetic.Consensus

/-! # The clock of a node

A node moves its hybrid clock when it stamps something, when it merges the state of another node and when
it applies a commit. The clock moves forward as long as no clock that holds the latest time has reached the
end of its counter: there `tick` stands still, and the addition in `merged` runs over. -/

namespace LiminalDB

namespace Hlc

/-- `Hlc::tick`: the time moves on with the counter at zero, or the counter moves on, as long as 32 bits
hold it. -/
def tick (self : Hlc) (nowMs : UInt64) : Hlc :=
  if self.physMs < nowMs then { self with physMs := nowMs, log := 0 }
  else { self with log := if self.log.toNat + 1 < 2 ^ 32 then self.log + 1 else self.log }

/-- The counter of `merged`, unless the addition runs over. -/
def mergedLog (self other : Hlc) (maxPhys : UInt64) : Option UInt32 :=
  let succ (log : UInt32) : Option UInt32 := if log.toNat + 1 < 2 ^ 32 then some (log + 1) else none
  if maxPhys = self.physMs ∧ maxPhys = other.physMs then succ (max self.log other.log)
  else if maxPhys = self.physMs then succ self.log
  else if maxPhys = other.physMs then succ other.log
  else some 0

/-- The latest time that a merge sees. -/
def latest (self other : Hlc) (nowMs : UInt64) : UInt64 := max (max self.physMs other.physMs) nowMs

/-- The time and the counter, which clocks are compared by first. -/
def stamp (clock : Hlc) : ℕ ×ₗ ℕ := toLex (clock.physMs.toNat, clock.log.toNat)

/-- The counter is not at its end. -/
def HasCount (clock : Hlc) : Prop := clock.log.toNat + 1 < 2 ^ 32

instance (clock : Hlc) : Decidable clock.HasCount :=
  inferInstanceAs (Decidable (clock.log.toNat + 1 < 2 ^ 32))

/-- Stamps are compared by their times first, and then by their counters. -/
theorem stamp_lt_iff {a b : Hlc} : a.stamp < b.stamp ↔
    a.physMs < b.physMs ∨ a.physMs = b.physMs ∧ a.log < b.log := by
  unfold stamp
  rw [Prod.Lex.toLex_lt_toLex, UInt64.lt_iff_toNat_lt, UInt32.lt_iff_toNat_lt, ← UInt64.toNat_inj]

/-- A counter grows by one, unless it is the last one there is. -/
theorem lt_add_one_iff {log : UInt32} : log < log + 1 ↔ log.toNat + 1 < 2 ^ 32 := by
  rw [UInt32.lt_iff_toNat_lt, UInt32.toNat_add]
  simp only [UInt32.toNat_one]
  have := log.toNat_lt
  omega

/-- A tick moves the clock, unless it falls into the time of the clock and the counter is at its end. -/
theorem stamp_lt_tick_iff (self : Hlc) (nowMs : UInt64) :
    self.stamp < (self.tick nowMs).stamp ↔ self.physMs < nowMs ∨ self.HasCount := by
  rw [stamp_lt_iff]
  unfold tick
  by_cases hlater : self.physMs < nowMs
  · rw [if_pos hlater]
    exact iff_of_true (Or.inl hlater) (Or.inl hlater)
  · rw [if_neg hlater, or_iff_right hlater]
    by_cases hcount : self.log.toNat + 1 < 2 ^ 32
    · rw [if_pos hcount]
      exact iff_of_true (Or.inr ⟨rfl, lt_add_one_iff.mpr hcount⟩) hcount
    · rw [if_neg hcount]
      refine iff_of_false ?_ hcount
      rintro (htime | ⟨-, hlog⟩)
      · exact UInt64.lt_irrefl _ htime
      · exact UInt32.lt_irrefl _ hlog

/-! ## Merged clocks -/

/-- A number below one of two others is below the larger of them. -/
theorem le_max_of_le {n a b : UInt64} (h : n ≤ a ∨ n ≤ b) : n ≤ max a b := by
  show n ≤ if a ≤ b then b else a
  split
  · rename_i hle
    exact h.elim (fun hn => UInt64.le_trans hn hle) id
  · rename_i hgt
    exact h.elim id fun hn => UInt64.le_trans hn (UInt64.le_of_lt (UInt64.not_le.mp hgt))

/-- The latest time is not before those of the two clocks. -/
theorem le_latest (self other : Hlc) (nowMs : UInt64) :
    self.physMs ≤ self.latest other nowMs ∧ other.physMs ≤ self.latest other nowMs := by
  unfold latest
  constructor
  · exact le_max_of_le (Or.inl (le_max_of_le (Or.inl (UInt64.le_refl _))))
  · exact le_max_of_le (Or.inl (le_max_of_le (Or.inr (UInt64.le_refl _))))

/-- A counter that is past another one. -/
theorem le_max_log (a b : UInt32) : a ≤ max a b ∧ b ≤ max a b ∧ (max a b = a ∨ max a b = b) := by
  show a ≤ (if a ≤ b then b else a) ∧ b ≤ (if a ≤ b then b else a) ∧
    ((if a ≤ b then b else a) = a ∨ (if a ≤ b then b else a) = b)
  split
  · rename_i hle
    exact ⟨hle, UInt32.le_refl _, Or.inr rfl⟩
  · rename_i hgt
    exact ⟨UInt32.le_refl _, UInt32.le_of_lt (UInt32.not_le.mp hgt), Or.inl rfl⟩

/-- Neither clock is at the end of its counter, if it holds the latest time. -/
def Clear (self other : Hlc) (nowMs : UInt64) : Prop :=
  (self.latest other nowMs = self.physMs → self.HasCount) ∧
    (self.latest other nowMs = other.physMs → other.HasCount)

/-- The counter of a merged clock exists exactly if none that it follows is the last one. -/
theorem isSome_mergedLog_iff (self other : Hlc) (nowMs : UInt64) :
    (self.mergedLog other (self.latest other nowMs)).isSome = true ↔ self.Clear other nowMs := by
  unfold Clear HasCount mergedLog
  generalize self.latest other nowMs = latest
  obtain ⟨hself, hother, hone⟩ := le_max_log self.log other.log
  rw [UInt32.le_iff_toNat_le] at hself hother
  -- Which of the two clocks holds the latest time.
  by_cases hmine : latest = self.physMs <;> by_cases htheirs : latest = other.physMs
  · rw [if_pos ⟨hmine, htheirs⟩, Option.isSome_ite]
    constructor
    · exact fun hcount => ⟨fun _ => by omega, fun _ => by omega⟩
    · rintro ⟨hleft, hright⟩
      rcases hone with heq | heq
      · rw [heq]
        exact hleft hmine
      · rw [heq]
        exact hright htheirs
  · rw [if_neg fun h => htheirs h.2, if_pos hmine, Option.isSome_ite]
    exact ⟨fun hcount => ⟨fun _ => hcount, fun h => absurd h htheirs⟩, fun h => h.1 hmine⟩
  · rw [if_neg fun h => hmine h.1, if_neg hmine, if_pos htheirs, Option.isSome_ite]
    exact ⟨fun hcount => ⟨fun h => absurd h hmine, fun _ => hcount⟩, fun h => h.2 htheirs⟩
  · rw [if_neg fun h => hmine h.1, if_neg hmine, if_neg htheirs]
    exact iff_of_true rfl ⟨fun h => absurd h hmine, fun h => absurd h htheirs⟩

/-- Where the addition does not run over, the wrapping one agrees with it, and the counter is past those of
the clocks that hold the latest time. -/
theorem of_mergedLog {self other : Hlc} {nowMs : UInt64} {log : UInt32}
    (h : self.mergedLog other (self.latest other nowMs) = some log) (node : PeerId) :
    self.merged other node nowMs = ⟨self.latest other nowMs, log, node⟩ ∧
      (self.latest other nowMs = self.physMs → self.log < log) ∧
      (self.latest other nowMs = other.physMs → other.log < log) := by
  have hmerged : (self.merged other node nowMs).log =
      if self.latest other nowMs = self.physMs ∧ self.latest other nowMs = other.physMs then
        max self.log other.log + 1
      else if self.latest other nowMs = self.physMs then self.log + 1
      else if self.latest other nowMs = other.physMs then other.log + 1
      else 0 := rfl
  have hclock : self.merged other node nowMs =
      ⟨self.latest other nowMs, (self.merged other node nowMs).log, node⟩ := rfl
  -- A counter that has a successor is below it.
  have hsucc {n : UInt32} (hn : (if n.toNat + 1 < 2 ^ 32 then some (n + 1) else none) = some log) :
      n + 1 = log ∧ n < log := by
    obtain ⟨hcount, heq⟩ := Option.ite_none_right_eq_some.mp hn
    obtain rfl := Option.some.inj heq
    exact ⟨rfl, lt_add_one_iff.mpr hcount⟩
  rw [hclock, hmerged]
  unfold mergedLog at h
  generalize self.latest other nowMs = latest at h ⊢
  obtain ⟨hself, hother, -⟩ := le_max_log self.log other.log
  by_cases hmine : latest = self.physMs <;> by_cases htheirs : latest = other.physMs
  · rw [if_pos ⟨hmine, htheirs⟩] at h ⊢
    obtain ⟨heq, hlt⟩ := hsucc h
    exact ⟨by rw [heq], fun _ => UInt32.lt_of_le_of_lt hself hlt, fun _ => UInt32.lt_of_le_of_lt hother hlt⟩
  · rw [if_neg fun h => htheirs h.2, if_pos hmine] at h ⊢
    obtain ⟨heq, hlt⟩ := hsucc h
    exact ⟨by rw [heq], fun _ => hlt, fun htime => absurd htime htheirs⟩
  · rw [if_neg fun h => hmine h.1, if_neg hmine, if_pos htheirs] at h ⊢
    obtain ⟨heq, hlt⟩ := hsucc h
    exact ⟨by rw [heq], fun htime => absurd htime hmine, fun _ => hlt⟩
  · rw [if_neg fun h => hmine h.1, if_neg hmine, if_neg htheirs] at h ⊢
    exact ⟨by rw [Option.some.inj h], fun htime => absurd htime hmine, fun htime => absurd htime htheirs⟩

/-- A merged clock is past both, as long as the addition does not run over. -/
theorem stamp_lt_merged {self other : Hlc} {nowMs : UInt64} (h : self.Clear other nowMs) (node : PeerId) :
    self.stamp < (self.merged other node nowMs).stamp ∧
      other.stamp < (self.merged other node nowMs).stamp := by
  obtain ⟨log, hlog⟩ := Option.isSome_iff_exists.mp ((isSome_mergedLog_iff self other nowMs).mpr h)
  obtain ⟨hmerged, hself, hother⟩ := of_mergedLog hlog node
  obtain ⟨hmine, htheirs⟩ := le_latest self other nowMs
  have hpast {clock : Hlc} (hle : clock.physMs ≤ self.latest other nowMs)
      (hlt : self.latest other nowMs = clock.physMs → clock.log < log) :
      clock.stamp < (Hlc.mk (self.latest other nowMs) log node).stamp := by
    rw [stamp_lt_iff]
    -- A clock that does not hold the latest time is passed by the time alone.
    by_cases hsame : self.latest other nowMs = clock.physMs
    · exact Or.inr ⟨hsame.symm, hlt hsame⟩
    · exact Or.inl (UInt64.lt_of_le_of_ne hle fun heq => hsame heq.symm)
  rw [hmerged]
  exact ⟨hpast hmine hself, hpast htheirs hother⟩

end Hlc

/-! ## The steps of a node -/

/-- `NoeticRuntime`: a peer with its state and its engine. -/
structure NoeticRuntime (F : Type) where
  localPeer : PeerId
  localCredence : F
  state : NoeticState F
  consensus : ConsensusEngine F

/-- What moves the clock of a node. -/
inductive ClockStep (F : Type)
  | tick (nowMs : UInt64)
  | merge (other : NoeticState F)
  | applyCommit (proposal : Proposal F) (nowMs : UInt64)

namespace NoeticRuntime

variable {F : Type} [Credence F]

/-- `tick_clock`: the clock of the state ticks. -/
def tickClock (self : NoeticRuntime F) (nowMs : UInt64) : NoeticRuntime F :=
  { self with state := { self.state with clock := self.state.clock.tick nowMs } }

/-- `apply_commit`, without the event it makes of the summary. -/
def applyCommit (self : NoeticRuntime F) (proposal : Proposal F) (nowMs : UInt64) : NoeticRuntime F :=
  let state := { self.state with clock := self.state.clock.merged proposal.clock self.localPeer nowMs }
  { self with
    state := match proposal.object with
      | .model header topk => (state.applyModelHeader header).updateModelTopk topk.entries topk.updated
      | .seed header status => (state.applySeed header).updateSeedStatus status proposal.clock
      | .policy bundle => state.updatePolicy bundle }

/-- The node takes a step. -/
def step (self : NoeticRuntime F) : ClockStep F → NoeticRuntime F
  | .tick nowMs => self.tickClock nowMs
  | .merge other => { self with state := self.state.merge other }
  | .applyCommit proposal nowMs => self.applyCommit proposal nowMs

/-- The node after some steps. -/
def run (start : NoeticRuntime F) (steps : List (ClockStep F)) : NoeticRuntime F := steps.foldl step start

/-- A merge with a clock does not run over, and leaves the clock of the node past both. -/
def Passes (self : NoeticRuntime F) (other : Hlc) (nowMs : UInt64) (after : NoeticRuntime F) : Prop :=
  (self.state.clock.mergedLog other (self.state.clock.latest other nowMs)).isSome = true ∧
    self.state.clock.stamp < after.state.clock.stamp ∧ other.stamp < after.state.clock.stamp

/-- A step moves the clock forward, past the clock it meets. -/
def Advances (self : NoeticRuntime F) (s : ClockStep F) : Prop :=
  match s with
  | .tick _ => self.state.clock.stamp < (self.step s).state.clock.stamp
  | .merge other =>
      self.Passes other.clock (max self.state.clock.physMs other.clock.physMs) (self.step s)
  | .applyCommit proposal nowMs => self.Passes proposal.clock nowMs (self.step s)

/-- No clock that holds the latest time is at the end of its counter. -/
def Ready (self : NoeticRuntime F) : ClockStep F → Prop
  | .tick nowMs => self.state.clock.physMs < nowMs ∨ self.state.clock.HasCount
  | .merge other => self.state.clock.Clear other.clock (max self.state.clock.physMs other.clock.physMs)
  | .applyCommit proposal nowMs => self.state.clock.Clear proposal.clock nowMs

/-- The clock of a merge follows both clocks at the later of their times. -/
theorem clock_merge (self other : NoeticState F) : (self.merge other).clock =
    self.clock.merged other.clock self.peer (max self.clock.physMs other.clock.physMs) := rfl

/-- Applying a commit lets the clock follow that of the proposal. -/
theorem clock_applyCommit (self : NoeticRuntime F) (proposal : Proposal F) (nowMs : UInt64) :
    (self.applyCommit proposal nowMs).state.clock =
      self.state.clock.merged proposal.clock self.localPeer nowMs := by
  unfold applyCommit
  cases proposal.object <;> rfl

/-- A step advances the clock exactly if the state is ready for it. -/
theorem advances_iff (self : NoeticRuntime F) (s : ClockStep F) : self.Advances s ↔ self.Ready s := by
  have hpasses {other : Hlc} {nowMs : UInt64} {after : NoeticRuntime F} {node : PeerId}
      (hafter : after.state.clock = self.state.clock.merged other node nowMs) :
      self.Passes other nowMs after ↔ self.state.clock.Clear other nowMs := by
    unfold Passes
    rw [Hlc.isSome_mergedLog_iff, hafter]
    exact and_iff_left_of_imp fun hclear => Hlc.stamp_lt_merged hclear node
  cases s with
  | tick nowMs => exact Hlc.stamp_lt_tick_iff self.state.clock nowMs
  | merge other => exact hpasses (clock_merge self.state other)
  | applyCommit proposal nowMs => exact hpasses (clock_applyCommit self proposal nowMs)

/-- **The clock of a node.** Every step of a run moves it forward, past the clocks it meets, exactly in those
runs in which every step finds room in the counters. -/
theorem clock_advances_iff (start : NoeticRuntime F) (steps : List (ClockStep F)) :
    (∀ before s after, steps = before ++ s :: after → (start.run before).Advances s) ↔
      ∀ before s after, steps = before ++ s :: after → (start.run before).Ready s :=
  forall_congr' fun before => forall_congr' fun s => forall_congr' fun _ => imp_congr_right fun _ =>
    advances_iff (start.run before) s

/-- A state whose clock is at the end of its counter. -/
def exhaustedState : NoeticState ℚ :=
  { (NoeticState.new (samplePeer 2)) with
    clock := ⟨5, UInt32.ofNat (2 ^ 32 - 1), samplePeer 2⟩ }

/-- A node as `NoeticRuntime::new` makes it. -/
def freshRuntime : NoeticRuntime ℚ :=
  let localPeer := samplePeer 1
  ⟨localPeer, 1, (NoeticState.new localPeer).setCredence localPeer 1, ⟨6 / 10, ∅⟩⟩

/-- The clock of a peer can be at the end of its counter, and then merging runs over. -/
theorem not_advances_exhausted :
    ¬ ∀ (start : NoeticRuntime ℚ) (steps : List (ClockStep ℚ)),
      ∀ before s after, steps = before ++ s :: after → (start.run before).Advances s := by
  intro h
  obtain ⟨hfits, -⟩ := h freshRuntime [.merge exhaustedState] [] (.merge exhaustedState) [] rfl
  revert hfits
  decide

end NoeticRuntime

end LiminalDB
