import LiminalDB.Field.Feedback
import LiminalDB.Foundations.KeyedFold

/-! # Cooldowns of the reflex feedback

A run of `record_reflex_snapshot` calls, between which the operator tunes the loop and anything may happen to
the rest of the field. The end of a cooldown is what the invariant `Cooling` keeps: the time of the last
action of a kind and the exact length of its cooldown, cut off at the last value of the clock. -/

namespace LiminalDB

variable {F : Type}

/-! ## Spacing -/

section Spacing

variable {α κ : Type} [DecidableEq κ] (key : α → κ) (R : α → α → Prop)

/-- The last element with a key. -/
def lastWith (k : κ) (l : List α) : Option α := (l.filter (key · = k)).getLast?

/-- Each element and the next one with its key are in a relation. -/
def SpacedBy (l : List α) : Prop := ∀ k, (l.filter (key · = k)).IsChain R

variable {key R} {l : List α} {a : α} {k : κ}

/-- The last element with a key is the one at the end, if that has it. -/
theorem lastWith_append_self (key : α → κ) (l : List α) (a : α) :
    lastWith key (key a) (l ++ [a]) = some a := by
  simp [lastWith]

/-- An element with another key does not count. -/
theorem lastWith_append_of_ne (h : key a ≠ k) : lastWith key k (l ++ [a]) = lastWith key k l := by
  simp [lastWith, h]

/-- Nothing in an empty list is too close to anything else. -/
theorem spacedBy_nil : SpacedBy key R [] := fun _ => List.isChain_nil

/-- Another element has to keep its distance from the last one with its key. -/
theorem spacedBy_append_singleton :
    SpacedBy key R (l ++ [a]) ↔ SpacedBy key R l ∧ ∀ b ∈ lastWith key (key a) l, R b a := by
  have hself : ∀ l : List α, ((l ++ [a]).filter (key · = key a)) = l.filter (key · = key a) ++ [a] := by
    intro l
    simp
  have hother : ∀ k, key a ≠ k → (l ++ [a]).filter (key · = k) = l.filter (key · = k) := by
    intro k hne
    simp [hne]
  constructor
  · intro h
    have hkey := h (key a)
    rw [hself, List.isChain_append] at hkey
    refine ⟨fun k => ?_, fun b hb => hkey.2.2 b hb a (by simp)⟩
    by_cases hk : key a = k
    · subst hk
      exact hkey.1
    · rw [← hother k hk]
      exact h k
  · rintro ⟨h, hlast⟩ k
    by_cases hk : key a = k
    · subst hk
      rw [hself, List.isChain_append]
      refine ⟨h _, List.isChain_singleton a, fun b hb c hc => ?_⟩
      obtain rfl : c = a := by simpa using hc.symm
      exact hlast b hb
    · rw [hother k hk]
      exact h k

/-- The beginning of a list that is spaced is spaced as well. -/
theorem SpacedBy.of_append {more : List α} (h : SpacedBy key R (l ++ more)) : SpacedBy key R l := by
  intro k
  have hboth := h k
  rw [List.filter_append, List.isChain_append] at hboth
  exact hboth.1

end Spacing

/-! ## Runs -/

/-- An action that was taken: its kind, when, and the configured cooldown. -/
structure TakenAction where
  kind : ActionKind
  atMs : UInt64
  cooldownMs : UInt64

/-- The exact length of the cooldown behind an action. -/
def TakenAction.length (taken : TakenAction) : ℕ :=
  match taken.kind with
  | .defuse => taken.cooldownMs.toNat * 2
  | _ => taken.cooldownMs.toNat

/-- The next action of a kind is not taken before the cooldown of the last one is over. -/
def TakenAction.Over (taken next : TakenAction) : Prop := taken.atMs.toNat + taken.length ≤ next.atMs.toNat

/-- What happens between and in the rounds of the loop. -/
inductive FeedbackCall (F : Type)
  /-- Whatever becomes of the rest of the field, its clock included. -/
  | meanwhile (next : ClusterField F)
  /-- `REFLEX TUNE` -/
  | tune (cfg : ReflexCfg F)
  /-- `REFLEX ON` and `REFLEX OFF` -/
  | setEnabled (enabled : Bool)
  /-- `record_reflex_snapshot` -/
  | record (neighbors : List (String × F)) (snapshot : ReflexSnapshot F)

/-- A field with the actions that were taken, oldest first. -/
structure FeedbackRun (F : Type) where
  field : ReflexField F
  taken : List TakenAction

variable [FloatLike F]

namespace FeedbackRun

/-- A call, with the action that it reports. -/
def call (self : FeedbackRun F) : FeedbackCall F → Option (FeedbackRun F)
  | .meanwhile next => some { self with field := { self.field with toClusterField := next } }
  | .tune cfg =>
      some { self with field :=
        { self.field with reflexFeedback := { self.field.reflexFeedback with cfg := cfg } } }
  | .setEnabled enabled =>
      some { self with field :=
        { self.field with reflexFeedback := { self.field.reflexFeedback with enabled := enabled } } }
  | .record neighbors snapshot =>
      (self.field.recordReflexSnapshot neighbors snapshot).map fun result =>
        { field := result.2
          taken := self.taken ++ ((result.1.bind ReflexReport.action).map fun action =>
            ⟨action.kind, self.field.nowMs, self.field.reflexFeedback.cfg.cooldownMs⟩).toList }

end FeedbackRun

/-- A run from a new field. Nothing is returned when a call overflows. -/
def feedbackRun (calls : List (FeedbackCall F)) : Option (FeedbackRun F) :=
  calls.foldlM FeedbackRun.call ⟨.new, []⟩

/-- No call of a run overflows, and each action is followed by one of its kind only when its cooldown, read
as an exact number, is over. -/
def CooldownsHold (calls : List (FeedbackCall F)) : Prop :=
  ∃ run, feedbackRun calls = some run ∧ SpacedBy TakenAction.kind TakenAction.Over run.taken

/-! ## What a call does -/

/-- The kind of action that answers a signal. -/
def ReflexSignal.answer : ReflexSignal → Option ActionKind
  | .ok => none
  | .plateau => some .microPivot
  | .driftDown => some .defuse
  | .oscillation => some .dampening
  | .overload => some .targetShift

/-- The kind of action that a snapshot is about to bring: it answers the signal, and is cooled. -/
def ReflexField.due (self : ReflexField F) (snapshot : ReflexSnapshot F) : Option ActionKind :=
  if self.reflexFeedback.enabled then
    ((self.reflexFeedback.window.push snapshot).evaluate self.reflexFeedback.cfg).answer.filter
      (cooled self.nowMs self.reflexFeedback.cooldownUntil)
  else none

/-- An action is proposed for a signal exactly if the signal has an answer whose cooldown is over, and it is
of this kind. -/
theorem kind_proposeAction (signal : ReflexSignal) (ctx : ReflexContext F)
    (cooldowns : ActionKind → Option UInt64) :
    (proposeAction signal ctx cooldowns).map Action.kind =
      signal.answer.filter (cooled ctx.nowMs cooldowns) := by
  cases signal <;> simp only [proposeAction, ReflexSignal.answer, Option.filter_some, Option.filter_none,
    Option.map_none] <;> split_ifs <;> simp_all [Action.kind]

omit [FloatLike F] in
/-- A cooldown ends after the length of its kind, which is not representable where twice the configured one
overflows. -/
theorem cooldownFor_eq (action : Action F) (cfg : ReflexCfg F) (atMs : UInt64) :
    cooldownFor action cfg =
      if TakenAction.length ⟨action.kind, atMs, cfg.cooldownMs⟩ < 2 ^ 64 then
        some (UInt64.ofNat (TakenAction.length ⟨action.kind, atMs, cfg.cooldownMs⟩))
      else none := by
  have hfits : cfg.cooldownMs.toNat < 2 ^ 64 := cfg.cooldownMs.toNat_lt
  rw [cooldownFor]
  cases action.kind with
  | defuse =>
      have hlength : TakenAction.length ⟨.defuse, atMs, cfg.cooldownMs⟩ = cfg.cooldownMs.toNat * 2 := rfl
      rw [hlength]
      by_cases h : cfg.cooldownMs.toNat * 2 < 2 ^ 64
      · rw [if_pos h, if_pos h]
        congr 1
      · rw [if_neg h, if_neg h]
  | microPivot | dampening | targetShift =>
      have hlength (kind : ActionKind) (hne : kind ≠ .defuse) :
          TakenAction.length ⟨kind, atMs, cfg.cooldownMs⟩ = cfg.cooldownMs.toNat := by
        cases kind <;> first | rfl | contradiction
      rw [hlength _ (by decide), if_pos hfits, UInt64.ofNat_toNat]

/-- Taking an action does not touch the clock of the field. -/
theorem nowMs_applyAction (field : ClusterField F) (nowMs : UInt64) (action : Action F) :
    (applyAction field nowMs action).nowMs = field.nowMs := by
  cases action <;> rfl

namespace FeedbackRun

variable {run : FeedbackRun F} {snapshot : ReflexSnapshot F}

/-- The action that a snapshot is about to bring. -/
def pending (run : FeedbackRun F) (kind : ActionKind) : TakenAction :=
  ⟨kind, run.field.nowMs, run.field.reflexFeedback.cfg.cooldownMs⟩

/-- What is due is what is proposed in the context of the call. -/
theorem due_eq (neighbors : List (String × F)) : run.field.due snapshot =
    if run.field.reflexFeedback.enabled then
      (proposeAction ((run.field.reflexFeedback.window.push snapshot).evaluate run.field.reflexFeedback.cfg)
        ⟨run.field.reflexFeedback.cfg, 320.0, neighbors, run.field.nowMs⟩
        run.field.reflexFeedback.cooldownUntil).map Action.kind
    else none := by
  rw [kind_proposeAction]
  rfl

/-- Nothing is due: the cooldowns stay as they are. -/
theorem call_record_of_none (neighbors : List (String × F)) (h : run.field.due snapshot = none) :
    ∃ next, run.call (.record neighbors snapshot) = some next ∧ next.taken = run.taken ∧
      next.field.reflexFeedback.cooldownUntil = run.field.reflexFeedback.cooldownUntil := by
  by_cases henabled : run.field.reflexFeedback.enabled
  · rw [due_eq neighbors, if_pos henabled, Option.map_eq_none_iff] at h
    simp [call, ReflexField.recordReflexSnapshot, ReflexState.nextReport, ReflexState.pushSnapshot, henabled, h]
  · simp [call, ReflexField.recordReflexSnapshot, ReflexState.nextReport, ReflexState.pushSnapshot, henabled]

/-- An action is due: it is taken, and its cooldown begins, unless that overflows. -/
theorem call_record_of_some (neighbors : List (String × F)) {kind : ActionKind}
    (h : run.field.due snapshot = some kind) :
    if (run.pending kind).length < 2 ^ 64 then
      ∃ next, run.call (.record neighbors snapshot) = some next ∧
        next.taken = run.taken ++ [run.pending kind] ∧
        ∀ other, next.field.reflexFeedback.cooldownUntil other =
          if other = kind then
            some (saturatingAdd run.field.nowMs (UInt64.ofNat (run.pending kind).length))
          else run.field.reflexFeedback.cooldownUntil other
    else run.call (.record neighbors snapshot) = none := by
  rw [due_eq neighbors] at h
  split_ifs at h with henabled
  obtain ⟨action, haction, rfl⟩ := Option.map_eq_some_iff.mp h
  have hcooldown := cooldownFor_eq action run.field.reflexFeedback.cfg run.field.nowMs
  rw [pending]
  split_ifs at hcooldown ⊢
  · simp [call, ReflexField.recordReflexSnapshot, ReflexState.nextReport, ReflexState.pushSnapshot, henabled,
      haction, hcooldown, ReflexState.recordAction, nowMs_applyAction]
  · simp [call, ReflexField.recordReflexSnapshot, ReflexState.nextReport, ReflexState.pushSnapshot, henabled,
      haction, hcooldown]

/-! ## The invariant -/

/-- The end of each cooldown, cut off at the last value of the clock. -/
def Cooling (run : FeedbackRun F) : Prop := ∀ kind,
  (run.field.reflexFeedback.cooldownUntil kind).map UInt64.toNat =
    (lastWith TakenAction.kind kind run.taken).map fun last =>
      min (last.atMs.toNat + last.length) (2 ^ 64 - 1)

/-- A sum that saturates is the sum, or the largest number where that is smaller. -/
theorem toNat_saturatingAdd (a b : UInt64) :
    (saturatingAdd a b).toNat = min (a.toNat + b.toNat) (2 ^ 64 - 1) := by
  have ha := a.toNat_lt
  have hb := b.toNat_lt
  rw [saturatingAdd]
  split_ifs with h
  · rw [UInt64.lt_iff_toNat_lt, UInt64.toNat_add] at h
    simp
    omega
  · rw [UInt64.lt_iff_toNat_lt, UInt64.toNat_add] at h
    rw [UInt64.toNat_add]
    omega

/-- Before the first call no cooldown has been entered, and no action has been taken. -/
theorem cooling_start : Cooling (⟨.new, []⟩ : FeedbackRun F) := fun _ => rfl

omit [FloatLike F] in
/-- An action that is taken begins its cooldown, and leaves the others alone. -/
theorem Cooling.taken {next : FeedbackRun F} (h : run.Cooling) {due : ActionKind}
    (hlength : (run.pending due).length < 2 ^ 64) (htaken : next.taken = run.taken ++ [run.pending due])
    (huntil : ∀ kind, next.field.reflexFeedback.cooldownUntil kind =
      if kind = due then some (saturatingAdd run.field.nowMs (UInt64.ofNat (run.pending due).length))
      else run.field.reflexFeedback.cooldownUntil kind) : next.Cooling := by
  intro kind
  rw [htaken, huntil]
  by_cases hkind : kind = due
  · subst hkind
    have hlast := lastWith_append_self TakenAction.kind run.taken (run.pending kind)
    rw [if_pos rfl, Option.map_some, toNat_saturatingAdd, UInt64.toNat_ofNat_of_lt' hlength]
    rw [pending] at hlast ⊢
    rw [hlast, Option.map_some]
  · rw [if_neg hkind, lastWith_append_of_ne (Ne.symm hkind)]
    exact h kind

/-- Each call that returns keeps the entered cooldowns those of the last actions of each kind. -/
theorem Cooling.call {next : FeedbackRun F} (h : run.Cooling) {call : FeedbackCall F}
    (hcall : run.call call = some next) : next.Cooling := by
  cases call with
  | meanwhile field | tune cfg | setEnabled enabled =>
      cases hcall
      exact h
  | record neighbors snapshot =>
      cases hdue : run.field.due snapshot with
      | none =>
          -- Without an action the ends of the cooldowns stay as they are.
          obtain ⟨_, hnext, htaken, huntil⟩ := call_record_of_none neighbors hdue
          obtain rfl := Option.some.inj (hnext.symm.trans hcall)
          intro kind
          rw [htaken, huntil]
          exact h kind
      | some due =>
          have hrecord := call_record_of_some neighbors hdue
          split_ifs at hrecord with hlength
          · obtain ⟨_, hnext, htaken, huntil⟩ := hrecord
            obtain rfl := Option.some.inj (hnext.symm.trans hcall)
            exact h.taken hlength htaken huntil
          · -- A length that is no `u64` ends the run.
            rw [hrecord] at hcall
            cases hcall

omit [FloatLike F] in
/-- A kind is cooled down if the time has come that its last action had entered; an end beyond the clock was
entered as the last time there is. -/
theorem Cooling.cooled_iff (h : run.Cooling) (kind : ActionKind) :
    cooled run.field.nowMs run.field.reflexFeedback.cooldownUntil kind ↔
      ∀ last ∈ lastWith TakenAction.kind kind run.taken,
        min (last.atMs.toNat + last.length) (2 ^ 64 - 1) ≤ run.field.nowMs.toNat := by
  have hends := h kind
  rw [cooled]
  cases hlast : lastWith TakenAction.kind kind run.taken with
  | none =>
      rw [hlast, Option.map_none, Option.map_eq_none_iff] at hends
      simp [hends]
  | some last =>
      rw [hlast, Option.map_some, Option.map_eq_some_iff] at hends
      obtain ⟨untilMs, huntil, hend⟩ := hends
      rw [huntil]
      simp [UInt64.le_iff_toNat_le, hend]

/-! ## Which runs keep the cooldowns -/

/-- What a call has to meet: no Defuse is taken under a cooldown whose double overflows, and no action is
taken at the last value of the clock when the last one of its kind has a cooldown that was cut off. -/
def Meets (run : FeedbackRun F) : FeedbackCall F → Prop
  | .record _ snapshot => ∀ kind ∈ run.field.due snapshot,
      (kind = .defuse → run.field.reflexFeedback.cfg.cooldownMs.toNat * 2 < 2 ^ 64) ∧
        (run.field.nowMs.toNat = 2 ^ 64 - 1 → ∀ last ∈ lastWith TakenAction.kind kind run.taken,
          last.atMs.toNat + last.length < 2 ^ 64)
  | _ => True

omit [FloatLike F] in
/-- The length of a cooldown is representable, except for a defusing whose configured length overflows when it
is doubled. -/
theorem length_pending_lt {kind : ActionKind} : (run.pending kind).length < 2 ^ 64 ↔
    (kind = .defuse → run.field.reflexFeedback.cfg.cooldownMs.toNat * 2 < 2 ^ 64) := by
  have hfits := run.field.reflexFeedback.cfg.cooldownMs.toNat_lt
  cases kind <;> simp [pending, TakenAction.length]
  all_goals exact hfits

/-- An action that is due is not cooling down. -/
theorem cooled_of_due {due : ActionKind} (h : run.field.due snapshot = some due) :
    cooled run.field.nowMs run.field.reflexFeedback.cooldownUntil due := by
  rw [ReflexField.due] at h
  split_ifs at h
  exact (Option.filter_eq_some_iff.mp h).2

/-- A recording at which an action is due meets the condition if the length of the cooldown is representable,
and the clock does not stand at its end before an earlier one is over. -/
theorem meets_record_of_some {due : ActionKind} (neighbors : List (String × F))
    (h : run.field.due snapshot = some due) : run.Meets (.record neighbors snapshot) ↔ (run.pending due).length < 2 ^ 64 ∧
      (run.field.nowMs.toNat = 2 ^ 64 - 1 → ∀ last ∈ lastWith TakenAction.kind due run.taken,
        last.atMs.toNat + last.length < 2 ^ 64) := by
  rw [Meets, h, length_pending_lt]
  simp

/-- What was taken stays. -/
theorem spacedBy_of_call {next : FeedbackRun F} {call : FeedbackCall F} (hcall : run.call call = some next)
    (h : SpacedBy TakenAction.kind TakenAction.Over next.taken) :
    SpacedBy TakenAction.kind TakenAction.Over run.taken := by
  cases call with
  | meanwhile field | tune cfg | setEnabled enabled =>
      cases hcall
      exact h
  | record neighbors snapshot =>
      obtain ⟨result, -, rfl⟩ := Option.map_eq_some_iff.mp hcall
      exact h.of_append

/-- One call. -/
theorem holds_call_iff (hcooling : run.Cooling) (hspaced : SpacedBy TakenAction.kind TakenAction.Over run.taken)
    (call : FeedbackCall F) :
    (∃ next, run.call call = some next ∧ SpacedBy TakenAction.kind TakenAction.Over next.taken) ↔
      run.Meets call := by
  cases call with
  | meanwhile field | tune cfg | setEnabled enabled => exact iff_of_true ⟨_, rfl, hspaced⟩ trivial
  | record neighbors snapshot =>
      cases hdue : run.field.due snapshot with
      | none =>
          obtain ⟨next, hnext, htaken, -⟩ := call_record_of_none neighbors hdue
          rw [← htaken] at hspaced
          refine iff_of_true ⟨next, hnext, hspaced⟩ ?_
          rw [Meets, hdue]
          rintro kind ⟨⟩
      | some due =>
          have hends := (hcooling.cooled_iff due).mp (cooled_of_due hdue)
          have hrecord := call_record_of_some neighbors hdue
          rw [meets_record_of_some neighbors hdue]
          split_ifs at hrecord with hlength
          · obtain ⟨next, hnext, htaken, -⟩ := hrecord
            have hiff : (∃ next, run.call (.record neighbors snapshot) = some next ∧
                SpacedBy TakenAction.kind TakenAction.Over next.taken) ↔
                SpacedBy TakenAction.kind TakenAction.Over (run.taken ++ [run.pending due]) := by
              rw [← htaken, hnext]
              simp
            rw [hiff, spacedBy_append_singleton]
            -- Only a cooldown that was cut off can end before its time.
            have hnow := run.field.nowMs.toNat_lt
            constructor
            · rintro ⟨-, hover⟩
              refine ⟨hlength, fun _ last hlast => ?_⟩
              have hlastOver : last.atMs.toNat + last.length ≤ run.field.nowMs.toNat := hover last hlast
              omega
            · rintro ⟨-, hcut⟩
              refine ⟨hspaced, fun last hlast => ?_⟩
              show last.atMs.toNat + last.length ≤ run.field.nowMs.toNat
              have hend := hends last hlast
              have hlastCut := fun hfull => hcut hfull last hlast
              omega
          · rw [hrecord]
            exact iff_of_false (by simp) fun hfits => hlength hfits.1

end FeedbackRun

/-- One more call is made in the state that the calls before it have reached, if they all return. -/
theorem feedbackRun_append_singleton (calls : List (FeedbackCall F)) (call : FeedbackCall F) :
    feedbackRun (calls ++ [call]) = (feedbackRun calls).bind fun run => run.call call := by
  rw [feedbackRun, List.foldlM_append]
  simp [feedbackRun]

/-- The invariant holds after every run. -/
theorem cooling_feedbackRun (calls : List (FeedbackCall F)) {run : FeedbackRun F}
    (h : feedbackRun calls = some run) : run.Cooling := by
  induction calls using List.reverseRecOn generalizing run with
  | nil =>
      obtain rfl := Option.some.inj h
      exact FeedbackRun.cooling_start
  | append_singleton calls call ih =>
      rw [feedbackRun_append_singleton] at h
      obtain ⟨before, hbefore, hcall⟩ := Option.bind_eq_some_iff.mp h
      exact (ih hbefore).call hcall

/-- One more call. -/
theorem cooldownsHold_append_singleton (calls : List (FeedbackCall F)) (call : FeedbackCall F) :
    CooldownsHold (calls ++ [call]) ↔
      CooldownsHold calls ∧ ∀ run, feedbackRun calls = some run → run.Meets call := by
  cases hrun : feedbackRun calls with
  | none =>
      -- The run ended before, and keeps nothing.
      refine iff_of_false ?_ ?_
      · rintro ⟨next, hnext, -⟩
        rw [feedbackRun_append_singleton, hrun] at hnext
        cases hnext
      · rintro ⟨⟨next, hnext, -⟩, -⟩
        rw [hrun] at hnext
        cases hnext
  | some run =>
      have hcooling := cooling_feedbackRun calls hrun
      have hboth : CooldownsHold (calls ++ [call]) ↔ ∃ next, run.call call = some next ∧
          SpacedBy TakenAction.kind TakenAction.Over next.taken := by
        rw [CooldownsHold, feedbackRun_append_singleton, hrun]
        rfl
      have hfirst : CooldownsHold calls ↔ SpacedBy TakenAction.kind TakenAction.Over run.taken := by
        rw [CooldownsHold, hrun]
        simp
      rw [hboth, hfirst]
      constructor
      · rintro ⟨next, hnext, hspaced⟩
        have hbefore := FeedbackRun.spacedBy_of_call hnext hspaced
        refine ⟨hbefore, fun other hother => ?_⟩
        obtain rfl := Option.some.inj hother
        exact (FeedbackRun.holds_call_iff hcooling hbefore call).mp ⟨next, hnext, hspaced⟩
      · rintro ⟨hspaced, hmeets⟩
        exact (FeedbackRun.holds_call_iff hcooling hspaced call).mpr (hmeets run rfl)

/-- **Cooldowns hold exactly off two edges.** In a run of the feedback loop, whatever its clock shows and
however it is tuned, no call overflows and each action waits for the cooldown of the last one of its kind,
if and only if every call meets its condition: a Defuse is only taken under a cooldown whose double is a
`u64`, and at the last value of the clock no action is taken of a kind whose cooldown was cut off. -/
theorem cooldowns_hold_iff (calls : List (FeedbackCall F)) : CooldownsHold calls ↔
    ∀ before call after, calls = before ++ call :: after →
      ∀ run, feedbackRun before = some run → run.Meets call := by
  induction calls using List.reverseRecOn with
  | nil => simp [CooldownsHold, feedbackRun, spacedBy_nil]
  | append_singleton calls call ih =>
      have hsplit := @forall_split_append_singleton _
        (fun before call => ∀ run, feedbackRun before = some run → run.Meets call) calls call
      rw [cooldownsHold_append_singleton, ih, hsplit]

/-- Between two snapshots the yield and the impact fall: a drift, which a Defuse answers. -/
def fallingCalls (cooldownMs : UInt64) : List (FeedbackCall Float32) :=
  [.tune { ReflexCfg.default with cooldownMs := cooldownMs }, .setEnabled true,
    .record [] ⟨0, 1, 1, 0, 1⟩, .record [] ⟨1000, 0, 1, 0, 0⟩]

/-- Twice a cooldown of `2 ^ 63` milliseconds overflows. -/
theorem not_cooldownsHold_falling : ¬ CooldownsHold (fallingCalls 0x8000000000000000) := by
  rintro ⟨run, hrun, -⟩
  have hnone : (feedbackRun (fallingCalls 0x8000000000000000)).isNone := by decide +kernel
  rw [hrun] at hnone
  cases hnone

end LiminalDB
