import LiminalDB.Field.Notes
import LiminalDB.Field.Retention

/-! # The hits of tokens: `record_token_hit` and `recent_for`

An impulse leaves a hit for each of its tokens and each cell that responds. Old hits are taken from a queue
only when a new one comes, by age and by number, and a query looks from the back of the queue for what is in
its window. Over a whole run it finds the hits of the window among the last 512 (`recentFor_run`). -/

namespace LiminalDB

variable {F : Type} [FloatLike F]

/-! ## Tokens -/

omit [FloatLike F] in
/-- Erasing duplicates leaves none. -/
theorem nodup_eraseDups {α : Type} [DecidableEq α] (l : List α) : l.eraseDups.Nodup := by
  induction hlength : l.length using Nat.strong_induction_on generalizing l with
  | _ n ih =>
      cases l with
      | nil => exact List.nodup_nil
      | cons a l =>
          rw [List.eraseDups_cons, List.nodup_cons]
          refine ⟨?_, ih _ (hlength ▸ Nat.lt_succ_of_le (List.length_filter_le _ _)) _ rfl⟩
          rw [List.mem_eraseDups, List.mem_filter]
          simp

omit [FloatLike F] in
/-- A token is in small letters already, and so is not changed by lowering it again. -/
theorem toLowercase_of_mem_tokenize {platform : Platform F} {pattern token : String}
    (h : token ∈ tokenize platform pattern) :
    platform.toLowercase token = token := by
  obtain ⟨part, -, rfl⟩ := List.mem_map.mp h
  exact platform.toLowercase_twice part

namespace ClusterField

/-- `recent_for` -/
def recentFor (platform : Platform F) (self : ClusterField F) (token : String) (windowMs : UInt32) :
    List (Hit F) :=
  let cutoff := saturatingSub self.nowMs windowMs.toUInt64
  ((self.tokenHits (platform.toLowercase token)).reverse.takeWhile fun hit => cutoff ≤ hit.ts).reverse

/-- The cells that respond to an impulse, and how late each of them is. -/
def responders (platform : Platform F) (visits : Visits F) (self : ClusterField F) (imp : Impulse F) :
    List (NodeId × UInt32) :=
  let self := self.react platform visits imp
  ((self.targets visits (tokenize platform imp.pattern) imp).foldl (ingestAt platform imp)
    ⟨self, [], []⟩).responded

/-- The calls of `record_token_hit` for an impulse. -/
def recordings (platform : Platform F) (visits : Visits F) (self : ClusterField F) (imp : Impulse F) :
    List (String × NodeId × UInt32) :=
  (visits.tokens.arrange (tokenize platform imp.pattern).eraseDups).flatMap fun token =>
    (self.responders platform visits imp).map fun response => (token, response)

end ClusterField

namespace Notes

/-- What `record_token_hit` makes of the notes. -/
def recordTokenHit (platform : Platform F) (strength : F) (self : Notes F)
    (recording : String × NodeId × UInt32) : Notes F :=
  let hit : Hit F := ⟨self.nextHitSeq, self.nowMs, recording.2.1, strength, recording.2.2⟩
  { self with
    nextHitSeq := saturatingAdd self.nextHitSeq 1
    tokenHits := fun key => if key = platform.toLowercase recording.1 then
        expire self.nowMs 120000 512 Hit.ts (self.tokenHits key ++ [hit])
      else self.tokenHits key }

/-- The hits that are recorded, with the keys of their queues. -/
def hits (platform : Platform F) (strength : F) :
    Notes F → List (String × NodeId × UInt32) → List (String × Hit F)
  | _, [] => []
  | self, recording :: recordings =>
      (platform.toLowercase recording.1,
          ⟨self.nextHitSeq, self.nowMs, recording.2.1, strength, recording.2.2⟩) ::
        hits platform strength (self.recordTokenHit platform strength recording) recordings

end Notes

namespace ClusterField

variable {platform : Platform F} {self : ClusterField F}

/-- Reflexes count impulses, and leave the other notes alone. -/
theorem notes_processReflexes (visits : Visits F) (imp : Impulse F) (tokens : List String)
    (fired : List ReflexId) : ∃ counters, (processReflexes platform visits imp self tokens fired).notes =
      { self.notes with counters } := by
  induction tokens generalizing self fired with
  | nil => exact ⟨self.counters, rfl⟩
  | cons token tokens ih =>
      obtain ⟨counters, hrest⟩ := @ih (self.processReflexFor platform visits token imp fired).1
        (self.processReflexFor platform visits token imp fired).2
      refine ⟨counters, hrest.trans ?_⟩
      have hfired : (self.processReflexFor platform visits token imp fired).1.notes =
          (self.considerImpulse platform visits (platform.toLowercase token) imp fired).1.notes :=
        notes_fireAll visits _ _
      rw [hfired]
      rfl

/-- Reacting to an impulse touches no hit: of what is noted, only counters change. -/
theorem notes_react (visits : Visits F) (imp : Impulse F) :
    ∃ counters, (self.react platform visits imp).notes = { self.notes with counters } := by
  obtain ⟨counters, hcounted⟩ := @notes_processReflexes F _ platform (self.feelHormone imp) visits imp
    (tokenize platform imp.pattern).eraseDups []
  refine ⟨counters, hcounted.trans ?_⟩
  rw [notes_feelHormone]

/-- An impulse records its hits. -/
theorem notes_routeImpulse (visits : Visits F) (imp : Impulse F) :
    (self.routeImpulse platform visits imp).notes =
      (self.recordings platform visits imp).foldl (Notes.recordTokenHit platform imp.strength)
        (self.react platform visits imp).notes := by
  -- The loops over the tokens and the responses are one over the recordings.
  have hrecord (l : List (String × NodeId × UInt32)) (s : ClusterField F) :
      (l.foldl (fun s r => s.recordTokenHit platform r.1 r.2.1 imp.strength r.2.2) s).notes =
        l.foldl (Notes.recordTokenHit platform imp.strength) s.notes := by
    induction l generalizing s with
    | nil => rfl
    | cons r l ih => exact ih _
  have hrecent (nodes : List NodeId) (s : ClusterField F) (token : String) :
      (recordRecent imp nodes s token).notes = s.notes := rfl
  have hingested := list_foldl_keeps (fun acc : Responses F => acc.field.notes) (@notes_ingestAt F _ platform imp)
    ((self.react platform visits imp).targets visits (tokenize platform imp.pattern) imp)
    ⟨self.react platform visits imp, [], []⟩
  unfold routeImpulse
  refine (notes_foldl_emit _).trans ?_
  have hflat := hrecord (self.recordings platform visits imp)
  simp only [recordings, List.foldl_flatMap, List.foldl_map] at hflat ⊢
  refine (hflat _).trans ?_
  rw [list_foldl_keeps notes (hrecent _), notes_recordRouteSequence, hingested]

/-! ## Runs -/

/-- The hits that a call records, oldest first, with the keys of their queues. -/
def hitsOf (platform : Platform F) (self : ClusterField F) : FieldCall F → List (String × Hit F)
  | .routeImpulse visits imp =>
      (self.react platform visits imp).notes.hits platform imp.strength (self.recordings platform visits imp)
  | _ => []

/-- The hits that a run records. -/
def hitHistory (platform : Platform F) : ClusterField F → List (FieldCall F) → List (String × Hit F)
  | _, [] => []
  | self, c :: calls => self.hitsOf platform c ++ hitHistory platform (self.call platform c) calls

/-- A sum that saturates is not below its first summand. -/
theorem toNat_le_saturatingAdd (a b : UInt64) : a.toNat ≤ (saturatingAdd a b).toNat := by
  unfold saturatingAdd
  split
  · exact Nat.le_of_lt_succ a.toNat_lt
  · rename_i hle
    exact UInt64.not_lt.mp hle

/-- What a call other than an impulse makes of the notes: the clock may move on, and a rule come or go. -/
theorem notes_call (c : FieldCall F) (hc : ∀ visits imp, c ≠ .routeImpulse visits imp) :
    ∃ rules nowMs, (self.call platform c).notes = { self.notes with rules, nowMs } ∧
      self.nowMs.toNat ≤ nowMs.toNat ∧ (rules = self.rules ∨
        (∃ rule : ReflexRule F, rules = self.rules.insert rule.id rule) ∨ ∃ id, rules = self.rules.erase id) := by
  have hsame {after : ClusterField F} (h : after.notes = self.notes) : ∃ rules nowMs,
      after.notes = { self.notes with rules, nowMs } ∧ self.nowMs.toNat ≤ nowMs.toNat ∧ (rules = self.rules ∨
        (∃ rule : ReflexRule F, rules = self.rules.insert rule.id rule) ∨ ∃ id, rules = self.rules.erase id) :=
    ⟨self.rules, self.nowMs, h, le_rfl, Or.inl rfl⟩
  cases c with
  | routeImpulse visits imp => exact absurd rfl (hc visits imp)
  | tickAll visits variation dtMs =>
      exact ⟨self.rules, _, notes_tickAll visits variation dtMs, toNat_le_saturatingAdd _ _, Or.inl rfl⟩
  | addReflex rule => exact ⟨_, self.nowMs, rfl, le_rfl, Or.inr (Or.inl ⟨self.keptRule platform rule, rfl⟩)⟩
  | removeReflex id =>
      by_cases hthere : id ∈ self.rules
      · have hremoved : (self.removeReflex id).notes = { self.notes with rules := self.rules.erase id } := by
          unfold removeReflex
          rw [if_pos hthere]
          rfl
        exact ⟨_, self.nowMs, hremoved, le_rfl, Or.inr (Or.inr ⟨id, rfl⟩)⟩
      · exact hsame (congrArg notes (if_neg hthere))
  | addRoot seed => exact hsame (notes_spawn _)
  | trimLowEnergy visits dozes dies => exact hsame (notes_trimLowEnergy visits dozes dies)
  | injectSeedVariation visits shift energy coin baseSeed =>
      exact hsame (notes_injectSeedVariation visits shift energy coin baseSeed)
  | runDreamCycle visits tookMs => exact hsame (notes_runDreamCycle visits tookMs)
  | runCollectiveDream groups cfg nowMs tookMs => exact hsame (notes_runCollectiveDream tookMs groups cfg nowMs)
  | awakenNow visits => exact hsame (notes_awakenNow visits)
  | applyMirrorEpoch visits epoch scale maxOps protectSalience =>
      exact hsame (notes_applyMirrorEpoch visits epoch scale maxOps protectSalience)
  | _ => exact hsame rfl

/-! ## The queues of a history -/

/-- The hits of a history that stand under a key. -/
def under (key : String) (history : List (String × Hit F)) : List (Hit F) :=
  (history.filter fun e => e.1 = key).map Prod.snd

/-- The queues are those that the history leaves behind, whose times ascend up to now. -/
structure Noted (history : List (String × Hit F)) (notes : Notes F) : Prop where
  queues : ∀ key, notes.tokenHits key = pushed 512 Hit.ts ((under key history).map fun hit => (hit, 120000))
  ordered : InOrder (fun e => e.2.ts) history
  past : ∀ e ∈ history, e.2.ts.toNat ≤ notes.nowMs.toNat

variable {history : List (String × Hit F)} {notes after : Notes F}

omit [FloatLike F] in
/-- What is noted of a history depends on the hits, and on the time only in that it does not go back. -/
theorem Noted.congr (h : Noted history notes) (hhits : after.tokenHits = notes.tokenHits)
    (hnow : notes.nowMs.toNat ≤ after.nowMs.toNat) : Noted history after :=
  ⟨fun key => hhits ▸ h.queues key, h.ordered, fun e he => (h.past e he).trans hnow⟩

omit [FloatLike F] in
/-- One more recording goes to the end of the history, under its lowered token and with the next number. -/
theorem Noted.record (h : Noted history notes) (strength : F) (recording : String × NodeId × UInt32) :
    Noted (history ++ [(platform.toLowercase recording.1,
      ⟨notes.nextHitSeq, notes.nowMs, recording.2.1, strength, recording.2.2⟩)])
      (notes.recordTokenHit platform strength recording) := by
  refine ⟨fun key => ?_, ?_, fun e he => ?_⟩
  · unfold under
    rw [List.filter_append, List.map_append, List.map_append]
    by_cases hkey : key = platform.toLowercase recording.1
    · subst hkey
      rw [List.filter_singleton]
      simp only [decide_true, cond_true, List.map_cons, List.map_nil]
      rw [pushed_concat]
      refine (if_pos rfl).trans ?_
      rw [h.queues]
      rfl
    · rw [List.filter_singleton]
      simp only [Ne.symm hkey, decide_false, cond_false, List.map_nil, List.append_nil]
      exact (if_neg hkey).trans (h.queues key)
  · refine List.pairwise_append.mpr ⟨h.ordered, List.pairwise_singleton .., fun e he hit hhit => ?_⟩
    obtain rfl := List.mem_singleton.mp hhit
    exact h.past e he
  · rcases List.mem_append.mp he with hold | hnew
    · exact h.past e hold
    · obtain rfl := List.mem_singleton.mp hnew
      exact le_rfl

omit [FloatLike F] in
/-- So do several, one after the other. -/
theorem Noted.records (h : Noted history notes) (strength : F) (recordings : List (String × NodeId × UInt32)) :
    Noted (history ++ notes.hits platform strength recordings)
      (recordings.foldl (Notes.recordTokenHit platform strength) notes) := by
  induction recordings generalizing history notes with
  | nil => rwa [Notes.hits, List.append_nil]
  | cons recording recordings ih =>
      have hrest := ih (@Noted.record F platform _ _ h strength recording)
      rwa [List.append_assoc] at hrest

/-- Every call adds the hits that it makes to the history, by the kinds of calls. -/
theorem Noted.call (h : Noted history self.notes) (c : FieldCall F) :
    Noted (history ++ self.hitsOf platform c) (self.call platform c).notes := by
  by_cases himpulse : ∃ visits imp, c = .routeImpulse visits imp
  · obtain ⟨visits, imp, rfl⟩ := himpulse
    obtain ⟨counters, hreact⟩ := @notes_react F _ platform self visits imp
    have hstart : Noted history (self.react platform visits imp).notes := by
      rw [hreact]
      exact h.congr rfl le_rfl
    show Noted (history ++ (self.react platform visits imp).notes.hits platform imp.strength _)
      (self.routeImpulse platform visits imp).notes
    rw [notes_routeImpulse]
    exact hstart.records imp.strength _
  · push Not at himpulse
    obtain ⟨rules, nowMs, hnotes, hclock, -⟩ := @notes_call F _ platform self c himpulse
    have hnone : self.hitsOf platform c = [] := by
      cases c with
      | routeImpulse visits imp => exact absurd rfl (himpulse visits imp)
      | _ => rfl
    rw [hnone, List.append_nil, hnotes]
    exact h.congr rfl hclock

/-- Every run leaves the queues of its history. -/
theorem Noted.run (h : Noted history self.notes) (calls : List (FieldCall F)) :
    Noted (history ++ hitHistory platform self calls) (calls.foldl (ClusterField.call platform) self).notes := by
  induction calls generalizing history self with
  | nil => rwa [hitHistory, List.append_nil]
  | cons c calls ih =>
      have hrest := ih (@Noted.call F _ platform _ _ h c)
      rwa [List.append_assoc] at hrest

omit [FloatLike F] in
/-- A field without hits. -/
theorem noted_nil (h : ∀ key, self.tokenHits key = []) : Noted [] self.notes :=
  ⟨h, List.Pairwise.nil, fun _ he => absurd he List.not_mem_nil⟩

omit [FloatLike F] in
/-- A hit is recent if the window has not passed since, counted in natural numbers: the difference saturates.
-/
theorem cutoff_le_iff {windowMs : UInt32} {ts : UInt64} : saturatingSub self.nowMs windowMs.toUInt64 ≤ ts ↔
    self.nowMs.toNat ≤ windowMs.toNat + ts.toNat := by
  rw [saturatingSub_le_iff, UInt32.toNat_toUInt64]

omit [FloatLike F] in
/-- What is in a window stands behind what is not. -/
theorem window_back (windowMs : UInt32) {hits : List (Hit F)} (h : InOrder Hit.ts hits) :
    hits.Pairwise fun a b => decide (saturatingSub self.nowMs windowMs.toUInt64 ≤ a.ts) = true →
      decide (saturatingSub self.nowMs windowMs.toUInt64 ≤ b.ts) = true := by
  refine h.imp fun {a b} hab ha => ?_
  rw [decide_eq_true_iff, cutoff_le_iff] at ha ⊢
  omega

omit [FloatLike F] in
/-- The hits of a token are in the order of their times. -/
theorem Noted.inOrder (h : Noted history notes) (key : String) : InOrder Hit.ts (under key history) :=
  List.pairwise_map.mpr (h.ordered.sublist List.filter_sublist)

omit [FloatLike F] in
/-- A query of a window that the retention covers finds the last 512 hits that the window has. -/
theorem recentFor_eq_lastOf (h : Noted history self.notes) (token : String) {windowMs : UInt32}
    (hwindow : windowMs.toNat ≤ 120000) : self.recentFor platform token windowMs =
      lastOf 512 ((under (platform.toLowercase token) history).filter fun hit =>
        saturatingSub self.nowMs windowMs.toUInt64 ≤ hit.ts) := by
  have hordered := h.inOrder (platform.toLowercase token)
  have hfirst : ((under (platform.toLowercase token) history).map fun hit => (hit, (120000 : UInt64))).map Prod.fst =
      under (platform.toLowercase token) history := by
    rw [List.map_map]
    exact List.map_id _
  have hremembered := @remembered_sublist _ Hit.ts
    ((under (platform.toLowercase token) history).map fun hit => (hit, (120000 : UInt64)))
  rw [hfirst] at hremembered
  -- No push has found too old what the window still has.
  have hyoung := @filter_remembered _ Hit.ts
    ((under (platform.toLowercase token) history).map fun hit => (hit, (120000 : UInt64)))
    (fun hit => decide (saturatingSub self.nowMs windowMs.toUInt64 ≤ hit.ts)) (fun e he push hpush hp => by
      obtain ⟨hit, -, rfl⟩ := List.mem_map.mp he
      obtain ⟨newer, hnewer, rfl⟩ := List.mem_map.mp hpush
      obtain ⟨entry, hentry, rfl⟩ := List.mem_map.mp hnewer
      have hpast : entry.2.ts.toNat ≤ self.nowMs.toNat := h.past entry (List.mem_of_mem_filter hentry)
      have hwithin : self.nowMs.toNat ≤ windowMs.toNat + hit.ts.toNat := cutoff_le_iff.mp (of_decide_eq_true hp)
      refine saturatingSub_le_iff.mpr ?_
      show entry.2.ts.toNat ≤ hit.ts.toNat + 120000
      omega)
  rw [hfirst] at hyoung
  have hqueue : self.tokenHits (platform.toLowercase token) =
      lastOf 512 (remembered Hit.ts ((under (platform.toLowercase token) history).map fun hit => (hit, 120000))) :=
    (h.queues _).trans (pushed_eq (hfirst.symm ▸ hordered))
  unfold recentFor
  rw [hqueue, reverse_takeWhile_eq_filter
    (window_back windowMs ((hordered.sublist hremembered).sublist (lastOf_suffix _ _).sublist)),
    filter_lastOf 512 (window_back windowMs (hordered.sublist hremembered)), hyoung]

variable {start : ClusterField F}

/-- Queries of a window find, in order, the hits of the window among the last 512 of the token: what is taken
from a queue, for its age or for the length of the queue, no such query has to see. -/
theorem recentFor_run (hstart : ∀ key, start.tokenHits key = []) (calls : List (FieldCall F)) (token : String)
    {windowMs : UInt32} (hwindow : windowMs.toNat ≤ 120000) :
    (calls.foldl (call platform) start).recentFor platform token windowMs =
      (lastOf 512 (under (platform.toLowercase token) (hitHistory platform start calls))).filter fun hit =>
        saturatingSub (calls.foldl (call platform) start).nowMs windowMs.toUInt64 ≤ hit.ts := by
  have hnoted := @Noted.run F _ platform _ _ (noted_nil hstart) calls
  rw [List.nil_append] at hnoted
  rw [recentFor_eq_lastOf hnoted token hwindow, filter_lastOf 512 (window_back windowMs (hnoted.inOrder _))]

/-- Impulses on one cell: one before the window, and two of its tokens in the window. -/
def sampleCalls : List (FieldCall ℚ) :=
  [.addRoot "cpu/load", .routeImpulse .listed ⟨.query, "cpu", 0.5, 0, []⟩, .tickAll .listed (fun _ => 0) 900,
    .routeImpulse .listed ⟨.query, "cpu/load", 0.5, 0, []⟩, .routeImpulse .listed ⟨.write, "load", 0.5, 0, []⟩]

/-- After the sample calls the recent hits of a token are found, and the early one is not among them. -/
theorem recentFor_run_sampleCalls :
    (sampleCalls.foldl (call (constantPlatform ℚ 0.5)) new).recentFor (constantPlatform ℚ 0.5) "cpu" 500 =
      (lastOf 512 (under "cpu" (hitHistory (constantPlatform ℚ 0.5) new sampleCalls))).filter fun hit =>
        saturatingSub (sampleCalls.foldl (call (constantPlatform ℚ 0.5)) new).nowMs (500 : UInt32).toUInt64 ≤ hit.ts :=
  recentFor_run (fun _ => rfl) sampleCalls "cpu" (by decide)

end ClusterField

end LiminalDB
