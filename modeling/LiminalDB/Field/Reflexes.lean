import LiminalDB.Field.Hits

/-! # When reflexes fire: `process_reflex_for`

An impulse is counted under each of its tokens. A counter forgets what is older than the longest window of the
rules that watch it then, and all but the last 256 impulses, and a rule fires if enough of what is left matches
(`reflex_fires_iff`). -/

namespace LiminalDB

variable {F : Type}

/-- The firing of a rule: the rule, when, and the number of impulses that matched. -/
def EventDelta.firing : EventDelta F → Option (ReflexId × UInt64 × UInt16)
  | .reflexFire id atMs matched => some (id, atMs, matched)
  | _ => none

namespace ClusterField

variable [FloatLike F] {platform : Platform F} {self : ClusterField F}

/-- The firings that a field has told its journal. -/
def firings (self : ClusterField F) : List (ReflexId × UInt64 × UInt16) := self.journal.filterMap EventDelta.firing

/-! ## What an impulse fires -/

omit [FloatLike F] in
/-- An emitted delta is a firing, or it leaves the firings as they are. -/
theorem firings_emit (delta : EventDelta F) : (self.emit delta).firings = self.firings ++ delta.firing.toList := by
  unfold firings emit
  rw [List.filterMap_append]
  cases h : delta.firing with
  | none => rw [List.filterMap_cons_none h]; rfl
  | some firing => rw [List.filterMap_cons_some h]; rfl

omit [FloatLike F] in
/-- A delta of another kind leaves the firings as they are. -/
theorem firings_emit_of_none {delta : EventDelta F} (h : delta.firing = none) :
    (self.emit delta).firings = self.firings := by
  rw [firings_emit, h, Option.toList_none, List.append_nil]

omit [FloatLike F] in
/-- So do any number of them, one after the other. -/
theorem firings_foldl_emit {deltas : List (EventDelta F)} (h : ∀ delta ∈ deltas, delta.firing = none) :
    (deltas.foldl emit self).firings = self.firings := by
  induction deltas generalizing self with
  | nil => rfl
  | cons delta deltas ih =>
      rw [List.foldl_cons, ih fun d hd => h d (List.mem_cons_of_mem _ hd),
        firings_emit_of_none (h _ List.mem_cons_self)]

/-- Spawning a cell fires nothing. -/
theorem firings_spawn (cell : NodeCell F) : (self.spawn platform cell).firings = self.firings := by
  have hattach := indexing_keeps firings (fun _ _ => rfl) (fun _ _ _ => rfl) platform
    ({ self with nextId := self.nextId + 1 }.setCell cell.id cell) cell.id
  exact (firings_emit_of_none rfl).trans hattach

/-- Nor does waking one, although it emits a delta. -/
theorem firings_wake (id : NodeId) : (self.wake id).firings = self.firings := by
  unfold wake
  split
  · split
    · exact firings_emit_of_none rfl
    · rfl
  · rfl

/-- Firing a rule records it once, with the time and the number of matches, whatever its action is. -/
theorem firings_fireReflex (visits : Visits F) (rule : ReflexRule F) (matched : UInt16) (token : String) :
    (self.fireReflex platform visits rule matched token).firings =
      self.firings ++ [(rule.id, self.nowMs, matched)] := by
  have hfired : (self.emit (.reflexFire rule.id self.nowMs matched)).firings =
      self.firings ++ [(rule.id, self.nowMs, matched)] := firings_emit _
  unfold fireReflex
  cases rule.action with
  | emitHint hint => exact hfired
  | spawnSeed seed affinityShift => exact (firings_spawn _).trans hfired
  | wakeSleeping count => exact (list_foldl_keeps firings (fun _ id => firings_wake id) _ _).trans hfired
  | boostLinks factor top =>
      dsimp only [performBoostLinks]
      split
      · exact hfired
      · refine (list_foldl_keeps firings (fun _ _ => ?_) _ _).trans hfired
        rfl

/-- By induction over the rules that are due, each of them is recorded in its turn. -/
theorem firings_fireAll (visits : Visits F) (token : String) (due : List (ReflexRule F × UInt16)) :
    (self.fireAll platform visits token due).firings =
      self.firings ++ due.map fun d => (d.1.id, self.nowMs, d.2) := by
  unfold fireAll
  induction due generalizing self with
  | nil => rw [List.map_nil, List.append_nil]; rfl
  | cons d due ih =>
      have hnow : (self.fireReflex platform visits d.1 d.2 token).nowMs = self.nowMs :=
        congrArg Notes.nowMs (notes_fireReflex visits d.1 d.2 token)
      rw [List.foldl_cons, ih, firings_fireReflex, hnow, List.append_assoc, List.singleton_append, List.map_cons]

/-- The rules that the tokens of an impulse find due, with the number of impulses that match. -/
def dueRules (platform : Platform F) (visits : Visits F) (imp : Impulse F) :
    ClusterField F → List String → List ReflexId → List (ReflexRule F × UInt16)
  | _, [], _ => []
  | self, token :: tokens, fired =>
      let (after, due) := self.considerImpulse platform visits (platform.toLowercase token) imp fired
      due ++ dueRules platform visits imp after tokens (fired ++ due.map fun d => d.1.id)

/-- Which rules an impulse fires depends on rules, counters and clock alone. -/
theorem dueRules_congr (visits : Visits F) (imp : Impulse F) (tokens : List String) (fired : List ReflexId)
    {self self' : ClusterField F} (h : self'.reflexes = self.reflexes) :
    dueRules platform visits imp self' tokens fired = dueRules platform visits imp self tokens fired := by
  induction tokens generalizing self self' fired with
  | nil => rfl
  | cons token tokens ih =>
      obtain ⟨hdue, hafter⟩ := considerImpulse_congr platform visits imp (platform.toLowercase token) fired h
      simp only [dueRules, hdue]
      rw [ih _ hafter]

/-- By induction over the tokens of an impulse: the firings that it adds are the rules that are due, in their
order. -/
theorem firings_processReflexes (visits : Visits F) (imp : Impulse F) (tokens : List String) (fired : List ReflexId) :
    (processReflexes platform visits imp self tokens fired).firings =
      self.firings ++ (dueRules platform visits imp self tokens fired).map fun d => (d.1.id, self.nowMs, d.2) := by
  induction tokens generalizing self fired with
  | nil => rw [dueRules, List.map_nil, List.append_nil]; rfl
  | cons token tokens ih =>
      have hfired := @firings_fireAll F _ platform
        (self.considerImpulse platform visits (platform.toLowercase token) imp fired).1 visits
        (platform.toLowercase token) (self.considerImpulse platform visits (platform.toLowercase token) imp fired).2
      have hnotes := @notes_fireAll F _ platform
        (self.considerImpulse platform visits (platform.toLowercase token) imp fired).1 visits
        (platform.toLowercase token) (self.considerImpulse platform visits (platform.toLowercase token) imp fired).2
      have hsame : (self.processReflexFor platform visits token imp fired).1.reflexes =
          (self.considerImpulse platform visits (platform.toLowercase token) imp fired).1.reflexes :=
        congrArg (fun notes : Notes F => (notes.rules, notes.counters, notes.nowMs)) hnotes
      have hnow : (self.processReflexFor platform visits token imp fired).1.nowMs = self.nowMs :=
        congrArg Notes.nowMs hnotes
      rw [processReflexes, dueRules, List.map_append, ← List.append_assoc]
      refine (@ih (self.processReflexFor platform visits token imp fired).1
        (self.processReflexFor platform visits token imp fired).2).trans ?_
      rw [dueRules_congr visits imp tokens _ hsame, hnow]
      exact congrArg (· ++ _) hfired

/-- What cells make of an impulse is no firing. -/
theorem firings_ingestAt (imp : Impulse F) (acc : Responses F) (id : NodeId)
    (h : ∀ delta ∈ acc.deltas, delta.firing = none) :
    (ingestAt platform imp acc id).field.firings = acc.field.firings ∧
      ∀ delta ∈ (ingestAt platform imp acc id).deltas, delta.firing = none := by
  unfold ingestAt
  split
  · dsimp only
    split
    · refine ⟨rfl, fun delta hdelta => ?_⟩
      rcases List.mem_append.mp hdelta with hold | hnew
      · exact h delta hold
      · rw [List.mem_singleton.mp hnew]
        rfl
    · exact ⟨rfl, h⟩
  · exact ⟨rfl, h⟩

/-- By induction over the targets: a cell that takes in an impulse fires nothing, and the deltas of its answer
are of other kinds. -/
theorem firings_ingest (imp : Impulse F) (ids : List NodeId) (acc : Responses F)
    (h : ∀ delta ∈ acc.deltas, delta.firing = none) :
    (ids.foldl (ingestAt platform imp) acc).field.firings = acc.field.firings ∧
      ∀ delta ∈ (ids.foldl (ingestAt platform imp) acc).deltas, delta.firing = none := by
  induction ids generalizing acc with
  | nil => exact ⟨rfl, h⟩
  | cons id ids ih =>
      obtain ⟨hfirings, hdeltas⟩ := firings_ingestAt imp acc id h
      obtain ⟨hrest, hall⟩ := ih _ hdeltas
      exact ⟨hrest.trans hfirings, hall⟩

omit [FloatLike F] in
/-- Recording the route of an impulse fires nothing. -/
theorem firings_recordRouteSequence (visits : Visits F) (nodes : List NodeId) :
    (self.recordRouteSequence visits nodes).firings = self.firings := by
  fun_induction recordRouteSequence visits self nodes with
  | case1 self source target rest self' ih =>
      refine ih.trans ?_
      show self'.firings = self.firings
      unfold self'
      split <;> rfl
  | case2 => rfl

/-- An impulse fires the rules that its tokens find due, in that order, and no others. -/
theorem firings_routeImpulse (visits : Visits F) (imp : Impulse F) :
    (self.routeImpulse platform visits imp).firings = self.firings ++
      (dueRules platform visits imp self (tokenize platform imp.pattern).eraseDups []).map fun d =>
        (d.1.id, self.nowMs, d.2) := by
  have hhormone : (self.feelHormone imp).reflexes = self.reflexes :=
    congrArg (fun notes : Notes F => (notes.rules, notes.counters, notes.nowMs)) (notes_feelHormone imp)
  have hreact : (self.react platform visits imp).firings = self.firings ++
      (dueRules platform visits imp self (tokenize platform imp.pattern).eraseDups []).map fun d =>
        (d.1.id, self.nowMs, d.2) := by
    have hjournal : (self.feelHormone imp).firings = self.firings := by
      unfold feelHormone
      split <;> rfl
    unfold react
    rw [firings_processReflexes, dueRules_congr visits imp _ [] hhormone, hjournal]
    exact congrArg (fun now => _ ++ List.map (fun d : ReflexRule F × UInt16 => (d.1.id, now, d.2)) _)
      (congrArg (fun r => r.2.2) hhormone)
  obtain ⟨hingested, hdeltas⟩ := @firings_ingest F _ platform imp
    ((self.react platform visits imp).targets visits (tokenize platform imp.pattern) imp)
    ⟨self.react platform visits imp, [], []⟩ (fun _ hdelta => absurd hdelta List.not_mem_nil)
  unfold routeImpulse
  refine (firings_foldl_emit hdeltas).trans ((?_ : _ = _).trans hreact)
  have hhits (responded : List (NodeId × UInt32)) (s : ClusterField F) (token : String) :
      (responded.foldl (fun s (r : NodeId × UInt32) => s.recordTokenHit platform token r.1 imp.strength r.2)
        s).firings = s.firings := by
    refine list_foldl_keeps firings (fun _ _ => ?_) responded s
    rfl
  have hrecent (nodes : List NodeId) (s : ClusterField F) (token : String) :
      (recordRecent imp nodes s token).firings = s.firings := rfl
  refine (list_foldl_keeps firings (hhits _) _ _).trans ?_
  rw [list_foldl_keeps firings (hrecent _), firings_recordRouteSequence, hingested]

/-! ## Relevant rules -/

/-- Each rule stands under its id. -/
def RulesKeyed (self : ClusterField F) : Prop :=
  ∀ (id : ReflexId) (rule : ReflexRule F), self.rules[id]? = some rule → rule.id = id

omit [FloatLike F] in
/-- The rules that matter for a token are those that are enabled, of the kind of the impulse, and match the
token. -/
theorem mem_relevantRules (visits : Visits F) (token : String) (imp : Impulse F) (rule : ReflexRule F) :
    rule ∈ self.relevantRules platform visits token imp ↔ (∃ id : ReflexId, self.rules[id]? = some rule) ∧
      rule.enabled = true ∧ rule.when.kind = imp.kind ∧
        reflexTokenMatches platform rule.when.token token = true := by
  have hvalue : rule ∈ self.rules.values ↔ ∃ id : ReflexId, self.rules[id]? = some rule := by
    rw [values_eq_map_toList, List.mem_map]
    constructor
    · rintro ⟨⟨id, kept⟩, hmem, rfl⟩
      exact ⟨id, Std.ExtTreeMap.mem_toList_iff_getElem?_eq_some.mp hmem⟩
    · rintro ⟨id, hrule⟩
      exact ⟨(id, rule), Std.ExtTreeMap.mem_toList_iff_getElem?_eq_some.mpr hrule, rfl⟩
  unfold relevantRules
  rw [List.mem_filter, (visits.rules.perm _).mem_iff, hvalue, Bool.and_eq_true, Bool.and_eq_true, decide_eq_true_eq,
    and_assoc]

omit [FloatLike F] in
/-- No two relevant rules have the same id. -/
theorem nodup_relevantRules (h : self.RulesKeyed) (visits : Visits F) (token : String) (imp : Impulse F) :
    ((self.relevantRules platform visits token imp).map ReflexRule.id).Nodup := by
  have hids : self.rules.values.map ReflexRule.id = self.rules.keys := by
    rw [values_eq_map_toList, List.map_map, ← Std.ExtTreeMap.map_fst_toList_eq_keys]
    exact List.map_congr_left fun e he => h e.1 e.2 (Std.ExtTreeMap.mem_toList_iff_getElem?_eq_some.mp he)
  unfold relevantRules
  refine List.Nodup.sublist (List.filter_sublist.map _) ?_
  rw [((visits.rules.perm _).map _).nodup_iff, hids]
  exact Std.ExtTreeMap.nodup_keys

omit [FloatLike F] in
/-- A rule with a single token is relevant for that token only. -/
theorem reflexTokenMatches_iff {rule : ReflexRule F} {token : String}
    (hsingle : tokenize platform rule.when.token = [rule.when.token]) :
    reflexTokenMatches platform rule.when.token token = true ↔ token = rule.when.token := by
  unfold reflexTokenMatches
  rw [hsingle, List.any_cons, List.any_nil, Bool.or_false, Bool.or_self, beq_iff_eq, eq_comm]

/-- Whether an impulse of the past counts for a rule. -/
def matching (self : ClusterField F) (rule : ReflexRule F) (e : UInt64 × F) : Bool :=
  saturatingSub self.nowMs e.1 ≤ rule.when.windowMs.toUInt64 && decide (rule.when.minStrength ≤ e.2)

/-- The rules that are due are those of the relevant ones that have not fired and have enough matches. -/
theorem ids_pendingRules (token : String) (imp : Impulse F) (relevant : List (ReflexRule F))
    (fired : List ReflexId) : (self.pendingRules token imp relevant fired).map (fun d => d.1.id) =
      (relevant.filter fun r => r.id ∉ fired ∧ r.when.minCount ≤ UInt16.ofNat ((self.counters (token, imp.kind)).countP
        (self.matching r))).map ReflexRule.id := by
  unfold pendingRules
  rw [List.map_filterMap, ← List.filterMap_eq_map, List.filterMap_filter]
  refine List.filterMap_congr fun r _ => ?_
  by_cases hfired : r.id ∈ fired
  · simp [hfired]
  · by_cases hcount : r.when.minCount ≤ UInt16.ofNat ((self.counters (token, imp.kind)).countP (self.matching r))
    · rw [if_neg hfired, if_pos (decide_eq_true ⟨hfired, hcount⟩)]
      exact congrArg (Option.map _) (if_pos hcount)
    · have hnot : ¬ decide (r.id ∉ fired ∧ r.when.minCount ≤ UInt16.ofNat ((self.counters (token, imp.kind)).countP
          (self.matching r))) = true := fun h => hcount (of_decide_eq_true h).2
      rw [if_neg hfired, if_neg hnot]
      exact congrArg (Option.map _) (if_neg hcount)

/-- A token finds a rule due, once, if the rule is relevant, has not fired yet and enough impulses match. -/
theorem count_pendingRules (hkeyed : self.RulesKeyed) (visits : Visits F) (token : String) (imp : Impulse F)
    (fired : List ReflexId) {rule : ReflexRule F} (hrule : self.rules[rule.id]? = some rule)
    (henabled : rule.enabled = true) :
    ((self.considerImpulse platform visits token imp fired).2.map fun d => d.1.id).count rule.id =
      if (rule.when.kind = imp.kind ∧ reflexTokenMatches platform rule.when.token token = true) ∧ rule.id ∉ fired ∧
          rule.when.minCount ≤ UInt16.ofNat (((self.considerImpulse platform visits token imp fired).1.counters
            (token, imp.kind)).countP (self.matching rule)) then 1 else 0 := by
  have hrelevant : rule ∈ self.relevantRules platform visits token imp ↔
      rule.when.kind = imp.kind ∧ reflexTokenMatches platform rule.when.token token = true := by
    rw [mem_relevantRules]
    exact ⟨fun h => h.2.2, fun h => ⟨⟨rule.id, hrule⟩, henabled, h⟩⟩
  -- The due rules are those of the relevant ones that have not fired and have enough matches.
  have hdue : (self.considerImpulse platform visits token imp fired).2.map (fun d => d.1.id) =
      ((self.relevantRules platform visits token imp).filter fun r => r.id ∉ fired ∧
        r.when.minCount ≤ UInt16.ofNat (((self.considerImpulse platform visits token imp fired).1.counters
          (token, imp.kind)).countP (self.matching r))).map ReflexRule.id := ids_pendingRules token imp _ fired
  rw [hdue, ((nodup_relevantRules hkeyed visits token imp).sublist (List.filter_sublist.map _)).count]
  refine if_congr ?_ rfl rfl
  rw [List.mem_map, ← hrelevant]
  constructor
  · rintro ⟨r, hr, hid⟩
    obtain ⟨hmem, hpending⟩ := List.mem_filter.mp hr
    obtain ⟨⟨id, hstored⟩, -⟩ := (mem_relevantRules visits token imp r).mp hmem
    have hsame : r = rule := by
      have hkey : r.id = id := hkeyed id r hstored
      rw [← hkey, hid, hrule] at hstored
      exact (Option.some.inj hstored).symm
    subst hsame
    exact ⟨hmem, of_decide_eq_true hpending⟩
  · rintro ⟨hmem, hpending⟩
    exact ⟨rule, List.mem_filter.mpr ⟨hmem, decide_eq_true hpending⟩, rfl⟩

/-- How far back the counter of a token remembers when an impulse comes. -/
def retention (platform : Platform F) (visits : Visits F) (self : ClusterField F) (token : String) (imp : Impulse F) :
    UInt64 :=
  max (((self.relevantRules platform visits token imp).map fun rule => rule.when.windowMs.toUInt64).max?.getD 2000) 1

/-- The counter of a token with an impulse. -/
def recount (platform : Platform F) (visits : Visits F) (self : ClusterField F) (token : String) (imp : Impulse F) :
    List (UInt64 × F) :=
  expire self.nowMs (self.retention platform visits token imp) 256 Prod.fst
    (self.counters (token, imp.kind) ++ [(self.nowMs, imp.strength)])

/-- Considering a token counts the impulse for this token and its kind, and for nothing else. -/
theorem counters_considerImpulse (visits : Visits F) (token : String) (imp : Impulse F) (fired : List ReflexId)
    (key : String × ImpulseKind) : (self.considerImpulse platform visits token imp fired).1.counters key =
      if key = (token, imp.kind) then self.recount platform visits token imp else self.counters key := by
  unfold considerImpulse countImpulse recount
  dsimp only
  split
  · rename_i heq
    rw [heq]
    rfl
  · rfl

section Rule

variable {rule : ReflexRule F}

/-- An impulse without the token of a rule, or of another kind, does not find it due. -/
theorem count_dueRules_eq_zero (hkeyed : self.RulesKeyed) (visits : Visits F) (imp : Impulse F) {tokens : List String}
    (hlower : ∀ token ∈ tokens, platform.toLowercase token = token) (fired : List ReflexId)
    (hrule : self.rules[rule.id]? = some rule) (henabled : rule.enabled = true)
    (hsingle : tokenize platform rule.when.token = [rule.when.token])
    (hother : ¬ (rule.when.kind = imp.kind ∧ rule.when.token ∈ tokens)) :
    ((dueRules platform visits imp self tokens fired).map fun d => d.1.id).count rule.id = 0 := by
  induction tokens generalizing self fired with
  | nil => rfl
  | cons token tokens ih =>
      have hrest := @ih (self.considerImpulse platform visits token imp fired).1 hkeyed
        (fun t ht => hlower t (List.mem_cons_of_mem _ ht))
        (fired ++ (self.considerImpulse platform visits token imp fired).2.map fun d => d.1.id) hrule
        (fun h => hother ⟨h.1, List.mem_cons_of_mem _ h.2⟩)
      have hfirst : ¬ (rule.when.kind = imp.kind ∧ reflexTokenMatches platform rule.when.token token = true) := by
        rw [reflexTokenMatches_iff hsingle]
        rintro ⟨hkind, rfl⟩
        exact hother ⟨hkind, List.mem_cons_self⟩
      rw [dueRules, hlower token List.mem_cons_self, List.map_append, List.count_append, hrest,
        count_pendingRules hkeyed visits token imp fired hrule henabled, if_neg fun h => hfirst h.1]

/-- An impulse finds a rule due once, or not at all. -/
theorem count_dueRules (hkeyed : self.RulesKeyed) (visits : Visits F) (imp : Impulse F) {tokens : List String}
    (hnodup : tokens.Nodup) (hlower : ∀ token ∈ tokens, platform.toLowercase token = token) {fired : List ReflexId}
    (hfired : rule.id ∉ fired) (hrule : self.rules[rule.id]? = some rule) (henabled : rule.enabled = true)
    (hsingle : tokenize platform rule.when.token = [rule.when.token]) :
    ((dueRules platform visits imp self tokens fired).map fun d => d.1.id).count rule.id =
      if (rule.when.kind = imp.kind ∧ rule.when.token ∈ tokens) ∧ rule.when.minCount ≤
          UInt16.ofNat ((self.recount platform visits rule.when.token imp).countP (self.matching rule)) then 1 else 0 := by
  induction tokens generalizing self fired with
  | nil => rw [if_neg fun h => absurd h.1.2 List.not_mem_nil]; rfl
  | cons token tokens ih =>
      obtain ⟨hnew, hrestNodup⟩ := List.nodup_cons.mp hnodup
      have hrestLower (t : String) (ht : t ∈ tokens) := hlower t (List.mem_cons_of_mem token ht)
      have hcount := @count_pendingRules F _ platform self hkeyed visits token imp fired rule hrule henabled
      rw [counters_considerImpulse, if_pos rfl] at hcount
      -- The rule comes with its own token, and any other token leaves it and its counter alone.
      rw [dueRules, hlower token List.mem_cons_self, List.map_append, List.count_append]
      by_cases htoken : token = rule.when.token
      · -- No other token of the impulse is that of the rule.
        have hrest := @count_dueRules_eq_zero F _ platform
          (self.considerImpulse platform visits token imp fired).1 rule hkeyed visits imp tokens hrestLower
          (fired ++ (self.considerImpulse platform visits token imp fired).2.map fun d => d.1.id) hrule henabled
          hsingle (fun h => hnew (htoken ▸ h.2))
        rw [hrest, hcount, Nat.add_zero]
        refine if_congr ?_ rfl rfl
        rw [reflexTokenMatches_iff hsingle, htoken]
        simp [hfired]
      · rw [if_neg fun h => htoken ((reflexTokenMatches_iff hsingle).mp h.1.2)] at hcount
        have hfired' : rule.id ∉ fired ++ (self.considerImpulse platform visits token imp fired).2.map fun d => d.1.id :=
          fun h => (List.mem_append.mp h).elim hfired (List.count_eq_zero.mp hcount)
        have hrest := @ih (self.considerImpulse platform visits token imp fired).1 hkeyed hrestNodup hrestLower
          _ hfired' hrule
        have hcounter : (self.considerImpulse platform visits token imp fired).1.recount platform visits
            rule.when.token imp = self.recount platform visits rule.when.token imp := by
          have hsame := @counters_considerImpulse F _ platform self visits token imp fired (rule.when.token, imp.kind)
          rw [if_neg fun h => htoken (congrArg Prod.fst h).symm] at hsame
          unfold recount
          rw [hsame]
          rfl
        rw [hcounter] at hrest
        rw [hcount, hrest, Nat.zero_add]
        refine if_congr ?_ rfl rfl
        rw [List.mem_cons, or_iff_right (Ne.symm htoken)]
        exact Iff.rfl

end Rule

/-! ## Counters over a run -/

/-- By induction over the tokens, which are in lower case and different: each of them is counted once, and
firing rules counts nothing. -/
theorem counters_processReflexes (visits : Visits F) (imp : Impulse F) {tokens : List String} (hnodup : tokens.Nodup)
    (hlower : ∀ token ∈ tokens, platform.toLowercase token = token) (fired : List ReflexId)
    (key : String × ImpulseKind) : (processReflexes platform visits imp self tokens fired).counters key =
      if key.2 = imp.kind ∧ key.1 ∈ tokens then self.recount platform visits key.1 imp else self.counters key := by
  induction tokens generalizing self fired with
  | nil => exact (if_neg fun h => absurd h.2 List.not_mem_nil).symm
  | cons token tokens ih =>
      obtain ⟨hnew, hrestNodup⟩ := List.nodup_cons.mp hnodup
      have hnotes := @notes_fireAll F _ platform
        (self.considerImpulse platform visits (platform.toLowercase token) imp fired).1 visits
        (platform.toLowercase token) (self.considerImpulse platform visits (platform.toLowercase token) imp fired).2
      have hcounters : (self.processReflexFor platform visits token imp fired).1.counters key =
          (self.considerImpulse platform visits (platform.toLowercase token) imp fired).1.counters key :=
        congrFun (congrArg Notes.counters hnotes) key
      have hrules : (self.processReflexFor platform visits token imp fired).1.rules = self.rules :=
        congrArg Notes.rules hnotes
      have hnow : (self.processReflexFor platform visits token imp fired).1.nowMs = self.nowMs :=
        congrArg Notes.nowMs hnotes
      rw [hlower token List.mem_cons_self, counters_considerImpulse] at hcounters
      rw [processReflexes]
      refine (@ih (self.processReflexFor platform visits token imp fired).1 hrestNodup
        (fun t ht => hlower t (List.mem_cons_of_mem token ht))
        (self.processReflexFor platform visits token imp fired).2).trans ?_
      -- Each token has its turn once: a counter is written then, and not again by the tokens behind it.
      by_cases hkey : key = (token, imp.kind)
      · subst hkey
        rw [if_neg fun h => hnew h.2, hcounters, if_pos rfl, if_pos ⟨rfl, List.mem_cons_self⟩]
      · rw [if_neg hkey] at hcounters
        have hmem : key.2 = imp.kind ∧ key.1 ∈ token :: tokens ↔ key.2 = imp.kind ∧ key.1 ∈ tokens := by
          refine and_congr_right fun hkind => ?_
          rw [List.mem_cons, or_iff_right fun htoken => hkey (Prod.ext htoken hkind)]
        rw [hcounters]
        by_cases hcounted : key.2 = imp.kind ∧ key.1 ∈ tokens
        · rw [if_pos hcounted, if_pos (hmem.mpr hcounted)]
          have hpair : (key.1, imp.kind) = key := Prod.ext rfl hcounted.1.symm
          unfold recount retention relevantRules
          rw [hrules, hnow, hpair, hcounters]
        · rw [if_neg hcounted, if_neg fun h => hcounted (hmem.mp h)]

/-- What an impulse adds to the counter of a token and a kind, with how far back it lets that remember. -/
def countedOf (platform : Platform F) (key : String × ImpulseKind) (self : ClusterField F) :
    FieldCall F → List ((UInt64 × F) × UInt64)
  | .routeImpulse visits imp =>
      if key.2 = imp.kind ∧ key.1 ∈ tokenize platform imp.pattern then
        [((self.nowMs, imp.strength), self.retention platform visits key.1 imp)]
      else []
  | _ => []

/-- The impulses of a run that have a token and a kind: when and how strong they were, and how far back they let
the counter remember. -/
def impulseHistory (platform : Platform F) (key : String × ImpulseKind) :
    ClusterField F → List (FieldCall F) → List ((UInt64 × F) × UInt64)
  | _, [] => []
  | self, c :: calls => self.countedOf platform key c ++ impulseHistory platform key (self.call platform c) calls

/-- A counter comes from a history, whose times ascend up to now. -/
structure Counted (key : String × ImpulseKind) (history : List ((UInt64 × F) × UInt64)) (field : ClusterField F) :
    Prop where
  queue : field.counters key = pushed 256 Prod.fst history
  ordered : InOrder Prod.fst (history.map Prod.fst)
  past : ∀ e ∈ history, e.1.1.toNat ≤ field.nowMs.toNat

variable {key : String × ImpulseKind} {history : List ((UInt64 × F) × UInt64)}

/-- A whole impulse counts once for each of its tokens, under its own kind. -/
theorem counters_routeImpulse (visits : Visits F) (imp : Impulse F) :
    (self.routeImpulse platform visits imp).counters key =
      if key.2 = imp.kind ∧ key.1 ∈ tokenize platform imp.pattern then self.recount platform visits key.1 imp
      else self.counters key := by
  have hrecord (l : List (String × NodeId × UInt32)) (notes : Notes F) :
      (l.foldl (Notes.recordTokenHit platform imp.strength) notes).counters = notes.counters := by
    refine list_foldl_keeps Notes.counters (fun _ _ => ?_) l notes
    rfl
  have hnotes : (self.routeImpulse platform visits imp).counters = (self.react platform visits imp).counters := by
    have hcounters := congrArg Notes.counters (@notes_routeImpulse F _ platform self visits imp)
    rw [hrecord] at hcounters
    exact hcounters
  have hhormone := @notes_feelHormone F _ self imp
  have hreact := @counters_processReflexes F _ platform (self.feelHormone imp) visits imp
    (tokenize platform imp.pattern).eraseDups (nodup_eraseDups _)
    (fun token htoken => toLowercase_of_mem_tokenize (List.mem_eraseDups.mp htoken)) [] key
  have hcounters : (self.feelHormone imp).counters = self.counters := congrArg Notes.counters hhormone
  have hrecount : (self.feelHormone imp).recount platform visits key.1 imp =
      self.recount platform visits key.1 imp := by
    have hrules : (self.feelHormone imp).rules = self.rules := congrArg Notes.rules hhormone
    have hnow : (self.feelHormone imp).nowMs = self.nowMs := congrArg Notes.nowMs hhormone
    unfold recount retention relevantRules
    rw [hrules, hcounters, hnow]
  rw [hnotes]
  refine hreact.trans (if_congr ?_ hrecount (congrFun hcounters key))
  rw [List.mem_eraseDups]

/-- An impulse finds the rules and the clock as they are, and leaves them so. -/
theorem rules_routeImpulse (visits : Visits F) (imp : Impulse F) :
    (self.routeImpulse platform visits imp).rules = self.rules ∧
      (self.routeImpulse platform visits imp).nowMs = self.nowMs := by
  have hrecord (l : List (String × NodeId × UInt32)) (notes : Notes F) :
      (fun n : Notes F => (n.rules, n.nowMs)) (l.foldl (Notes.recordTokenHit platform imp.strength) notes) =
        (notes.rules, notes.nowMs) := by
    refine list_foldl_keeps (fun n : Notes F => (n.rules, n.nowMs)) (fun _ _ => ?_) l notes
    rfl
  obtain ⟨counters, hreact⟩ := @notes_react F _ platform self visits imp
  have hnotes := (congrArg (fun n : Notes F => (n.rules, n.nowMs))
    (@notes_routeImpulse F _ platform self visits imp)).trans (hrecord _ _)
  rw [hreact] at hnotes
  exact Prod.mk.inj hnotes

/-- After one more call the counter of a token is what the history, longer by the impulse if it was one,
leaves in the window. -/
theorem Counted.call (h : Counted key history self) (c : FieldCall F) :
    Counted key (history ++ self.countedOf platform key c) (self.call platform c) := by
  by_cases himpulse : ∃ visits imp, c = .routeImpulse visits imp
  · obtain ⟨visits, imp, rfl⟩ := himpulse
    have hcounters := @counters_routeImpulse F _ platform self key visits imp
    have hnow : (self.routeImpulse platform visits imp).nowMs = self.nowMs :=
      (rules_routeImpulse visits imp).2
    show Counted key (history ++ if key.2 = imp.kind ∧ key.1 ∈ tokenize platform imp.pattern then
      [((self.nowMs, imp.strength), self.retention platform visits key.1 imp)] else [])
      (self.routeImpulse platform visits imp)
    by_cases hkey : key.2 = imp.kind ∧ key.1 ∈ tokenize platform imp.pattern
    · rw [if_pos hkey] at hcounters ⊢
      have hpair : (key.1, imp.kind) = key := Prod.ext rfl hkey.1.symm
      refine ⟨?_, ?_, fun e he => ?_⟩
      · rw [pushed_concat, ← h.queue]
        refine hcounters.trans ?_
        unfold recount
        rw [hpair]
      · rw [List.map_append]
        refine List.pairwise_append.mpr ⟨h.ordered, List.pairwise_singleton .., fun a ha b hb => ?_⟩
        obtain rfl := List.mem_singleton.mp hb
        obtain ⟨e, he, rfl⟩ := List.mem_map.mp ha
        exact h.past e he
      · rw [hnow]
        rcases List.mem_append.mp he with hold | hnew
        · exact h.past e hold
        · obtain rfl := List.mem_singleton.mp hnew
          exact le_rfl
    · rw [if_neg hkey] at hcounters ⊢
      rw [List.append_nil]
      exact ⟨hcounters.trans h.queue, h.ordered,
        fun e he => (h.past e he).trans_eq (congrArg UInt64.toNat hnow).symm⟩
  · push Not at himpulse
    -- No other call counts, and none sets the clock back.
    obtain ⟨rules, nowMs, hnotes, hclock, -⟩ := @notes_call F _ platform self c himpulse
    have hcounters : (self.call platform c).counters = self.counters := congrArg Notes.counters hnotes
    have hnow : (self.call platform c).nowMs = nowMs := congrArg Notes.nowMs hnotes
    have hnone : self.countedOf platform key c = [] := by
      cases c with
      | routeImpulse visits imp => exact absurd rfl (himpulse visits imp)
      | _ => rfl
    rw [hnone, List.append_nil]
    exact ⟨(congrFun hcounters key).trans h.queue, h.ordered, fun e he => (h.past e he).trans (hnow ▸ hclock)⟩

omit [FloatLike F] in
/-- Without any impulse nothing is counted. -/
theorem counted_nil (h : ∀ key, self.counters key = []) (key : String × ImpulseKind) : Counted key [] self :=
  ⟨h key, List.Pairwise.nil, fun _ he => absurd he List.not_mem_nil⟩

/-- Every run leaves the counters of its history. -/
theorem Counted.run (h : Counted key history self) (calls : List (FieldCall F)) :
    Counted key (history ++ impulseHistory platform key self calls)
      (calls.foldl (ClusterField.call platform) self) := by
  induction calls generalizing history self with
  | nil => rwa [impulseHistory, List.append_nil]
  | cons c calls ih =>
      have hrest := ih (@Counted.call F _ platform _ _ _ h c)
      rwa [List.append_assoc] at hrest

/-- Every call leaves the rules under their ids. -/
theorem RulesKeyed.call (h : self.RulesKeyed) (c : FieldCall F) : (self.call platform c).RulesKeyed := by
  have hof {rules : Std.ExtTreeMap ReflexId (ReflexRule F) compare} (hrules : (self.call platform c).rules = rules)
      (hkeyed : ∀ (id : ReflexId) (rule : ReflexRule F), rules[id]? = some rule → rule.id = id) :
      (self.call platform c).RulesKeyed := by
    unfold RulesKeyed
    rwa [hrules]
  by_cases himpulse : ∃ visits imp, c = .routeImpulse visits imp
  · obtain ⟨visits, imp, rfl⟩ := himpulse
    exact hof (rules_routeImpulse visits imp).1 h
  · push Not at himpulse
    obtain ⟨rules, nowMs, hnotes, -, hrules⟩ := @notes_call F _ platform self c himpulse
    refine hof (congrArg Notes.rules hnotes) fun id kept hkept => ?_
    -- The rules stay, or one is put under its id, or one is removed.
    rcases hrules with rfl | ⟨rule, rfl⟩ | ⟨removed, rfl⟩
    · exact h id kept hkept
    · rw [Std.ExtTreeMap.getElem?_insert] at hkept
      split at hkept
      · rename_i heq
        obtain rfl := Option.some.inj hkept
        exact Std.LawfulEqCmp.eq_of_compare heq
      · exact h id kept hkept
    · rw [Std.ExtTreeMap.getElem?_erase] at hkept
      split at hkept
      · cases hkept
      · exact h id kept hkept

/-- By induction over the calls, every rule stays under its own id. -/
theorem RulesKeyed.run (h : self.RulesKeyed) (calls : List (FieldCall F)) :
    (calls.foldl (ClusterField.call platform) self).RulesKeyed := by
  induction calls generalizing self with
  | nil => exact h
  | cons c calls ih => exact ih (h.call c)

/-! ## When a rule fires -/

/-- The history of a run with one more call is that of the run and what the call adds. -/
theorem impulseHistory_concat (calls : List (FieldCall F)) (c : FieldCall F) :
    impulseHistory platform key self (calls ++ [c]) =
      impulseHistory platform key self calls ++
        (calls.foldl (ClusterField.call platform) self).countedOf platform key c := by
  induction calls generalizing self with
  | nil => exact List.append_nil _
  | cons first calls ih => rw [List.cons_append, impulseHistory, impulseHistory, ih, List.append_assoc]; rfl

/-- An impulse fires an enabled rule with a single token once or not at all. -/
theorem Counted.fires {rule : ReflexRule F} (h : Counted (rule.when.token, rule.when.kind) history self)
    (hkeyed : self.RulesKeyed) (visits : Visits F) (imp : Impulse F) (hrule : self.rules[rule.id]? = some rule)
    (henabled : rule.enabled = true) (hsingle : tokenize platform rule.when.token = [rule.when.token]) :
    ∃ fired, (self.routeImpulse platform visits imp).firings = self.firings ++ fired ∧
      (fired.map Prod.fst).count rule.id =
        if imp.kind = rule.when.kind ∧ rule.when.token ∈ tokenize platform imp.pattern ∧
          rule.when.minCount.toNat ≤ (lastOf 256 (remembered Prod.fst (history ++ self.countedOf platform
            (rule.when.token, rule.when.kind) (.routeImpulse visits imp)))).countP (self.matching rule) then 1 else 0 := by
  refine ⟨_, firings_routeImpulse visits imp, ?_⟩
  have hcount := @count_dueRules F _ platform self rule hkeyed visits imp (tokenize platform imp.pattern).eraseDups
    (nodup_eraseDups _) (fun token htoken => toLowercase_of_mem_tokenize (List.mem_eraseDups.mp htoken)) []
    List.not_mem_nil hrule henabled hsingle
  rw [List.map_map]
  refine hcount.trans (if_congr ?_ rfl rfl)
  rw [List.mem_eraseDups, and_assoc, eq_comm]
  refine and_congr_right fun hkind => and_congr_right fun htoken => ?_
  -- The counter after the impulse is what the history makes of it.
  have hafter := @Counted.call F _ platform self _ history h (.routeImpulse visits imp)
  have hcounted := hafter.queue.trans (pushed_eq hafter.ordered)
  have hcounters := @counters_routeImpulse F _ platform self (rule.when.token, rule.when.kind) visits imp
  rw [if_pos ⟨hkind.symm, htoken⟩] at hcounters
  rw [hcounters.symm.trans hcounted, UInt16.le_iff_toNat_le, UInt16.toNat_ofNat']
  -- The queue is too short for the cast to `u16` to cut off anything.
  generalize remembered Prod.fst _ = kept
  have hlength : (lastOf 256 kept).length = min 256 _ := length_lastOf
  have hle := @List.countP_le_length _ (self.matching rule) (lastOf 256 kept)
  rw [Nat.mod_eq_of_lt (by omega)]

variable {start : ClusterField F}

/-- In every run, an enabled rule with a single token fires on an impulse once or not at all: it fires if the
impulse is of its kind and has the token, and enough impulses match among the last 256 of that kind with the
token, this one included, that none of them since has found older than the longest window of the rules that
were relevant then. -/
theorem reflex_fires_iff (hcounters : ∀ key, start.counters key = []) (hkeyed : start.RulesKeyed)
    (calls : List (FieldCall F)) (visits : Visits F) (imp : Impulse F) {rule : ReflexRule F}
    (hrule : (calls.foldl (call platform) start).rules[rule.id]? = some rule) (henabled : rule.enabled = true)
    (hsingle : tokenize platform rule.when.token = [rule.when.token]) :
    let self := calls.foldl (call platform) start
    let counted := lastOf 256 (remembered Prod.fst
      (impulseHistory platform (rule.when.token, rule.when.kind) start (calls ++ [.routeImpulse visits imp])))
    ∃ fired, (self.routeImpulse platform visits imp).firings = self.firings ++ fired ∧
      (fired.map Prod.fst).count rule.id =
        if imp.kind = rule.when.kind ∧ rule.when.token ∈ tokenize platform imp.pattern ∧
          rule.when.minCount.toNat ≤ counted.countP (self.matching rule) then 1 else 0 := by
  intro self counted
  have hrun := @Counted.run F _ platform start _ [] (counted_nil hcounters (rule.when.token, rule.when.kind)) calls
  have hfires := @Counted.fires F _ platform self _ rule hrun (hkeyed.run calls) visits imp hrule henabled hsingle
  rw [List.nil_append, ← impulseHistory_concat] at hfires
  exact hfires

omit [FloatLike F] in
/-- Whether an impulse of the past is in the window of a rule. -/
theorem window_iff {rule : ReflexRule F} {e : UInt64 × F} :
    saturatingSub self.nowMs e.1 ≤ rule.when.windowMs.toUInt64 ↔
      self.nowMs.toNat ≤ e.1.toNat + rule.when.windowMs.toNat := by
  rw [saturatingSub_le_iff, UInt32.toNat_toUInt64]

/-- A counter has forgotten nothing that counts for a rule, if no impulse in its window let the counter remember
less than that window, and there are no more than 256 of them. -/
theorem countP_matching_of_watched {rule : ReflexRule F} (hinOrder : InOrder Prod.fst (history.map Prod.fst))
    (hpast : ∀ e ∈ history, e.1.1.toNat ≤ self.nowMs.toNat)
    (hwatched : ∀ e ∈ history, saturatingSub self.nowMs e.1.1 ≤ rule.when.windowMs.toUInt64 →
      rule.when.windowMs.toUInt64 ≤ e.2)
    (hfew : (history.map Prod.fst).countP
      (fun e => saturatingSub self.nowMs e.1 ≤ rule.when.windowMs.toUInt64) ≤ 256) :
    (lastOf 256 (remembered Prod.fst history)).countP (self.matching rule) =
      (history.map Prod.fst).countP (self.matching rule) := by
  have hordered : InOrder Prod.fst (remembered Prod.fst history) := hinOrder.sublist (remembered_sublist history)
  have hback : (remembered Prod.fst history).Pairwise fun a b =>
      decide (saturatingSub self.nowMs a.1 ≤ rule.when.windowMs.toUInt64) = true →
        decide (saturatingSub self.nowMs b.1 ≤ rule.when.windowMs.toUInt64) = true := by
    refine hordered.imp fun {a b} hab ha => ?_
    rw [decide_eq_true_iff, window_iff] at ha ⊢
    omega
  -- What lies in the window was young enough for every impulse since.
  have hyoung : (remembered Prod.fst history).filter
      (fun e => saturatingSub self.nowMs e.1 ≤ rule.when.windowMs.toUInt64) =
      (history.map Prod.fst).filter fun e => saturatingSub self.nowMs e.1 ≤ rule.when.windowMs.toUInt64 := by
    refine filter_remembered fun e he push hpush hin => ?_
    have hin : self.nowMs.toNat ≤ e.1.1.toNat + rule.when.windowMs.toNat := window_iff.mp (of_decide_eq_true hin)
    have hclock := hpast push hpush
    rw [saturatingSub_le_iff]
    by_cases hpushed : self.nowMs.toNat ≤ push.1.1.toNat + rule.when.windowMs.toNat
    · have hkept := hwatched push hpush (window_iff.mpr hpushed)
      rw [UInt64.le_iff_toNat_le, UInt32.toNat_toUInt64] at hkept
      omega
    · omega
  have hsplit (l : List (UInt64 × F)) : l.countP (self.matching rule) =
      (l.filter fun e => saturatingSub self.nowMs e.1 ≤ rule.when.windowMs.toUInt64).countP
        fun e => rule.when.minStrength ≤ e.2 := by
    rw [List.countP_filter]
    refine List.countP_congr fun e _ => ?_
    unfold matching
    rw [Bool.and_comm]
  rw [hsplit, hsplit, filter_lastOf 256 hback, hyoung, lastOf_of_length_le]
  rwa [← List.countP_eq_length_filter]

/-- Where nothing that counts is forgotten, a rule fires exactly on its condition: enough of the impulses so far
match. That is so while the rule has been watching for as long as its window, or another with a window as long,
and the window has at most 256 impulses. -/
theorem reflex_fires_iff_of_watched (hcounters : ∀ key, start.counters key = []) (hkeyed : start.RulesKeyed)
    (calls : List (FieldCall F)) (visits : Visits F) (imp : Impulse F) {rule : ReflexRule F}
    (hrule : (calls.foldl (call platform) start).rules[rule.id]? = some rule) (henabled : rule.enabled = true)
    (hsingle : tokenize platform rule.when.token = [rule.when.token]) :
    let self := calls.foldl (call platform) start
    let history := impulseHistory platform (rule.when.token, rule.when.kind) start (calls ++ [.routeImpulse visits imp])
    (∀ e ∈ history, saturatingSub self.nowMs e.1.1 ≤ rule.when.windowMs.toUInt64 →
      rule.when.windowMs.toUInt64 ≤ e.2) →
    (history.map Prod.fst).countP (fun e => saturatingSub self.nowMs e.1 ≤ rule.when.windowMs.toUInt64) ≤ 256 →
    ∃ fired, (self.routeImpulse platform visits imp).firings = self.firings ++ fired ∧
      (fired.map Prod.fst).count rule.id =
        if imp.kind = rule.when.kind ∧ rule.when.token ∈ tokenize platform imp.pattern ∧
          rule.when.minCount.toNat ≤ (history.map Prod.fst).countP (self.matching rule) then 1 else 0 := by
  intro self history hwatched hfew
  have hrun := @Counted.run F _ platform start _ [] (counted_nil hcounters (rule.when.token, rule.when.kind)) calls
  have hafter := @Counted.call F _ platform self _ _ hrun (.routeImpulse visits imp)
  have hnow : (self.call platform (.routeImpulse visits imp)).nowMs = self.nowMs := (rules_routeImpulse visits imp).2
  have hfires := @Counted.fires F _ platform self _ rule hrun (hkeyed.run calls) visits imp hrule henabled hsingle
  rw [List.nil_append, ← impulseHistory_concat] at hfires hafter
  have hpast : ∀ e ∈ history, e.1.1.toNat ≤ self.nowMs.toNat := fun e he => hnow ▸ hafter.past e he
  rwa [countP_matching_of_watched hafter.ordered hpast hwatched hfew] at hfires

/-- The impulses of the runs below. -/
def cpuImpulse : Impulse ℚ := ⟨.query, "cpu", 0.5, 0, []⟩

/-- A rule for three impulses in ten seconds. -/
def cpuRule : ReflexRule ℚ := ⟨1, ⟨"cpu", .query, 0, 10000, 3⟩, .wakeSleeping 1, true⟩

/-- The rule is there before the impulses. -/
def earlyCalls : List (FieldCall ℚ) :=
  [.addReflex cpuRule, .routeImpulse .listed cpuImpulse, .tickAll .listed (fun _ => 0) 2500,
    .routeImpulse .listed cpuImpulse]

/-- The rule comes after two of the impulses. -/
def lateCalls : List (FieldCall ℚ) :=
  [.routeImpulse .listed cpuImpulse, .tickAll .listed (fun _ => 0) 2500, .routeImpulse .listed cpuImpulse,
    .addReflex cpuRule]

/-- The rule of the sample is kept as it is: it has an id, its token is in lower case and its strength in
bounds. -/
theorem keptRule_cpuRule (self : ClusterField ℚ) : self.keptRule (constantPlatform ℚ 0.5) cpuRule = cpuRule := by
  have htoken : trim "cpu" = "cpu" := by decide +kernel
  have hstrength : FloatLike.clamp (0 : ℚ) 0.0 1.0 = 0 := by decide +kernel
  show ({ cpuRule with
    id := 1
    when := { cpuRule.when with token := trim "cpu", minStrength := FloatLike.clamp 0 0.0 1.0 } } : ReflexRule ℚ) = cpuRule
  rw [htoken, hstrength]
  rfl

/-- An added rule is found under its id, as it was kept. -/
theorem getElem?_addReflex (rule : ReflexRule F) :
    (self.addReflex platform rule).rules[(self.keptRule platform rule).id]? = some (self.keptRule platform rule) :=
  Std.ExtTreeMap.getElem?_insert_self

/-- The third impulse fires the rule. -/
theorem reflex_fires_iff_earlyCalls :
    ∃ fired, ((earlyCalls.foldl (call (constantPlatform ℚ 0.5)) new).routeImpulse (constantPlatform ℚ 0.5) .listed
        cpuImpulse).firings = (earlyCalls.foldl (call (constantPlatform ℚ 0.5)) new).firings ++ fired ∧
      (fired.map Prod.fst).count 1 = 1 := by
  have hrule : (earlyCalls.foldl (call (constantPlatform ℚ 0.5)) new).rules[cpuRule.id]? = some cpuRule := by
    show (((((new : ClusterField ℚ).addReflex (constantPlatform ℚ 0.5) cpuRule).routeImpulse (constantPlatform ℚ 0.5)
      .listed cpuImpulse).tickAll (constantPlatform ℚ 0.5) .listed (fun _ => 0) 2500).routeImpulse
      (constantPlatform ℚ 0.5) .listed cpuImpulse).rules[cpuRule.id]? = some cpuRule
    have htick (self : ClusterField ℚ) : (self.tickAll (constantPlatform ℚ 0.5) .listed (fun _ => 0) 2500).rules =
        self.rules := congrArg Notes.rules (notes_tickAll .listed (fun _ => 0) 2500)
    have hkept := @getElem?_addReflex ℚ _ (constantPlatform ℚ 0.5) new cpuRule
    rw [keptRule_cpuRule] at hkept
    rw [(rules_routeImpulse _ _).1, htick, (rules_routeImpulse _ _).1, hkept]
  obtain ⟨fired, hfired, hcount⟩ := @reflex_fires_iff ℚ _ (constantPlatform ℚ 0.5) new (fun _ => rfl)
    (fun _ _ h => by simp [new] at h) earlyCalls .listed cpuImpulse cpuRule hrule rfl (by decide +kernel)
  exact ⟨fired, hfired, hcount.trans (if_pos (by decide +kernel))⟩

/-- Three impulses match within the window of the rule, but it does not fire: when it came, the first of them was
already forgotten. -/
theorem not_reflex_fires_lateCalls :
    let self := lateCalls.foldl (call (constantPlatform ℚ 0.5)) new
    self.rules[cpuRule.id]? = some cpuRule ∧
      cpuRule.when.minCount.toNat ≤ ((impulseHistory (constantPlatform ℚ 0.5) ("cpu", .query) new
        (lateCalls ++ [.routeImpulse .listed cpuImpulse])).map Prod.fst).countP (self.matching cpuRule) ∧
      (self.routeImpulse (constantPlatform ℚ 0.5) .listed cpuImpulse).firings = [] := by
  refine ⟨?_, by decide +kernel, by decide +kernel⟩
  have hkept := @getElem?_addReflex ℚ _ (constantPlatform ℚ 0.5)
    (([.routeImpulse .listed cpuImpulse, .tickAll .listed (fun _ => 0) 2500, .routeImpulse .listed cpuImpulse]).foldl
      (call (constantPlatform ℚ 0.5)) new) cpuRule
  rw [keptRule_cpuRule] at hkept
  exact hkept

end ClusterField

end LiminalDB
