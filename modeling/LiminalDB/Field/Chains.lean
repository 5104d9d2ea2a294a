import LiminalDB.Field.Trace

/-! # Mutators as chains of steps

Each mutator takes a field to one that a chain of steps leads to, under a permit for what the mutator
really does: the memory of the cells it changes in place, the ids it hands out, the cells it lets die. -/

namespace LiminalDB

variable {F : Type}

open Set (univ)

namespace ClusterField

/-! ## Traces -/

/-- The trace of a field, with deltas that wait to be emitted. -/
def trace (self : ClusterField F) (pending : List (EventDelta F)) (stale : Set NodeId) : Trace F :=
  ⟨self.replica, self.index, self.journal ++ pending, stale⟩

/-- All that a trace shows of a field. -/
def core (self : ClusterField F) : Replica F × (String → List NodeId) × List (EventDelta F) :=
  (self.replica, self.index, self.journal)

/-- Fields with the same core have the same trace, whatever is pending and stale. -/
theorem trace_congr {self self' : ClusterField F} (h : self'.core = self.core)
    (pending : List (EventDelta F)) (stale : Set NodeId) :
    self'.trace pending stale = self.trace pending stale := by
  obtain ⟨hreplica, hrest⟩ := Prod.mk.inj h
  obtain ⟨hindex, hjournal⟩ := Prod.mk.inj hrest
  unfold trace
  rw [hreplica, hindex, hjournal]

/-- Whether the token index is in step with the cells can be told from the core of a field. -/
theorem indexed_of_core {platform : Platform F} {self self' : ClusterField F}
    (h : self'.core = self.core) (hindexed : Indexed platform self) : Indexed platform self' := by
  obtain ⟨hreplica, hrest⟩ := Prod.mk.inj h
  obtain ⟨hindex, -⟩ := Prod.mk.inj hrest
  unfold Indexed
  rw [hreplica, hindex]
  exact hindexed

/-- A delta that is emitted and one that is pending look the same in a trace. -/
theorem trace_emit (self : ClusterField F) (d : EventDelta F) (stale : Set NodeId) :
    (self.emit d).trace [] stale = self.trace [d] stale := by
  unfold trace emit
  rw [List.append_nil]
  rfl

/-- Emitting deltas one after the other appends them to the journal, and leaves replica and index as they are.
-/
theorem core_foldl_emit (deltas : List (EventDelta F)) (self : ClusterField F) :
    (deltas.foldl emit self).core = (self.replica, self.index, self.journal ++ deltas) := by
  induction deltas generalizing self with
  | nil => rw [List.append_nil]; rfl
  | cons d deltas ih => rw [List.foldl_cons, ih, emit, List.append_assoc]; rfl

/-- Pending deltas may as well be emitted, all of them in their order: the trace is the same. -/
theorem trace_foldl_emit (deltas : List (EventDelta F)) (self : ClusterField F) (stale : Set NodeId) :
    (deltas.foldl emit self).trace [] stale = self.trace deltas stale := by
  obtain ⟨hreplica, hrest⟩ := Prod.mk.inj (core_foldl_emit deltas self)
  obtain ⟨hindex, hjournal⟩ := Prod.mk.inj hrest
  unfold trace
  rw [hreplica, hindex, hjournal, List.append_nil]

/-! ## Single steps -/

variable {platform : Platform F} {permit : Permit F} {self : ClusterField F}
  {pending : List (EventDelta F)} {stale : Set NodeId} {id : NodeId} {cell after : NodeCell F}

/-- One step makes a chain to every trace that shows the same and has more stale cells at most. -/
theorem chain_of_micro {t t' u : Trace F} (h : Micro platform permit t t')
    (hreplica : u.replica = t'.replica) (hindex : u.index = t'.index)
    (hemitted : u.emitted = t'.emitted) (hstale : t'.stale ⊆ u.stale) :
    MicroChain platform permit t u := by
  have hu : u = { t' with stale := u.stale } := by
    obtain ⟨replica, index, emitted, stale⟩ := u
    obtain rfl : replica = _ := hreplica
    obtain rfl : index = _ := hindex
    obtain rfl : emitted = _ := hemitted
    rfl
  rw [hu]
  exact (Relation.ReflTransGen.single h).tail (.forget hstale)

/-- What a trace does not show may change freely: this is a chain of no steps. -/
theorem chain_of_core {self' : ClusterField F} (h : self'.core = self.core) :
    MicroChain platform permit (self.trace pending stale) (self'.trace pending stale) := by
  rw [trace_congr h]

/-- A delta that no replica depends on is emitted. -/
theorem chain_inert {d : EventDelta F} (h : Replica.Inert d) :
    MicroChain platform permit (self.trace pending stale) (self.trace (pending ++ [d]) stale) :=
  chain_of_micro (.inert h) rfl rfl (List.append_assoc ..).symm subset_rfl

/-- A cell is changed in place. -/
theorem chain_tweak (hcell : self.cells[id]? = some cell) (htweaks : Tweaks cell after)
    (hpermit : permit.memory cell.memory after.memory) :
    MicroChain platform permit (self.trace pending univ) ((self.setCell id after).trace pending univ) :=
  chain_of_micro (.tweak hcell htweaks hpermit) (replica_setCell self id after) rfl rfl
    (Set.subset_univ _)

/-- A cell is changed in place, its vitals are emitted, and it is not stale any more. -/
theorem chain_tweak_refresh {stale' : Set NodeId} (hcell : self.cells[id]? = some cell)
    (htweaks : Tweaks cell after) (hpermit : permit.memory cell.memory after.memory)
    (hstale : ∀ other ∈ stale, other ≠ id → other ∈ stale') :
    MicroChain platform permit (self.trace pending stale)
      ((self.setCell id after).trace (pending ++ [energyDelta id after]) stale') := by
  have htweak : Micro platform permit (self.trace pending stale)
      { self.trace pending stale with
        replica := self.replica.set id after, stale := insert id stale } :=
    .tweak hcell htweaks hpermit
  have hafter : (self.replica.set id after).cells id = some after := Function.update_self ..
  refine (Relation.ReflTransGen.single htweak).trans (chain_of_micro (.energy hafter) ?_ rfl ?_ ?_)
  · exact replica_setCell self id after
  · exact (List.append_assoc ..).symm
  · intro other hother
    exact hstale other (hother.1.resolve_left hother.2) hother.2

/-- A cell is changed in place, and its vitals are emitted. -/
theorem chain_tweak_energy (hcell : self.cells[id]? = some cell) (htweaks : Tweaks cell after)
    (hpermit : permit.memory cell.memory after.memory) :
    MicroChain platform permit (self.trace pending stale)
      ((self.setCell id after).trace (pending ++ [energyDelta id after]) stale) :=
  chain_tweak_refresh hcell htweaks hpermit fun _ hother _ => hother

/-- A link is added and emitted. -/
theorem chain_link {self' : ClusterField F} {source target : NodeId} {d : EventDelta F}
    (hd : d = .link source target ∨ d = .dreamRewire source target)
    (hreplica : self'.replica = self.replica.alter source (·.link target))
    (hindex : self'.index = self.index) (hjournal : self'.journal = self.journal) :
    MicroChain platform permit (self.trace pending stale) (self'.trace (pending ++ [d]) stale) := by
  refine chain_of_micro (.link source target hd) hreplica hindex ?_ subset_rfl
  simp [trace, hjournal]

/-- A link is removed and emitted. -/
theorem chain_unlink {self' : ClusterField F} {source target : NodeId} {d : EventDelta F}
    (hd : d = .unlink source target ∨ d = .dreamPrune source target)
    (hreplica : self'.replica = self.replica.alter source (·.unlink target))
    (hindex : self'.index = self.index) (hjournal : self'.journal = self.journal) :
    MicroChain platform permit (self.trace pending stale) (self'.trace (pending ++ [d]) stale) := by
  refine chain_of_micro (.unlink source target hd) hreplica hindex ?_ subset_rfl
  simp [trace, hjournal]

variable [FloatLike F]

/-- Indexing a cell and registering its links keep what neither the index nor the books of the links
show. -/
theorem indexing_keeps {α : Type} (part : ClusterField F → α)
    (hindex : ∀ (s : ClusterField F) index, part { s with index } = part s)
    (hregister : ∀ (s : ClusterField F) source target, part (s.registerLink source target) = part s)
    (platform : Platform F) (self : ClusterField F) (id : NodeId) :
    part ((self.updateIndexFor platform id).ensureLinkTracking id) = part self := by
  have hupdate : part (self.updateIndexFor platform id) = part self := by
    unfold updateIndexFor
    cases self.cells[id]? with
    | none => rfl
    | some cell => exact hindex self _
  unfold ensureLinkTracking
  cases (self.updateIndexFor platform id).cells[id]? with
  | none => exact hupdate
  | some cell => exact (list_foldl_keeps part (fun s target => hregister s id target) _ _).trans hupdate

/-- `attach_cell` writes no journal. Its caller emits the cell where that is wanted. -/
theorem journal_attachCell (platform : Platform F) (self : ClusterField F) (cell : NodeCell F) :
    (self.attachCell platform cell).journal = self.journal :=
  indexing_keeps journal (fun _ _ => rfl) (fun _ _ _ => rfl) platform (self.setCell cell.id cell) cell.id

/-- Rebuilding the index writes no journal either, for all the cells it goes through. -/
theorem journal_rebuildIndex (platform : Platform F) (self : ClusterField F) :
    (self.rebuildIndex platform).journal = self.journal :=
  list_foldl_keeps journal (indexing_keeps journal (fun _ _ => rfl) (fun _ _ _ => rfl) platform)
    self.cells.keys { self with index := fun _ => [] }

/-- A cell with the next id is attached and emitted. -/
theorem chain_spawn (hid : cell.id = self.nextId) (hnew : Newborn cell)
    (hpermit : permit.spawn self.nextId) :
    MicroChain platform permit (self.trace [] stale) ((self.spawn platform cell).trace [] stale) := by
  refine chain_of_micro (.spawn hid hnew hpermit) ?_ (index_attachCell platform _ cell) ?_
    Set.sdiff_subset
  · exact replica_attachCell platform _ cell
  · unfold spawn
    rw [trace_emit]
    simp only [trace, journal_attachCell, List.append_nil]

/-- A spawned cell uses up exactly one id, and attaching it none. -/
theorem nextId_spawn (platform : Platform F) (self : ClusterField F) (cell : NodeCell F) :
    (self.spawn platform cell).nextId = self.nextId + 1 :=
  congrArg Replica.nextId (replica_attachCell platform { self with nextId := self.nextId + 1 } cell)

/-! ## Roots and rules -/

/-- `add_root` is one spawned cell, if the next id may be handed out. -/
theorem chain_addRoot (seed : String) (hpermit : permit.spawn self.nextId) :
    MicroChain platform permit (self.trace [] stale) ((self.addRoot platform seed).trace [] stale) :=
  chain_spawn rfl ⟨by simp [NodeCell.fromSeed], rfl⟩ hpermit

/-- `add_reflex` is one step that keeps a rule; it draws an id for the rule only if that has none of its own.
-/
theorem chain_addReflex (rule : ReflexRule F) (hpermit : rule.id = 0 → permit.draw self.nextReflexId) :
    MicroChain platform permit (self.trace [] stale) ((self.addReflex platform rule).trace [] stale) := by
  have hnext : (if rule.id = 0 then self.nextReflexId + 1 else max self.nextReflexId (rule.id + 1)) =
        max self.nextReflexId ((self.keptRule platform rule).id + 1) ∨
      (self.keptRule platform rule).id = self.nextReflexId ∧
        permit.draw (self.keptRule platform rule).id ∧
        (if rule.id = 0 then self.nextReflexId + 1 else max self.nextReflexId (rule.id + 1)) =
          (self.keptRule platform rule).id + 1 := by
    by_cases hzero : rule.id = 0
    · simp [keptRule, hzero, hpermit hzero]
    · simp [keptRule, hzero]
  have hlowered : Replica.lowered platform (self.keptRule platform rule) =
      self.keptRule platform rule := by
    simp [Replica.lowered, keptRule, platform.toLowercase_twice]
  have hmicro := @Micro.addReflex F platform permit (self.trace [] stale)
    (self.keptRule platform rule) _ hlowered hnext
  refine chain_of_micro hmicro ?_ rfl ?_ subset_rfl
  · simp only [trace, addReflex, emit, replica]
    rw [getElem?_insert_eq]
  · simp [trace, addReflex, emit]

omit [FloatLike F] in
/-- `remove_reflex` is one step if there is such a rule, and otherwise none. -/
theorem chain_removeReflex (id : ReflexId) :
    MicroChain platform permit (self.trace [] stale) ((self.removeReflex id).trace [] stale) := by
  unfold removeReflex
  by_cases h : id ∈ self.rules
  · rw [if_pos h, trace_emit]
    refine chain_of_micro (.removeReflex id) ?_ rfl ?_ subset_rfl
    · simp only [trace, replica]
      rw [getElem?_erase_eq]
    · simp [trace]
  · rw [if_neg h]

/-! ## Reflexes -/

/-- A sleeping cell that wakes is changed in place and emitted at once, so that it does not become stale. -/
theorem chain_wake (id : NodeId) :
    MicroChain platform permit (self.trace [] stale) ((self.wake id).trace [] stale) := by
  unfold wake
  cases hcell : self.cells[id]? with
  | none => exact .refl
  | some cell =>
      dsimp only
      split
      · rw [trace_emit]
        exact chain_tweak_energy hcell ⟨rfl, rfl, rfl, fun _ => by simp⟩ (permit.memory_refl _)
      · exact .refl

/-- Waking the sleeping cells of a token, as many as the action says, is a chain of such steps. -/
theorem chain_performWakeSleeping (visits : Visits F) (count : UInt16) (token : String) :
    MicroChain platform permit (self.trace [] stale)
      ((self.performWakeSleeping platform visits count token).trace [] stale) := by
  unfold performWakeSleeping
  exact reflTransGen_foldl (trace · [] stale) (fun s id _ => chain_wake id) self

/-- Boosting the cells of a token sets biases of routes only, which a trace does not show. -/
theorem core_performBoostLinks (token : String) (factor : F) (top : UInt16) :
    (self.performBoostLinks platform token factor top).core = self.core := by
  unfold performBoostLinks
  split
  · rfl
  · have hboost (s : ClusterField F) (node : NodeId) :
        (boost (platform.toLowercase token) factor s node).core = s.core := rfl
    exact (list_foldl_keeps core hboost _ _).trans rfl

/-- Whether a rule spawns a cell. -/
def spawns (rule : ReflexRule F) : Bool :=
  match rule.action with
  | .spawnSeed _ _ => true
  | _ => false

/-- Firing a rule is a chain for each of its actions; it needs a permit for an id only where it spawns a seed.
-/
theorem chain_fireReflex (visits : Visits F) (rule : ReflexRule F) (matched : UInt16) (token : String)
    (hpermit : spawns rule → permit.spawn self.nextId) :
    MicroChain platform permit (self.trace [] stale)
      ((self.fireReflex platform visits rule matched token).trace [] stale) := by
  have hemit : MicroChain platform permit (self.trace [] stale)
      ((self.emit (.reflexFire rule.id self.nowMs matched)).trace [] stale) := by
    rw [trace_emit]
    exact chain_inert trivial
  refine hemit.trans ?_
  unfold fireReflex
  cases haction : rule.action with
  | emitHint hint => exact .refl
  | spawnSeed seed affinityShift =>
      exact chain_spawn rfl ⟨by simp [NodeCell.fromSeed], rfl⟩ (hpermit (by simp [spawns, haction]))
  | wakeSleeping count => exact chain_performWakeSleeping visits count token
  | boostLinks factor top =>
      dsimp only
      rw [trace_congr (core_performBoostLinks token factor top)]

/-! ### Room for ids -/

/-- The next ids may be handed out, as many as are wanted. -/
def Room (permit : Permit F) (nextId : NodeId) (count : ℕ) : Prop :=
  ∀ i < count, permit.spawn (nextId + UInt64.ofNat i)

omit [FloatLike F] in
/-- Room for one more id and some others is room for the next one. -/
theorem Room.head {nextId : NodeId} {count : ℕ} (h : Room permit nextId (count + 1)) :
    permit.spawn nextId := by
  simpa using h 0 (Nat.succ_pos count)

omit [FloatLike F] in
/-- Room for two numbers of ids, one behind the other, is room for the first. -/
theorem Room.left {nextId : NodeId} {a b : ℕ} (h : Room permit nextId (a + b)) :
    Room permit nextId a := fun i hi => h i (Nat.lt_add_right b hi)

omit [FloatLike F] in
/-- It is also room for the second, once the ids of the first are gone. -/
theorem Room.right {nextId : NodeId} {a b : ℕ} (h : Room permit nextId (a + b)) :
    Room permit (nextId + UInt64.ofNat a) b := by
  intro i hi
  have hnext := h (a + i) (Nat.add_lt_add_left hi a)
  rwa [UInt64.ofNat_add, ← UInt64.add_assoc] at hnext

/-- What firing rules reads of a field besides its cells, which it does not change. -/
def reflexes (self : ClusterField F) :
    Std.ExtTreeMap ReflexId (ReflexRule F) compare × (String × ImpulseKind → List (UInt64 × F)) × UInt64 :=
  (self.rules, self.counters, self.nowMs)

/-- Attaching a cell leaves rules, counters and clock alone, so that the same rules stay due. -/
theorem reflexes_attachCell (platform : Platform F) (self : ClusterField F) (cell : NodeCell F) :
    (self.attachCell platform cell).reflexes = self.reflexes :=
  indexing_keeps reflexes (fun _ _ => rfl) (fun _ _ _ => rfl) platform (self.setCell cell.id cell) cell.id

/-- Waking a cell changes nothing that firing rules reads, and takes no id. -/
theorem wake_keeps (self : ClusterField F) (id : NodeId) :
    (self.wake id).reflexes = self.reflexes ∧ (self.wake id).nextId = self.nextId := by
  unfold wake
  cases self.cells[id]? with
  | none => exact ⟨rfl, rfl⟩
  | some cell => dsimp only; split <;> exact ⟨rfl, rfl⟩

/-- Firing a rule does not change what the next one reads, and takes one id exactly where it spawns a seed. -/
theorem fireReflex_keeps (platform : Platform F) (visits : Visits F) (self : ClusterField F) (rule : ReflexRule F)
    (matched : UInt16) (token : String) :
    (self.fireReflex platform visits rule matched token).reflexes = self.reflexes ∧
      (self.fireReflex platform visits rule matched token).nextId =
        self.nextId + UInt64.ofNat (if spawns rule then 1 else 0) := by
  have hzero : self.nextId + UInt64.ofNat 0 = self.nextId := by simp
  unfold fireReflex spawns
  cases rule.action with
  | emitHint hint => exact ⟨rfl, hzero.symm⟩
  | spawnSeed seed affinityShift =>
      exact ⟨reflexes_attachCell platform _ _, nextId_spawn platform _ _⟩
  | wakeSleeping count =>
      exact ⟨list_foldl_keeps reflexes (fun s id => (wake_keeps s id).1) _ _,
        (list_foldl_keeps nextId (fun s id => (wake_keeps s id).2) _ _).trans hzero.symm⟩
  | boostLinks factor top =>
      dsimp only [performBoostLinks]
      split
      · exact ⟨rfl, hzero.symm⟩
      · have hboost (s : ClusterField F) (node : NodeId) :
            ((boost (platform.toLowercase token) factor s node).reflexes = s.reflexes) ∧
              (boost (platform.toLowercase token) factor s node).nextId = s.nextId := ⟨rfl, rfl⟩
        exact ⟨list_foldl_keeps reflexes (fun s node => (hboost s node).1) _ _,
          (list_foldl_keeps nextId (fun s node => (hboost s node).2) _ _).trans hzero.symm⟩

/-- The number of cells that the rules that are due spawn. -/
def spawnsDue (pending : List (ReflexRule F × UInt16)) : ℕ := pending.countP fun due => spawns due.1

omit [FloatLike F] in
/-- The first of the rules that are due spawns a cell or does not, and then come the others. -/
theorem spawnsDue_cons (first : ReflexRule F × UInt16) (due : List (ReflexRule F × UInt16)) :
    spawnsDue (first :: due) = (if spawns first.1 then 1 else 0) + spawnsDue due := by
  unfold spawnsDue
  rw [List.countP_cons, Nat.add_comm]

/-- By induction over the rules that are due: a chain, if there are ids for all that spawn, which takes as
many. -/
theorem chain_fireAll (visits : Visits F) (token : String) (due : List (ReflexRule F × UInt16))
    (hroom : Room permit self.nextId (spawnsDue due)) :
    MicroChain platform permit (self.trace [] stale)
        ((self.fireAll platform visits token due).trace [] stale) ∧
      (self.fireAll platform visits token due).nextId = self.nextId + UInt64.ofNat (spawnsDue due) ∧
      (self.fireAll platform visits token due).reflexes = self.reflexes := by
  induction due generalizing self with
  | nil => exact ⟨.refl, by simp [spawnsDue, fireAll], rfl⟩
  | cons first due ih =>
      rw [spawnsDue_cons] at hroom ⊢
      obtain ⟨hkeeps, hnext⟩ := fireReflex_keeps platform visits self first.1 first.2 token
      have hfire : MicroChain platform permit (self.trace [] stale)
          ((self.fireReflex platform visits first.1 first.2 token).trace [] stale) := by
        refine chain_fireReflex visits first.1 first.2 token fun hspawns => ?_
        rw [if_pos hspawns, Nat.add_comm] at hroom
        exact hroom.head
      obtain ⟨hrest, hlast, hsame⟩ := ih (hnext ▸ hroom.right)
      refine ⟨hfire.trans hrest, ?_, hsame.trans hkeeps⟩
      rw [fireAll, List.foldl_cons]
      exact hlast.trans (by rw [hnext, UInt64.ofNat_add, UInt64.add_assoc])

/-- The number of cells that the reflexes of an impulse spawn, told from the rules and their counters
alone. -/
def spawnsBy (platform : Platform F) (visits : Visits F) (imp : Impulse F) :
    ClusterField F → List String → List ReflexId → ℕ
  | _, [], _ => 0
  | self, token :: tokens, fired =>
      let (self, due) := self.considerImpulse platform visits (platform.toLowercase token) imp fired
      spawnsDue due + spawnsBy platform visits imp self tokens (fired ++ due.map fun due => due.1.id)

/-- Which rules are due for a token, and what is counted of it, depends on rules, counters and clock alone. -/
theorem considerImpulse_congr (platform : Platform F) (visits : Visits F) (imp : Impulse F) (token : String)
    (fired : List ReflexId) {self self' : ClusterField F} (h : self'.reflexes = self.reflexes) :
    (self'.considerImpulse platform visits token imp fired).2 =
        (self.considerImpulse platform visits token imp fired).2 ∧
      (self'.considerImpulse platform visits token imp fired).1.reflexes =
        (self.considerImpulse platform visits token imp fired).1.reflexes := by
  obtain ⟨hrules, hrest⟩ := Prod.mk.inj h
  obtain ⟨hcounters, hnow⟩ := Prod.mk.inj hrest
  have hrelevant : self'.relevantRules platform visits token imp =
      self.relevantRules platform visits token imp := by
    unfold relevantRules
    rw [hrules]
  unfold considerImpulse
  rw [hrelevant]
  constructor
  · dsimp only [pendingRules, countImpulse]
    rw [hcounters, hnow]
  · dsimp only [reflexes, countImpulse]
    rw [hrules, hcounters, hnow]

/-- So does the number of cells that the reflexes of a whole impulse spawn. -/
theorem spawnsBy_congr (visits : Visits F) (imp : Impulse F) (tokens : List String)
    (fired : List ReflexId) {self self' : ClusterField F} (h : self'.reflexes = self.reflexes) :
    spawnsBy platform visits imp self' tokens fired = spawnsBy platform visits imp self tokens fired := by
  induction tokens generalizing self self' fired with
  | nil => rfl
  | cons token tokens ih =>
      obtain ⟨hdue, hcounted⟩ := considerImpulse_congr platform visits imp (platform.toLowercase token)
        fired h
      simp only [spawnsBy, hdue]
      rw [ih _ hcounted]

/-- By induction over the tokens of an impulse: firing its rules is a chain, if there are ids for all that
they spawn. -/
theorem chain_processReflexes (visits : Visits F) (imp : Impulse F) (tokens : List String)
    (fired : List ReflexId)
    (hroom : Room permit self.nextId (spawnsBy platform visits imp self tokens fired)) :
    MicroChain platform permit (self.trace [] stale)
      ((processReflexes platform visits imp self tokens fired).trace [] stale) := by
  induction tokens generalizing self fired with
  | nil => exact .refl
  | cons token tokens ih =>
      obtain ⟨counted, due, hconsider⟩ :
          ∃ counted due, self.considerImpulse platform visits (platform.toLowercase token) imp fired =
            (counted, due) := ⟨_, _, rfl⟩
      have hcore : counted.core = self.core := congrArg (fun e => e.1.core) hconsider.symm
      have hid : counted.nextId = self.nextId := congrArg (fun e => e.1.nextId) hcore
      simp only [spawnsBy, hconsider] at hroom
      rw [← hid] at hroom
      simp only [processReflexes, processReflexFor, hconsider]
      obtain ⟨hfire, hnext, hsame⟩ := chain_fireAll visits (platform.toLowercase token) due hroom.left
      rw [← trace_congr hcore]
      refine hfire.trans (ih _ ?_)
      rw [hnext, spawnsBy_congr visits imp tokens _ hsame]
      exact hroom.right

end ClusterField

/-! ## Impulses -/

namespace Tweaks

/-- A cell that is left as it is keeps id, pattern and links. -/
theorem refl (cell : NodeCell F) : Tweaks cell cell := ⟨rfl, rfl, rfl, fun h => h⟩

/-- Two changes that keep id, pattern and links, and kill nothing, do so together. -/
theorem trans {a b c : NodeCell F} (hab : Tweaks a b) (hbc : Tweaks b c) : Tweaks a c :=
  ⟨hbc.id.trans hab.id, hbc.pattern.trans hab.pattern, hbc.links.trans hab.links,
    fun h => hbc.alive (hab.alive h)⟩

variable [FloatLike F]

/-- More salience touches neither the id nor the pattern nor the links of a cell. -/
theorem bumpSalience (cell : NodeCell F) (amount : F) : Tweaks cell (cell.bumpSalience amount) :=
  ⟨rfl, rfl, rfl, fun h => h⟩

/-- What an impulse does to salience and the tag of adrenaline keeps id, pattern and links. -/
theorem feel (cell : NodeCell F) (imp : Impulse F) (matchScore : F) :
    Tweaks cell (cell.feel imp matchScore) := by
  unfold NodeCell.feel
  split
  · exact bumpSalience cell _
  · exact refl cell

/-- So does remembering a cell, which sets the time of its last recall. -/
theorem noteRecall (cell : NodeCell F) (matchScore : F) (nowMs : UInt64) :
    Tweaks cell (cell.noteRecall matchScore nowMs) := by
  unfold NodeCell.noteRecall
  dsimp only
  split
  · split
    · exact ⟨rfl, rfl, rfl, fun h => h⟩
    · exact ⟨rfl, rfl, rfl, fun h => h⟩
  · exact refl cell

/-- A response moves energy, metabolism and state, and does not kill the cell. -/
theorem respond (cell : NodeCell F) (imp : Impulse F) (matchScore : F) (nowMs : UInt64) :
    Tweaks cell (cell.respond imp matchScore nowMs).1 := by
  unfold NodeCell.respond
  cases imp.kind with
  | query =>
      refine trans ?_ (noteRecall _ matchScore nowMs)
      split
      · exact ⟨rfl, rfl, rfl, fun _ => by simp⟩
      · exact refl cell
  | write => exact ⟨rfl, rfl, rfl, fun _ => by simp⟩
  | affect =>
      dsimp only
      split
      · exact ⟨rfl, rfl, rfl, fun _ => by simp⟩
      · split
        · exact ⟨rfl, rfl, rfl, fun _ => by simp⟩
        · exact refl cell

/-- `ingest` feels, remembers and responds, and each of the three keeps id, pattern and links. -/
theorem ingest (platform : Platform F) (cell : NodeCell F) (imp : Impulse F) (nowMs : UInt64) :
    Tweaks cell (cell.ingest platform imp nowMs).1 := by
  unfold NodeCell.ingest
  split
  · exact refl cell
  · cases NodeCell.patternMatch platform cell.affinity cell.seed.corePattern imp.pattern imp.strength
      imp.tags with
    | none => exact ⟨rfl, rfl, rfl, fun h => h⟩
    | some matchScore =>
        have h := (feel cell imp matchScore).trans (respond _ imp matchScore nowMs)
        exact ⟨h.id, h.pattern, h.links, h.alive⟩

end Tweaks

namespace ClusterField

variable {platform : Platform F} {permit : Permit F} {self : ClusterField F} [FloatLike F]

omit [FloatLike F] in
/-- Replacing one cell leaves every other one where it is. -/
theorem getElem?_setCell_of_ne {id other : NodeId} (h : other ≠ id) (cell : NodeCell F) :
    (self.setCell id cell).cells[other]? = self.cells[other]? :=
  (congrFun (getElem?_insert_eq self.cells id cell) other).trans (Function.update_of_ne h _ _)

/-- An impulse reaches each of its targets once: they come from sets, and taking some of them repeats none. -/
theorem nodup_targets (visits : Visits F) (tokens : List String) (imp : Impulse F) :
    (self.targets visits tokens imp).Nodup := by
  have hcandidates : (visits.candidates.arrange (self.candidates tokens)).Nodup := by
    rw [(visits.candidates.perm _).nodup_iff]
    unfold candidates
    dsimp only
    split
    · exact Std.ExtTreeMap.nodup_keys
    · exact List.nodup_dedup _
  unfold targets
  rw [List.map_take]
  refine List.Nodup.sublist (List.take_sublist _ _) ?_
  rw [((sortBy_perm _ _).map Prod.snd).nodup_iff, List.map_filterMap]
  refine hcandidates.filterMap fun a a' b hb hb' => ?_
  simp only [Option.map_map, Option.mem_def, Option.map_eq_some_iff, Function.comp] at hb hb'
  obtain ⟨_, _, rfl⟩ := hb
  obtain ⟨_, _, rfl⟩ := hb'
  rfl

/-- Cells take in an impulse, one after the other. -/
theorem chain_ingest (imp : Impulse F) {ids : List NodeId} (hids : ids.Nodup)
    (hmemory : ∀ id ∈ ids, ∀ cell, self.cells[id]? = some cell →
      permit.memory cell.memory (cell.ingest platform imp self.nowMs).1.memory) :
    MicroChain platform permit (self.trace [] univ)
      ((ids.foldl (ingestAt platform imp) ⟨self, [], []⟩).field.trace
        (ids.foldl (ingestAt platform imp) ⟨self, [], []⟩).deltas univ) := by
  refine reflTransGen_foldl_distinct (fun acc : Responses F => acc.field.trace acc.deltas univ)
    (fun id => id) (fun acc id => acc.field.cells[id]?.map fun cell => (cell, acc.field.nowMs))
    (fun _ (seen : NodeCell F × UInt64) =>
      permit.memory seen.1.memory (seen.1.ingest platform imp seen.2).1.memory)
    (ingestAt platform imp) ⟨self, [], []⟩ ?_ ?_ (by simpa using hids) ?_
  · -- what one cell takes in, the others do not see
    intro acc id other hne
    unfold ingestAt
    cases acc.field.cells[id]? with
    | none => rfl
    | some cell =>
        dsimp only
        split <;> rw [getElem?_setCell_of_ne hne] <;> rfl
  · -- one cell: it is changed, and its vitals are told if it answers
    intro acc id _ hP
    unfold ingestAt
    cases hcell : acc.field.cells[id]? with
    | none => exact .refl
    | some cell =>
        have hpermit := hP (cell, acc.field.nowMs) (by rw [hcell]; rfl)
        have htweaks := Tweaks.ingest platform cell imp acc.field.nowMs
        dsimp only
        split
        · exact chain_tweak_energy hcell
            ⟨htweaks.id, htweaks.pattern, htweaks.links, htweaks.alive⟩ hpermit
        · exact chain_tweak hcell htweaks hpermit
  · -- each cell is still as it was when the impulse came
    intro id hid seen hseen
    obtain ⟨cell, hcell, rfl⟩ := Option.map_eq_some_iff.mp hseen
    exact hmemory id hid cell hcell

omit [FloatLike F] in
/-- By induction along the route of an impulse: it counts links and pairs, which a trace does not show. -/
theorem core_recordRouteSequence (visits : Visits F) (nodes : List NodeId) (self : ClusterField F) :
    (self.recordRouteSequence visits nodes).core = self.core := by
  induction nodes generalizing self with
  | nil => rfl
  | cons source nodes ih =>
      cases nodes with
      | nil => rfl
      | cons target rest =>
          rw [recordRouteSequence, ih]
          split <;> rfl

/-- An impulse of noradrenaline changes nothing that firing rules reads, and nothing that a trace shows. -/
theorem reflexes_feelHormone (imp : Impulse F) :
    (self.feelHormone imp).reflexes = self.reflexes ∧ (self.feelHormone imp).core = self.core := by
  unfold feelHormone
  split <;> exact ⟨rfl, rfl⟩

/-- What an impulse does before it reaches a cell is the chain of its reflexes, the hormone being no part of
it. -/
theorem chain_react (visits : Visits F) (imp : Impulse F) {stale : Set NodeId}
    (hroom : Room permit self.nextId
      (spawnsBy platform visits imp self (tokenize platform imp.pattern).eraseDups [])) :
    MicroChain platform permit (self.trace [] stale) ((self.react platform visits imp).trace [] stale) := by
  obtain ⟨hreflexes, hcore⟩ := @reflexes_feelHormone F self _ imp
  have hid : (self.feelHormone imp).nextId = self.nextId := congrArg (fun e => e.1.nextId) hcore
  rw [← trace_congr hcore]
  refine chain_processReflexes visits imp _ [] ?_
  rw [hid, spawnsBy_congr visits imp _ [] hreflexes]
  exact hroom

/-- A whole impulse is a chain: its reflexes, then one change in place for each target, which leaves it stale
until its vitals are emitted, and the deltas of the answers. -/
theorem chain_routeImpulse (visits : Visits F) (imp : Impulse F)
    (hroom : Room permit self.nextId
      (spawnsBy platform visits imp self (tokenize platform imp.pattern).eraseDups []))
    (hmemory : ∀ id ∈ (self.react platform visits imp).targets visits
        (tokenize platform imp.pattern) imp,
      ∀ cell, (self.react platform visits imp).cells[id]? = some cell →
        permit.memory cell.memory
          (cell.ingest platform imp (self.react platform visits imp).nowMs).1.memory) :
    MicroChain platform permit (self.trace [] univ)
      ((self.routeImpulse platform visits imp).trace [] univ) := by
  refine (chain_react visits imp hroom).trans
    ((chain_ingest imp (nodup_targets visits _ imp) hmemory).trans ?_)
  -- What follows are the books of the routes, and then the deltas are emitted.
  unfold routeImpulse
  dsimp only
  generalize (List.foldl (ingestAt platform imp) _ _) = responses
  rw [trace_foldl_emit]
  have hrecent (s : ClusterField F) (token : String) :
      (recordRecent imp (responses.responded.map Prod.fst) s token).core = s.core := rfl
  have hhit (token : String) (s : ClusterField F) (e : NodeId × UInt32) :
      (s.recordTokenHit platform token e.1 imp.strength e.2).core = s.core := rfl
  refine chain_of_core ?_
  refine (list_foldl_keeps core (fun s token => list_foldl_keeps core (hhit token) _ s) _ _).trans ?_
  exact (list_foldl_keeps core hrecent _ _).trans (core_recordRouteSequence visits _ _)

end ClusterField

end LiminalDB
