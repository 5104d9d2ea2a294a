import LiminalDB.Field.Snapshot
import LiminalDB.Field.Topology

/-! # The token index of a field

A field moves by its calls, by deltas that are replayed on it and by starting over from a snapshot. In
every state it reaches, the index lists exactly the cells there are, and an impulse scores exactly the
cells that share a token with it, or all of them. A cell whose state is dead is among them as long as it
is there; only a delta or a snapshot can bring one. -/

namespace LiminalDB

variable {F : Type}

/-! ## Steps -/

/-- What can happen to a field. -/
inductive FieldStep (F : Type)
  | call (c : FieldCall F)
  | rebuildCaches
  | restoreAwakeningState (cfg : AwakeningConfig F) (model : ResonantModel F) (syncLog : SyncLog)
      (lastTick : UInt64)
  /-- A reflex shifts the target of the load. -/
  | setTarget (target : F)
  | applyDelta (delta : EventDelta F)
  | intoField (seed : ClusterFieldSeed F)

/-- The states of the cells that a delta sets. -/
def EventDelta.states : EventDelta F → List NodeState
  | .spawn snapshot => [snapshot.state]
  | .divide _ child => [child.state]
  | .sleep _ => [.sleep]
  | .energy _ _ _ state _ => [state]
  | _ => []

/-- The states of the cells that a step brings from outside. -/
def FieldStep.states : FieldStep F → List NodeState
  | .applyDelta delta => delta.states
  | .intoField seed => seed.cells.map CellSnapshot.state
  | _ => []

namespace ClusterField

variable [FloatLike F] {platform : Platform F} {self : ClusterField F}

/-- What a step makes of a field. -/
def step (platform : Platform F) (self : ClusterField F) : FieldStep F → ClusterField F
  | .call c => self.call platform c
  | .rebuildCaches => self.rebuildIndex platform
  | .restoreAwakeningState cfg model syncLog lastTick =>
      self.restoreAwakeningState cfg model syncLog lastTick
  | .setTarget target => { self with trs := self.trs.setTarget target }
  | .applyDelta delta => self.applyDelta platform delta
  | .intoField seed => seed.intoField platform

/-- The field after some steps. -/
def reach (platform : Platform F) (steps : List (FieldStep F)) : ClusterField F :=
  steps.foldl (step platform) new

/-! ## Cells that deltas and snapshots bring -/

/-- Every cell stands under its id, and its state is as asked. -/
def Stately (P : NodeState → Prop) (cells : NodeId → Option (NodeCell F)) : Prop :=
  Each (fun id cell => cell.id = id ∧ P cell.state) cells

omit [FloatLike F] in
/-- A delta that brings none but such states leaves none but such states. -/
theorem stately_apply {P : NodeState → Prop} {r : Replica F} (h : Stately P r.cells) {d : EventDelta F}
    (hstates : ∀ state ∈ d.states, P state) : Stately P (r.apply platform d).cells := by
  have halter (id : NodeId) (change : NodeCell F → NodeCell F)
      (hchange : ∀ cell, (change cell).id = cell.id ∧ ((change cell).state = cell.state ∨
        P (change cell).state)) : Stately P (r.alter id change).cells :=
    h.map id change fun cell ⟨hid, hstate⟩ =>
      ⟨(hchange cell).1.trans hid, (hchange cell).2.elim (fun hsame => hsame ▸ hstate) fun hset => hset⟩
  have hset {cells : NodeId → Option (NodeCell F)} (hcells : Stately P cells) {snapshot : CellSnapshot F}
      (hstate : P snapshot.state) :
      Stately P (Function.update cells snapshot.id (some snapshot.toNode)) :=
    hcells.update fun cell hcell => by cases hcell; exact ⟨rfl, hstate⟩
  have hlink (source target : NodeId) : Stately P (r.alter source (·.link target)).cells :=
    halter source _ fun _ => ⟨rfl, Or.inl rfl⟩
  have hunlink (source target : NodeId) : Stately P (r.alter source (·.unlink target)).cells :=
    halter source _ fun _ => ⟨rfl, Or.inl rfl⟩
  cases d with
  | spawn snapshot => exact hset h (hstates _ List.mem_cons_self)
  | divide parent child => exact hset (hlink parent child.id) (hstates _ List.mem_cons_self)
  | sleep id => exact halter id _ fun _ => ⟨rfl, Or.inr (hstates _ List.mem_cons_self)⟩
  | dead id => exact h.update fun _ hcell => by cases hcell
  | link source target => exact hlink source target
  | dreamRewire source target => exact hlink source target
  | unlink source target => exact hunlink source target
  | dreamPrune source target => exact hunlink source target
  | affinity id affinity => exact halter id _ fun _ => ⟨rfl, Or.inl rfl⟩
  | energy id energy metabolism state lastResponseMs =>
      exact halter id _ fun _ => ⟨rfl, Or.inr (hstates _ List.mem_cons_self)⟩
  | _ => exact h

omit [FloatLike F] in
/-- So do the cells of a snapshot. -/
theorem stately_insert {P : NodeState → Prop} (snapshots : List (CellSnapshot F))
    (hstates : ∀ snapshot ∈ snapshots, P snapshot.state)
    {cells : Std.ExtTreeMap NodeId (NodeCell F) compare} (h : Stately P fun id => cells[id]?) :
    Stately P fun id => (snapshots.foldl (fun cells snapshot => cells.insert snapshot.id snapshot.toNode)
      cells)[id]? := by
  induction snapshots generalizing cells with
  | nil => exact h
  | cons snapshot snapshots ih =>
      obtain ⟨hfirst, hrest⟩ := List.forall_mem_cons.mp hstates
      refine ih hrest ?_
      rw [getElem?_insert_eq]
      exact h.update fun cell hcell => by cases hcell; exact ⟨rfl, hfirst⟩

/-- A field that is built from a snapshot has the states of the snapshot. -/
theorem stately_intoField {P : NodeState → Prop} (seed : ClusterFieldSeed F)
    (hstates : ∀ snapshot ∈ seed.cells, P snapshot.state) :
    Stately P (seed.intoField platform).replica.cells := by
  rw [(replica_intoField platform seed).1]
  exact stately_insert seed.cells hstates fun id cell hcell => by simp at hcell

/-! ## Steps keep the index -/

/-- Every step keeps the index that of the cells: calls and deltas do, and a restart builds it. -/
theorem indexed_step (hplace : InPlace self.replica.cells) (h : Indexed platform self) (s : FieldStep F) :
    Indexed platform (self.step platform s) := by
  cases s with
  | call c => exact indexed_call hplace h c
  | rebuildCaches => exact indexed_rebuildIndex platform self
  | restoreAwakeningState cfg model syncLog lastTick => exact h
  | setTarget target => exact h
  | applyDelta delta => exact indexed_applyDelta h delta
  | intoField seed => exact indexed_intoField platform seed

/-- What a step brings from outside is in the state it may be in, and its calls keep to that. -/
theorem stately_step {P : NodeState → Prop} (h : Stately P self.replica.cells) {s : FieldStep F}
    (hcall : ∀ c, s = .call c → Stately P (self.call platform c).replica.cells)
    (hstates : ∀ state ∈ s.states, P state) : Stately P (self.step platform s).replica.cells := by
  cases s with
  | call c => exact hcall c rfl
  | rebuildCaches =>
      unfold step
      rw [replica_rebuildIndex]
      exact h
  | restoreAwakeningState cfg model syncLog lastTick => exact h
  | setTarget target => exact h
  | applyDelta delta =>
      unfold step
      rw [replica_applyDelta]
      exact stately_apply h hstates
  | intoField seed =>
      exact stately_intoField seed fun snapshot hsnapshot =>
        hstates snapshot.state (List.mem_map_of_mem hsnapshot)

omit [FloatLike F] in
/-- Asking nothing of the states is asking that each cell stands under its own number. -/
theorem stately_true {cells : NodeId → Option (NodeCell F)} :
    Stately (fun _ => True) cells ↔ InPlace cells :=
  ⟨fun h id cell hcell => (h id cell hcell).1, fun h id cell hcell => ⟨h id cell hcell, trivial⟩⟩

/-- Every step keeps each cell under its own number. -/
theorem inPlace_step (h : InPlace self.replica.cells) (s : FieldStep F) :
    InPlace (self.step platform s).replica.cells :=
  stately_true.mp (stately_step (stately_true.mpr h) (fun c _ => stately_true.mpr (inPlace_call h c))
    fun _ _ => trivial)

/-- A step that brings no dead cell leaves none. -/
theorem sound_step (h : Sound self.replica.cells) {s : FieldStep F} (hstates : .dead ∉ s.states) :
    Sound (self.step platform s).replica.cells :=
  @stately_step F _ platform self (· ≠ .dead) h s (fun c _ => sound_call h c)
    fun _ hstate heq => hstates (heq ▸ hstate)

/-! ## Runs keep the index -/

/-- One more step is made in the state reached by those before it. -/
theorem reach_append_singleton (platform : Platform F) (steps : List (FieldStep F)) (s : FieldStep F) :
    reach platform (steps ++ [s]) = (reach platform steps).step platform s := by
  unfold reach
  rw [List.foldl_append]
  rfl

/-- By induction over the steps, every reachable field has the index of its cells. -/
theorem indexed_reach (platform : Platform F) (steps : List (FieldStep F)) :
    InPlace (reach platform steps).replica.cells ∧ Indexed platform (reach platform steps) := by
  induction steps using List.reverseRecOn with
  | nil =>
      refine ⟨fun id cell hcell => ?_, fun token id => ?_⟩
      · simp [reach, new, replica] at hcell
      · simp [reach, new, replica]
  | append_singleton steps s ih =>
      obtain ⟨hplace, hindexed⟩ := ih
      rw [reach_append_singleton]
      exact ⟨inPlace_step hplace s, indexed_step hplace hindexed s⟩

/-- By induction as well, a field that no step has brought a dead cell to has none. -/
theorem sound_reach {steps : List (FieldStep F)} (h : ∀ s ∈ steps, .dead ∉ s.states) :
    Sound (reach platform steps).replica.cells := by
  induction steps using List.reverseRecOn with
  | nil => exact fun id cell hcell => by simp [reach, new, replica] at hcell
  | append_singleton steps s ih =>
      rw [reach_append_singleton]
      refine sound_step (ih fun s' hs' => h s' (List.mem_append_left _ hs')) ?_
      exact h s (List.mem_append_right _ List.mem_cons_self)

/-! ## Candidates -/

/-- A cell and an impulse with these tokens have a token in common. -/
def Shares (platform : Platform F) (tokens : List String) (cell : NodeCell F) : Prop :=
  ∃ token ∈ tokens, token ∈ tokenize platform cell.seed.corePattern

/-- Index and candidates are exact, if only the cells that count are asked about. -/
structure ExactIndex (platform : Platform F) (counts : NodeCell F → Prop) (field : ClusterField F) :
    Prop where
  index : ∀ token id, id ∈ field.index token ↔
    ∃ cell, field.cells[id]? = some cell ∧ counts cell ∧ token ∈ tokenize platform cell.seed.corePattern
  /-- The candidates of an impulse, as `route_impulse` finds them after the reflexes. -/
  candidates : ∀ visits imp id,
    id ∈ (field.react platform visits imp).candidates (tokenize platform imp.pattern) ↔
      ∃ cell, (field.react platform visits imp).cells[id]? = some cell ∧ counts cell ∧
        (Shares platform (tokenize platform imp.pattern) cell ∨
          ∀ (other : NodeId) (cell' : NodeCell F),
            (field.react platform visits imp).cells[other]? = some cell' → counts cell' →
              ¬ Shares platform (tokenize platform imp.pattern) cell')

omit [FloatLike F] in
/-- The candidates for some tokens are the cells that share one of them, or all cells where none does. -/
theorem mem_candidates (h : Indexed platform self) (tokens : List String) (id : NodeId) :
    id ∈ self.candidates tokens ↔ ∃ cell, self.cells[id]? = some cell ∧
      (Shares platform tokens cell ∨ ∀ (other : NodeId) (cell' : NodeCell F),
        self.cells[other]? = some cell' → ¬ Shares platform tokens cell') := by
  have hlisted (other : NodeId) : other ∈ (tokens.flatMap self.index).dedup ↔
      ∃ cell, self.cells[other]? = some cell ∧ Shares platform tokens cell := by
    rw [List.mem_dedup, List.mem_flatMap]
    constructor
    · rintro ⟨token, htoken, hmem⟩
      obtain ⟨-, cell, hcell, hpattern⟩ := (h token other).mp hmem
      exact ⟨cell, hcell, token, htoken, hpattern⟩
    · rintro ⟨cell, hcell, token, htoken, hpattern⟩
      exact ⟨token, htoken, (h token other).mpr ⟨trivial, cell, hcell, hpattern⟩⟩
  unfold candidates
  dsimp only
  split
  · rename_i hempty
    have hnone (other : NodeId) (cell : NodeCell F) (hcell : self.cells[other]? = some cell) :
        ¬ Shares platform tokens cell := fun hshares => by
      have hmem := (hlisted other).mpr ⟨cell, hcell, hshares⟩
      rw [List.isEmpty_iff.mp hempty] at hmem
      exact List.not_mem_nil hmem
    rw [Std.ExtTreeMap.mem_keys, Std.ExtTreeMap.mem_iff_isSome_getElem?, Option.isSome_iff_exists]
    exact exists_congr fun cell => (and_iff_left_of_imp fun _ => Or.inr hnone).symm
  · rename_i hsome
    rw [hlisted]
    refine exists_congr fun cell => and_congr_right fun _ => (or_iff_left fun hnone => hsome ?_).symm
    rw [List.isEmpty_iff, List.eq_nil_iff_forall_not_mem]
    intro other hmem
    obtain ⟨cell', hcell', hshares⟩ := (hlisted other).mp hmem
    exact hnone other cell' hcell' hshares

/-- The reflexes of an impulse keep the index. -/
theorem chain_react_deathless (visits : Visits F) (imp : Impulse F) :
    MicroChain platform deathless (self.trace [] Set.univ)
      ((self.react platform visits imp).trace [] Set.univ) :=
  chain_react visits imp fun _ _ => trivial

/-- A field with the index of its cells answers exactly, if its cells count before and after they react. -/
theorem exactIndex_of_indexed {counts : NodeCell F → Prop} (hindexed : Indexed platform self)
    (hcounts : Each (fun _ => counts) self.replica.cells)
    (hreacted : ∀ visits imp, Each (fun _ => counts) (self.react platform visits imp).replica.cells) :
    ExactIndex platform counts self where
  index token id := by
    refine (hindexed token id).trans ((and_iff_right trivial).trans ?_)
    exact exists_congr fun cell => and_congr_right fun hcell =>
      (and_iff_right (hcounts id cell hcell)).symm
  candidates visits imp id := by
    have hafter : Indexed platform (self.react platform visits imp) :=
      listed_chain (fun hdead => hdead) (chain_react_deathless visits imp) hindexed
    refine (mem_candidates hafter _ id).trans (exists_congr fun cell => and_congr_right fun hcell => ?_)
    rw [and_iff_right (hreacted visits imp id cell hcell)]
    refine or_congr_right (forall_congr' fun other => forall_congr' fun cell' =>
      imp_congr_right fun hcell' => ?_)
    exact (imp_iff_right (hreacted visits imp other cell' hcell')).symm

/-- **The token index.** It is exact for the cells there are, whatever their state, and these are all
alive where no delta and no snapshot has brought a dead one. -/
theorem exactIndex_reach (platform : Platform F) (steps : List (FieldStep F)) :
    ExactIndex platform (fun _ => True) (reach platform steps) ∧
      ((∀ s ∈ steps, .dead ∉ s.states) →
        ExactIndex platform (fun cell => cell.state ≠ .dead) (reach platform steps)) := by
  obtain ⟨-, hindexed⟩ := indexed_reach platform steps
  refine ⟨exactIndex_of_indexed hindexed (fun _ _ _ => trivial) fun _ _ _ _ _ => trivial, ?_⟩
  intro hstates
  have hsound := @sound_reach F _ platform steps hstates
  refine exactIndex_of_indexed hindexed (fun id cell hcell => (hsound id cell hcell).2) ?_
  intro visits imp id cell hcell
  exact (sound_chain (chain_react_deathless visits imp) hsound id cell hcell).2

/-- A dead cell with the token `a`. -/
def deadSnapshot : CellSnapshot ℚ :=
  ⟨0, 0, 0, "a", .dead, ∅, 0, 0, 0, 0, 0, false, 0⟩

/-- A delta can bring a dead cell, and the index lists it. -/
theorem not_exactIndex_of_dead_spawn :
    ¬ ∀ steps : List (FieldStep ℚ), ExactIndex (constantPlatform ℚ 0.5) (fun cell => cell.state ≠ .dead)
      (reach (constantPlatform ℚ 0.5) steps) := by
  intro h
  have hlisted : (0 : NodeId) ∈
      (reach (constantPlatform ℚ 0.5) [.applyDelta (.spawn deadSnapshot)]).index "a" := by
    decide +kernel
  obtain ⟨cell, hcell, halive, -⟩ := ((h _).index "a" 0).mp hlisted
  have hstate : ((reach (constantPlatform ℚ 0.5) [.applyDelta (.spawn deadSnapshot)]).cells[(0 : NodeId)]?).map
      NodeCell.state = some .dead := by decide +kernel
  rw [hcell] at hstate
  exact halive (Option.some.inj hstate)

end ClusterField

end LiminalDB
