import LiminalDB.Field.TickChains

/-! # Trimming and buds as chains of steps

Trimming changes all cells at once and emits the deaths afterwards. As a chain it first puts the cells
that stay to sleep and then lets the others die, one after the other: the same cells are left, and the
same deltas are emitted, as long as the cells that are not retained are those whose death is emitted. -/

namespace LiminalDB

variable {F : Type}

open Set (univ)

/-! ## Steps at many cells -/

namespace Replica

/-- Cells are changed, one after the other. -/
def alters (r : Replica F) (change : NodeId → NodeCell F → NodeCell F) (ids : List NodeId) : Replica F :=
  ids.foldl (fun r id => r.alter id (change id)) r

/-- Cells are removed, one after the other. -/
def drops (r : Replica F) (ids : List NodeId) : Replica F := ids.foldl drop r

/-- Altering distinct cells one after the other is altering each of them once, at the same time. -/
theorem alters_eq (r : Replica F) (change : NodeId → NodeCell F → NodeCell F) {ids : List NodeId}
    (hids : ids.Nodup) :
    r.alters change ids =
      { r with
        cells := fun id => if id ∈ ids then (r.cells id).map (change id) else r.cells id } := by
  induction ids generalizing r with
  | nil => simp [alters]
  | cons first ids ih =>
      obtain ⟨hfirst, hids⟩ := List.nodup_cons.mp hids
      refine (ih (r.alter first (change first)) hids).trans (Replica.ext (funext fun id => ?_)
        rfl rfl rfl rfl rfl rfl)
      show (if id ∈ ids then _ else _) = _
      rw [cells_alter]
      by_cases heq : id = first
      · subst heq
        simp [hfirst]
      · simp [heq]

/-- Dropping cells one after the other is dropping all of them at once. -/
theorem drops_eq (r : Replica F) (ids : List NodeId) :
    r.drops ids = { r with cells := fun id => if id ∈ ids then none else r.cells id } := by
  induction ids generalizing r with
  | nil => simp [drops]
  | cons first ids ih =>
      refine (ih (r.drop first)).trans (Replica.ext (funext fun id => ?_) rfl rfl rfl rfl rfl rfl)
      show (if id ∈ ids then _ else _) = _
      rw [cells_drop]
      by_cases heq : id = first
      · subst heq
        simp
      · simp [heq]

end Replica

namespace Trace

variable {platform : Platform F} {permit : Permit F}

/-- Cells are changed in place. -/
theorem chain_alters (change : NodeId → NodeCell F → NodeCell F) {ids : List NodeId} (hids : ids.Nodup)
    (t : Trace F) (hstale : t.stale = univ)
    (hchange : ∀ id ∈ ids, ∀ cell, t.replica.cells id = some cell →
      Tweaks cell (change id cell) ∧ permit.memory cell.memory (change id cell).memory) :
    MicroChain platform permit t { t with replica := t.replica.alters change ids } := by
  induction ids generalizing t with
  | nil => exact .refl
  | cons id ids ih =>
      obtain ⟨hfirst, hids⟩ := List.nodup_cons.mp hids
      have hstep : MicroChain platform permit t { t with replica := t.replica.alter id (change id) } := by
        cases hcell : t.replica.cells id with
        | none => rw [Replica.alter_of_none hcell]
        | some cell =>
            obtain ⟨htweaks, hpermit⟩ := hchange id List.mem_cons_self cell hcell
            rw [Replica.alter_of_some hcell]
            exact ClusterField.chain_of_micro (.tweak hcell htweaks hpermit) rfl rfl rfl
              (by simp [hstale])
      refine hstep.trans (ih hids { t with replica := t.replica.alter id (change id) } hstale ?_)
      intro other hmem cell hcell
      have hne : other ≠ id := fun heq => hfirst (heq ▸ hmem)
      rw [Replica.cells_alter, Function.update_of_ne hne] at hcell
      exact hchange other (List.mem_cons_of_mem _ hmem) cell hcell

/-- Cells die. -/
theorem chain_drops (hdead : permit.dead) (ids : List NodeId) (t : Trace F) :
    MicroChain platform permit t
      { t with replica := t.replica.drops ids, emitted := t.emitted ++ ids.map .dead } := by
  induction ids generalizing t with
  | nil => simpa [Replica.drops] using Relation.ReflTransGen.refl
  | cons id ids ih =>
      have hrest := ih { t with replica := t.replica.drop id, emitted := t.emitted ++ [.dead id] }
      rw [List.append_assoc] at hrest
      exact (Relation.ReflTransGen.single (.dead id hdead)).trans hrest

end Trace

namespace ClusterField

variable {platform : Platform F} {permit : Permit F} {self : ClusterField F} [FloatLike F]

/-! ## Trimming -/

/-- The energy of a cell is above the threshold of trimming or not, and not neither. -/
def Decided (cell : NodeCell F) : Prop :=
  isProtected cell = true ∨ (cell.energy ≤ 0.1 ↔ ¬ 0.1 < cell.energy)

/-- A cell that dozes off or dies is protected as before, and has the energy it had. -/
theorem isProtected_doze (nowMs : UInt64) (dozes dies : Bool) (cell : NodeCell F) :
    isProtected (doze nowMs dozes dies cell) = isProtected cell ∧
      (doze nowMs dozes dies cell).energy = cell.energy := by
  unfold doze
  split
  · exact ⟨rfl, rfl⟩
  · split
    · dsimp only
      split <;> split <;> exact ⟨rfl, rfl⟩
    · exact ⟨rfl, rfl⟩

/-- A cell that dozes off keeps its id, its pattern, its links and its memory. -/
theorem doze_keeps (nowMs : UInt64) (dozes dies : Bool) (cell : NodeCell F) :
    (doze nowMs dozes dies cell).id = cell.id ∧
      (doze nowMs dozes dies cell).seed.corePattern = cell.seed.corePattern ∧
      (doze nowMs dozes dies cell).links = cell.links ∧
      (doze nowMs dozes dies cell).memory = cell.memory := by
  unfold doze
  split
  · exact ⟨rfl, rfl, rfl, rfl⟩
  · split
    · dsimp only
      split <;> split <;> exact ⟨rfl, rfl, rfl, rfl⟩
    · exact ⟨rfl, rfl, rfl, rfl⟩

/-- A cell that is retained is not dead. -/
theorem state_of_isRetained {cell : NodeCell F} (h : isRetained cell = true) : cell.state ≠ .dead := by
  unfold isRetained at h
  split at h
  · exact of_decide_eq_true h
  · exact of_decide_eq_true (Bool.and_eq_true_iff.mp h).2

/-- The cells that are not retained are those whose death is emitted. -/
theorem isVictim_doze {cell : NodeCell F} (halive : cell.state ≠ .dead) (h : Decided cell)
    (nowMs : UInt64) (dozes dies : Bool) :
    isVictim (doze nowMs dozes dies cell) = !isRetained (doze nowMs dozes dies cell) := by
  by_cases hprotected : isProtected cell = true
  · have hsame : doze nowMs dozes dies cell = cell := by
      unfold doze
      rw [if_pos hprotected]
    rw [hsame]
    simp [isVictim, isRetained, hprotected, halive]
  · obtain ⟨hkept, henergy⟩ := isProtected_doze nowMs dozes dies cell
    generalize doze nowMs dozes dies cell = dozed at hkept henergy
    have hdecided := h.resolve_left hprotected
    rw [Bool.not_eq_true] at hprotected
    rw [hprotected] at hkept
    rw [← henergy] at hdecided
    by_cases hlow : dozed.energy ≤ 0.1
    · simp [isVictim, isRetained, hkept, hlow, hdecided.mp hlow]
    · have habove : 0.1 < dozed.energy := by
        by_contra hnot
        exact hlow (hdecided.mpr hnot)
      simp [isVictim, isRetained, hkept, hlow, habove]

/-- The cells whose death trimming emits. -/
def victims (visits : Visits F) (dozes dies : NodeId → Bool) (self : ClusterField F) : List NodeId :=
  let cells := self.cells.map fun id cell => doze self.nowMs (dozes id) (dies id) cell
  (visits.cells.arrange cells.keys).filter fun id => cells[id]?.any isVictim

/-- The victims of a trimming are the cells that are to go once they have dozed off or died, in whichever
order they are visited. -/
theorem mem_victims {visits : Visits F} {dozes dies : NodeId → Bool} {id : NodeId} :
    id ∈ self.victims visits dozes dies ↔
      (self.cells[id]?).any fun cell => isVictim (doze self.nowMs (dozes id) (dies id) cell) := by
  unfold victims
  simp only [List.mem_filter, Order.mem_arrange, Std.ExtTreeMap.mem_keys,
    Std.ExtTreeMap.getElem?_map, Option.any_map, Std.ExtTreeMap.mem_iff_isSome_getElem?]
  cases self.cells[id]? <;> simp

/-- The field with the cells that trimming retains. -/
def retained (dozes dies : NodeId → Bool) (self : ClusterField F) : ClusterField F :=
  { self with
    cells := (self.cells.map fun id cell => doze self.nowMs (dozes id) (dies id) cell).filter
      fun _ cell => isRetained cell }

/-- What is left are the cells that are retained after this. -/
theorem cells_retained (dozes dies : NodeId → Bool) (id : NodeId) :
    (self.retained dozes dies).cells[id]? =
      ((self.cells[id]?).map (doze self.nowMs (dozes id) (dies id))).filter isRetained := by
  unfold retained
  rw [Std.ExtTreeMap.getElem?_filter', Std.ExtTreeMap.getElem?_map]

omit [FloatLike F] in
/-- Announcing the victims adds a death for each of them to the journal, and nothing else that a trace shows.
-/
theorem core_foldl_dead (ids : List NodeId) (self : ClusterField F) :
    (ids.foldl (fun self id => (self.emit (.dead id)).purgeTrackingFor id) self).core =
      (self.replica, self.index, self.journal ++ ids.map .dead) := by
  induction ids generalizing self with
  | nil => rw [List.map_nil, List.append_nil]; rfl
  | cons id ids ih =>
      rw [List.foldl_cons, ih, List.map_cons, List.append_cons]
      rfl

/-- After a trimming the cells are those that are retained, the journal has a death for each victim, and the
index is built anew if a cell is gone. -/
theorem core_trimLowEnergy (visits : Visits F) (dozes dies : NodeId → Bool) :
    (self.trimLowEnergy platform visits dozes dies).core =
      ((self.retained dozes dies).replica,
        if (self.retained dozes dies).cells.size ≠ self.cells.size then
          ((self.retained dozes dies).rebuildIndex platform).index
        else self.index,
        self.journal ++ (self.victims visits dozes dies).map .dead) := by
  refine (core_foldl_dead (self.victims visits dozes dies)
    (if (self.retained dozes dies).cells.size ≠ self.cells.size then
      (self.retained dozes dies).rebuildIndex platform else self.retained dozes dies)).trans ?_
  split
  · rw [replica_rebuildIndex, journal_rebuildIndex]
    rfl
  · rfl

/-- The index is that of the cells again: it was built anew, or no cell is gone. -/
theorem indexed_trimLowEnergy (visits : Visits F) (dozes dies : NodeId → Bool)
    (h : Indexed platform self) :
    Indexed platform (self.trimLowEnergy platform visits dozes dies) := by
  obtain ⟨hreplica, hrest⟩ := Prod.mk.inj (@core_trimLowEnergy F platform self _ visits dozes dies)
  obtain ⟨hindex, -⟩ := Prod.mk.inj hrest
  unfold Indexed
  rw [hreplica, hindex]
  split
  · rw [← replica_rebuildIndex platform (self.retained dozes dies)]
    exact indexed_rebuildIndex platform (self.retained dozes dies)
  · rename_i hsize
    -- No cell is missing, so all have been retained.
    have hall : (self.retained dozes dies).cells =
        self.cells.map fun id cell => doze self.nowMs (dozes id) (dies id) cell := by
      have hcount : (self.retained dozes dies).cells.size =
          (self.cells.map fun id cell => doze self.nowMs (dozes id) (dies id) cell).size := by
        rw [Std.ExtTreeMap.size_map]
        exact not_not.mp hsize
      exact Std.ExtTreeMap.filter_eq_self_iff.mpr (Std.ExtTreeMap.size_filter_eq_size_iff.mp hcount)
    refine listed_congr h fun id => ?_
    show ((self.retained dozes dies).cells[id]?).map _ = (self.cells[id]?).map _
    rw [hall, Std.ExtTreeMap.getElem?_map, Option.map_map]
    exact congrArg (Option.map · _) (funext fun cell => (doze_keeps _ _ _ cell).2.1)

/-- Trimming leaves no dead cell. -/
theorem sound_trimLowEnergy (visits : Visits F) (dozes dies : NodeId → Bool)
    (h : InPlace self.replica.cells) :
    Sound (self.trimLowEnergy platform visits dozes dies).replica.cells := by
  obtain ⟨hreplica, -⟩ := Prod.mk.inj (@core_trimLowEnergy F platform self _ visits dozes dies)
  rw [hreplica]
  intro id cell hcell
  have hcell : (self.retained dozes dies).cells[id]? = some cell := hcell
  rw [cells_retained, Option.filter_eq_some_iff] at hcell
  obtain ⟨hdozed, hretained⟩ := hcell
  obtain ⟨before, hbefore, rfl⟩ := Option.map_eq_some_iff.mp hdozed
  exact ⟨(doze_keeps _ _ _ before).1.trans (h id before hbefore), state_of_isRetained hretained⟩

/-- A cell as trimming leaves it, or as it was if it is about to die. -/
def settle (dozes dies : NodeId → Bool) (nowMs : UInt64) (id : NodeId) (cell : NodeCell F) : NodeCell F :=
  if isRetained (doze nowMs (dozes id) (dies id) cell) then doze nowMs (dozes id) (dies id) cell else cell

/-- Dozing off and dying alter the state of a cell, not its memory. -/
theorem tweaks_settle (dozes dies : NodeId → Bool) (nowMs : UInt64) (id : NodeId) (cell : NodeCell F) :
    Tweaks cell (settle dozes dies nowMs id cell) ∧
      (settle dozes dies nowMs id cell).memory = cell.memory := by
  unfold settle
  split
  · rename_i hretained
    obtain ⟨hid, hpattern, hlinks, hmemory⟩ := doze_keeps nowMs (dozes id) (dies id) cell
    exact ⟨⟨hid, hpattern, hlinks, fun _ => state_of_isRetained hretained⟩, hmemory⟩
  · exact ⟨Tweaks.refl cell, rfl⟩

/-- The retained cells are what is left when the cells have settled and the victims are gone. -/
theorem replica_retained (visits : Visits F) (dozes dies : NodeId → Bool)
    (hsound : Sound self.replica.cells)
    (hdecided : ∀ (id : NodeId) (cell : NodeCell F), self.cells[id]? = some cell → Decided cell) :
    (self.retained dozes dies).replica =
      (self.replica.alters (settle dozes dies self.nowMs) self.cells.keys).drops
        (self.victims visits dozes dies) := by
  rw [Replica.drops_eq, Replica.alters_eq _ _ Std.ExtTreeMap.nodup_keys]
  refine Replica.ext (funext fun id => ?_) rfl rfl rfl rfl rfl rfl
  show (self.retained dozes dies).cells[id]? = if id ∈ self.victims visits dozes dies then none
    else if id ∈ self.cells.keys then (self.cells[id]?).map (settle dozes dies self.nowMs id)
    else self.cells[id]?
  rw [cells_retained]
  cases hcell : self.cells[id]? with
  | none =>
      have hno : id ∉ self.victims visits dozes dies := by
        rw [mem_victims, hcell]
        simp
      rw [if_neg hno]
      simp
  | some cell =>
      have hkey : id ∈ self.cells.keys := by
        rw [Std.ExtTreeMap.mem_keys, Std.ExtTreeMap.mem_iff_isSome_getElem?, hcell]
        rfl
      -- A cell is a victim if and only if it is not retained after its doze.
      have hmem : id ∈ self.victims visits dozes dies ↔
          ¬ isRetained (doze self.nowMs (dozes id) (dies id) cell) = true := by
        rw [mem_victims, hcell, Option.any_some,
          isVictim_doze (hsound id cell hcell).2 (hdecided id cell hcell), Bool.not_eq_true',
          Bool.not_eq_true]
      rw [if_pos hkey, Option.map_some, Option.filter_some]
      by_cases hretained : isRetained (doze self.nowMs (dozes id) (dies id) cell) = true
      · have hstays : id ∉ self.victims visits dozes dies := fun hvictim => hmem.mp hvictim hretained
        rw [if_pos hretained, if_neg hstays, Option.map_some, settle, if_pos hretained]
      · rw [if_neg hretained, if_pos (hmem.mpr hretained)]

/-- A trimming is a chain of such alterations and of the deaths of its victims, if deaths are permitted. -/
theorem chain_trimLowEnergy (visits : Visits F) (dozes dies : NodeId → Bool)
    (hsound : Sound self.replica.cells)
    (hdecided : ∀ (id : NodeId) (cell : NodeCell F), self.cells[id]? = some cell → Decided cell)
    (hdead : permit.dead) :
    ∃ index, MicroChain platform permit (self.trace [] univ)
      { (self.trimLowEnergy platform visits dozes dies).trace [] univ with index } := by
  obtain ⟨hreplica, hrest⟩ := Prod.mk.inj (@core_trimLowEnergy F platform self _ visits dozes dies)
  obtain ⟨-, hjournal⟩ := Prod.mk.inj hrest
  have hsettle : MicroChain platform permit (self.trace [] univ)
      { self.trace [] univ with
        replica := self.replica.alters (settle dozes dies self.nowMs) self.cells.keys } := by
    refine Trace.chain_alters (settle dozes dies self.nowMs) Std.ExtTreeMap.nodup_keys _ rfl ?_
    intro id _ cell _
    obtain ⟨htweaks, hmemory⟩ := tweaks_settle dozes dies self.nowMs id cell
    exact ⟨htweaks, hmemory ▸ permit.memory_refl _⟩
  have hdrop := @Trace.chain_drops F platform permit hdead (self.victims visits dozes dies)
    { self.trace [] univ with
      replica := self.replica.alters (settle dozes dies self.nowMs) self.cells.keys }
  refine ⟨_, hsettle.trans (hdrop.trans (chain_of_micro (.forget subset_rfl) ?_ rfl ?_ subset_rfl))⟩
  · exact hreplica.trans (replica_retained visits dozes dies hsound hdecided)
  · simp only [trace, hjournal, List.append_nil]

/-! ## New buds -/

/-- The links to a bud, from the cells that have been linked to it. -/
def budLinks (bud : NodeId) (sources : List NodeId) : List (EventDelta F) :=
  sources.map fun source => .link source bud

omit [FloatLike F] in
/-- Linking a bud to one more cell, if the coin says so, is one small step or none. -/
theorem chain_linkBud (coin : NodeId → Bool) (bud : NodeId) {stale : Set NodeId}
    {acc : ClusterField F × List NodeId} (hplace : InPlace acc.1.replica.cells) (id : NodeId) :
    MicroChain platform permit (acc.1.trace (budLinks bud acc.2) stale)
      ((linkBud coin bud acc id).1.trace (budLinks bud (linkBud coin bud acc id).2) stale) := by
  unfold linkBud
  cases hcell : acc.1.cells[id]? with
  | none => exact .refl
  | some cell =>
      dsimp only
      split
      · obtain rfl : cell.id = id := hplace id cell hcell
        have hpending : (budLinks bud (acc.2 ++ [cell.id]) : List (EventDelta F)) =
            budLinks bud acc.2 ++ [.link cell.id bud] := List.map_append
        rw [hpending]
        refine chain_link (Or.inl rfl) ?_ rfl rfl
        rw [replica_setCell, Replica.alter_of_some (r := acc.1.replica) hcell]
      · exact .refl

omit [FloatLike F] in
/-- By induction over the cells, linking a bud to each that the coin picks is a chain. -/
theorem chain_linkBuds (coin : NodeId → Bool) (bud : NodeId) {stale : Set NodeId} (ids : List NodeId)
    (hplace : InPlace self.replica.cells) :
    MicroChain platform permit (self.trace [] stale)
      ((ids.foldl (linkBud coin bud) (self, [])).1.trace
        (budLinks bud (ids.foldl (linkBud coin bud) (self, [])).2) stale) := by
  have hround (acc : ClusterField F × List NodeId) (hacc : InPlace acc.1.replica.cells) (id : NodeId)
      (_ : id ∈ ids) :=
    have hstep := @chain_linkBud F platform permit coin bud stale acc hacc id
    And.intro hstep (inPlace_chain hstep hacc)
  have hstart : InPlace (self, ([] : List NodeId)).1.replica.cells := hplace
  exact (reflTransGen_foldl_inv (fun acc : ClusterField F × List NodeId =>
    acc.1.trace (budLinks bud acc.2) stale) hround hstart).1

/-- A variation that is injected is the birth of a bud, then of its links, or nothing where there are too many
cells. -/
theorem chain_injectSeedVariation (visits : Visits F) (shift energy : F) (coin : NodeId → Bool)
    (baseSeed : String) {stale : Set NodeId} (hplace : InPlace self.replica.cells)
    (hpermit : ¬ 64 < self.cells.size → permit.spawn self.nextId) :
    MicroChain platform permit (self.trace [] stale)
      ((self.injectSeedVariation platform visits shift energy coin baseSeed).trace [] stale) := by
  unfold injectSeedVariation
  split
  · exact .refl
  · rename_i hfew
    have hspawn : MicroChain platform permit (self.trace [] stale)
        ((self.spawn platform (self.bud platform shift energy baseSeed)).trace [] stale) :=
      chain_spawn rfl ⟨by simp [bud, NodeCell.fromSeed], rfl⟩ (hpermit hfew)
    refine hspawn.trans ?_
    have hspawned := inPlace_chain hspawn hplace
    dsimp only
    generalize self.spawn platform (self.bud platform shift energy baseSeed) = spawned at hspawned
    refine (chain_linkBuds coin self.nextId (visits.cells.arrange spawned.cells.keys) hspawned).trans ?_
    generalize (visits.cells.arrange spawned.cells.keys).foldl (linkBud coin self.nextId)
      (spawned, []) = linked
    have hemit : linked.2.foldl (fun self' source => self'.emit (.link source self.nextId)) linked.1 =
        (budLinks self.nextId linked.2).foldl emit linked.1 := List.foldl_map.symm
    have hregister (s : ClusterField F) (source : NodeId) :
        (s.registerLink source self.nextId).core = s.core := rfl
    rw [trace_congr (list_foldl_keeps core hregister _ _), hemit, trace_foldl_emit]

end ClusterField

end LiminalDB
