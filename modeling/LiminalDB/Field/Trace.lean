import LiminalDB.Field.Replica

/-! # Steps of a field that emits what it does

Every mutator is a sequence of a few kinds of steps. A step changes the replica of a field and appends to
what it has emitted; `Micro` lists them. What a replay reproduces is derived from this list alone: the
view of a cell that no step disturbs (`matches_chain`), the clock, the rules and the configurations
(`tallied_chain`), the vitals of the cells that are not stale (`fresh_chain`), and the token index
(`listed_chain`). -/

namespace LiminalDB

variable {F : Type}

open ClusterField (energyDelta indexed)

/-! ## Steps -/

/-- A field as far as its journal is concerned: its replica, its index and what it has emitted. Stale
cells are those whose vitals may have changed since they were emitted. -/
structure Trace (F : Type) where
  replica : Replica F
  index : String → List NodeId
  emitted : List (EventDelta F)
  stale : Set NodeId

/-- What a cell remembers: the part of it that no delta but its snapshot carries as a whole. -/
structure Memory (F : Type) where
  affinity : F
  seedAffinity : F
  salience : F
  adrenoTag : Bool
  lastRecallMs : UInt64

/-- The memory of a cell. -/
def NodeCell.memory (cell : NodeCell F) : Memory F :=
  ⟨cell.affinity, cell.seed.affinity, cell.salience, cell.adrenoTag, cell.lastRecallMs⟩

/-- What the steps of a chain may do. -/
structure Permit (F : Type) where
  /-- The memory of a cell may change in place. -/
  memory : Memory F → Memory F → Prop
  memory_refl : ∀ m, memory m m
  /-- The affinity of a cell may be emitted. -/
  affinity : Memory F → Prop
  /-- A cell may take an id as the next one. -/
  spawn : NodeId → Prop
  /-- A rule may draw an id as the next one. -/
  draw : ReflexId → Prop
  /-- Cells may die. -/
  dead : Prop

/-- A cell keeps its id, its pattern and its links, and does not die. -/
structure Tweaks (cell after : NodeCell F) : Prop where
  id : after.id = cell.id
  pattern : after.seed.corePattern = cell.seed.corePattern
  links : after.links = cell.links
  alive : cell.state ≠ .dead → after.state ≠ .dead

/-- A new cell is alive, and its affinity is that of its seed. -/
structure Newborn (cell : NodeCell F) : Prop where
  alive : cell.state ≠ .dead
  settled : cell.affinity = cell.seed.affinity

/-- One step of a field. -/
inductive Micro (platform : Platform F) (permit : Permit F) : Trace F → Trace F → Prop
  | tweak {t : Trace F} {id : NodeId} {cell after : NodeCell F} (hcell : t.replica.cells id = some cell)
      (htweaks : Tweaks cell after) (hpermit : permit.memory cell.memory after.memory) :
      Micro platform permit t
        { t with replica := t.replica.set id after, stale := insert id t.stale }
  | energy {t : Trace F} {id : NodeId} {cell : NodeCell F} (hcell : t.replica.cells id = some cell) :
      Micro platform permit t
        { t with emitted := t.emitted ++ [energyDelta id cell], stale := t.stale \ {id} }
  | gone {t : Trace F} {id : NodeId} (hgone : t.replica.cells id = none) (cell : NodeCell F) :
      Micro platform permit t { t with emitted := t.emitted ++ [energyDelta id cell] }
  | sleep {t : Trace F} {id : NodeId} {cell : NodeCell F} (hcell : t.replica.cells id = some cell)
      (hstate : cell.state = .sleep) :
      Micro platform permit t { t with emitted := t.emitted ++ [.sleep id] }
  | affinity {t : Trace F} {id : NodeId} {cell : NodeCell F} (hcell : t.replica.cells id = some cell)
      (hpermit : permit.affinity cell.memory) :
      Micro platform permit t { t with emitted := t.emitted ++ [.affinity id cell.affinity] }
  | inert {t : Trace F} {d : EventDelta F} (hinert : Replica.Inert d) :
      Micro platform permit t { t with emitted := t.emitted ++ [d] }
  | link {t : Trace F} (source target : NodeId) {d : EventDelta F}
      (hd : d = .link source target ∨ d = .dreamRewire source target) :
      Micro platform permit t
        { t with
          replica := t.replica.alter source (·.link target)
          emitted := t.emitted ++ [d] }
  | unlink {t : Trace F} (source target : NodeId) {d : EventDelta F}
      (hd : d = .unlink source target ∨ d = .dreamPrune source target) :
      Micro platform permit t
        { t with
          replica := t.replica.alter source (·.unlink target)
          emitted := t.emitted ++ [d] }
  | spawn {t : Trace F} {cell : NodeCell F} (hid : cell.id = t.replica.nextId)
      (hnew : Newborn cell) (hpermit : permit.spawn t.replica.nextId) :
      Micro platform permit t
        { replica := { t.replica.set cell.id cell with nextId := t.replica.nextId + 1 }
          index := indexed platform t.index cell.id cell.seed.corePattern
          emitted := t.emitted ++ [.spawn cell.toSnapshot]
          stale := t.stale \ {cell.id} }
  | divide {t : Trace F} (parent : NodeId) {cell : NodeCell F} (hid : cell.id = t.replica.nextId)
      (hnew : Newborn cell) (hpermit : permit.spawn t.replica.nextId) :
      Micro platform permit t
        { replica :=
            { (t.replica.alter parent (·.link cell.id)).set cell.id cell with
              nextId := t.replica.nextId + 1 }
          index := indexed platform t.index cell.id cell.seed.corePattern
          emitted := t.emitted ++ [.divide parent cell.toSnapshot]
          stale := t.stale \ {cell.id} }
  | dead {t : Trace F} (id : NodeId) (hpermit : permit.dead) :
      Micro platform permit t
        { t with replica := t.replica.drop id, emitted := t.emitted ++ [.dead id] }
  | tick {t : Trace F} (nowMs : UInt64) :
      Micro platform permit t
        { t with replica := { t.replica with nowMs }, emitted := t.emitted ++ [.tick nowMs] }
  | addReflex {t : Trace F} {rule : ReflexRule F} (nextReflexId : ReflexId)
      (hlowered : Replica.lowered platform rule = rule)
      (hnext : nextReflexId = max t.replica.nextReflexId (rule.id + 1) ∨
        rule.id = t.replica.nextReflexId ∧ permit.draw rule.id ∧ nextReflexId = rule.id + 1) :
      Micro platform permit t
        { t with
          replica :=
            { t.replica with
              rules := Function.update t.replica.rules rule.id (some rule)
              nextReflexId }
          emitted := t.emitted ++ [.reflexAdd rule] }
  | removeReflex {t : Trace F} (id : ReflexId) :
      Micro platform permit t
        { t with
          replica := { t.replica with rules := Function.update t.replica.rules id none }
          emitted := t.emitted ++ [.reflexRemove id] }
  | dreamConfig {t : Trace F} (cfg : DreamConfig F) :
      Micro platform permit t
        { t with
          replica := { t.replica with dreamCfg := cfg }
          emitted := t.emitted ++ [.dreamConfig cfg] }
  | syncConfig {t : Trace F} (cfg : SyncConfig F) :
      Micro platform permit t
        { t with
          replica := { t.replica with syncCfg := cfg }
          emitted := t.emitted ++ [.syncConfig cfg] }
  | forget {t : Trace F} {stale : Set NodeId} (hstale : t.stale ⊆ stale) :
      Micro platform permit t { t with stale }

/-- A sequence of steps. -/
abbrev MicroChain (platform : Platform F) (permit : Permit F) : Trace F → Trace F → Prop :=
  Relation.ReflTransGen (Micro platform permit)

/-- What holds before a chain and is kept by its steps holds after it. -/
theorem MicroChain.induct {platform : Platform F} {permit : Permit F} {P : Trace F → Prop}
    (hstep : ∀ {t t'}, Micro platform permit t t' → P t → P t') {t t' : Trace F}
    (hchain : MicroChain platform permit t t') (h : P t) : P t' := by
  induction hchain with
  | refl => exact h
  | tail _ hmicro ih => exact hstep hmicro ih

/-- A step does not look at what has been emitted before it. -/
theorem micro_after {platform : Platform F} {permit : Permit F} {t t' : Trace F}
    (hmicro : Micro platform permit t t') : ∃ deltas, t'.emitted = t.emitted ++ deltas ∧
      ∀ earlier, Micro platform permit { t with emitted := earlier }
        { t' with emitted := earlier ++ deltas } := by
  cases hmicro with
  | tweak hcell htweaks hpermit =>
      refine ⟨[], (List.append_nil _).symm, fun earlier => ?_⟩
      rw [List.append_nil]
      exact .tweak hcell htweaks hpermit
  | energy hcell => exact ⟨[_], rfl, fun _ => .energy hcell⟩
  | @gone id hgone cell =>
      exact ⟨[_], rfl, fun earlier => @Micro.gone F platform permit { t with emitted := earlier } id hgone cell⟩
  | sleep hcell hstate => exact ⟨[_], rfl, fun _ => .sleep hcell hstate⟩
  | affinity hcell hpermit => exact ⟨[_], rfl, fun _ => .affinity hcell hpermit⟩
  | inert hinert => exact ⟨[_], rfl, fun _ => .inert hinert⟩
  | link source target hd => exact ⟨[_], rfl, fun _ => .link source target hd⟩
  | unlink source target hd => exact ⟨[_], rfl, fun _ => .unlink source target hd⟩
  | spawn hid hnew hpermit => exact ⟨[_], rfl, fun _ => .spawn hid hnew hpermit⟩
  | divide parent hid hnew hpermit => exact ⟨[_], rfl, fun _ => .divide parent hid hnew hpermit⟩
  | dead id hpermit => exact ⟨[_], rfl, fun _ => .dead id hpermit⟩
  | tick nowMs => exact ⟨[_], rfl, fun _ => .tick nowMs⟩
  | addReflex nextReflexId hlowered hnext =>
      exact ⟨[_], rfl, fun _ => .addReflex nextReflexId hlowered hnext⟩
  | removeReflex id => exact ⟨[_], rfl, fun _ => .removeReflex id⟩
  | dreamConfig cfg => exact ⟨[_], rfl, fun _ => .dreamConfig cfg⟩
  | syncConfig cfg => exact ⟨[_], rfl, fun _ => .syncConfig cfg⟩
  | forget hstale =>
      refine ⟨[], (List.append_nil _).symm, fun earlier => ?_⟩
      rw [List.append_nil]
      exact .forget hstale

/-- A chain appends to what was emitted and does not look at it, so that it may as well start from other
emissions. -/
theorem chain_after {platform : Platform F} {permit : Permit F} {t t' : Trace F}
    (hchain : MicroChain platform permit t t') : ∃ deltas, t'.emitted = t.emitted ++ deltas ∧
      ∀ earlier, MicroChain platform permit { t with emitted := earlier }
        { t' with emitted := earlier ++ deltas } := by
  induction hchain with
  | refl => exact ⟨[], (List.append_nil _).symm, fun earlier => by rw [List.append_nil]⟩
  | tail _ hmicro ih =>
      obtain ⟨front, hfront, hchain⟩ := ih
      obtain ⟨deltas, hdeltas, hmicro⟩ := micro_after hmicro
      refine ⟨front ++ deltas, by rw [hdeltas, hfront, List.append_assoc], fun earlier => ?_⟩
      rw [← List.append_assoc]
      exact (hchain earlier).tail (hmicro (earlier ++ front))

/-! ## What holds of every cell -/

/-- Something holds of every cell under its id. -/
def Each (P : NodeId → NodeCell F → Prop) (cells : NodeId → Option (NodeCell F)) : Prop :=
  ∀ id cell, cells id = some cell → P id cell

section Each

variable {P : NodeId → NodeCell F → Prop} {cells : NodeId → Option (NodeCell F)}

/-- A property of all cells survives a new entry that has it, or a removal. -/
theorem Each.update (h : Each P cells) {id : NodeId} {entry : Option (NodeCell F)}
    (hentry : ∀ cell, entry = some cell → P id cell) : Each P (Function.update cells id entry) := by
  intro other cell hcell
  by_cases heq : other = id
  · subst heq
    rw [Function.update_self] at hcell
    exact hentry cell hcell
  · rw [Function.update_of_ne heq] at hcell
    exact h other cell hcell

/-- It survives a change in place that keeps it. -/
theorem Each.map (h : Each P cells) (id : NodeId) (change : NodeCell F → NodeCell F)
    (hchange : ∀ cell, P id cell → P id (change cell)) :
    Each P (Function.update cells id ((cells id).map change)) := by
  refine h.update fun cell hcell => ?_
  obtain ⟨before, hbefore, rfl⟩ := Option.map_eq_some_iff.mp hcell
  exact hchange before (h id before hbefore)

end Each

/-- A property of cells that the steps of a chain keep. -/
structure Kept (permit : Permit F) (P : NodeId → NodeCell F → Prop) : Prop where
  tweak : ∀ {id cell after}, Tweaks cell after → permit.memory cell.memory after.memory →
    P id cell → P id after
  links : ∀ {id} (cell : NodeCell F) links, P id cell → P id { cell with links }
  new : ∀ {cell}, Newborn cell → P cell.id cell

/-- A property that the steps keep is kept by a step, whatever it is. -/
theorem each_micro {platform : Platform F} {permit : Permit F} {P : NodeId → NodeCell F → Prop}
    (hkept : Kept permit P) {t t' : Trace F} (hmicro : Micro platform permit t t')
    (h : Each P t.replica.cells) : Each P t'.replica.cells := by
  have hlink (source target : NodeId) :=
    h.map source (·.link target) fun cell => hkept.links cell _
  cases hmicro with
  | tweak hcell htweaks hpermit =>
      refine h.update fun cell hsome => ?_
      cases hsome
      exact hkept.tweak htweaks hpermit (h _ _ hcell)
  | link source target hd => exact hlink source target
  | unlink source target hd => exact h.map source (·.unlink target) fun cell => hkept.links cell _
  | spawn hid hnew hpermit =>
      refine h.update fun cell hsome => ?_
      cases hsome
      exact hkept.new hnew
  | divide parent hid hnew hpermit =>
      refine (hlink parent _).update fun cell hsome => ?_
      cases hsome
      exact hkept.new hnew
  | dead id hpermit => exact h.update fun cell hsome => by cases hsome
  | _ => exact h

/-- By induction over the steps, it is kept by a chain. -/
theorem each_chain {platform : Platform F} {permit : Permit F} {P : NodeId → NodeCell F → Prop}
    (hkept : Kept permit P) {t t' : Trace F} (hchain : MicroChain platform permit t t')
    (h : Each P t.replica.cells) : Each P t'.replica.cells :=
  hchain.induct (each_micro hkept) h

/-- Every cell stands under its id. -/
def InPlace (cells : NodeId → Option (NodeCell F)) : Prop := Each (fun id cell => cell.id = id) cells

/-- A chain leaves every cell under its own id. -/
theorem inPlace_chain {platform : Platform F} {permit : Permit F} {t t' : Trace F}
    (hchain : MicroChain platform permit t t') (h : InPlace t.replica.cells) : InPlace t'.replica.cells :=
  each_chain (P := fun id cell => cell.id = id)
    { tweak := fun htweaks _ h => htweaks.id.trans h
      links := fun _ _ h => h
      new := fun _ => rfl } hchain h

/-- Every cell stands under its id and is alive. -/
def Sound (cells : NodeId → Option (NodeCell F)) : Prop :=
  Each (fun id cell => cell.id = id ∧ cell.state ≠ .dead) cells

/-- In a sound set every cell stands under its id. -/
theorem Sound.inPlace {cells : NodeId → Option (NodeCell F)} (h : Sound cells) : InPlace cells :=
  fun id cell hcell => (h id cell hcell).1

/-- A chain keeps the cells sound: those that die are removed. -/
theorem sound_chain {platform : Platform F} {permit : Permit F} {t t' : Trace F}
    (hchain : MicroChain platform permit t t') (h : Sound t.replica.cells) : Sound t'.replica.cells :=
  each_chain
    { tweak := fun htweaks _ h => ⟨htweaks.id.trans h.1, htweaks.alive h.2⟩
      links := fun _ _ h => h
      new := fun hnew => ⟨rfl, hnew.alive⟩ } hchain h

/-- The affinity of every cell is that of its seed. -/
def Settled (cells : NodeId → Option (NodeCell F)) : Prop :=
  Each (fun _ cell => cell.affinity = cell.seed.affinity) cells

/-- Where no memory changes, the affinities stay those of the seeds. -/
theorem settled_chain {platform : Platform F} {permit : Permit F}
    (hmemory : ∀ m m', permit.memory m m' → m' = m) {t t' : Trace F}
    (hchain : MicroChain platform permit t t') (h : Settled t.replica.cells) : Settled t'.replica.cells :=
  each_chain
    { tweak := fun {_ cell after} _ hpermit h => by
        have hsame := hmemory _ _ hpermit
        have haffinity : after.affinity = cell.affinity := congrArg Memory.affinity hsame
        have hseed : after.seed.affinity = cell.seed.affinity := congrArg Memory.seedAffinity hsame
        rw [haffinity, hseed, h]
      links := fun _ _ h => h
      new := fun hnew => hnew.settled } hchain h

/-! ## Views that a replay reproduces -/

/-- Two sets of cells have the same ids, and look the same under a view. -/
def Matches {V : Type} (view : NodeCell F → V) (cells cells' : NodeId → Option (NodeCell F)) : Prop :=
  ∀ id, (cells id).map view = (cells' id).map view

namespace Matches

variable {V : Type} {view : NodeCell F → V} {cells cells' : NodeId → Option (NodeCell F)}

/-- Two sets of cells still look the same when entries that look the same replace those of one id. -/
theorem update (h : Matches view cells cells') (id : NodeId) {entry entry' : Option (NodeCell F)}
    (hentry : entry.map view = entry'.map view) :
    Matches view (Function.update cells id entry) (Function.update cells' id entry') := by
  intro other
  by_cases heq : other = id
  · subst heq
    rw [Function.update_self, Function.update_self, hentry]
  · rw [Function.update_of_ne heq, Function.update_of_ne heq, h other]

/-- An entry of the left set may be replaced by one that looks the same. -/
theorem update_left (h : Matches view cells cells') {id : NodeId} {entry : Option (NodeCell F)}
    (hentry : entry.map view = (cells id).map view) :
    Matches view (Function.update cells id entry) cells' := by
  have hself : Function.update cells' id (cells' id) = cells' := Function.update_eq_self id cells'
  rw [← hself]
  exact h.update id (hentry.trans (h id))

/-- So may an entry of the right set. -/
theorem update_right (h : Matches view cells cells') {id : NodeId} {entry : Option (NodeCell F)}
    (hentry : entry.map view = (cells' id).map view) :
    Matches view cells (Function.update cells' id entry) := by
  have hself : Function.update cells id (cells id) = cells := Function.update_eq_self id cells
  rw [← hself]
  exact h.update id ((h id).trans hentry.symm)

/-- A change that respects the view keeps two entries alike. -/
theorem map_map (h : Matches view cells cells') (id : NodeId) {change : NodeCell F → NodeCell F}
    (hchange : ∀ cell other, view cell = view other → view (change cell) = view (change other)) :
    ((cells id).map change).map view = ((cells' id).map change).map view := by
  have hid := h id
  cases hcell : cells id with
  | none =>
      rw [hcell, Option.map_none, eq_comm, Option.map_eq_none_iff] at hid
      rw [hid]
  | some cell =>
      rw [hcell, Option.map_some, eq_comm, Option.map_eq_some_iff] at hid
      obtain ⟨other, hother, heq⟩ := hid
      rw [hother, Option.map_some, Option.map_some, Option.map_some, Option.map_some,
        hchange cell other heq.symm]

/-- The cell that corresponds to one on the left. -/
theorem right_of_left (h : Matches view cells cells') {id : NodeId} {cell : NodeCell F}
    (hcell : cells id = some cell) : ∃ other, cells' id = some other ∧ view other = view cell := by
  have hid := h id
  rw [hcell, Option.map_some, eq_comm] at hid
  exact Option.map_eq_some_iff.mp hid

/-- What is gone from the left set is gone from the right one. -/
theorem none_of_none (h : Matches view cells cells') {id : NodeId} (hgone : cells id = none) :
    cells' id = none := by
  have hid := h id
  rw [hgone, Option.map_none, eq_comm] at hid
  exact Option.map_eq_none_iff.mp hid

end Matches

/-- A view of a cell that the steps of a chain do not disturb. -/
structure View (permit : Permit F) (V : Type) where
  of : NodeCell F → V
  tweak : ∀ {cell after}, Tweaks cell after → permit.memory cell.memory after.memory →
    of after = of cell
  /-- It does not show what an energy delta carries. -/
  energy : ∀ cell energy metabolism state lastResponseMs,
    of { cell with energy, metabolism, state, lastResponseMs } = of cell
  /-- A permitted affinity is the one that is already seen. -/
  affinity : ∀ {cell other}, permit.affinity cell.memory → of other = of cell →
    of { other with affinity := cell.affinity, seed := { other.seed with affinity := cell.affinity } } =
      of other
  link : ∀ target {cell other}, of cell = of other → of (cell.link target) = of (other.link target)
  unlink : ∀ target {cell other}, of cell = of other →
    of (cell.unlink target) = of (other.unlink target)

namespace Trace

/-- What a replay on top of a replica makes of the emitted deltas. -/
def replayedOn (platform : Platform F) (base : Replica F) (t : Trace F) : Replica F :=
  t.emitted.foldl (Replica.apply platform) base

/-- One more emitted delta is one more that is replayed, on top of any replica. -/
theorem replayedOn_append {platform : Platform F} {base : Replica F} {t t' : Trace F} {d : EventDelta F}
    (h : t'.emitted = t.emitted ++ [d]) :
    t'.replayedOn platform base = (t.replayedOn platform base).apply platform d := by
  unfold replayedOn
  rw [h, List.foldl_append]
  rfl

variable [FloatLike F]

/-- What a replay makes of the emitted deltas. -/
def replayed (platform : Platform F) (t : Trace F) : Replica F :=
  t.emitted.foldl (Replica.apply platform) ClusterField.emptyReplica

/-- The same on top of the empty one. -/
theorem replayed_append {platform : Platform F} {t t' : Trace F} {d : EventDelta F}
    (h : t'.emitted = t.emitted ++ [d]) :
    t'.replayed platform = (t.replayed platform).apply platform d :=
  replayedOn_append h

end Trace

variable [FloatLike F]

omit [FloatLike F] in
/-- One step keeps the view of every cell the same in a replay. -/
theorem matches_micro {platform : Platform F} {permit : Permit F} {V : Type} (view : View permit V)
    {base : Replica F} {t t' : Trace F} (hmicro : Micro platform permit t t')
    (h : Matches view.of t.replica.cells (t.replayedOn platform base).cells) :
    Matches view.of t'.replica.cells (t'.replayedOn platform base).cells := by
  -- A delta that changes what the view does not see.
  have halter (id : NodeId) (change : NodeCell F → NodeCell F)
      (hchange : ∀ cell, view.of (change cell) = view.of cell) :
      Matches view.of t.replica.cells
        (Function.update (t.replayedOn platform base).cells id
          (((t.replayedOn platform base).cells id).map change)) := by
    refine h.update_right ?_
    rw [Option.map_map]
    exact congrArg (Option.map · _) (funext hchange)
  have hlink (source target : NodeId) :=
    h.update source (h.map_map source fun _ _ => view.link target)
  cases hmicro with
  | tweak hcell htweaks hpermit =>
      -- The live cell changes, but not what the view sees of it.
      refine h.update_left ?_
      rw [hcell, Option.map_some, Option.map_some, view.tweak htweaks hpermit]
  | energy hcell =>
      rw [Trace.replayedOn_append rfl]
      exact halter _ _ fun cell => view.energy cell _ _ _ _
  | gone hgone cell =>
      rw [Trace.replayedOn_append rfl]
      exact halter _ _ fun cell => view.energy cell _ _ _ _
  | sleep hcell hstate =>
      rw [Trace.replayedOn_append rfl]
      exact halter _ _ fun cell => view.energy cell _ _ _ _
  | affinity hcell hpermit =>
      rw [Trace.replayedOn_append rfl]
      refine h.update_right ?_
      -- The replayed cell takes over the affinity, and then looks the same.
      obtain ⟨other, hother, heq⟩ := h.right_of_left hcell
      rw [hother, Option.map_some, Option.map_some, Option.map_some, view.affinity hpermit heq]
  | inert hinert =>
      rw [Trace.replayedOn_append rfl, Replica.apply_of_inert hinert]
      exact h
  | link source target hd =>
      rw [Trace.replayedOn_append rfl]
      rcases hd with rfl | rfl <;> exact hlink source target
  | unlink source target hd =>
      rw [Trace.replayedOn_append rfl]
      have hunlink := h.update source (h.map_map source fun _ _ => view.unlink target)
      rcases hd with rfl | rfl <;> exact hunlink
  | spawn hid hnew hpermit =>
      rw [Trace.replayedOn_append rfl]
      exact h.update _ rfl
  | divide parent hid hnew hpermit =>
      rw [Trace.replayedOn_append rfl]
      exact (hlink parent _).update _ rfl
  | dead id hpermit =>
      rw [Trace.replayedOn_append rfl]
      exact h.update id rfl
  | forget hstale => exact h
  | _ =>
      rw [Trace.replayedOn_append rfl]
      exact h

omit [FloatLike F] in
/-- By induction over the steps: a replay of what a chain emits shows every cell as the field does. -/
theorem matches_chain {platform : Platform F} {permit : Permit F} {V : Type} (view : View permit V)
    {base : Replica F} {t t' : Trace F} (hchain : MicroChain platform permit t t')
    (h : Matches view.of t.replica.cells (t.replayedOn platform base).cells) :
    Matches view.of t'.replica.cells (t'.replayedOn platform base).cells :=
  hchain.induct (matches_micro view) h

/-! ## The clock, the rules and the configurations -/

/-- Two replicas agree on everything but their cells. -/
structure Tallied (r r' : Replica F) : Prop where
  nowMs : r.nowMs = r'.nowMs
  nextId : r.nextId = r'.nextId
  rules : r.rules = r'.rules
  nextReflexId : r.nextReflexId = r'.nextReflexId
  dreamCfg : r.dreamCfg = r'.dreamCfg
  syncCfg : r.syncCfg = r'.syncCfg

omit [FloatLike F] in
/-- A replica agrees with itself. -/
theorem Tallied.refl (r : Replica F) : Tallied r r := ⟨rfl, rfl, rfl, rfl, rfl, rfl⟩

/-- A number whose successor does not wrap is below it. -/
theorem max_succ {n : UInt64} (h : n < n + 1) : max n (n + 1) = n + 1 :=
  if_pos (UInt64.le_of_lt h)

/-- Ids that are handed out do not wrap. -/
structure Permit.Counts (permit : Permit F) : Prop where
  spawn : ∀ id, permit.spawn id → id < id + 1
  draw : ∀ id, permit.draw id → id < id + 1

omit [FloatLike F] in
/-- A step changes clock, counters, rules and configurations as the delta that it emits does, while ids do not
wrap. -/
theorem tallied_micro {platform : Platform F} {permit : Permit F} (hcounts : permit.Counts)
    {base : Replica F} {t t' : Trace F} (hmicro : Micro platform permit t t')
    (h : Tallied t.replica (t.replayedOn platform base)) : Tallied t'.replica (t'.replayedOn platform base) := by
  obtain ⟨hnow, hid, hrules, hreflex, hdream, hsync⟩ := h
  -- The id of a new cell is the next one, on both sides.
  have hspawn {id : NodeId} (heq : id = t.replica.nextId) (hpermit : permit.spawn t.replica.nextId) :
      t.replica.nextId + 1 = max (t.replayedOn platform base).nextId (id + 1) := by
    rw [heq, ← hid, max_succ (hcounts.spawn _ hpermit)]
  cases hmicro with
  | tweak hcell htweaks hpermit => exact ⟨hnow, hid, hrules, hreflex, hdream, hsync⟩
  | forget hstale => exact ⟨hnow, hid, hrules, hreflex, hdream, hsync⟩
  | inert hinert =>
      rw [Trace.replayedOn_append rfl, Replica.apply_of_inert hinert]
      exact ⟨hnow, hid, hrules, hreflex, hdream, hsync⟩
  | link source target hd =>
      rw [Trace.replayedOn_append rfl]
      rcases hd with rfl | rfl <;> exact ⟨hnow, hid, hrules, hreflex, hdream, hsync⟩
  | unlink source target hd =>
      rw [Trace.replayedOn_append rfl]
      rcases hd with rfl | rfl <;> exact ⟨hnow, hid, hrules, hreflex, hdream, hsync⟩
  | spawn heq hnew hpermit =>
      rw [Trace.replayedOn_append rfl]
      exact ⟨hnow, hspawn heq hpermit, hrules, hreflex, hdream, hsync⟩
  | divide parent heq hnew hpermit =>
      rw [Trace.replayedOn_append rfl]
      exact ⟨hnow, hspawn heq hpermit, hrules, hreflex, hdream, hsync⟩
  | tick nowMs =>
      rw [Trace.replayedOn_append rfl]
      exact ⟨rfl, hid, hrules, hreflex, hdream, hsync⟩
  | @addReflex rule nextReflexId hlowered hnext =>
      rw [Trace.replayedOn_append rfl]
      refine ⟨hnow, hid, ?_, ?_, hdream, hsync⟩
      · simp only [Replica.apply, hrules, hlowered]
      · show nextReflexId = max (t.replayedOn platform base).nextReflexId (rule.id + 1)
        -- The rule came with an id of its own, or drew the next one.
        rcases hnext with hmax | ⟨hrule, hpermit, hsucc⟩
        · rw [hmax, hreflex]
        · rw [hsucc, ← hreflex, ← hrule, max_succ (hcounts.draw _ hpermit)]
  | removeReflex id =>
      rw [Trace.replayedOn_append rfl]
      refine ⟨hnow, hid, ?_, hreflex, hdream, hsync⟩
      simp only [Replica.apply, hrules]
  | dreamConfig cfg =>
      rw [Trace.replayedOn_append rfl]
      exact ⟨hnow, hid, hrules, hreflex, rfl, hsync⟩
  | syncConfig cfg =>
      rw [Trace.replayedOn_append rfl]
      exact ⟨hnow, hid, hrules, hreflex, hdream, rfl⟩
  | _ =>
      rw [Trace.replayedOn_append rfl]
      exact ⟨hnow, hid, hrules, hreflex, hdream, hsync⟩

omit [FloatLike F] in
/-- By induction over the steps, a replay agrees with the field on all of them. -/
theorem tallied_chain {platform : Platform F} {permit : Permit F} (hcounts : permit.Counts)
    {base : Replica F} {t t' : Trace F} (hchain : MicroChain platform permit t t')
    (h : Tallied t.replica (t.replayedOn platform base)) : Tallied t'.replica (t'.replayedOn platform base) :=
  hchain.induct (tallied_micro hcounts) h

/-! ## Vitals -/

/-- What an energy delta carries. -/
def vitals (cell : NodeCell F) : F × F × NodeState × UInt64 :=
  (cell.energy, cell.metabolism, cell.state, cell.lastResponseMs)

/-- A replay has the vitals of every cell that is not stale. -/
def Fresh (platform : Platform F) (t : Trace F) : Prop :=
  ∀ id ∉ t.stale, (t.replica.cells id).map vitals = ((t.replayed platform).cells id).map vitals

/-- The view that only shows that a cell is there. -/
def presence (permit : Permit F) : View permit Unit where
  of _ := ()
  tweak _ _ := rfl
  energy _ _ _ _ _ := rfl
  affinity _ _ := rfl
  link _ _ _ _ := rfl
  unlink _ _ _ _ := rfl

omit [FloatLike F] in
/-- A change in place that keeps the vitals of a cell shows in nobody's vitals. -/
theorem map_vitals_alter {cells : NodeId → Option (NodeCell F)} {id : NodeId}
    (change : NodeCell F → NodeCell F) (hchange : ∀ cell, vitals (change cell) = vitals cell)
    (other : NodeId) :
    (Function.update cells id ((cells id).map change) other).map vitals = (cells other).map vitals := by
  by_cases heq : other = id
  · subst heq
    rw [Function.update_self, Option.map_map]
    exact congrArg (Option.map · _) (funext hchange)
  · rw [Function.update_of_ne heq]

omit [FloatLike F] in
/-- Two sets agree on the vitals under an id, when they do elsewhere and the same entry was replaced alike. -/
theorem map_vitals_update {cells cells' : NodeId → Option (NodeCell F)} {id : NodeId}
    {entry entry' : Option (NodeCell F)} (hentry : entry.map vitals = entry'.map vitals) {other : NodeId}
    (hother : other ≠ id → (cells other).map vitals = (cells' other).map vitals) :
    (Function.update cells id entry other).map vitals =
      (Function.update cells' id entry' other).map vitals := by
  by_cases heq : other = id
  · subst heq
    rw [Function.update_self, Function.update_self, hentry]
  · rw [Function.update_of_ne heq, Function.update_of_ne heq, hother heq]

omit [FloatLike F] in
/-- The same when only the right set is changed. -/
theorem map_vitals_update_right {cells cells' : NodeId → Option (NodeCell F)} {id : NodeId}
    {entry : Option (NodeCell F)} {other : NodeId}
    (hentry : other = id → (cells id).map vitals = entry.map vitals)
    (hother : other ≠ id → (cells other).map vitals = (cells' other).map vitals) :
    (cells other).map vitals = (Function.update cells' id entry other).map vitals := by
  by_cases heq : other = id
  · subst heq
    rw [Function.update_self, hentry rfl]
  · rw [Function.update_of_ne heq, hother heq]

/-- A step that changes the vitals of a cell makes it stale or emits them, and the replay has those of all
others. -/
theorem fresh_micro {platform : Platform F} {permit : Permit F} {t t' : Trace F}
    (hmicro : Micro platform permit t t')
    (hpresent : Matches (presence permit).of t.replica.cells (t.replayed platform).cells)
    (h : Fresh platform t) : Fresh platform t' := by
  -- Links are no vitals, so both sides may change them.
  have hboth (id : NodeId) (change : NodeCell F → NodeCell F)
      (hchange : ∀ cell, vitals (change cell) = vitals cell) (other : NodeId) (hother : other ∉ t.stale) :
      (Function.update t.replica.cells id ((t.replica.cells id).map change) other).map vitals =
      (Function.update (t.replayed platform).cells id
        (((t.replayed platform).cells id).map change) other).map vitals := by
    rw [map_vitals_alter change hchange, map_vitals_alter change hchange, h other hother]
  cases hmicro with
  | @tweak id cell after hcell htweaks hpermit =>
      intro other hother
      have hne : other ≠ id := fun heq => hother (heq ▸ Set.mem_insert other t.stale)
      show (Function.update t.replica.cells id (some after) other).map vitals = _
      rw [Function.update_of_ne hne]
      exact h other fun hmem => hother (Set.mem_insert_of_mem id hmem)
  | @energy id cell hcell =>
      intro other hother
      rw [Trace.replayed_append rfl]
      refine map_vitals_update_right (fun _ => ?_) fun hne => h other fun hmem => hother ⟨hmem, hne⟩
      obtain ⟨there, hthere, _⟩ := hpresent.right_of_left hcell
      rw [hcell, hthere]
      rfl
  | @gone id hgone cell =>
      intro other hother
      rw [Trace.replayed_append rfl]
      show _ = (((t.replayed platform).alter id _).cells other).map vitals
      rw [Replica.alter_of_none (hpresent.none_of_none hgone)]
      exact h other hother
  | @sleep id cell hcell hstate =>
      intro other hother
      rw [Trace.replayed_append rfl]
      refine map_vitals_update_right (fun heq => ?_) fun _ => h other hother
      -- The vitals of this cell are in the replay already, its state among them.
      subst heq
      have hvitals := h other hother
      obtain ⟨there, hthere, _⟩ := hpresent.right_of_left hcell
      rw [hcell, hthere] at hvitals
      have hsame : there.state = .sleep :=
        (congrArg (fun v => v.2.2.1) (Option.some.inj hvitals)).symm.trans hstate
      rw [hcell, hvitals, hthere, ← hsame]
      rfl
  | @affinity id cell hcell hpermit =>
      intro other hother
      rw [Trace.replayed_append rfl, h other hother]
      exact (map_vitals_alter (fun there => { there with
        affinity := cell.affinity, seed := { there.seed with affinity := cell.affinity } })
          (fun _ => rfl) other).symm
  | inert hinert =>
      intro other hother
      rw [Trace.replayed_append rfl, Replica.apply_of_inert hinert]
      exact h other hother
  | link source target hd =>
      intro other hother
      rw [Trace.replayed_append rfl]
      rcases hd with rfl | rfl <;> exact hboth source (·.link target) (fun _ => rfl) other hother
  | unlink source target hd =>
      intro other hother
      rw [Trace.replayed_append rfl]
      rcases hd with rfl | rfl <;> exact hboth source (·.unlink target) (fun _ => rfl) other hother
  | spawn hid hnew hpermit =>
      intro other hother
      rw [Trace.replayed_append rfl]
      exact map_vitals_update rfl fun hne => h other fun hmem => hother ⟨hmem, hne⟩
  | divide parent hid hnew hpermit =>
      intro other hother
      rw [Trace.replayed_append rfl]
      exact map_vitals_update rfl fun hne =>
        hboth parent (·.link _) (fun _ => rfl) other fun hmem => hother ⟨hmem, hne⟩
  | dead id hpermit =>
      intro other hother
      rw [Trace.replayed_append rfl]
      exact map_vitals_update rfl fun _ => h other hother
  | forget hstale => exact fun other hother => h other fun hmem => hother (hstale hmem)
  | _ =>
      intro other hother
      rw [Trace.replayed_append rfl]
      exact h other hother

/-- By induction over the steps: a replay has the vitals of every cell that is not stale at the end. -/
theorem fresh_chain {platform : Platform F} {permit : Permit F} {t t' : Trace F}
    (hchain : MicroChain platform permit t t')
    (hpresent : Matches (presence permit).of t.replica.cells (t.replayed platform).cells)
    (h : Fresh platform t) : Fresh platform t' := by
  induction hchain with
  | refl => exact h
  | tail hchain hmicro ih =>
      exact fresh_micro hmicro (matches_chain (presence permit) hchain hpresent) ih

/-! ## The token index -/

omit [FloatLike F] in
/-- Where no cell dies, the index stays right. -/
theorem listed_micro {platform : Platform F} {permit : Permit F} (hdead : ¬ permit.dead)
    {t t' : Trace F} (hmicro : Micro platform permit t t')
    (h : Listed platform (fun _ => True) t.replica.cells t.index) :
    Listed platform (fun _ => True) t'.replica.cells t'.index := by
  -- A change that keeps the pattern keeps what is listed.
  have hmap (id : NodeId) (change : NodeCell F → NodeCell F)
      (hpattern : ∀ cell, (change cell).seed.corePattern = cell.seed.corePattern) :
      Listed platform (fun _ => True)
        (Function.update t.replica.cells id ((t.replica.cells id).map change)) t.index := by
    refine ClusterField.listed_congr h fun other => ?_
    by_cases heq : other = id
    · subst heq
      rw [Function.update_self, Option.map_map]
      exact congrArg (Option.map · _) (funext hpattern)
    · rw [Function.update_of_ne heq]
  -- A cell that is set is listed under all of its tokens.
  have hset {cells : NodeId → Option (NodeCell F)}
      (hcells : Listed platform (fun _ => True) cells t.index) (cell : NodeCell F) :
      Listed platform (fun _ => True) (Function.update cells cell.id (some cell))
        (indexed platform t.index cell.id cell.seed.corePattern) := fun token id =>
    (ClusterField.listed_indexed hcells cell.id cell token id).trans (by simp only [true_or])
  cases hmicro with
  | @tweak id cell after hcell htweaks hpermit =>
      refine ClusterField.listed_congr h fun other => ?_
      show (Function.update t.replica.cells id (some after) other).map _ = _
      by_cases heq : other = id
      · subst heq
        rw [Function.update_self, hcell, Option.map_some, Option.map_some, htweaks.pattern]
      · rw [Function.update_of_ne heq]
  | link source target hd => exact hmap source (·.link target) fun _ => rfl
  | unlink source target hd => exact hmap source (·.unlink target) fun _ => rfl
  | spawn hid hnew hpermit => exact hset h _
  | divide parent hid hnew hpermit => exact hset (hmap parent (·.link _) fun _ => rfl) _
  | dead id hpermit => exact absurd hpermit hdead
  | _ => exact h

omit [FloatLike F] in
/-- By induction over the steps: as long as no cell dies, the index lists the cells by their tokens. -/
theorem listed_chain {platform : Platform F} {permit : Permit F} (hdead : ¬ permit.dead)
    {t t' : Trace F} (hchain : MicroChain platform permit t t')
    (h : Listed platform (fun _ => True) t.replica.cells t.index) :
    Listed platform (fun _ => True) t'.replica.cells t'.index :=
  hchain.induct (listed_micro hdead) h

end LiminalDB
