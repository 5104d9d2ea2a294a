import LiminalDB.Field.TrimChains

/-! # Dreams and awakening as chains of steps

A dream keeps books of the links and changes the links themselves, a collective dream and a mirror epoch
move affinities, and an awakening raises energies and saliences. What they do to the memory of a cell has
to be permitted; the rest is told by the deltas. -/

namespace LiminalDB

variable {F : Type}

open Set (univ)

namespace ClusterField

variable {platform : Platform F} {permit : Permit F} {self : ClusterField F} {stale : Set NodeId}

/-- An inert delta is emitted in one step. -/
theorem chain_emit {d : EventDelta F} (h : Replica.Inert d) :
    MicroChain platform permit (self.trace [] stale) ((self.emit d).trace [] stale) := by
  rw [trace_emit]
  exact chain_inert h

/-- Changing a cell in place writes no journal by itself. -/
theorem journal_alterCell (id : NodeId) (change : NodeCell F → NodeCell F) :
    (self.alterCell id change).journal = self.journal := by
  unfold alterCell
  cases self.cells[id]? <;> rfl

variable [FloatLike F]

/-- The score of a link does not show in a trace. -/
theorem core_adjustLinkScore (source target : NodeId) (delta : F) :
    (self.adjustLinkScore source target delta).1.core = self.core := by
  unfold adjustLinkScore
  split <;> rfl

/-- A field whose score was moved has the trace of the one before. -/
theorem trace_of_adjustLinkScore {source target : NodeId} {delta : F} {field : ClusterField F}
    {changed : Bool} (h : self.adjustLinkScore source target delta = (field, changed)) :
    self.trace [] stale = field.trace [] stale := by
  have hcore := @core_adjustLinkScore F self _ source target delta
  rw [h] at hcore
  exact (trace_congr hcore [] stale).symm

/-! ## Dreams -/

/-- Strengthening a pair emits an inert delta where a score changes, and nothing else that a trace shows. -/
theorem chain_strengthen (cfg : DreamConfig F) (acc : Dreaming F) (pair : PairStat F) :
    MicroChain platform permit (acc.field.trace [] stale)
      ((strengthen cfg acc pair).field.trace [] stale) := by
  unfold strengthen
  split
  · exact .refl
  · split
    · exact .refl
    · split
      · exact .refl
      · dsimp only
        split
        · rename_i source target hdirection
          cases hadjust : acc.field.adjustLinkScore source target 0.15 with
          | mk field changed =>
              rw [trace_of_adjustLinkScore hadjust]
              dsimp only
              split
              · exact chain_emit trivial
              · exact .refl
        · exact .refl

omit [FloatLike F] in
/-- A pruned link is emitted twice, and removed by the first of the two. -/
theorem chain_pruneLink {source target : NodeId} {field : ClusterField F}
    (h : self.pruneLink source target = (field, true)) :
    MicroChain platform permit (self.trace [] stale)
      ((field.emit (.dreamPrune source target)).trace [] stale) := by
  unfold pruneLink at h
  split at h
  · rename_i hlinked
    obtain rfl : _ = field := congrArg Prod.fst h
    have hreplica : ((self.alterCell source (·.unlink target)).unregisterLink source target).replica =
        self.replica.alter source (·.unlink target) := replica_alterCell self source _
    have hindex : ((self.alterCell source (·.unlink target)).unregisterLink source target).index =
        self.index := index_alterCell self source _
    have hjournal : ((self.alterCell source (·.unlink target)).unregisterLink source target).journal =
        self.journal := journal_alterCell source _
    generalize (self.alterCell source (·.unlink target)).unregisterLink source target = field
      at hreplica hindex hjournal
    have hunlink : MicroChain platform permit (self.trace [] stale)
        (field.trace [.unlink source target] stale) :=
      chain_unlink (Or.inl rfl) hreplica hindex hjournal
    have hprune : MicroChain platform permit (field.trace [.unlink source target] stale)
        (field.trace [.unlink source target, .dreamPrune source target] stale) := by
      refine chain_unlink (Or.inr rfl) ?_ rfl rfl
      rw [hreplica]
      exact (Replica.alter_alter fun cell => unlink_unlink cell target).symm
    have hemit := trace_foldl_emit [.unlink source target, .dreamPrune source target] field stale
    exact hemit ▸ hunlink.trans hprune
  · cases congrArg Prod.snd h

/-- A new link of a lonely cell is emitted twice, and added by the first of the two. -/
theorem chain_rewireLonely (visits : Visits F) (id : NodeId) :
    MicroChain platform permit (self.trace [] stale) ((self.rewireLonely visits id).1.trace [] stale) := by
  unfold rewireLonely
  cases hcell : self.cells[id]? with
  | none => exact .refl
  | some cell =>
      dsimp only
      split
      · cases self.nearest visits id cell with
        | none => exact .refl
        | some target =>
            dsimp only
            have hreplica : ((self.setCell id (cell.link target)).registerLink id target).replica =
                self.replica.alter id (·.link target) := by
              rw [Replica.alter_of_some (r := self.replica) hcell]
              exact replica_setCell self id _
            generalize hfield : (self.setCell id (cell.link target)).registerLink id target = field
              at hreplica
            have hlink : MicroChain platform permit (self.trace [] stale)
                (field.trace [.link id target] stale) :=
              chain_link (Or.inl rfl) hreplica (by rw [← hfield]; rfl) (by rw [← hfield]; rfl)
            have hrewire : MicroChain platform permit (field.trace [.link id target] stale)
                (field.trace [.link id target, .dreamRewire id target] stale) := by
              refine chain_link (Or.inr rfl) ?_ rfl rfl
              rw [hreplica]
              exact (Replica.alter_alter fun cell => link_link cell target).symm
            have hemit := trace_foldl_emit [.link id target, .dreamRewire id target] field stale
            exact hemit ▸ hlink.trans hrewire
      · exact .refl

/-- Rewiring both ends of a link adds up to two links, each of which is emitted. -/
theorem chain_rewire (visits : Visits F) (acc : Dreaming F) (source target : NodeId) :
    MicroChain platform permit (acc.field.trace [] stale)
      ((rewire visits acc source target).field.trace [] stale) := by
  unfold rewire
  split
  · exact .refl
  · exact (chain_rewireLonely visits source).trans (chain_rewireLonely visits target)

/-- Pruning a link takes it away and emits it, before the ends are rewired. -/
theorem chain_prune (visits : Visits F) (acc : Dreaming F) (source target : NodeId) :
    MicroChain platform permit (acc.field.trace [] stale)
      ((prune visits acc source target).field.trace [] stale) := by
  unfold prune
  split
  · cases hprune : acc.field.pruneLink source target with
    | mk field pruned =>
        cases pruned with
        | false => exact .refl
        | true =>
            refine (chain_pruneLink hprune).trans ?_
            dsimp only
            rw [if_pos rfl]
            exact chain_rewire visits ⟨_, _, _, _⟩ source target
  · exact .refl

/-- Weakening a pair emits an inert delta where a score changes, and perhaps a pruning behind it. -/
theorem chain_weaken (visits : Visits F) (cfg : DreamConfig F) (acc : Dreaming F) (pair : PairStat F) :
    MicroChain platform permit (acc.field.trace [] stale)
      ((weaken visits cfg acc pair).field.trace [] stale) := by
  unfold weaken
  split
  · exact .refl
  · split
    · exact .refl
    · split
      · exact .refl
      · dsimp only
        split
        · rename_i source target hdirection
          cases hadjust : acc.field.adjustLinkScore source target (-0.2) with
          | mk field changed =>
              rw [trace_of_adjustLinkScore hadjust]
              cases changed with
              | false => exact .refl
              | true =>
                  refine Relation.ReflTransGen.trans ?_ (chain_prune visits ⟨_, _, _, _⟩ source target)
                  exact chain_emit trivial
        · exact .refl

/-- By induction over the pairs, a whole dream is a chain, and so is the report that ends it. -/
theorem chain_runDreamCycle (visits : Visits F) (tookMs : UInt32) :
    MicroChain platform permit (self.trace [] stale)
      ((self.runDreamCycle visits tookMs).trace [] stale) := by
  have hstrong {cfg : DreamConfig F} (pairs : List (PairStat F)) (acc : Dreaming F) :
      MicroChain platform permit (acc.field.trace [] stale)
        ((pairs.foldl (strengthen cfg) acc).field.trace [] stale) :=
    reflTransGen_foldl (fun acc : Dreaming F => acc.field.trace [] stale)
      (fun acc pair _ => chain_strengthen cfg acc pair) acc
  have hweak {cfg : DreamConfig F} (pairs : List (PairStat F)) (acc : Dreaming F) :
      MicroChain platform permit (acc.field.trace [] stale)
        ((pairs.foldl (weaken visits cfg) acc).field.trace [] stale) :=
    reflTransGen_foldl (fun acc : Dreaming F => acc.field.trace [] stale)
      (fun acc pair _ => chain_weaken visits cfg acc pair) acc
  have hdream (cfg : DreamConfig F) (nowMs : UInt64) : MicroChain platform permit (self.trace [] stale)
      ((self.runDream visits tookMs cfg nowMs).trace [] stale) := by
    unfold runDream
    dsimp only
    split
    · exact .refl
    · exact (hstrong _ ⟨self, _, _, _⟩).trans ((hweak _ _).trans (chain_emit trivial))
  unfold runDreamCycle
  split
  · exact .refl
  · exact hdream self.dreamCfg self.nowMs

/-! ## Collective dreams -/

/-- The memories of the cells. -/
def memories (self : ClusterField F) (id : NodeId) : Option (Memory F) :=
  (self.replica.cells id).map NodeCell.memory

/-- Every change of a memory is permitted. -/
def Free (permit : Permit F) : Prop := ∀ m m', permit.memory m m'

/-- An affinity as `aligned` leaves it. -/
def alignedAffinity (centroid affinity : F) : F :=
  if 0.002 < FloatLike.abs (centroid - affinity) then
    FloatLike.clamp (affinity + (centroid - affinity) * 0.08) 0.0 1.0
  else affinity

/-- Of what a cell remembers aligning moves the affinity only. -/
theorem memory_aligned (weight centroid : F) (cell : NodeCell F) :
    (aligned weight centroid cell).1.memory =
      { cell.memory with affinity := alignedAffinity centroid cell.affinity } := by
  unfold aligned alignedAffinity
  dsimp only
  split <;> split <;> simp_all [NodeCell.memory]

/-- Aligning a cell keeps its id, its pattern and its links, and does not kill it. -/
theorem tweaks_aligned (weight centroid : F) (cell : NodeCell F) :
    Tweaks cell (aligned weight centroid cell).1 := by
  unfold aligned
  dsimp only
  split <;> split <;> exact ⟨rfl, rfl, rfl, fun h => h⟩

/-- The centre of a group depends on what its cells remember, affinity being a part of that. -/
theorem communityCentroid_congr {self' : ClusterField F} (h : self'.memories = self.memories)
    (nodes : List NodeId) : self'.communityCentroid nodes = self.communityCentroid nodes := by
  have haffinity (node : NodeId) :
      (self'.cells[node]?).map NodeCell.affinity = (self.cells[node]?).map NodeCell.affinity := by
    have hnode := congrArg (Option.map Memory.affinity) (congrFun h node)
    unfold memories at hnode
    rw [Option.map_map, Option.map_map] at hnode
    exact hnode
  unfold communityCentroid
  simp only [haffinity]

/-- The members of a group stand where it would move them. -/
def Unmoved (self : ClusterField F) (nodes : List NodeId) : Prop :=
  ∀ node ∈ nodes, ∀ cell, self.replica.cells node = some cell →
    alignedAffinity (self.communityCentroid nodes) cell.affinity = cell.affinity

/-- So does whether aligning would move anything. -/
theorem unmoved_congr {self' : ClusterField F} (h : self'.memories = self.memories)
    {nodes : List NodeId} (hunmoved : self.Unmoved nodes) : self'.Unmoved nodes := by
  intro node hnode cell hcell
  have hmemory : self.memories node = some cell.memory := by
    rw [← h]
    unfold memories
    rw [hcell]
    rfl
  obtain ⟨before, hbefore, hsame⟩ := Option.map_eq_some_iff.mp hmemory
  have haffinity : before.affinity = cell.affinity := congrArg Memory.affinity hsame
  rw [communityCentroid_congr h, ← haffinity]
  exact hunmoved node hnode before hbefore

/-- By induction over the tokens: the biases that a node takes over do not show in a trace. -/
theorem core_shareTokensOf (weight : F) (node : NodeId) (tokens : List String) (acc : Sharing F) :
    (tokens.foldl (shareToken weight node) acc).field.core = acc.field.core := by
  have hshare (acc : Sharing F) (token : String) :
      (shareToken weight node acc token).field.core = acc.field.core := rfl
  exact list_foldl_keeps (fun acc : Sharing F => acc.field.core) hshare tokens acc

omit [FloatLike F] in
/-- What the cells remember can be told from what a trace shows. -/
theorem memories_of_core {self' : ClusterField F} (h : self'.core = self.core) :
    self'.memories = self.memories := by
  unfold memories
  rw [(Prod.mk.inj h).1]

omit [FloatLike F] in
/-- Writing a cell that remembers the same leaves the memories of all. -/
theorem memories_setCell {id : NodeId} {cell after : NodeCell F} (hcell : self.cells[id]? = some cell)
    (hmemory : after.memory = cell.memory) : (self.setCell id after).memories = self.memories := by
  funext other
  unfold memories
  rw [replica_setCell, Replica.cells_set]
  by_cases heq : other = id
  · subst heq
    have hreplica : self.replica.cells other = some cell := hcell
    rw [Function.update_self, hreplica, Option.map_some, Option.map_some, hmemory]
  · rw [Function.update_of_ne heq]

/-- One node of a group is aligned. -/
theorem chain_shareNode (weight centroid : F) (tokens : List String) (acc : Sharing F) (node : NodeId)
    (h : Free permit ∨ ∀ cell, acc.field.replica.cells node = some cell →
      alignedAffinity centroid cell.affinity = cell.affinity) :
    MicroChain platform permit (acc.field.trace [] univ)
        ((shareNode weight centroid tokens acc node).field.trace [] univ) ∧
      (Free permit ∨
        (shareNode weight centroid tokens acc node).field.memories = acc.field.memories) := by
  unfold shareNode
  cases hcell : acc.field.cells[node]? with
  | none => exact ⟨.refl, Or.inr rfl⟩
  | some cell =>
      have hmoved := memory_aligned weight centroid cell
      have htweaks := tweaks_aligned weight centroid cell
      dsimp only
      generalize aligned weight centroid cell = result at hmoved htweaks
      have hcore := core_shareTokensOf weight node tokens
        ⟨acc.field.setCell node result.1, acc.shared,
          if result.2.1 then saturatingAdd32 acc.alignedCells 1 else acc.alignedCells,
          if result.2.2 then saturatingAdd32 acc.protectedCells 1 else acc.protectedCells, acc.events⟩
      rw [trace_congr hcore, memories_of_core hcore]
      rcases h with hfree | hstays
      · exact ⟨chain_tweak hcell htweaks (hfree _ _), Or.inl hfree⟩
      · have hmemory : result.1.memory = cell.memory := by
          rw [hmoved, hstays cell hcell]
          rfl
        exact ⟨chain_tweak hcell htweaks (hmemory ▸ permit.memory_refl _),
          Or.inr (memories_setCell hcell hmemory)⟩

/-- A link of a group that grows stronger is emitted as an inert delta, and no cell forgets anything. -/
theorem chain_alignLink (weight : F) (acc : Sharing F) (source target : NodeId) :
    MicroChain platform permit (acc.field.trace [] univ)
        ((alignLink weight acc source target).field.trace [] univ) ∧
      (alignLink weight acc source target).field.memories = acc.field.memories := by
  unfold alignLink
  cases hadjust : acc.field.adjustLinkScore source target weight with
  | mk field changed =>
      have hcore := @core_adjustLinkScore F acc.field _ source target weight
      rw [hadjust] at hcore
      rw [trace_of_adjustLinkScore hadjust, ← memories_of_core hcore]
      cases changed with
      | false => exact ⟨.refl, rfl⟩
      | true => exact ⟨chain_emit trivial, rfl⟩

/-- The nodes of a group are aligned: as long as no memory changes, each is where the group is centred. -/
theorem chain_shareNodes (weight : F) (tokens : List String) (nodes : List NodeId)
    (h : Free permit ∨ self.Unmoved nodes) :
    let shared := nodes.foldl (shareNode weight (self.communityCentroid nodes) tokens)
      ⟨self, 0, 0, 0, []⟩
    MicroChain platform permit (self.trace [] univ) (shared.field.trace [] univ) ∧
      (Free permit ∨ shared.field.memories = self.memories) := by
  have hnode (acc : Sharing F) (hacc : Free permit ∨ acc.field.memories = self.memories)
      (node : NodeId) (hmem : node ∈ nodes) :
      MicroChain platform permit (acc.field.trace [] univ)
          ((shareNode weight (self.communityCentroid nodes) tokens acc node).field.trace [] univ) ∧
        (Free permit ∨ (shareNode weight (self.communityCentroid nodes) tokens acc node).field.memories =
          self.memories) := by
    rcases hacc with hfree | hsame
    · obtain ⟨hchain, -⟩ := chain_shareNode weight (self.communityCentroid nodes) tokens acc node
        (Or.inl hfree)
      exact ⟨hchain, Or.inl hfree⟩
    · have hstays : Free permit ∨ ∀ cell, acc.field.replica.cells node = some cell →
          alignedAffinity (self.communityCentroid nodes) cell.affinity = cell.affinity := by
        rw [← communityCentroid_congr hsame]
        exact h.imp_right fun hunmoved => unmoved_congr hsame hunmoved node hmem
      obtain ⟨hchain, hkept⟩ := chain_shareNode weight (self.communityCentroid nodes) tokens acc node
        hstays
      exact ⟨hchain, hkept.imp_right fun hmemories => hmemories.trans hsame⟩
  have hstart : Free permit ∨ (⟨self, 0, 0, 0, []⟩ : Sharing F).field.memories = self.memories :=
    Or.inr rfl
  exact reflTransGen_foldl_inv (fun acc : Sharing F => acc.field.trace [] univ) hnode hstart

/-- By induction over the pairs of a group, each of them both ways. -/
theorem chain_alignLinks (weight : F) (pairs : List (NodeId × NodeId)) (shared : Sharing F) :
    let last := pairs.foldl
      (fun acc pair => alignLink weight (alignLink weight acc pair.1 pair.2) pair.2 pair.1) shared
    MicroChain platform permit (shared.field.trace [] univ) (last.field.trace [] univ) ∧
      last.field.memories = shared.field.memories := by
  have hpair (acc : Sharing F) (hacc : acc.field.memories = shared.field.memories)
      (pair : NodeId × NodeId) (_ : pair ∈ pairs) :
      MicroChain platform permit (acc.field.trace [] univ)
          ((alignLink weight (alignLink weight acc pair.1 pair.2) pair.2 pair.1).field.trace [] univ) ∧
        (alignLink weight (alignLink weight acc pair.1 pair.2) pair.2 pair.1).field.memories =
          shared.field.memories := by
    obtain ⟨hthere, hsame⟩ := @chain_alignLink F platform permit _ weight acc pair.1 pair.2
    obtain ⟨hback, hsame'⟩ := @chain_alignLink F platform permit _ weight
      (alignLink weight acc pair.1 pair.2) pair.2 pair.1
    exact ⟨hthere.trans hback, hsame'.trans (hsame.trans hacc)⟩
  exact reflTransGen_foldl_inv (fun acc : Sharing F => acc.field.trace [] univ) hpair rfl

/-- Sharing within a group is a chain, if memories are free to change or if aligning moves nothing. -/
theorem chain_shareTokens (nodes : List NodeId) (tokens : List String) (weightXfer : F)
    (h : Free permit ∨ tokens = [] ∨ self.Unmoved nodes) :
    MicroChain platform permit (self.trace [] univ)
        ((self.shareTokens platform nodes tokens weightXfer).field.trace [] univ) ∧
      (Free permit ∨
        (self.shareTokens platform nodes tokens weightXfer).field.memories = self.memories) := by
  unfold shareTokens
  split
  · exact ⟨.refl, Or.inr rfl⟩
  · rename_i hsome
    have hstays : Free permit ∨ self.Unmoved nodes := by
      rcases h with hfree | rfl | hunmoved
      · exact Or.inl hfree
      · simp at hsome
      · exact Or.inr hunmoved
    dsimp only
    generalize FloatLike.clamp weightXfer 0.05 0.5 = weight
    obtain ⟨hnodes, hmemories⟩ := @chain_shareNodes F platform permit self _ weight
      (tokens.map platform.toLowercase) nodes hstays
    generalize nodes.foldl (shareNode weight (self.communityCentroid nodes)
      (tokens.map platform.toLowercase)) ⟨self, 0, 0, 0, []⟩ = shared at hnodes hmemories
    obtain ⟨hlinks, hsame⟩ := @chain_alignLinks F platform permit _ weight (eachPair nodes) shared
    generalize (eachPair nodes).foldl (fun acc pair =>
      alignLink weight (alignLink weight acc pair.1 pair.2) pair.2 pair.1) shared = last at hlinks hsame
    have hevent (s : ClusterField F) (event : NodeId × String × F) (_ : event ∈ last.events) :
        MicroChain platform permit (s.trace [] univ)
          ((s.emit (.syncShare event.1 event.2.1 event.2.2)).trace [] univ) := chain_emit trivial
    have hevents := reflTransGen_foldl (trace · [] univ) hevent last.field
    have hemitted (s : ClusterField F) (event : NodeId × String × F) :
        (s.emit (.syncShare event.1 event.2.1 event.2.2)).memories = s.memories := rfl
    refine ⟨hnodes.trans (hlinks.trans hevents), hmemories.imp_right fun hkept => ?_⟩
    exact (list_foldl_keeps memories hemitted last.events last.field).trans (hsame.trans hkept)

/-- By induction over the groups, a collective dream is a chain under the same condition on each of them. -/
theorem chain_runCollectiveDream (groups : List SyncGroup) (cfg : SyncConfig F) (nowMs : UInt64)
    (tookMs : UInt32)
    (h : Free permit ∨ ∀ group ∈ groups, group.tokens = [] ∨ self.Unmoved group.nodes) :
    MicroChain platform permit (self.trace [] univ)
      ((self.runCollectiveDream platform tookMs groups cfg nowMs).trace [] univ) := by
  unfold runCollectiveDream
  split
  · exact .refl
  · have hgroup (acc : ClusterField F × SyncReport)
        (hacc : Free permit ∨ acc.1.memories = self.memories) (group : SyncGroup) (hmem : group ∈ groups) :
        MicroChain platform permit (acc.1.trace [] univ) ((dreamGroup platform cfg acc group).1.trace [] univ) ∧
          (Free permit ∨ (dreamGroup platform cfg acc group).1.memories = self.memories) := by
      rcases hacc with hfree | hsame
      · obtain ⟨hchain, -⟩ := @chain_shareTokens F platform permit acc.1 _ group.nodes group.tokens
          cfg.weightXfer (Or.inl hfree)
        exact ⟨hchain, Or.inl hfree⟩
      · obtain ⟨hchain, hkept⟩ := @chain_shareTokens F platform permit acc.1 _ group.nodes group.tokens
          cfg.weightXfer (h.imp_right fun hall => (hall group hmem).imp_right (unmoved_congr hsame))
        exact ⟨hchain, hkept.imp_right fun hmemories => hmemories.trans hsame⟩
    have hstart : Free permit ∨ (self, (⟨UInt16.ofNat groups.length, 0, 0, 0, 0⟩ : SyncReport)).1.memories =
        self.memories := Or.inr rfl
    exact (reflTransGen_foldl_inv (fun acc : ClusterField F × SyncReport => acc.1.trace [] univ) hgroup
      hstart).1.trans (chain_emit trivial)

/-! ## Awakening -/

/-- A tension leaves the energy of a cell as it is. -/
def Rests (cfg : AwakeningConfig F) (cell : NodeCell F) (tension : Tension F) : Prop :=
  ¬ FloatLike.epsilon < FloatLike.abs (awakened cfg tension.magnitude cell.energy - cell.energy)

/-- A tension leaves the salience of a cell as it is. -/
def Sated (cfg : AwakeningConfig F) (cell : NodeCell F) (tension : Tension F) : Prop :=
  (cell.bumpSalience (cfg.salienceBoost * (1.0 + tension.magnitude))).salience = cell.salience

/-- A cell is protected from its tensions, has no energy to gain from them, or no salience. -/
def Unroused (cfg : AwakeningConfig F) (tensions : List (Tension F)) (id : NodeId) (cell : NodeCell F) :
    Prop :=
  cfg.protectSalience ≤ cell.salience ∨
    (∀ tension ∈ tensions, tension.node = id → Rests cfg cell tension) ∨
    ∀ tension ∈ tensions, tension.node = id → Sated cfg cell tension

/-- In the middle of an awakening that rouses no cell: every cell has the memory it had, and one that
had no energy to gain is as it was. -/
def Slumbers (cfg : AwakeningConfig F) (tensions : List (Tension F)) (self s : ClusterField F) : Prop :=
  ∀ (id : NodeId) (cell : NodeCell F), s.cells[id]? = some cell →
    ∃ before, self.cells[id]? = some before ∧ cell.memory = before.memory ∧
      ((∀ tension ∈ tensions, tension.node = id → Rests cfg before tension) → cell = before)

/-- The model that `awaken_now` applies. -/
def awakeningModel (visits : Visits F) (self : ClusterField F) : ResonantModel F :=
  ((self.rebuildResonantModel visits).2.or
    (self.rebuildResonantModel visits).1.cachedResonantModel).getD .default

omit [FloatLike F] in
/-- The vitals of a cell that was just written are those of this cell. -/
theorem emitEnergyState_setCell (id : NodeId) (cell : NodeCell F) :
    (self.setCell id cell).emitEnergyState id = (self.setCell id cell).emit (energyDelta id cell) := by
  have hcell : (self.setCell id cell).cells[id]? = some cell := Std.ExtTreeMap.getElem?_insert_self
  unfold emitEnergyState
  rw [hcell]

/-- An awakening under tension changes a cell in place and emits its vitals at once; the permit has to allow
for its salience. -/
theorem chain_awakenCell (cfg : AwakeningConfig F) (tension : Tension F)
    (h : ∀ cell, self.cells[tension.node]? = some cell → ¬ cfg.protectSalience ≤ cell.salience →
      ¬ Rests cfg cell tension → permit.memory cell.memory
        (cell.bumpSalience (cfg.salienceBoost * (1.0 + tension.magnitude))).memory) :
    MicroChain platform permit (self.trace [] stale) ((self.awakenCell cfg tension).trace [] stale) := by
  unfold awakenCell
  cases hcell : self.cells[tension.node]? with
  | none => exact .refl
  | some cell =>
      dsimp only
      split
      · exact .refl
      · rename_i hexposed
        split
        · rename_i hroused
          rw [emitEnergyState_setCell, trace_emit]
          exact chain_tweak_energy hcell ⟨rfl, rfl, rfl, fun h => h⟩
            (h cell hcell hexposed (not_not.mpr hroused))
        · exact .refl

/-- A tension rouses no cell that was not roused before. -/
theorem memory_of_unroused {cfg : AwakeningConfig F} {tensions : List (Tension F)}
    {id : NodeId} {before cell : NodeCell F} (h : Unroused cfg tensions id before)
    (hmemory : cell.memory = before.memory)
    (hsteady : (∀ tension ∈ tensions, tension.node = id → Rests cfg before tension) → cell = before)
    {tension : Tension F} (hmem : tension ∈ tensions) (hnode : tension.node = id)
    (hexposed : ¬ cfg.protectSalience ≤ cell.salience) (hroused : ¬ Rests cfg cell tension) :
    (cell.bumpSalience (cfg.salienceBoost * (1.0 + tension.magnitude))).memory = cell.memory := by
  have hsalience : cell.salience = before.salience := congrArg Memory.salience hmemory
  rcases h with hprotected | hrests | hsated
  · rw [← hsalience] at hprotected
    exact absurd hprotected hexposed
  · rw [hsteady hrests] at hroused
    exact absurd (hrests tension hmem hnode) hroused
  · have hsame := hsated tension hmem hnode
    unfold Sated NodeCell.bumpSalience at hsame
    rw [← hsalience] at hsame
    unfold NodeCell.bumpSalience NodeCell.memory
    rw [hsame]

/-- A cell that none of the tensions rouses slumbers on through every one of them. -/
theorem slumbers_awakenCell {cfg : AwakeningConfig F} {tensions : List (Tension F)} {s : ClusterField F}
    (h : ∀ (id : NodeId) (cell : NodeCell F), self.cells[id]? = some cell →
      Unroused cfg tensions id cell)
    (hslumbers : Slumbers cfg tensions self s) {tension : Tension F} (hmem : tension ∈ tensions) :
    Slumbers cfg tensions self (s.awakenCell cfg tension) := by
  unfold awakenCell
  cases hcell : s.cells[tension.node]? with
  | none => exact hslumbers
  | some cell =>
      dsimp only
      split
      · exact hslumbers
      · rename_i hexposed
        split
        · rename_i hroused
          rw [emitEnergyState_setCell]
          intro id after hafter
          by_cases heq : id = tension.node
          · subst heq
            obtain ⟨before, hbefore, hmemory, hsteady⟩ := hslumbers _ cell hcell
            have hsome : (s.setCell tension.node _).cells[tension.node]? = some after := hafter
            rw [setCell, Std.ExtTreeMap.getElem?_insert_self] at hsome
            obtain rfl := Option.some.inj hsome
            have hkept := memory_of_unroused (h _ before hbefore) hmemory hsteady hmem rfl hexposed
              (not_not.mpr hroused)
            refine ⟨before, hbefore, hkept.trans hmemory, fun hrests => ?_⟩
            rw [hsteady hrests] at hroused
            exact absurd hroused (hrests tension hmem rfl)
          · have hsome : (s.setCell tension.node _).cells[id]? = some after := hafter
            rw [getElem?_setCell_of_ne heq] at hsome
            exact hslumbers id after hsome
        · exact hslumbers

/-- By induction over the tensions, an awakening is a chain, if memories are free to change or no cell is
roused. -/
theorem chain_awaken (model : ResonantModel F) (cfg : AwakeningConfig F) (trs : TrsState F)
    (h : Free permit ∨ ∀ (id : NodeId) (cell : NodeCell F), self.cells[id]? = some cell →
      Unroused cfg (considered model cfg) id cell) :
    MicroChain platform permit (self.trace [] stale) ((self.awaken model cfg trs).1.trace [] stale) := by
  unfold awaken
  split
  · exact .refl
  · have hround (s : ClusterField F)
        (hs : Free permit ∨ (∀ (id : NodeId) (cell : NodeCell F), self.cells[id]? = some cell →
          Unroused cfg (considered model cfg) id cell) ∧ Slumbers cfg (considered model cfg) self s)
        (tension : Tension F) (hmem : tension ∈ considered model cfg) :
        MicroChain platform permit (s.trace [] stale) ((s.awakenCell cfg tension).trace [] stale) ∧
          (Free permit ∨ (∀ (id : NodeId) (cell : NodeCell F), self.cells[id]? = some cell →
            Unroused cfg (considered model cfg) id cell) ∧
              Slumbers cfg (considered model cfg) self (s.awakenCell cfg tension)) := by
      rcases hs with hfree | ⟨hunroused, hslumbers⟩
      · exact ⟨chain_awakenCell cfg tension fun _ _ _ _ => hfree _ _, Or.inl hfree⟩
      · refine ⟨chain_awakenCell cfg tension fun cell hcell hexposed hroused => ?_,
          Or.inr ⟨hunroused, slumbers_awakenCell hunroused hslumbers hmem⟩⟩
        obtain ⟨before, hbefore, hmemory, hsteady⟩ := hslumbers _ cell hcell
        rw [memory_of_unroused (hunroused _ before hbefore) hmemory hsteady hmem rfl hexposed hroused]
        exact permit.memory_refl _
    have hstart : Slumbers cfg (considered model cfg) self self :=
      fun _ cell hcell => ⟨cell, hcell, rfl, fun _ => rfl⟩
    exact (reflTransGen_foldl_inv (trace · [] stale) hround
      (h.imp_right fun hunroused => ⟨hunroused, hstart⟩)).1

/-- `awaken_now` is such an awakening with the model that it builds; what it remembers of the model is inert.
-/
theorem chain_awakenNow (visits : Visits F)
    (h : Free permit ∨ ∀ (id : NodeId) (cell : NodeCell F), self.cells[id]? = some cell →
      Unroused self.awakeningCfg (considered (self.awakeningModel visits) self.awakeningCfg) id cell) :
    MicroChain platform permit (self.trace [] stale) ((self.awakenNow visits).trace [] stale) := by
  have hrebuild : (self.rebuildResonantModel visits).1.core = self.core ∧
      (self.rebuildResonantModel visits).1.cells = self.cells ∧
      (self.rebuildResonantModel visits).1.awakeningCfg = self.awakeningCfg := by
    unfold rebuildResonantModel
    dsimp only
    split <;> exact ⟨rfl, rfl, rfl⟩
  unfold awakeningModel at h
  unfold awakenNow
  cases hmodel : self.rebuildResonantModel visits with
  | mk rebuilt model =>
      rw [hmodel] at hrebuild h
      obtain ⟨hcore, hcells, hcfg⟩ := hrebuild
      rw [← trace_congr hcore]
      dsimp only at hcells hcfg h ⊢
      rw [← hcells, ← hcfg] at h
      exact chain_awaken _ rebuilt.awakeningCfg rebuilt.trs h

/-! ## Mirror epochs -/

/-- By induction over the cells that it picks, applying a mirrored epoch changes each in place and leaves it
stale. -/
theorem chain_applyMirrorEpoch (visits : Visits F) (epoch : Epoch F) (scale : F) (maxOps : UInt32)
    (protectSalience : F)
    (h : ∀ id ∈ self.mirrorTargets visits maxOps protectSalience, ∀ cell, self.cells[id]? = some cell →
      permit.memory cell.memory (mirrored epoch.kind scale cell).memory) :
    MicroChain platform permit (self.trace [] univ)
      ((self.applyMirrorEpoch visits epoch scale maxOps protectSalience).trace [] univ) := by
  have htargets : (self.mirrorTargets visits maxOps protectSalience).Nodup :=
    ((nodup_arrange_keys visits self).filter _).sublist (List.take_sublist _ _)
  refine reflTransGen_foldl_distinct (trace · [] univ) (fun id => id)
    (fun s id => s.cells[id]?)
    (fun _ cell => permit.memory cell.memory (mirrored epoch.kind scale cell).memory)
    (fun s id => s.alterCell id (mirrored epoch.kind scale)) self ?_ ?_ (by simpa using htargets) h
  · intro s id other hne
    unfold alterCell
    cases s.cells[id]? with
    | none => rfl
    | some cell => exact getElem?_setCell_of_ne hne _
  · intro s id _ hpermit
    unfold alterCell
    cases hcell : s.cells[id]? with
    | none => exact .refl
    | some cell => exact chain_tweak hcell ⟨rfl, rfl, rfl, fun h => h⟩ (hpermit cell hcell)

end ClusterField

end LiminalDB
