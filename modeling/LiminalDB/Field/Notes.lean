import LiminalDB.Field.Chains
import LiminalDB.Field.Runs

/-! # What a field notes about impulses

The clock, the rules, the counters of the rules and the hits of the tokens. Only an impulse writes hits and
counters (`notes_call`), only a tick moves the clock, and only `add_reflex` and `remove_reflex` change the
rules; dreams, awakenings, trimming and the rest leave all of it alone. -/

namespace LiminalDB

variable {F : Type}

/-- The clock, the rules and what impulses leave behind. -/
structure Notes (F : Type) where
  nowMs : UInt64
  rules : Std.ExtTreeMap ReflexId (ReflexRule F) compare
  counters : String × ImpulseKind → List (UInt64 × F)
  tokenHits : String → List (Hit F)
  nextHitSeq : UInt64

namespace ClusterField

variable [FloatLike F] {platform : Platform F} {self : ClusterField F}

/-- The notes of a field. -/
def notes (self : ClusterField F) : Notes F :=
  ⟨self.nowMs, self.rules, self.counters, self.tokenHits, self.nextHitSeq⟩

/-! ## Cells and links -/

omit [FloatLike F] in
/-- Changing a cell in place, whatever the change, is not noted: the cells are no part of the notes. -/
theorem notes_alterCell (id : NodeId) (change : NodeCell F → NodeCell F) :
    (self.alterCell id change).notes = self.notes := by
  unfold alterCell
  split <;> rfl

omit [FloatLike F] in
/-- `emit_energy_state` appends at most one delta to the journal, which is no part of the notes either. -/
theorem notes_emitEnergyState (id : NodeId) : (self.emitEnergyState id).notes = self.notes := by
  unfold emitEnergyState
  split <;> rfl

omit [FloatLike F] in
/-- Deltas that are emitted one after the other go to the journal and leave the notes as they are. -/
theorem notes_foldl_emit (deltas : List (EventDelta F)) : (deltas.foldl emit self).notes = self.notes := by
  refine list_foldl_keeps notes (fun _ _ => ?_) deltas self
  rfl

omit [FloatLike F] in
/-- Purging the tracking of dead cells clears link and route tables only; the hits of tokens stay. -/
theorem notes_foldl_purge (ids : List NodeId) : (ids.foldl purgeTrackingFor self).notes = self.notes := by
  refine list_foldl_keeps notes (fun _ _ => ?_) ids self
  rfl

/-- A cell that is attached enters the cells, the index and the link tables, and none of the notes. -/
theorem notes_attachCell (cell : NodeCell F) : (self.attachCell platform cell).notes = self.notes :=
  indexing_keeps notes (fun _ _ => rfl) (fun _ _ _ => rfl) platform (self.setCell cell.id cell) cell.id

/-- Rebuilding the index goes through all cells and registers their links, which notes nothing. -/
theorem notes_rebuildIndex : (self.rebuildIndex platform).notes = self.notes :=
  list_foldl_keeps notes (indexing_keeps notes (fun _ _ => rfl) (fun _ _ _ => rfl) platform)
    self.cells.keys { self with index := fun _ => [] }

/-- A spawned cell takes the next id, which does not count as a note, and is then attached. -/
theorem notes_spawn (cell : NodeCell F) : (self.spawn platform cell).notes = self.notes :=
  @notes_attachCell F _ platform { self with nextId := self.nextId + 1 } cell

/-- A new link is written into its source and registered; a link that is there already changes nothing at all.
-/
theorem notes_addLink (source target : NodeId) : (self.addLink source target).notes = self.notes := by
  unfold addLink
  split
  · split <;> rfl
  · rfl

/-- Moving the score of a link, or finding that there is no such link, leaves the notes alone. -/
theorem notes_adjustLinkScore (source target : NodeId) (delta : F) :
    (self.adjustLinkScore source target delta).1.notes = self.notes := by
  unfold adjustLinkScore
  split <;> rfl

omit [FloatLike F] in
/-- A pruned link is taken from its source and from the link tables, and nothing is noted about it. -/
theorem notes_pruneLink (source target : NodeId) : (self.pruneLink source target).1.notes = self.notes := by
  unfold pruneLink
  split
  · exact notes_alterCell source _
  · rfl

omit [FloatLike F] in
/-- Walking along the route of an impulse counts links and pairs in tables of their own, at every step. -/
theorem notes_recordRouteSequence (visits : Visits F) (nodes : List NodeId) :
    (self.recordRouteSequence visits nodes).notes = self.notes := by
  fun_induction recordRouteSequence visits self nodes with
  | case1 self source target rest self' ih =>
      refine ih.trans ?_
      show self'.notes = self.notes
      unfold self'
      split <;> rfl
  | case2 => rfl

/-! ## Impulses -/

/-- A sleeping cell that a reflex wakes gets energy and a delta, and a cell that is awake or gone gets
nothing. -/
theorem notes_wake (id : NodeId) : (self.wake id).notes = self.notes := by
  unfold wake
  split
  · split <;> rfl
  · rfl

/-- Whatever the action of a reflex is (a hint, a new seed, waking, boosting), it adds no hits and no counts.
-/
theorem notes_fireReflex (visits : Visits F) (rule : ReflexRule F) (matched : UInt16) (token : String) :
    (self.fireReflex platform visits rule matched token).notes = self.notes := by
  unfold fireReflex
  cases rule.action with
  | emitHint hint => rfl
  | spawnSeed seed affinityShift => exact notes_spawn _
  | wakeSleeping count => exact list_foldl_keeps notes (fun _ id => notes_wake id) _ _
  | boostLinks factor top =>
      dsimp only [performBoostLinks]
      split
      · rfl
      · refine list_foldl_keeps notes (fun _ _ => ?_) _ _
        rfl

/-- The reflexes that are due fire one after the other, and none of them touches the notes. -/
theorem notes_fireAll (visits : Visits F) (token : String) (due : List (ReflexRule F × UInt16)) :
    (self.fireAll platform visits token due).notes = self.notes := by
  unfold fireAll
  exact list_foldl_keeps notes (fun _ due => notes_fireReflex visits due.1 due.2 token) due self

/-- Noradrenaline, which an impulse may set off, is a hormone of the field and not one of its notes. -/
theorem notes_feelHormone (imp : Impulse F) : (self.feelHormone imp).notes = self.notes := by
  unfold feelHormone
  split <;> rfl

/-- A cell that takes in an impulse changes itself and the responses; who was hit is noted elsewhere. -/
theorem notes_ingestAt (imp : Impulse F) (acc : Responses F) (id : NodeId) :
    (ingestAt platform imp acc id).field.notes = acc.field.notes := by
  unfold ingestAt
  split
  · dsimp only
    split <;> rfl
  · rfl

/-! ## Ticks -/

/-- Ageing a cell, with or without a hormone, changes it in place and fills the batch of events. -/
theorem notes_ageCell (dtMs : UInt64) (hormone : Option (NoradrenalineEffect F)) (acc : Batch F) (id : NodeId) :
    (ageCell dtMs hormone acc id).field.notes = acc.field.notes := by
  unfold ageCell
  split <;> rfl

/-- A cell that divides is changed in place and its child is set aside; neither is noted. -/
theorem notes_divideCell (variation : NodeId → F) (acc : Dividing F) (id : NodeId) :
    (divideCell variation acc id).field.notes = acc.field.notes := by
  unfold divideCell
  split
  · split <;> rfl
  · rfl

/-- A child that was set aside is linked from its parent and attached, and the notes stay the same. -/
theorem notes_attachChild (acc : Batch F) (new : NodeId × NodeCell F) :
    (attachChild platform acc new).field.notes = acc.field.notes := by
  refine (notes_attachCell new.2).trans ?_
  unfold linkChild
  split
  · split
    · rfl
    · exact notes_addLink new.1 new.2.id
  · rfl

/-- What puts a cell to sleep or lets it die works on the cell and on the list of those to purge. -/
theorem notes_restCell (hormone : Option (NoradrenalineEffect F)) (acc : Resting F) (id : NodeId) :
    (restCell hormone acc id).field.notes = acc.field.notes := by
  unfold restCell
  split <;> rfl

/-- The part of a tick that goes through the cells (ageing, growing, resting) leaves the notes alone, since
the clock was moved before it. -/
theorem notes_tickCells (visits : Visits F) (variation : NodeId → F) (dtMs : UInt64) :
    (self.tickCells platform visits variation dtMs).field.notes = self.notes := by
  unfold tickCells growCells
  -- From the last of the loops to the first.
  refine (list_foldl_keeps (fun acc : Resting F => acc.field.notes) (notes_restCell _) _ _).trans ?_
  refine (list_foldl_keeps (fun acc : Batch F => acc.field.notes) notes_attachChild _ _).trans ?_
  refine (list_foldl_keeps (fun acc : Dividing F => acc.field.notes) (notes_divideCell variation) _ _).trans ?_
  exact list_foldl_keeps (fun acc : Batch F => acc.field.notes) (notes_ageCell dtMs _) _ ⟨self, []⟩

/-- Burying the dead rebuilds the index and purges the tables of links, and keeps hits, counters and rules. -/
theorem notes_bury (purge : List NodeId) : (self.bury platform purge).notes = self.notes := by
  unfold bury
  refine (notes_foldl_purge purge).trans ?_
  split
  · exact notes_rebuildIndex
  · rfl

/-- A tick moves the clock. -/
theorem notes_tickAll (visits : Visits F) (variation : NodeId → F) (dtMs : UInt64) :
    (self.tickAll platform visits variation dtMs).notes =
      { self.notes with nowMs := saturatingAdd self.nowMs dtMs } := by
  -- Only `startTick` moves the clock.
  have hrested := @notes_tickCells F _ platform (self.startTick dtMs) visits variation dtMs
  have hburied := @notes_bury F _ platform
    ((self.startTick dtMs).tickCells platform visits variation dtMs).field
    ((self.startTick dtMs).tickCells platform visits variation dtMs).purge
  exact (notes_foldl_emit _).trans (hburied.trans hrested)

/-! ## Everything else -/

/-- `trim_low_energy` retains, sleeps and buries cells, all of which the notes do not see. -/
theorem notes_trimLowEnergy (visits : Visits F) (dozes dies : NodeId → Bool) :
    (self.trimLowEnergy platform visits dozes dies).notes = self.notes := by
  have hbury (s : ClusterField F) (id : NodeId) : ((s.emit (.dead id)).purgeTrackingFor id).notes = s.notes := rfl
  unfold trimLowEnergy
  refine (list_foldl_keeps notes hbury _ _).trans ?_
  split
  · exact notes_rebuildIndex
  · rfl

omit [FloatLike F] in
/-- Linking a bud to one of the cells it came upon, or not, as the coin falls, is not noted. -/
theorem notes_linkBud (coin : NodeId → Bool) (bud : NodeId) (acc : ClusterField F × List NodeId) (id : NodeId) :
    (linkBud coin bud acc id).1.notes = acc.1.notes := by
  unfold linkBud
  split
  · split <;> rfl
  · rfl

/-- `inject_seed_variation` spawns a bud and links it here and there; a full field does not even do that. -/
theorem notes_injectSeedVariation (visits : Visits F) (shift energy : F) (coin : NodeId → Bool)
    (baseSeed : String) : (self.injectSeedVariation platform visits shift energy coin baseSeed).notes = self.notes := by
  have hregister (id : NodeId) (s : ClusterField F) (source : NodeId) :
      (s.registerLink source id).notes = s.notes := rfl
  have hemit (id : NodeId) (s : ClusterField F) (source : NodeId) :
      (s.emit (.link source id)).notes = s.notes := rfl
  unfold injectSeedVariation
  split
  · rfl
  · refine (list_foldl_keeps notes (hregister _) _ _).trans ?_
    refine (list_foldl_keeps notes (hemit _) _ _).trans ?_
    refine (list_foldl_keeps (fun acc : ClusterField F × List NodeId => acc.1.notes)
      (notes_linkBud coin _) _ _).trans ?_
    exact notes_spawn _

/-- A cell that has lost its last link gets one to the nearest other cell, and the notes stay the same. -/
theorem notes_rewireLonely (visits : Visits F) (id : NodeId) :
    (self.rewireLonely visits id).1.notes = self.notes := by
  unfold rewireLonely
  split
  · split
    · split <;> rfl
    · rfl
  · rfl

/-- When a dream strengthens a pair it moves the score of a link and counts in its own report. -/
theorem notes_strengthen (cfg : DreamConfig F) (acc : Dreaming F) (pair : PairStat F) :
    (strengthen cfg acc pair).field.notes = acc.field.notes := by
  unfold strengthen
  split
  · rfl
  split
  · rfl
  split
  · rfl
  dsimp only
  split
  · split <;> exact notes_adjustLinkScore ..
  · rfl

/-- Rewiring both ends of a pruned link is two times `notes_rewireLonely`, or nothing without operations left.
-/
theorem notes_rewire (visits : Visits F) (acc : Dreaming F) (source target : NodeId) :
    (rewire visits acc source target).field.notes = acc.field.notes := by
  unfold rewire
  split
  · rfl
  · exact (notes_rewireLonely visits target).trans (notes_rewireLonely visits source)

/-- When a dream prunes a link that has become weak, and rewires its ends, it notes nothing. -/
theorem notes_prune (visits : Visits F) (acc : Dreaming F) (source target : NodeId) :
    (prune visits acc source target).field.notes = acc.field.notes := by
  unfold prune
  split
  · dsimp only
    split
    · exact (notes_rewire visits _ source target).trans (notes_pruneLink source target)
    · rfl
  · rfl

/-- When a dream weakens a pair it moves the score of a link and perhaps prunes it, and notes nothing. -/
theorem notes_weaken (visits : Visits F) (cfg : DreamConfig F) (acc : Dreaming F) (pair : PairStat F) :
    (weaken visits cfg acc pair).field.notes = acc.field.notes := by
  unfold weaken
  split
  · rfl
  split
  · rfl
  split
  · rfl
  dsimp only
  split
  · split
    · exact (notes_prune visits _ _ _).trans (notes_adjustLinkScore ..)
    · exact notes_adjustLinkScore ..
  · rfl

/-- A dream goes through its strong and its weak pairs and records a report, which is kept apart from the
notes. -/
theorem notes_runDream (visits : Visits F) (tookMs : UInt32) (cfg : DreamConfig F) (nowMs : UInt64) :
    (self.runDream visits tookMs cfg nowMs).notes = self.notes := by
  unfold runDream
  dsimp only
  split
  · rfl
  · refine (list_foldl_keeps (fun acc : Dreaming F => acc.field.notes) (notes_weaken visits cfg) _ _).trans ?_
    exact list_foldl_keeps (fun acc : Dreaming F => acc.field.notes) (notes_strengthen cfg) _
      ⟨self, ⟨0, 0, 0, 0, 0, 0⟩, cfg.maxOpsPerCycle, []⟩

/-- A dream cycle is one dream with the configuration of the field, or none when there are too few cells. -/
theorem notes_runDreamCycle (visits : Visits F) (tookMs : UInt32) :
    (self.runDreamCycle visits tookMs).notes = self.notes := by
  unfold runDreamCycle
  split
  · rfl
  · exact notes_runDream visits tookMs self.dreamCfg self.nowMs

/-- A node that takes over the tokens of its group gets biases and is aligned, and no token gets a hit by it.
-/
theorem notes_shareNode (weight centroid : F) (tokens : List String) (acc : Sharing F) (node : NodeId) :
    (shareNode weight centroid tokens acc node).field.notes = acc.field.notes := by
  unfold shareNode
  split
  · refine list_foldl_keeps (fun acc : Sharing F => acc.field.notes) (fun _ _ => ?_) _ _
    rfl
  · rfl

/-- A link within a group grows stronger by its score only, and the change is journaled. -/
theorem notes_alignLink (weight : F) (acc : Sharing F) (source target : NodeId) :
    (alignLink weight acc source target).field.notes = acc.field.notes := by
  unfold alignLink
  dsimp only
  split <;> exact notes_adjustLinkScore ..

/-- Sharing the tokens of one group aligns its nodes and its links, pair by pair, and notes nothing. -/
theorem notes_shareTokens (nodes : List NodeId) (tokens : List String) (weightXfer : F) :
    (self.shareTokens platform nodes tokens weightXfer).field.notes = self.notes := by
  unfold shareTokens
  split
  · rfl
  · have hemit (s : ClusterField F) (event : NodeId × String × F) :
        (s.emit (.syncShare event.1 event.2.1 event.2.2)).notes = s.notes := rfl
    refine (list_foldl_keeps notes hemit _ _).trans ?_
    have hpair (weight : F) (acc : Sharing F) (pair : NodeId × NodeId) :
        (alignLink weight (alignLink weight acc pair.1 pair.2) pair.2 pair.1).field.notes = acc.field.notes :=
      (notes_alignLink weight _ pair.2 pair.1).trans (notes_alignLink weight acc pair.1 pair.2)
    refine (list_foldl_keeps (fun acc : Sharing F => acc.field.notes) (hpair _) _ _).trans ?_
    exact list_foldl_keeps (fun acc : Sharing F => acc.field.notes)
      (notes_shareNode _ _ _) nodes ⟨self, 0, 0, 0, []⟩

/-- A collective dream does this for one group after the other, and records its report apart from the notes.
-/
theorem notes_runCollectiveDream (tookMs : UInt32) (groups : List SyncGroup) (cfg : SyncConfig F) (nowMs : UInt64) :
    (self.runCollectiveDream platform tookMs groups cfg nowMs).notes = self.notes := by
  unfold runCollectiveDream
  split
  · rfl
  · exact list_foldl_keeps (fun acc : ClusterField F × SyncReport => acc.1.notes)
      (fun acc group => notes_shareTokens group.nodes group.tokens cfg.weightXfer) groups _

/-- Awakening a cell under tension changes its energy and salience and is journaled, and notes nothing. -/
theorem notes_awakenCell (cfg : AwakeningConfig F) (tension : Tension F) :
    (awakenCell cfg self tension).notes = self.notes := by
  unfold awakenCell
  split
  · split
    · rfl
    · dsimp only
      split
      · exact notes_emitEnergyState _
      · rfl
  · rfl

/-- An awakening goes through the tensions of the model; the plan and the report of it are not notes. -/
theorem notes_awaken (model : ResonantModel F) (cfg : AwakeningConfig F) (trs : TrsState F) :
    (self.awaken model cfg trs).1.notes = self.notes := by
  unfold awaken
  split
  · rfl
  · exact list_foldl_keeps notes (fun _ tension => notes_awakenCell cfg tension) _ _

/-- `awaken_now` builds a model, applies it and remembers that it did so, and leaves the notes as they were.
-/
theorem notes_awakenNow (visits : Visits F) : (self.awakenNow visits).notes = self.notes := by
  have hrebuilt : (self.rebuildResonantModel visits).1.notes = self.notes := by
    unfold rebuildResonantModel
    dsimp only
    split <;> rfl
  exact (notes_awaken _ _ _).trans hrebuilt

/-- Applying a mirrored epoch scales the affinity or metabolism of the cells that it picks, and notes nothing.
-/
theorem notes_applyMirrorEpoch (visits : Visits F) (epoch : Epoch F) (scale : F) (maxOps : UInt32)
    (protectSalience : F) :
    (self.applyMirrorEpoch visits epoch scale maxOps protectSalience).notes = self.notes :=
  list_foldl_keeps notes (fun _ id => notes_alterCell id _) _ _

end ClusterField

end LiminalDB
