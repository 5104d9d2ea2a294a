import LiminalDB.Field.CallChains

/-! # The topology of a field from its deltas

A run of a field that ends with a tick is reproduced by its deltas: the clock and the counters, the cells
with their patterns, links and vitals, the rules, the configurations and the token index. Two things can
prevent it. Trimming drops a cell without its death when the energy of the cell is a NaN, which is neither
above the threshold nor below it; and a counter of ids that runs over starts again where a replay keeps its
maximum. In every run without them the replay agrees. -/

namespace LiminalDB

variable {F : Type} [FloatLike F]

namespace ClusterField

/-! ## What is reproduced -/

/-- The pattern, the links and the vitals of a cell. -/
def topology (cell : NodeCell F) :
    String × Std.ExtTreeSet NodeId compare × (F × F × NodeState × UInt64) :=
  (cell.seed.corePattern, cell.links, vitals cell)

/-- Two fields agree on everything that steers the growth of a field. The index is compared as a set of
ids under each token. -/
structure SameTopology (live replayed : ClusterField F) : Prop where
  nowMs : live.nowMs = replayed.nowMs
  nextId : live.nextId = replayed.nextId
  cells : ∀ id : NodeId, (live.cells[id]?).map topology = (replayed.cells[id]?).map topology
  rules : live.rules = replayed.rules
  nextReflexId : live.nextReflexId = replayed.nextReflexId
  dreamCfg : live.dreamCfg = replayed.dreamCfg
  syncCfg : live.syncCfg = replayed.syncCfg
  index : ∀ token id, id ∈ live.index token ↔ id ∈ replayed.index token

/-! ## When it is -/

/-- There are ids left for new cells. -/
def HasRoom (self : ClusterField F) (count : ℕ) : Prop := self.nextId.toNat + count < 2 ^ 64

instance (self : ClusterField F) (count : ℕ) : Decidable (self.HasRoom count) :=
  inferInstanceAs (Decidable (self.nextId.toNat + count < 2 ^ 64))

/-- Trimming finds every cell that it does not protect above the threshold or below it, and no counter of
ids runs over. -/
def Sturdy (platform : Platform F) (self : ClusterField F) : FieldCall F → Prop
  | .trimLowEnergy .. =>
      ∀ (id : NodeId) (cell : NodeCell F), self.cells[id]? = some cell → Decided cell
  | .addRoot _ => self.HasRoom 1
  | .injectSeedVariation .. => ¬ 64 < self.cells.size → self.HasRoom 1
  | .routeImpulse visits imp =>
      self.HasRoom (spawnsBy platform visits imp self (tokenize platform imp.pattern).eraseDups [])
  | .tickAll _ _ dtMs => self.HasRoom (self.dividing dtMs)
  | .addReflex rule => rule.id = 0 → self.nextReflexId.toNat + 1 < 2 ^ 64
  | _ => True

/-- Everything is permitted but running over. -/
def counted : Permit F where
  memory _ _ := True
  memory_refl _ := trivial
  affinity _ := True
  spawn id := id < id + 1
  draw id := id < id + 1
  dead := True

omit [FloatLike F] in
/-- Births that are counted leave the next number what their deltas make it. -/
theorem counts_counted : (counted : Permit F).Counts := ⟨fun _ h => h, fun _ h => h⟩

/-- A number that is not the last one there is is below its successor. -/
theorem lt_succ_of_toNat {n : UInt64} (h : n.toNat + 1 < 2 ^ 64) : n < n + 1 := by
  rw [UInt64.lt_iff_toNat_lt, UInt64.toNat_add]
  simp only [UInt64.toNat_one]
  omega

omit [FloatLike F] in
/-- A field with room for some births has room for each of them in turn. -/
theorem room_of_hasRoom {self : ClusterField F} {count : ℕ} (h : self.HasRoom count) :
    Room (counted : Permit F) self.nextId count := by
  intro i hi
  unfold HasRoom at h
  refine lt_succ_of_toNat ?_
  rw [UInt64.toNat_add, UInt64.toNat_ofNat']
  omega

/-- A sturdy call is permitted where births are counted. -/
theorem permitted_of_sturdy {platform : Platform F} {self : ClusterField F} {c : FieldCall F}
    (h : Sturdy platform self c) : Permitted platform counted self c := by
  have hfree : Free (counted : Permit F) := fun _ _ => trivial
  cases c with
  | addRoot seed => exact (room_of_hasRoom h).head
  | addReflex rule => exact fun hzero => lt_succ_of_toNat (h hzero)
  | routeImpulse visits imp => exact ⟨room_of_hasRoom h, fun _ _ _ _ => trivial⟩
  | tickAll visits variation dtMs =>
      exact ⟨⟨fun _ _ _ => trivial, fun _ _ _ _ => trivial, room_of_hasRoom h⟩, trivial⟩
  | trimLowEnergy visits dozes dies => exact ⟨h, trivial⟩
  | injectSeedVariation visits shift energy coin baseSeed =>
      exact fun hfew => (room_of_hasRoom (h hfew)).head
  | runCollectiveDream groups cfg nowMs tookMs => exact Or.inl hfree
  | awakenNow visits => exact Or.inl hfree
  | applyMirrorEpoch visits epoch scale maxOps protectSalience => exact fun _ _ _ _ => trivial
  | _ => trivial

/-! ## Every run -/

/-- The pattern and the links of a cell. -/
def shape (permit : Permit F) : View permit (String × Std.ExtTreeSet NodeId compare) where
  of cell := (cell.seed.corePattern, cell.links)
  tweak htweaks _ := Prod.ext htweaks.pattern htweaks.links
  energy _ _ _ _ _ := rfl
  affinity _ _ := rfl
  link target {cell other} h := by
    obtain ⟨hpattern, hlinks⟩ := Prod.mk.inj h
    exact Prod.ext hpattern (congrArg (·.insert target) hlinks)
  unlink target {cell other} h := by
    obtain ⟨hpattern, hlinks⟩ := Prod.mk.inj h
    exact Prod.ext hpattern (congrArg (·.erase target) hlinks)

/-- What holds after every call: all but the vitals of the cells is in the deltas. -/
structure Journaled (platform : Platform F) (field : ClusterField F) : Prop where
  sound : Sound field.replica.cells
  shape : Matches (shape counted).of field.replica.cells (replay platform field.journal).replica.cells
  tallied : Tallied field.replica (replay platform field.journal).replica
  indexed : Indexed platform field

variable {platform : Platform F} {self : ClusterField F}

/-- The journal of a new field is empty, and replays to it. -/
theorem journaled_new : Journaled platform new where
  sound := fun _ _ hcell => by simp [new, replica] at hcell
  shape := fun _ => rfl
  tallied := Tallied.refl _
  indexed := indexed_replay platform []

/-- A sturdy call keeps the journal such that it replays to the field. -/
theorem journaled_call {c : FieldCall F} (h : Journaled platform self) (hsturdy : Sturdy platform self c) :
    Journaled platform (self.call platform c) := by
  have hfollows := follows_call h.sound (permitted_of_sturdy hsturdy)
  exact ⟨sound_follows hfollows h.sound, matches_follows (shape counted) hfollows h.shape,
    tallied_follows counts_counted hfollows h.tallied, indexed_call h.sound.inPlace h.indexed c⟩

/-- By induction over the calls, so does a run of them. -/
theorem journaled_run {calls : List (FieldCall F)} (h : Throughout platform (Sturdy platform) calls) :
    Journaled platform (run platform calls) :=
  run_induct journaled_new (fun _ _ => journaled_call) h

/-- A tick brings the vitals of every cell up to date. -/
theorem vitals_tickAll (visits : Visits F) (variation : NodeId → F) (dtMs : UInt64)
    (h : Journaled platform self) (hroom : self.HasRoom (self.dividing dtMs)) (id : NodeId) :
    let ticked := self.tickAll platform visits variation dtMs
    (ticked.replica.cells id).map vitals =
      ((replay platform ticked.journal).replica.cells id).map vitals := by
  obtain ⟨index, hchain⟩ := @chain_tickAll F platform counted self _ visits variation dtMs h.sound
    ⟨fun _ _ _ => trivial, fun _ _ _ _ => trivial, room_of_hasRoom hroom⟩ trivial
  have hpresent : Matches (presence counted).of self.replica.cells
      (replay platform self.journal).replica.cells := fun id => by
    have hid := congrArg (Option.map fun _ => ()) (h.shape id)
    rw [Option.map_map, Option.map_map] at hid
    exact hid
  -- Before the tick every cell may be stale, and a cell that is not there is not in the replay either.
  have hfresh : Fresh platform (self.trace [] { id | id ∈ visits.cells.arrange self.cells.keys }) := by
    intro other hother
    have hnone : self.replica.cells other = none := by
      by_contra hsome
      obtain ⟨cell, hcell⟩ := Option.ne_none_iff_exists'.mp hsome
      exact hother (mem_arrange_keys.mpr ⟨cell, hcell⟩)
    rw [replayed_trace]
    show (self.replica.cells other).map vitals = _
    rw [hnone, hpresent.none_of_none hnone]
  have hlast := fresh_chain hchain (by rw [replayed_trace]; exact hpresent) hfresh id
    (Set.notMem_empty id)
  dsimp only
  rw [← replayed_trace platform _ ∅]
  exact hlast

/-- A field that its journal replays to has the topology of the replay. -/
theorem sameTopology_of_journaled (h : Journaled platform self)
    (hvitals : ∀ id, (self.replica.cells id).map vitals =
      ((replay platform self.journal).replica.cells id).map vitals) :
    SameTopology self (replay platform self.journal) where
  nowMs := h.tallied.nowMs
  nextId := h.tallied.nextId
  cells id := by
    have hid := hvitals id
    cases hcell : self.replica.cells id with
    | none =>
        have hgone := h.shape.none_of_none hcell
        have hlive : self.cells[id]? = none := hcell
        have hreplayed : (replay platform self.journal).cells[id]? = none := hgone
        rw [hlive, hreplayed]
    | some cell =>
        obtain ⟨other, hother, hsame⟩ := h.shape.right_of_left hcell
        have hlive : self.cells[id]? = some cell := hcell
        have hreplayed : (replay platform self.journal).cells[id]? = some other := hother
        rw [hcell, hother] at hid
        obtain ⟨hpattern, hlinks⟩ := Prod.mk.inj hsame
        rw [hlive, hreplayed, Option.map_some, Option.map_some, topology, topology, hpattern, hlinks,
          Option.some.inj hid]
  rules := Std.ExtTreeMap.ext_getElem? fun id => congrFun h.tallied.rules id
  nextReflexId := h.tallied.nextReflexId
  dreamCfg := h.tallied.dreamCfg
  syncCfg := h.tallied.syncCfg
  index token id := by
    -- The index is read off the patterns, and these are the same.
    have hpattern (id : NodeId) : ((replay platform self.journal).replica.cells id).map
        (·.seed.corePattern) = (self.replica.cells id).map (·.seed.corePattern) := by
      have hid := congrArg (Option.map Prod.fst) (h.shape id)
      rw [Option.map_map, Option.map_map] at hid
      exact hid.symm
    exact (listed_congr h.indexed hpattern token id).trans
      (indexed_replay platform self.journal token id).symm

/-- The deltas of a run yield its topology. -/
def Reproduced (platform : Platform F) (calls : List (FieldCall F)) : Prop :=
  SameTopology (run platform calls) (replay platform (run platform calls).journal)

/-- Every run that ends with a tick is reproduced by its deltas, as long as its calls are sturdy. -/
theorem replay_reproduces_topology (platform : Platform F) (calls : List (FieldCall F)) (visits : Visits F)
    (variation : NodeId → F) (dtMs : UInt64)
    (h : Throughout platform (Sturdy platform) (calls ++ [.tickAll visits variation dtMs])) :
    Reproduced platform (calls ++ [.tickAll visits variation dtMs]) := by
  obtain ⟨hcalls, hroom⟩ := throughout_append_singleton.mp h
  have hlast := journaled_run h
  have hvitals := vitals_tickAll visits variation dtMs (journaled_run hcalls) hroom
  unfold Reproduced
  rw [run_append_singleton] at hlast ⊢
  exact sameTopology_of_journaled hlast hvitals

instance (cell : NodeCell F) : Decidable (Decided cell) :=
  inferInstanceAs (Decidable (isProtected cell = true ∨ (cell.energy ≤ 0.1 ↔ ¬ 0.1 < cell.energy)))

/-- Whether trimming finds every cell above the threshold or below it. -/
theorem decided_of_all {self : ClusterField F} (h : self.cells.toList.all fun e => Decided e.2)
    (id : NodeId) (cell : NodeCell F) (hcell : self.cells[id]? = some cell) : Decided cell := by
  have hmem : (id, cell) ∈ self.cells.toList := Std.ExtTreeMap.mem_toList_iff_getElem?_eq_some.mpr hcell
  exact of_decide_eq_true (List.all_eq_true.mp h _ hmem)

/-- A root is left alone by trimming, and its deltas reproduce it. -/
theorem replay_reproduces_topology_of_trim :
    Reproduced (constantPlatform Float32 0.5)
      ([.addRoot "a", .trimLowEnergy .listed (fun _ => false) (fun _ => false)] ++
        [.tickAll .listed (fun _ => 0) 0]) := by
  refine replay_reproduces_topology _ _ _ _ _ (throughout_append_singleton.mpr ⟨?_, ?_⟩)
  · have hroot : Throughout (constantPlatform Float32 0.5) (Sturdy (constantPlatform Float32 0.5))
        ([] ++ [.addRoot "a"]) := by
      refine throughout_append_singleton.mpr ⟨throughout_nil _ _, ?_⟩
      show HasRoom (run (constantPlatform Float32 0.5) []) 1
      decide +kernel
    have htrim : Sturdy (constantPlatform Float32 0.5)
        (run (constantPlatform Float32 0.5) [.addRoot "a"])
        (.trimLowEnergy .listed (fun _ => false) (fun _ => false)) :=
      decided_of_all (by decide +kernel)
    exact throughout_append_singleton.mpr ⟨hroot, htrim⟩
  · show HasRoom (run (constantPlatform Float32 0.5) [_, _]) (dividing _ 0)
    decide +kernel

/-- An impulse whose strength is not a number leaves a cell without an energy, and trimming drops that
cell without its death. -/
theorem trim_drops_cell_silently :
    ¬ Reproduced (constantPlatform Float32 0.5)
      ([.addRoot "a", .routeImpulse .listed ⟨.query, "a", 0.0 / 0.0, 0, []⟩,
        .trimLowEnergy .listed (fun _ => false) (fun _ => false)] ++ [.tickAll .listed (fun _ => 0) 0]) := by
  intro h
  have hcell := congrArg Option.isSome (h.cells 1)
  rw [Option.isSome_map, Option.isSome_map] at hcell
  revert hcell
  decide +kernel

end ClusterField

end LiminalDB
