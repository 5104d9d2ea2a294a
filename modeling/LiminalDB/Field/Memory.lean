import LiminalDB.Field.Topology
import Mathlib.Tactic.Ring

/-! # The memory of the cells from their deltas

The affinities of a cell, its salience, its tag and the time of its last recall are told by no delta but
the snapshot of a new cell: an energy delta carries the vitals alone, and the affinity of a cell is emitted
only when it divides. Impulses that a cell answers, collective dreams, awakenings and mirror epochs change
them in place. A run in which none of these changes anything is reproduced. -/

namespace LiminalDB

namespace ClusterField

variable {F : Type} [FloatLike F]

/-! ## What changes a memory -/

/-- The memories of the cells are the same. -/
def SameMemory (live replayed : ClusterField F) : Prop :=
  ∀ id : NodeId, (live.cells[id]?).map NodeCell.memory = (replayed.cells[id]?).map NodeCell.memory

/-- A cell that matches an impulse well has nothing to recall: a query finds it recalled in this
millisecond, and what would raise its salience does not. -/
def Unmarked (platform : Platform F) (imp : Impulse F) (nowMs : UInt64) (cell : NodeCell F) : Prop :=
  ∀ matchScore, NodeCell.patternMatch platform cell.affinity cell.seed.corePattern imp.pattern
      imp.strength imp.tags = some matchScore → 0.6 ≤ matchScore →
    (imp.kind = .query → cell.lastRecallMs = nowMs ∧
      (cell.adrenoTag → (cell.bumpSalience 0.05).salience = cell.salience)) ∧
    (imp.kind = .affect → "affect/".toList.isPrefixOf imp.pattern.toList →
      (cell.bumpSalience (0.15 * imp.strength)).salience = cell.salience)

/-- A call changes no memory in place. -/
def Silent (platform : Platform F) (self : ClusterField F) : FieldCall F → Prop
  | .routeImpulse visits imp =>
      ∀ id ∈ (self.react platform visits imp).targets visits (tokenize platform imp.pattern) imp,
        ∀ cell, (self.react platform visits imp).cells[id]? = some cell →
          Unmarked platform imp (self.react platform visits imp).nowMs cell
  | .runCollectiveDream groups _ _ _ =>
      ∀ group ∈ groups, group.tokens = [] ∨ self.Unmoved group.nodes
  | .awakenNow visits =>
      ∀ (id : NodeId) (cell : NodeCell F), self.cells[id]? = some cell →
        Unroused self.awakeningCfg (considered (self.awakeningModel visits) self.awakeningCfg) id cell
  | .applyMirrorEpoch visits epoch scale maxOps protectSalience =>
      ∀ id ∈ self.mirrorTargets visits maxOps protectSalience, ∀ cell, self.cells[id]? = some cell →
        (mirrored epoch.kind scale cell).affinity = cell.affinity
  | _ => True

/-- Bumping a salience that does not change leaves the memory of a cell. -/
theorem memory_bumpSalience {cell : NodeCell F} {amount : F}
    (h : (cell.bumpSalience amount).salience = cell.salience) :
    (cell.bumpSalience amount).memory = cell.memory := by
  unfold NodeCell.memory
  rw [h]
  rfl

/-- Feeling an impulse leaves it, unless a strong affect raises the salience. -/
theorem memory_feel {imp : Impulse F} {matchScore : F} {cell : NodeCell F}
    (h : 0.6 ≤ matchScore → imp.kind = .affect → "affect/".toList.isPrefixOf imp.pattern.toList →
      (cell.bumpSalience (0.15 * imp.strength)).salience = cell.salience) :
    (cell.feel imp matchScore).memory = cell.memory := by
  unfold NodeCell.feel
  split
  · rename_i hfelt
    obtain ⟨hbelow, hwell⟩ := Bool.and_eq_true_iff.mp hfelt
    obtain ⟨haffect, hprefix⟩ := Bool.and_eq_true_iff.mp hbelow
    exact memory_bumpSalience (h (of_decide_eq_true hwell) (of_decide_eq_true haffect) hprefix)
  · rfl

/-- Recalling leaves it, unless the time of the last recall or the salience changes. -/
theorem memory_recall {matchScore : F} {nowMs : UInt64} {cell : NodeCell F}
    (h : 0.6 ≤ matchScore → cell.lastRecallMs = nowMs ∧
      (cell.adrenoTag → (cell.bumpSalience 0.05).salience = cell.salience)) :
    (cell.noteRecall matchScore nowMs).memory = cell.memory := by
  unfold NodeCell.noteRecall
  split
  · rename_i hwell
    obtain ⟨rfl, hbump⟩ := h hwell
    dsimp only
    split
    · rename_i htag
      exact memory_bumpSalience (hbump htag)
    · rfl
  · rfl

/-- An impulse that leaves no mark leaves it. -/
theorem memory_ingest {platform : Platform F} {imp : Impulse F} {nowMs : UInt64} {cell : NodeCell F}
    (h : Unmarked platform imp nowMs cell) :
    (cell.ingest platform imp nowMs).1.memory = cell.memory := by
  unfold NodeCell.ingest
  split
  · rfl
  · cases hmatch : NodeCell.patternMatch platform cell.affinity cell.seed.corePattern imp.pattern
      imp.strength imp.tags with
    | none => rfl
    | some matchScore =>
        have hwell := h matchScore hmatch
        show ((cell.feel imp matchScore).respond imp matchScore nowMs).1.memory = cell.memory
        unfold NodeCell.respond
        cases hkind : imp.kind with
        -- A query leaves a trace only in what it recalls; the other kinds only through what is felt.
        | query =>
            have hfeel : cell.feel imp matchScore = cell := by
              unfold NodeCell.feel
              rw [hkind]
              rfl
            dsimp only
            rw [hfeel]
            split
            · exact @memory_recall F _ matchScore nowMs { cell with state := .idle } fun hscore =>
                (hwell hscore).1 hkind
            · exact memory_recall fun hscore => (hwell hscore).1 hkind
        | write => exact memory_feel fun hscore => (hwell hscore).2
        | affect =>
            refine Eq.trans ?_ (memory_feel fun hscore => (hwell hscore).2)
            dsimp only
            split
            · rfl
            · split <;> rfl

/-! ## Every run, in exact numbers -/

/-- No memory changes, and an affinity is emitted where it is that of the seed. -/
def silent : Permit ℚ where
  memory m m' := m' = m
  memory_refl _ := rfl
  affinity m := m.affinity = m.seedAffinity
  spawn _ := True
  draw _ := True
  dead := True

/-- The memory of a cell, as silent steps leave it. -/
def memoryView : View silent (Memory ℚ) where
  of := NodeCell.memory
  tweak _ hpermit := hpermit
  energy _ _ _ _ _ := rfl
  affinity {cell other} hsettled hsame := by
    have haffinity : other.affinity = cell.affinity := congrArg Memory.affinity hsame
    have hseed : other.seed.affinity = cell.seed.affinity := congrArg Memory.seedAffinity hsame
    have hsettled : cell.affinity = cell.seed.affinity := hsettled
    unfold NodeCell.memory
    rw [haffinity, hseed, ← hsettled]
  link _ {cell other} h := h
  unlink _ {cell other} h := h

/-- Ageing moves an affinity towards that of the seed, so it leaves it there. -/
theorem memory_agedBy (self : ClusterField ℚ) (dtMs : UInt64) {cell : NodeCell ℚ}
    (h : cell.affinity = cell.seed.affinity) : (self.agedBy dtMs cell).memory = cell.memory := by
  unfold agedBy aged NodeCell.tick
  split
  · unfold NodeCell.driftAffinity NodeCell.memory
    dsimp only
    rw [← h]
    ring_nf
  · unfold NodeCell.driftAffinity NodeCell.memory
    dsimp only
    rw [← h]
    ring_nf

/-- A silent call of a settled field is permitted. -/
theorem permitted_of_silent {platform : Platform ℚ} {self : ClusterField ℚ}
    (hsettled : Settled self.replica.cells) {c : FieldCall ℚ} (h : Silent platform self c) :
    Permitted platform silent self c := by
  cases c with
  | addRoot seed => trivial
  | addReflex rule => exact fun _ => trivial
  | routeImpulse visits imp =>
      exact ⟨fun _ _ => trivial, fun id hid cell hcell => memory_ingest (h id hid cell hcell)⟩
  | tickAll visits variation dtMs =>
      have haged (id : NodeId) (cell : NodeCell ℚ) (hcell : self.cells[id]? = some cell) :=
        memory_agedBy self dtMs (hsettled id cell hcell)
      refine ⟨⟨haged, fun id cell hcell _ => ?_, fun _ _ => trivial⟩, trivial⟩
      rw [haged id cell hcell]
      exact hsettled id cell hcell
  | trimLowEnergy visits dozes dies => exact ⟨fun _ _ _ => Or.inr not_lt.symm, trivial⟩
  | injectSeedVariation visits shift energy coin baseSeed => exact fun _ => trivial
  | runCollectiveDream groups cfg nowMs tookMs => exact Or.inr h
  | awakenNow visits => exact Or.inr h
  | applyMirrorEpoch visits epoch scale maxOps protectSalience =>
      intro id hid cell hcell
      show NodeCell.memory _ = _
      unfold NodeCell.memory
      rw [h id hid cell hcell]
      rfl
  | _ => trivial

/-- What holds after every silent call. -/
structure Remembered (platform : Platform ℚ) (field : ClusterField ℚ) : Prop where
  sound : Sound field.replica.cells
  settled : Settled field.replica.cells
  memories : Matches memoryView.of field.replica.cells (replay platform field.journal).replica.cells

/-- Following a settled field leaves it settled. -/
theorem settled_follows {platform : Platform ℚ} {self self' : ClusterField ℚ}
    (h : Follows platform silent self self') (hsettled : Settled self.replica.cells) :
    Settled self'.replica.cells := by
  obtain ⟨stale, stale', index, hchain⟩ := h
  exact settled_chain (fun _ _ hsame => hsame) hchain hsettled

/-- A silent call keeps the memories those of the replay. -/
theorem remembered_call {platform : Platform ℚ} {self : ClusterField ℚ} {c : FieldCall ℚ}
    (h : Remembered platform self) (hsilent : Silent platform self c) :
    Remembered platform (self.call platform c) := by
  have hfollows := follows_call h.sound (permitted_of_silent h.settled hsilent)
  exact ⟨sound_follows hfollows h.sound, settled_follows hfollows h.settled,
    matches_follows memoryView hfollows h.memories⟩

/-- Every run of silent calls is reproduced by its deltas, to the memory of every cell. -/
theorem replay_reproduces_memory (platform : Platform ℚ) (calls : List (FieldCall ℚ))
    (h : Throughout platform (Silent platform) calls) :
    SameMemory (run platform calls) (replay platform (run platform calls).journal) := by
  have hnew : Remembered platform (new : ClusterField ℚ) :=
    ⟨fun _ _ hcell => by simp [new, replica] at hcell, fun _ _ hcell => by simp [new, replica] at hcell,
      fun _ => rfl⟩
  exact (run_induct hnew (fun _ _ => remembered_call) h).memories

/-- A write leaves no mark, and the deltas reproduce the cell. -/
theorem replay_reproduces_memory_of_write :
    SameMemory
      (run (constantPlatform ℚ 0.5)
        ([] ++ [.addRoot "a"] ++ [.routeImpulse .listed ⟨.write, "a", 1, 0, []⟩] ++
          [.tickAll .listed (fun _ => 0) 5]))
      (replay (constantPlatform ℚ 0.5)
        (run (constantPlatform ℚ 0.5)
          ([] ++ [.addRoot "a"] ++ [.routeImpulse .listed ⟨.write, "a", 1, 0, []⟩] ++
            [.tickAll .listed (fun _ => 0) 5])).journal) := by
  refine replay_reproduces_memory _ _ ?_
  refine throughout_append_singleton.mpr ⟨throughout_append_singleton.mpr ⟨?_, ?_⟩, trivial⟩
  · exact throughout_append_singleton.mpr ⟨throughout_nil _ _, trivial⟩
  · intro id _ cell _ matchScore _ _
    refine ⟨fun hquery => ?_, fun haffect => ?_⟩
    · cases hquery
    · cases haffect

/-- A query that a cell answers sets the time of its last recall, and no delta tells it. -/
theorem recall_is_not_reproduced :
    ¬ SameMemory
      (run (constantPlatform ℚ 0.5)
        [.addRoot "a", .tickAll .listed (fun _ => 0) 5, .routeImpulse .listed ⟨.query, "a", 1, 0, []⟩,
          .tickAll .listed (fun _ => 0) 0])
      (replay (constantPlatform ℚ 0.5)
        (run (constantPlatform ℚ 0.5)
          [.addRoot "a", .tickAll .listed (fun _ => 0) 5,
            .routeImpulse .listed ⟨.query, "a", 1, 0, []⟩, .tickAll .listed (fun _ => 0) 0]).journal) := by
  intro h
  have hrecall := congrArg (Option.map Memory.lastRecallMs) (h 1)
  rw [Option.map_map, Option.map_map] at hrecall
  revert hrecall
  decide +kernel

end ClusterField

end LiminalDB
