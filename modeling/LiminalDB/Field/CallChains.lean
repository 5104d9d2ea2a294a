import LiminalDB.Field.DreamChains

/-! # Calls and runs as chains of steps

Every call is a chain of steps, under a permit for what it does in the state it finds. An invariant that
the calls of a run keep holds after the run. -/

namespace LiminalDB

variable {F : Type} [FloatLike F]

open Set (univ)

namespace ClusterField

variable {platform : Platform F} {permit : Permit F} {self self' : ClusterField F}

/-! ## Calls -/

/-- What a call does in this state is permitted. -/
def Permitted (platform : Platform F) (permit : Permit F) (self : ClusterField F) : FieldCall F → Prop
  | .addRoot _ => permit.spawn self.nextId
  | .addReflex rule => rule.id = 0 → permit.draw self.nextReflexId
  | .routeImpulse visits imp =>
      Room permit self.nextId
        (spawnsBy platform visits imp self (tokenize platform imp.pattern).eraseDups []) ∧
      ∀ id ∈ (self.react platform visits imp).targets visits (tokenize platform imp.pattern) imp,
        ∀ cell, (self.react platform visits imp).cells[id]? = some cell →
          permit.memory cell.memory
            (cell.ingest platform imp (self.react platform visits imp).nowMs).1.memory
  | .tickAll _ _ dtMs => TickPermits permit self dtMs ∧ permit.dead
  | .trimLowEnergy .. =>
      (∀ (id : NodeId) (cell : NodeCell F), self.cells[id]? = some cell → Decided cell) ∧ permit.dead
  | .injectSeedVariation .. => ¬ 64 < self.cells.size → permit.spawn self.nextId
  | .runCollectiveDream groups _ _ _ =>
      Free permit ∨ ∀ group ∈ groups, group.tokens = [] ∨ self.Unmoved group.nodes
  | .awakenNow visits =>
      Free permit ∨ ∀ (id : NodeId) (cell : NodeCell F), self.cells[id]? = some cell →
        Unroused self.awakeningCfg (considered (self.awakeningModel visits) self.awakeningCfg) id cell
  | .applyMirrorEpoch visits epoch scale maxOps protectSalience =>
      ∀ id ∈ self.mirrorTargets visits maxOps protectSalience, ∀ cell, self.cells[id]? = some cell →
        permit.memory cell.memory (mirrored epoch.kind scale cell).memory
  | _ => True

/-- Steps lead from one field to another, up to the index. -/
def Follows (platform : Platform F) (permit : Permit F) (self self' : ClusterField F) : Prop :=
  ∃ stale stale' index, MicroChain platform permit (self.trace [] stale)
    { self'.trace [] stale' with index }

omit [FloatLike F] in
/-- A chain of small steps that leaves nothing stale leads to a field that follows. -/
theorem follows_of_chain
    (h : MicroChain platform permit (self.trace [] univ) (self'.trace [] univ)) :
    Follows platform permit self self' := ⟨univ, univ, self'.index, h⟩

/-- A call that neither ticks nor trims keeps the index as its steps do. -/
theorem chain_call (hplace : InPlace self.replica.cells) {c : FieldCall F}
    (h : Permitted platform permit self c)
    (htick : ∀ visits variation dtMs, c ≠ .tickAll visits variation dtMs)
    (htrim : ∀ visits dozes dies, c ≠ .trimLowEnergy visits dozes dies) :
    MicroChain platform permit (self.trace [] univ) ((self.call platform c).trace [] univ) := by
  cases c with
  | addRoot seed => exact chain_addRoot seed h
  | addReflex rule => exact chain_addReflex rule h
  | removeReflex id => exact chain_removeReflex id
  | routeImpulse visits imp => exact chain_routeImpulse visits imp h.1 h.2
  | tickAll visits variation dtMs => exact absurd rfl (htick visits variation dtMs)
  | trimLowEnergy visits dozes dies => exact absurd rfl (htrim visits dozes dies)
  | injectSeedVariation visits shift energy coin baseSeed =>
      exact chain_injectSeedVariation visits shift energy coin baseSeed hplace h
  | runDreamCycle visits tookMs => exact chain_runDreamCycle visits tookMs
  | runCollectiveDream groups cfg nowMs tookMs =>
      exact chain_runCollectiveDream groups cfg nowMs tookMs h
  | awakenNow visits => exact chain_awakenNow visits h
  | applyMirrorEpoch visits epoch scale maxOps protectSalience =>
      exact chain_applyMirrorEpoch visits epoch scale maxOps protectSalience h
  | setDreamConfig cfg =>
      unfold call setDreamConfig
      rw [trace_emit]
      exact chain_of_micro (.dreamConfig cfg) rfl rfl (by simp [trace]) subset_rfl
  | setSyncConfig cfg =>
      unfold call setSyncConfig
      rw [trace_emit]
      exact chain_of_micro (.syncConfig _) rfl rfl (by simp [trace]) subset_rfl
  -- These only say what has been done.
  | setTrsConfig cfg => exact chain_emit trivial
  | setTrsTarget target => exact chain_emit trivial
  | applyTrsOutput nowMs observedLoad output =>
      exact (chain_emit (d := .trsTrace ..) trivial).trans (chain_emit trivial)
  | buildResonantModel hash => exact chain_emit trivial
  | applyAwakeningModel => exact chain_emit trivial
  | awakenTick => exact chain_emit trivial
  | pushMirrorEpoch epoch => exact chain_emit trivial
  | recordMirrorReplay report => exact chain_emit trivial
  | _ => exact .refl

/-- A permitted call leads to a field that follows the one before it, by the kinds of calls. -/
theorem follows_call (hsound : Sound self.replica.cells) {c : FieldCall F}
    (h : Permitted platform permit self c) :
    Follows platform permit self (self.call platform c) := by
  cases c with
  | tickAll visits variation dtMs =>
      obtain ⟨index, hchain⟩ := chain_tickAll visits variation dtMs hsound h.1 h.2
      exact ⟨_, ∅, index, hchain⟩
  | trimLowEnergy visits dozes dies =>
      obtain ⟨index, hchain⟩ := chain_trimLowEnergy visits dozes dies hsound h.1 h.2
      exact ⟨univ, univ, index, hchain⟩
  | _ => exact follows_of_chain (chain_call hsound.inPlace h (by simp) (by simp))

/-! ## What calls keep -/

/-- What a trace replays is the replay of the journal. -/
theorem replayed_trace (platform : Platform F) (self : ClusterField F) (stale : Set NodeId) :
    (self.trace [] stale).replayed platform = (replay platform self.journal).replica := by
  unfold Trace.replayed trace
  rw [replica_replay, List.append_nil]

omit [FloatLike F] in
/-- Following a sound field leaves it sound. -/
theorem sound_follows (h : Follows platform permit self self') (hsound : Sound self.replica.cells) :
    Sound self'.replica.cells := by
  obtain ⟨stale, stale', index, hchain⟩ := h
  exact sound_chain hchain hsound

/-- A field whose view is that of its replay leads to another such field. -/
theorem matches_follows {V : Type} (view : View permit V) (h : Follows platform permit self self')
    (hmatches : Matches view.of self.replica.cells (replay platform self.journal).replica.cells) :
    Matches view.of self'.replica.cells (replay platform self'.journal).replica.cells := by
  obtain ⟨stale, stale', index, hchain⟩ := h
  rw [← replayed_trace platform self stale] at hmatches
  rw [← replayed_trace platform self' stale']
  exact matches_chain view hchain hmatches

/-- So does one whose next number is that of its replay, if numbers are permitted. -/
theorem tallied_follows (hcounts : permit.Counts) (h : Follows platform permit self self')
    (htallied : Tallied self.replica (replay platform self.journal).replica) :
    Tallied self'.replica (replay platform self'.journal).replica := by
  obtain ⟨stale, stale', index, hchain⟩ := h
  rw [← replayed_trace platform self stale] at htallied
  rw [← replayed_trace platform self' stale']
  exact tallied_chain hcounts hchain htallied

/-- A call that is neither a tick nor a trimming needs no permission for a death. -/
theorem permitted_deathless {c : FieldCall F}
    (htick : ∀ visits variation dtMs, c ≠ .tickAll visits variation dtMs)
    (htrim : ∀ visits dozes dies, c ≠ .trimLowEnergy visits dozes dies) :
    Permitted platform deathless self c := by
  cases c with
  | tickAll visits variation dtMs => exact absurd rfl (htick visits variation dtMs)
  | trimLowEnergy visits dozes dies => exact absurd rfl (htrim visits dozes dies)
  | _ => simp [Permitted, deathless, Room, Free]

/-- The index lists every cell after every call. -/
theorem indexed_call (hplace : InPlace self.replica.cells) (h : Indexed platform self) (c : FieldCall F) :
    Indexed platform (self.call platform c) := by
  have hno : ¬ (deathless : Permit F).dead := fun hdead => hdead
  cases c with
  | tickAll visits variation dtMs => exact indexed_tickAll visits variation dtMs h
  | trimLowEnergy visits dozes dies => exact indexed_trimLowEnergy visits dozes dies h
  | _ =>
      exact listed_chain hno
        (chain_call hplace (permitted_deathless (by simp) (by simp)) (by simp) (by simp)) h

/-- Every call keeps each cell under its own number. -/
theorem inPlace_call (h : InPlace self.replica.cells) (c : FieldCall F) :
    InPlace (self.call platform c).replica.cells := by
  cases c with
  | tickAll visits variation dtMs => exact (sound_tickAll visits variation dtMs h).inPlace
  | trimLowEnergy visits dozes dies => exact (sound_trimLowEnergy visits dozes dies h).inPlace
  | _ =>
      exact inPlace_chain
        (chain_call h (permitted_deathless (by simp) (by simp)) (by simp) (by simp)) h

/-- Every call keeps a field sound. -/
theorem sound_call (h : Sound self.replica.cells) (c : FieldCall F) :
    Sound (self.call platform c).replica.cells := by
  cases c with
  | tickAll visits variation dtMs => exact sound_tickAll visits variation dtMs h.inPlace
  | trimLowEnergy visits dozes dies => exact sound_trimLowEnergy visits dozes dies h.inPlace
  | _ =>
      exact sound_chain
        (chain_call h.inPlace (permitted_deathless (by simp) (by simp)) (by simp) (by simp)) h

/-! ## Runs -/

/-- In every state that a run passes through, a condition holds of the call made there. -/
def Throughout (platform : Platform F) (P : ClusterField F → FieldCall F → Prop) (calls : List (FieldCall F)) :
    Prop :=
  ∀ before c after, calls = before ++ c :: after → P (run platform before) c

/-- One more call is made in the state reached by those before it. -/
theorem run_append_singleton (platform : Platform F) (calls : List (FieldCall F)) (c : FieldCall F) :
    run platform (calls ++ [c]) = (run platform calls).call platform c := by
  unfold run
  rw [List.foldl_append]
  rfl

/-- There is nothing to hold throughout a run of no calls. -/
theorem throughout_nil (platform : Platform F) (P : ClusterField F → FieldCall F → Prop) :
    Throughout platform P [] := by
  intro before c after heq
  simp at heq

/-- One more call has to meet the condition in the state reached by those before it. -/
theorem throughout_append_singleton {platform : Platform F} {P : ClusterField F → FieldCall F → Prop}
    {calls : List (FieldCall F)} {c : FieldCall F} :
    Throughout platform P (calls ++ [c]) ↔ Throughout platform P calls ∧ P (run platform calls) c :=
  forall_split_append_singleton

/-- What holds of an empty field and is kept by every call that meets its condition holds after a
run. -/
theorem run_induct {I : ClusterField F → Prop} {P : ClusterField F → FieldCall F → Prop} (hnew : I new)
    (hstep : ∀ self c, I self → P self c → I (self.call platform c)) {calls : List (FieldCall F)}
    (h : Throughout platform P calls) : I (run platform calls) := by
  induction calls using List.reverseRecOn with
  | nil => exact hnew
  | append_singleton calls c ih =>
      obtain ⟨hcalls, hlast⟩ := throughout_append_singleton.mp h
      rw [run_append_singleton]
      exact hstep _ c (ih hcalls) hlast

end ClusterField

end LiminalDB
