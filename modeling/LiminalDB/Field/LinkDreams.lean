import LiminalDB.Field.LinkCalls

/-! # Link tracking through dreams

A dream scores the links between cells that answered together. As long as none of them dangles it enters
nothing new, and what it prunes and rewires leaves the books tidy. -/

namespace LiminalDB

variable {F : Type} [FloatLike F]

namespace ClusterField

variable {self : ClusterField F}

omit [FloatLike F] in
/-- A score is set where there is one. -/
theorem linking_setScore (h : Booked self) {source target : NodeId} (hedge : self.books.Edge source target)
    (hthere : self.books.There target) (score : F) :
    ({ self with linkScores := fun e => if e = (source, target) then some score else self.linkScores e } :
      ClusterField F).linking = self.linking := by
  refine Prod.ext (EdgeBooks.ext rfl rfl ?_ rfl) rfl
  refine Eq.trans ?_ (h.tidy.insert_scores hedge hthere)
  ext e
  by_cases heq : e = (source, target)
  · subst heq
    simp [books, linking]
  · simp [books, linking, heq]

/-- Scoring a link that does not dangle enters nothing. -/
theorem linking_adjustLinkScore (h : Booked self) {source target : NodeId}
    (hkept : ¬ self.books.Dangling source target) (delta : F) :
    (self.adjustLinkScore source target delta).1.linking = self.linking := by
  unfold adjustLinkScore
  split
  · rename_i hlinked
    have hedge := edge_books.mpr hlinked
    have hthere : self.books.There target := by
      by_contra hgone
      exact hkept ⟨hedge, hgone⟩
    exact linking_setScore h hedge hthere _
  · rfl

/-! ## Dreams -/

/-- What a dream has kept so far: the books are tidy, and no link has come to dangle. -/
structure Dreamt (before after : ClusterField F) : Prop where
  booked : Booked after
  dangling : ∀ x y, after.books.Dangling x y → before.books.Dangling x y

variable {before after : ClusterField F}

omit [FloatLike F] in
/-- What a dream has kept so far depends on the links and the tables alone. -/
theorem Dreamt.of_linking (h : Dreamt before self) (hlinking : after.linking = self.linking) :
    Dreamt before after := by
  have hbooks : after.books = self.books := congrArg Prod.fst hlinking
  exact ⟨h.booked.of_linking hlinking, fun x y => hbooks ▸ h.dangling x y⟩

omit [FloatLike F] in
/-- A dream looks at a pair from either side, and picks no link but one between the two cells. -/
theorem pickDirection_cases {u v source target : NodeId} (h : self.pickDirection u v = some (source, target)) :
    (source, target) = (u, v) ∨ (source, target) = (v, u) := by
  unfold pickDirection at h
  split at h
  · exact Or.inl (Option.some.inj h).symm
  · split at h
    · exact Or.inr (Option.some.inj h).symm
    · cases h

/-- Whether a dream takes up a pair that it comes to: it has operations left, protects neither cell and has not
dealt with the pair before. -/
def takesUp (cfg : DreamConfig F) (acc : Dreaming F) (pair : PairStat F) : Bool :=
  !decide (acc.opsRemaining = 0) && !acc.field.shouldProtect cfg pair.u pair.v &&
    !acc.touched.contains (pair.u, pair.v)

/-- The pairs that a loop of a dream takes up, each judged by what the loop has come to by then. -/
def takenUp (cfg : DreamConfig F) (step : Dreaming F → PairStat F → Dreaming F) :
    Dreaming F → List (PairStat F) → List (PairStat F)
  | _, [] => []
  | acc, pair :: pairs =>
      if takesUp cfg acc pair then pair :: takenUp cfg step (step acc pair) pairs
      else takenUp cfg step (step acc pair) pairs

/-- A pair does not dangle, either way. -/
def Steady (self : ClusterField F) (pair : PairStat F) : Prop :=
  ¬ self.books.Dangling pair.u pair.v ∧ ¬ self.books.Dangling pair.v pair.u

/-- The picked link of a pair that does not dangle is scored. -/
theorem Dreamt.adjust {pair : PairStat F} (h : Dreamt before self) (hsteady : Steady before pair)
    {source target : NodeId} (hdirection : self.pickDirection pair.u pair.v = some (source, target))
    (delta : F) : Dreamt before (self.adjustLinkScore source target delta).1 := by
  have hkept : ¬ self.books.Dangling source target := by
    intro hdangling
    rcases pickDirection_cases hdirection with heq | heq <;> cases heq
    · exact hsteady.1 (h.dangling _ _ hdangling)
    · exact hsteady.2 (h.dangling _ _ hdangling)
  exact h.of_linking (linking_adjustLinkScore h.booked hkept delta)

/-- A pair that the dream takes up, and that does not dangle, may be strengthened; any other pair is left
alone. -/
theorem dreamt_strengthen {cfg : DreamConfig F} {acc : Dreaming F} {pair : PairStat F}
    (hsteady : takesUp cfg acc pair = true → Steady before pair) (h : Dreamt before acc.field) :
    Dreamt before (strengthen cfg acc pair).field := by
  unfold strengthen
  split
  · exact h
  · rename_i hops
    split
    · exact h
    · rename_i hprotect
      split
      · exact h
      · rename_i htouched
        dsimp only
        split
        · rename_i source target hdirection
          have hadjusted := h.adjust (hsteady (by simp [takesUp, hops, hprotect, htouched])) hdirection 0.15
          split
          · exact hadjusted.of_linking rfl
          · exact hadjusted
        · exact h

omit [FloatLike F] in
/-- A pruned link goes with its entries, so that the books stay in order and no new link dangles. -/
theorem Dreamt.pruneLink (h : Dreamt before self) (source target : NodeId) :
    Dreamt before (self.pruneLink source target).1 := by
  unfold ClusterField.pruneLink
  split
  · have hbooks := @books_unlink F self source target
    have hnextId : (self.alterCell source (·.unlink target)).nextId = self.nextId :=
      congrArg Replica.nextId (replica_alterCell self source _)
    refine ⟨h.booked.unlink hbooks hnextId, fun x y hdangling => h.dangling x y ?_⟩
    have hdangling : ((self.alterCell source (·.unlink target)).unregisterLink source
        target).books.Dangling x y := hdangling
    rw [hbooks] at hdangling
    exact hdangling.of_unlink
  · exact h

/-- The nearest cell to a lonely one is among those that are there. -/
theorem nearest_there {visits : Visits F} {id target : NodeId} {cell : NodeCell F}
    (h : self.nearest visits id cell = some target) : self.books.There target := by
  unfold nearest at h
  obtain ⟨best, hbest, rfl⟩ := Option.map_eq_some_iff.mp h
  revert hbest
  generalize visits.cells.arrange self.cells.keys = ids
  -- Whatever is the best so far is there.
  suffices hall : ∀ (ids : List NodeId) (start : Option (NodeId × F)),
      (∀ found, start = some found → self.books.There found.1) →
      ∀ found, ids.foldl _ start = some found → self.books.There found.1 from
    hall ids none (fun _ hnone => by cases hnone) best
  intro ids
  induction ids with
  | nil => exact fun start hstart => hstart
  | cons other ids ih =>
      intro start hstart
      refine ih _ fun found hfound => ?_
      cases hcell : self.cells[other]? with
      | none =>
          simp only [hcell] at hfound
          exact hstart found hfound
      | some candidate =>
          have hthere : self.books.There other := there_books.mpr ⟨candidate, hcell⟩
          simp only [hcell] at hfound
          split at hfound
          · exact hstart found hfound
          · split at hfound
            · split at hfound
              · cases hfound
                exact hthere
              · exact hstart found hfound
            · cases hfound
              exact hthere

omit [FloatLike F] in
/-- A cell whose set of links is empty is linked to no cell. -/
theorem contains_of_lonely {cell : NodeCell F} (hlonely : cell.links.isEmpty = true) (target : NodeId) :
    cell.links.contains target = false := by
  rw [Std.ExtTreeSet.isEmpty_iff.mp hlonely, Std.ExtTreeSet.contains_empty]

/-- A lonely cell gets a link to its nearest one, which is there, so that the new link does not dangle. -/
theorem Dreamt.rewireLonely (visits : Visits F) (h : Dreamt before self) (id : NodeId) :
    Dreamt before (self.rewireLonely visits id).1 := by
  unfold ClusterField.rewireLonely
  cases hcell : self.cells[id]? with
  | none => exact h
  | some cell =>
      dsimp only
      split
      · rename_i hlonely
        cases hnearest : self.nearest visits id cell with
        | none => exact h
        | some target =>
            have hthere := nearest_there hnearest
            have hnew : ¬ cell.links.contains target = true :=
              Bool.eq_false_iff.mp (contains_of_lonely hlonely target)
            -- A lonely cell has no links, so that the link to its nearest one is new.
            have hadd : (self.setCell id (cell.link target)).registerLink id target =
                self.addLink id target := by
              unfold addLink
              rw [hcell]
              exact (if_neg hnew).symm
            have hlinked : Dreamt before (self.addLink id target) := by
              refine ⟨booked_addLink (fun _ => Or.inr hthere) h.booked, fun x y hdangling => ?_⟩
              rw [books_addLink] at hdangling
              exact h.dangling x y (hdangling.of_link hthere)
            dsimp only
            rw [hadd]
            exact hlinked.of_linking rfl
      · exact h

/-- Pruning a weak link and rewiring its ends are the two steps above, or only the first without operations
left. -/
theorem dreamt_prune (visits : Visits F) {acc : Dreaming F} (source target : NodeId)
    (h : Dreamt before acc.field) : Dreamt before (prune visits acc source target).field := by
  unfold prune
  split
  · have hpruned := h.pruneLink source target
    dsimp only
    split
    · unfold rewire
      split
      · exact hpruned.of_linking rfl
      · have hemitted : Dreamt before
            ((acc.field.pruneLink source target).1.emit (.dreamPrune source target)) :=
          hpruned.of_linking rfl
        exact (hemitted.rewireLonely visits source).rewireLonely visits target
    · exact h
  · exact h

/-- A pair that the dream takes up, and that does not dangle, may be weakened, and its link pruned. -/
theorem dreamt_weaken (visits : Visits F) {cfg : DreamConfig F} {acc : Dreaming F} {pair : PairStat F}
    (hsteady : takesUp cfg acc pair = true → Steady before pair) (h : Dreamt before acc.field) :
    Dreamt before (weaken visits cfg acc pair).field := by
  unfold weaken
  split
  · exact h
  · rename_i hops
    split
    · exact h
    · rename_i hprotect
      split
      · exact h
      · rename_i htouched
        dsimp only
        split
        · rename_i source target hdirection
          have hadjusted := h.adjust (hsteady (by simp [takesUp, hops, hprotect, htouched])) hdirection (-0.2)
          split
          · exact dreamt_prune visits source target (hadjusted.of_linking rfl)
          · exact hadjusted
        · exact h

/-- A loop of a dream keeps what its steps keep. -/
theorem dreamt_foldl {cfg : DreamConfig F} {step : Dreaming F → PairStat F → Dreaming F}
    (hstep : ∀ acc pair, (takesUp cfg acc pair = true → Steady before pair) → Dreamt before acc.field →
      Dreamt before (step acc pair).field) (pairs : List (PairStat F)) {acc : Dreaming F}
    (hpairs : ∀ pair ∈ takenUp cfg step acc pairs, Steady before pair) (h : Dreamt before acc.field) :
    Dreamt before (pairs.foldl step acc).field := by
  induction pairs generalizing acc with
  | nil => exact h
  | cons pair pairs ih =>
      rw [List.foldl_cons]
      rw [takenUp] at hpairs
      by_cases htakes : takesUp cfg acc pair = true
      · rw [if_pos htakes] at hpairs
        obtain ⟨hpair, hrest⟩ := List.forall_mem_cons.mp hpairs
        exact ih hrest (hstep acc pair (fun _ => hpair) h)
      · rw [if_neg htakes] at hpairs
        exact ih hpairs (hstep acc pair (fun hpair => absurd hpair htakes) h)

/-- The pairs whose links a dream scores, as far as its budget goes: of those that answered together most often
the ones that it strengthens, then of those that did so least often the ones that it weakens. -/
def dreamed (visits : Visits F) (self : ClusterField F) : List (PairStat F) :=
  let cfg := self.dreamCfg
  let pairs := sortBy (fun a b => FloatLike.partialCmp b.freq a.freq)
    (self.collectRecentPairs visits cfg.windowMs)
  let top := pairs.take (shareOf pairs.length cfg.strengthenTopPct)
  let bottom := (sortBy (fun a b => FloatLike.partialCmp a.freq b.freq) pairs).take
    (shareOf pairs.length cfg.weakenBottomPct)
  let start : Dreaming F := ⟨self, ⟨0, 0, 0, 0, 0, 0⟩, cfg.maxOpsPerCycle, []⟩
  if self.cells.size < 2 then []
  else takenUp cfg (strengthen cfg) start top ++
    takenUp cfg (weaken visits cfg) (top.foldl (strengthen cfg) start) bottom

/-- A dream cycle keeps the books in order if none of the pairs that it takes up dangles. The strong pairs
come first, and the weak ones are judged by what these have left. -/
theorem booked_runDreamCycle (visits : Visits F) (tookMs : UInt32)
    (hdreamed : ∀ pair ∈ self.dreamed visits, Steady self pair) (h : Booked self) :
    Booked (self.runDreamCycle visits tookMs) := by
  unfold runDreamCycle
  split
  · exact h
  · rename_i hmany
    unfold runDream
    dsimp only
    split
    · exact h.of_linking rfl
    · -- The dream takes place, so that `dreamed` is what it takes up.
      unfold dreamed at hdreamed
      dsimp only at hdreamed
      rw [if_neg hmany] at hdreamed
      obtain ⟨htop, hlow⟩ := List.forall_mem_append.mp hdreamed
      have hstart : Dreamt self self := ⟨h, fun _ _ hdangling => hdangling⟩
      -- The strong pairs come first, and the weak ones go on from there.
      have hstrong := dreamt_foldl (fun _ _ => dreamt_strengthen) _ htop hstart
      have hweak := dreamt_foldl (fun _ _ => dreamt_weaken visits) _ hlow hstrong
      exact hweak.booked.of_linking rfl

/-! ## Collective dreams -/

/-- A node that takes over tokens gets biases and moves nearer to its group, and keeps its links. -/
theorem linking_shareNode (weight centroid : F) (tokens : List String) (acc : Sharing F) (node : NodeId) :
    (shareNode weight centroid tokens acc node).field.linking = acc.field.linking := by
  have htoken (acc : Sharing F) (token : String) :
      (shareToken weight node acc token).field.linking = acc.field.linking := rfl
  unfold shareNode
  cases hcell : acc.field.cells[node]? with
  | none => rfl
  | some cell =>
      dsimp only
      refine (list_foldl_keeps (fun acc : Sharing F => acc.field.linking) htoken tokens _).trans ?_
      exact linking_setCell hcell (tweaks_aligned weight centroid cell).links

/-- A link of a group that does not dangle has a score already, and only its value changes. -/
theorem linking_alignLink (weight : F) {acc : Sharing F} (h : Booked acc.field) {source target : NodeId}
    (hkept : ¬ acc.field.books.Dangling source target) :
    (alignLink weight acc source target).field.linking = acc.field.linking := by
  have hadjusted := linking_adjustLinkScore h hkept weight
  unfold alignLink
  dsimp only
  split
  · exact hadjusted
  · exact hadjusted

/-- By induction over the pairs of a group, each of them both ways. -/
theorem linking_alignLinks (weight : F) (pairs : List (NodeId × NodeId)) (h : Booked self)
    (hkept : ∀ pair ∈ pairs,
      ¬ self.books.Dangling pair.1 pair.2 ∧ ¬ self.books.Dangling pair.2 pair.1)
    {acc : Sharing F} (hacc : acc.field.linking = self.linking) :
    (pairs.foldl (fun acc pair => alignLink weight (alignLink weight acc pair.1 pair.2) pair.2 pair.1)
      acc).field.linking = self.linking := by
  have halign {acc : Sharing F} (hacc : acc.field.linking = self.linking) {source target : NodeId}
      (hpair : ¬ self.books.Dangling source target) :
      (alignLink weight acc source target).field.linking = self.linking := by
    have hbooks : acc.field.books = self.books := congrArg Prod.fst hacc
    exact (linking_alignLink weight (h.of_linking hacc) (hbooks ▸ hpair)).trans hacc
  exact List.foldlRecOn (motive := fun acc : Sharing F => acc.field.linking = self.linking) pairs _ hacc
    fun acc hacc pair hmem => halign (halign hacc (hkept pair hmem).1) (hkept pair hmem).2

/-- Sharing within a group enters nothing if no pair of it dangles. Without tokens it does not get to the
pairs. -/
theorem linking_shareTokens (platform : Platform F) {nodes : List NodeId} {tokens : List String}
    (h : Booked self) (hkept : tokens ≠ [] → ∀ pair ∈ eachPair nodes,
      ¬ self.books.Dangling pair.1 pair.2 ∧ ¬ self.books.Dangling pair.2 pair.1) (weightXfer : F) :
    (self.shareTokens platform nodes tokens weightXfer).field.linking = self.linking := by
  unfold shareTokens
  split
  · rfl
  · rename_i hsome
    have htokens : tokens ≠ [] := fun hempty => hsome (by simp [hempty])
    have hshared := list_foldl_keeps (fun acc : Sharing F => acc.field.linking)
      (linking_shareNode (FloatLike.clamp weightXfer 0.05 0.5) (self.communityCentroid nodes)
        (tokens.map platform.toLowercase)) nodes ⟨self, 0, 0, 0, []⟩
    have haligned := linking_alignLinks (FloatLike.clamp weightXfer 0.05 0.5) (eachPair nodes) h
      (hkept htokens) hshared
    have hemit (s : ClusterField F) (event : NodeId × String × F) :
        (s.emit (.syncShare event.1 event.2.1 event.2.2)).linking = s.linking := rfl
    exact (list_foldl_keeps linking hemit _ _).trans haligned

/-- A collective dream keeps the books in order if no pair of a group with tokens dangles, either way. -/
theorem booked_runCollectiveDream (platform : Platform F) (tookMs : UInt32) (groups : List SyncGroup)
    (cfg : SyncConfig F) (nowMs : UInt64)
    (hkept : ∀ group ∈ groups, group.tokens ≠ [] → ∀ pair ∈ eachPair group.nodes,
      ¬ self.books.Dangling pair.1 pair.2 ∧ ¬ self.books.Dangling pair.2 pair.1) (h : Booked self) :
    Booked (self.runCollectiveDream platform tookMs groups cfg nowMs) := by
  have hgroups (start : ClusterField F × SyncReport) (hstart : start.1.linking = self.linking) :
      (groups.foldl (dreamGroup platform cfg) start).1.linking = self.linking := by
    refine List.foldlRecOn (motive := fun acc : ClusterField F × SyncReport => acc.1.linking = self.linking)
      groups _ hstart fun acc hacc group hmem => ?_
    have hbooks : acc.1.books = self.books := congrArg Prod.fst hacc
    refine Eq.trans ?_ hacc
    exact linking_shareTokens platform (h.of_linking hacc) (hbooks ▸ hkept group hmem) cfg.weightXfer
  unfold runCollectiveDream
  split
  · exact h
  · exact h.of_linking (hgroups (self, _) rfl)

/-! ## Awakening and mirror epochs -/

/-- An awakening changes the energy and the salience of a cell, and none of its links. -/
theorem linking_awakenCell (cfg : AwakeningConfig F) (self : ClusterField F) (tension : Tension F) :
    (awakenCell cfg self tension).linking = self.linking := by
  have hemit (s : ClusterField F) (id : NodeId) : (s.emitEnergyState id).linking = s.linking := by
    unfold emitEnergyState
    cases s.cells[id]? <;> rfl
  unfold awakenCell
  cases hcell : self.cells[tension.node]? with
  | none => rfl
  | some cell =>
      dsimp only
      split
      · rfl
      · split
        · exact (hemit _ _).trans (linking_setCell hcell rfl)
        · rfl

/-- `awaken_now` goes through the tensions of its model, and so leaves links and tables alone. -/
theorem linking_awakenNow (visits : Visits F) (self : ClusterField F) :
    (self.awakenNow visits).linking = self.linking := by
  have hmodel : (self.rebuildResonantModel visits).1.linking = self.linking := by
    unfold rebuildResonantModel
    dsimp only
    split <;> rfl
  unfold awakenNow awaken
  dsimp only
  split
  · exact hmodel
  · exact (list_foldl_keeps linking (linking_awakenCell _) _ _).trans hmodel

/-- A mirrored epoch scales affinity and metabolism of some cells, and leaves links and tables alone. -/
theorem linking_applyMirrorEpoch (visits : Visits F) (epoch : Epoch F) (scale : F) (maxOps : UInt32)
    (protectSalience : F) (self : ClusterField F) :
    (self.applyMirrorEpoch visits epoch scale maxOps protectSalience).linking = self.linking := by
  have hone (s : ClusterField F) (id : NodeId) :
      (s.alterCell id (mirrored epoch.kind scale)).linking = s.linking :=
    linking_alterCell id fun _ => rfl
  exact list_foldl_keeps linking hone _ self

end ClusterField

end LiminalDB
