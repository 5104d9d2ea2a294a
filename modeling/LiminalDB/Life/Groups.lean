import LiminalDB.Foundations.TopOf
import LiminalDB.Life.Loop

/-! # The groups that dream together: `detect_sync_groups`

The pairs of nodes that were routed to together, and strongly enough, are the edges of a graph. Its components
of more than one node are sorted by size, the largest are kept, and those for which no token is found are
dropped (`detected_groups_are_largest_components`). -/

namespace LiminalDB

namespace ClusterField

variable {F : Type} [FloatLike F]

/-- The pairs of the last phase that are strong enough. -/
def strongPairs (visits : Visits F) (self : ClusterField F) (cfg : SyncConfig F) : List (PairStat F) :=
  (self.collectRecentPairs visits (if cfg.phaseLenMs < 500 then 500 else cfg.phaseLenMs)).filter fun pair =>
    decide (cfg.cooccurThreshold ≤ pair.avgStrength)

/-- A list of nodes holds just those of a component, none of them twice. -/
structure Enumerates {graph : SimpleGraph NodeId} (component : graph.ConnectedComponent) (nodes : List NodeId) :
    Prop where
  nodup : nodes.Nodup
  mem : ∀ a, a ∈ nodes ↔ a ∈ component.supp

/-- The order of the pairs does not matter. -/
theorem syncGraph_congr {pairs pairs' : List (PairStat F)} (h : pairs.Perm pairs') (threshold : F) :
    syncGraph pairs threshold = syncGraph pairs' threshold := by
  have hpaired : Paired pairs threshold = Paired pairs' threshold := by
    funext u v
    simp only [Paired, h.mem_iff]
  rw [syncGraph, syncGraph, hpaired]

section Components

variable {pairs : List (PairStat F)} {threshold : F} {order : Order NodeId}

/-- Each list that is extracted enumerates a component of the graph. -/
theorem lists_of_mem {nodes : List NodeId} (h : nodes ∈ extractComponents order (buildAdjacency pairs threshold)) :
    ∃ component : (syncGraph pairs threshold).ConnectedComponent, Enumerates component nodes := by
  obtain ⟨seen, hcollected, -⟩ := collected_extractComponents pairs threshold order
  obtain ⟨root, hroot⟩ := mem_group_iff h
  exact ⟨_, hcollected.nodup nodes h, hroot⟩

/-- Each component with two nodes or more is enumerated by one of the lists. -/
theorem exists_of_nontrivial (order : Order NodeId) {component : (syncGraph pairs threshold).ConnectedComponent}
    (h : component.supp.Nontrivial) :
    ∃ nodes ∈ extractComponents order (buildAdjacency pairs threshold), Enumerates component nodes := by
  obtain ⟨a, ha, b, hb, hne⟩ := h
  obtain ⟨nodes, hnodes, hanodes, -⟩ := exists_group_of_reachable order hne (component.reachable_of_mem_supp ha hb)
  obtain ⟨other, hlists⟩ := lists_of_mem hnodes
  obtain rfl := SimpleGraph.ConnectedComponent.eq_of_common_vertex ((hlists.mem a).mp hanodes) ha
  exact ⟨nodes, hnodes, hlists⟩

end Components

/-- The components that are considered: as many of the largest as there may be groups. -/
def consideredNodes (visits : Visits F) (syncVisits : SyncVisits F) (self : ClusterField F) (cfg : SyncConfig F) :
    List (List NodeId) :=
  let sorted := sortBy (fun a b => FloatLike.partialCmp (scorePair b) (scorePair a)) (self.strongPairs visits cfg)
  let components := extractComponents syncVisits.adjacency (buildAdjacency sorted cfg.cooccurThreshold)
  (sortBy (fun a b => compareOfLessAndEq b.length a.length) components).take cfg.maxGroups.toNat

/-- The groups are the components considered that have tokens in common, in their order. -/
theorem detectSyncGroups_eq (platform : Platform F) (visits : Visits F) (syncVisits : SyncVisits F)
    (self : ClusterField F) (cfg : SyncConfig F) :
    self.detectSyncGroups platform visits syncVisits cfg =
      (self.consideredNodes visits syncVisits cfg).filterMap fun nodes =>
        if (self.syncTopTokens platform syncVisits nodes cfg.shareTopK.toNat).isEmpty then none
        else some ⟨nodes, self.syncTopTokens platform syncVisits nodes cfg.shareTopK.toNat⟩ := rfl

section Considered

variable (platform : Platform F) (visits : Visits F) (syncVisits : SyncVisits F) (self : ClusterField F)
  (cfg : SyncConfig F)

/-- The graph of the strong pairs. -/
def phaseGraph : SimpleGraph NodeId := syncGraph (self.strongPairs visits cfg) cfg.cooccurThreshold

/-- The components there are to consider. -/
def phaseComponents : List (List NodeId) :=
  extractComponents syncVisits.adjacency (buildAdjacency
    (sortBy (fun a b => FloatLike.partialCmp (scorePair b) (scorePair a)) (self.strongPairs visits cfg))
    cfg.cooccurThreshold)

/-- The graph is that of the strong pairs, in whichever order these are visited. -/
theorem phaseGraph_eq : self.phaseGraph visits cfg =
    syncGraph (sortBy (fun a b => FloatLike.partialCmp (scorePair b) (scorePair a)) (self.strongPairs visits cfg))
      cfg.cooccurThreshold :=
  syncGraph_congr (sortBy_perm _ _).symm _

/-- Lists are ranked by their lengths, the longest first. -/
theorem isLE_compareLength (a b : List NodeId) :
    (compareOfLessAndEq b.length a.length).isLE = true ↔ b.length ≤ a.length := by
  unfold compareOfLessAndEq
  split_ifs with hlt heq
  · simp [hlt.le]
  · simp [heq]
  · simp only [Ordering.isLE_gt, Bool.false_eq_true, false_iff]
    omega

/-- As many of the largest components as there may be groups. -/
theorem topOf_consideredNodes : TopOf List.length cfg.maxGroups.toNat (self.phaseComponents visits syncVisits cfg)
    (self.consideredNodes visits syncVisits cfg) :=
  topOf_take (descending_sortBy isLE_compareLength _) (sortBy_perm _ _)

/-- No more tokens are taken than asked for. -/
theorem length_syncTopTokens (nodes : List NodeId) (topK : ℕ) :
    (self.syncTopTokens platform syncVisits nodes topK).length ≤ topK := by
  unfold syncTopTokens
  dsimp only
  split_ifs
  · exact Nat.zero_le _
  · rw [List.length_map]
    exact List.length_take_le _ _
  · rw [List.length_map]
    exact List.length_take_le _ _

variable {platform visits syncVisits self cfg}

/-- A group has the nodes of a component that is considered, and the top tokens of these, at least one. -/
theorem mem_detectSyncGroups {group : SyncGroup} :
    group ∈ self.detectSyncGroups platform visits syncVisits cfg ↔
      group.nodes ∈ self.consideredNodes visits syncVisits cfg ∧ group.tokens ≠ [] ∧
        group.tokens = self.syncTopTokens platform syncVisits group.nodes cfg.shareTopK.toNat := by
  rw [detectSyncGroups_eq, List.mem_filterMap]
  constructor
  · rintro ⟨nodes, hnodes, hgroup⟩
    split_ifs at hgroup with htokens
    cases hgroup
    exact ⟨hnodes, fun hnil => htokens (List.isEmpty_iff.mpr hnil), rfl⟩
  · rintro ⟨hnodes, hne, htokens⟩
    refine ⟨group.nodes, hnodes, ?_⟩
    rw [if_neg, ← htokens]
    rw [← htokens]
    exact mt List.isEmpty_iff.mp hne

end Considered

/-- **The groups of a phase are the largest components of the graph of strong pairs.** Whatever the orders in
which maps are visited, a group holds the nodes of one component, of which there are several, with some tokens
and at most `share_top_k`; the groups are no more than `max_groups`, do not meet and do not grow in size; and a
component that is no group has no tokens, or there are as many components as there may be groups that are at
least as large. -/
theorem detected_groups_are_largest_components (platform : Platform F) (visits : Visits F)
    (syncVisits : SyncVisits F) (self : ClusterField F) (cfg : SyncConfig F) :
    let graph := self.phaseGraph visits cfg
    let groups := self.detectSyncGroups platform visits syncVisits cfg
    (∀ group ∈ groups, (∃ component : graph.ConnectedComponent, Enumerates component group.nodes) ∧
      1 < group.nodes.length ∧ group.tokens ≠ [] ∧ group.tokens.length ≤ cfg.shareTopK.toNat) ∧
    groups.Pairwise (fun a b => List.Disjoint a.nodes b.nodes ∧ b.nodes.length ≤ a.nodes.length) ∧
    groups.length ≤ cfg.maxGroups.toNat ∧
    ∀ component : graph.ConnectedComponent, component.supp.Nontrivial →
      ∃ nodes, Enumerates component nodes ∧
        ((∃ group ∈ groups, group.nodes = nodes) ∨
          self.syncTopTokens platform syncVisits nodes cfg.shareTopK.toNat = [] ∨
          ∃ larger : List (List NodeId), larger.length = cfg.maxGroups.toNat ∧ larger.Pairwise List.Disjoint ∧
            ∀ other ∈ larger, nodes.length ≤ other.length ∧
              ∃ component' : graph.ConnectedComponent, Enumerates component' other) := by
  have htop := self.topOf_consideredNodes visits syncVisits cfg
  obtain ⟨seen, hcollected, -⟩ := collected_extractComponents
    (sortBy (fun a b => FloatLike.partialCmp (scorePair b) (scorePair a)) (self.strongPairs visits cfg))
    cfg.cooccurThreshold syncVisits.adjacency
  have hfound : ∀ nodes ∈ self.consideredNodes visits syncVisits cfg,
      nodes ∈ self.phaseComponents visits syncVisits cfg := fun nodes h => htop.subperm.subset h
  have hlists : ∀ nodes ∈ self.phaseComponents visits syncVisits cfg,
      ∃ component : (self.phaseGraph visits cfg).ConnectedComponent, Enumerates component nodes := by
    rw [phaseGraph_eq]
    exact fun nodes h => lists_of_mem h
  -- The groups keep the order of the components, which do not meet.
  have hdisjoint : (self.consideredNodes visits syncVisits cfg).Pairwise List.Disjoint := by
    obtain ⟨rest, hperm, -⟩ := htop.split
    refine List.Pairwise.sublist (List.sublist_append_left _ rest) ?_
    exact hcollected.disjoint.perm hperm.symm fun h => h.symm
  intro graph groups
  refine ⟨?_, ?_, ?_, ?_⟩
  · intro group hgroup
    obtain ⟨hnodes, hne, htokens⟩ := mem_detectSyncGroups.mp hgroup
    refine ⟨hlists _ (hfound _ hnodes), hcollected.several _ (hfound _ hnodes), hne, ?_⟩
    rw [htokens]
    exact self.length_syncTopTokens platform syncVisits _ _
  · rw [show groups = _ from self.detectSyncGroups_eq platform visits syncVisits cfg, List.pairwise_filterMap]
    refine (hdisjoint.and htop.descending).imp ?_
    intro nodes nodes' h group hgroup group' hgroup'
    split_ifs at hgroup hgroup'
    cases hgroup
    cases hgroup'
    exact h
  · rw [show groups = _ from self.detectSyncGroups_eq platform visits syncVisits cfg]
    refine (List.length_filterMap_le _ _).trans ?_
    rw [htop.length]
    exact min_le_left _ _
  · intro component hseveral
    obtain ⟨nodes, hnodes, henumerates⟩ : ∃ nodes ∈ self.phaseComponents visits syncVisits cfg,
        Enumerates component nodes := by
      revert component
      rw [show graph = _ from self.phaseGraph_eq visits cfg]
      exact fun component h => exists_of_nontrivial syncVisits.adjacency h
    refine ⟨nodes, henumerates, ?_⟩
    by_cases htokens : self.syncTopTokens platform syncVisits nodes cfg.shareTopK.toNat = []
    · exact .inr (.inl htokens)
    by_cases hkept : nodes ∈ self.consideredNodes visits syncVisits cfg
    · exact .inl ⟨⟨nodes, _⟩, mem_detectSyncGroups.mpr ⟨hkept, htokens, rfl⟩, rfl⟩
    -- A component is left out only when there are enough before it.
    have hfewer : (self.consideredNodes visits syncVisits cfg).length ≠
        (self.phaseComponents visits syncVisits cfg).length := by
      intro heq
      have hperm := htop.subperm.perm_of_length_le heq.ge
      exact hkept (hperm.mem_iff.mpr hnodes)
    have hlength : (self.consideredNodes visits syncVisits cfg).length = cfg.maxGroups.toNat := by
      have hmin := htop.length
      omega
    exact .inr (.inr ⟨_, hlength, hdisjoint, fun other hother =>
      ⟨htop.le_of_not_mem hnodes hkept hother, hlists other (hfound other hother)⟩⟩)

end ClusterField

end LiminalDB
