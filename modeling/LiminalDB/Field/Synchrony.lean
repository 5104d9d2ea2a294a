import LiminalDB.Field.Dream
import LiminalDB.Foundations.Reachability
import Mathlib.Combinatorics.SimpleGraph.Connectivity.Connected

/-! # Synchrony groups: `build_adjacency` and `extract_components`

Nodes that were routed to together form groups: pairs that are strong enough become edges, in a map from
nodes to lists of neighbours, and a search from each key that was not seen yet collects a group. Whatever
the order of the keys, the groups are the components of the graph that have an edge
(`syncGroups_are_components`). -/

namespace LiminalDB

variable {F : Type} [FloatLike F]

open Std (ExtTreeMap)

namespace ClusterField

/-- `adjacency.entry(node).or_default().push(neighbor)` -/
def pushNeighbor (adjacency : ExtTreeMap NodeId (List NodeId) compare) (node neighbor : NodeId) :
    ExtTreeMap NodeId (List NodeId) compare :=
  adjacency.insert node (adjacency[node]?.getD [] ++ [neighbor])

/-- `build_adjacency` -/
def buildAdjacency (pairs : List (PairStat F)) (threshold : F) : ExtTreeMap NodeId (List NodeId) compare :=
  pairs.foldl (fun adjacency pair =>
    if pair.avgStrength < threshold then adjacency
    else pushNeighbor (pushNeighbor adjacency pair.u pair.v) pair.v pair.u) ∅

/-- An adjacency map, as the graph that the search goes through. -/
def neighborMap (adjacency : ExtTreeMap NodeId (List NodeId) compare) : NeighborMap NodeId where
  keys := adjacency.keys.toFinset
  get node := adjacency[node]?
  mem_keys h := by
    rw [List.mem_toFinset, ExtTreeMap.mem_keys, ExtTreeMap.mem_iff_isSome_getElem?, h]
    rfl

/-- One round of `extract_components`: `seen` and `groups`, after a key. -/
def collect (graph : NeighborMap NodeId) (acc : Finset NodeId × List (List NodeId)) (node : NodeId) :
    Finset NodeId × List (List NodeId) :=
  if node ∈ acc.1 then acc
  else
    let found := graph.search acc.1 [node] []
    (found.1, if 1 < found.2.length then acc.2 ++ [found.2] else acc.2)

/-- `extract_components`, with the order in which the keys are visited. -/
def extractComponents (order : Order NodeId) (adjacency : ExtTreeMap NodeId (List NodeId) compare) :
    List (List NodeId) :=
  ((order.arrange adjacency.keys).foldl (collect (neighborMap adjacency)) (∅, [])).2

/-! ## The graph -/

/-- The pairs that are not too weak. -/
def Paired (pairs : List (PairStat F)) (threshold : F) (u v : NodeId) : Prop :=
  ∃ pair ∈ pairs, ¬ pair.avgStrength < threshold ∧ pair.u = u ∧ pair.v = v

/-- The undirected graph of these pairs. -/
def syncGraph (pairs : List (PairStat F)) (threshold : F) : SimpleGraph NodeId :=
  SimpleGraph.fromRel (Paired pairs threshold)

section Adjacency

variable {pairs : List (PairStat F)} {threshold : F} {adjacency : ExtTreeMap NodeId (List NodeId) compare}
  {a b : NodeId}

omit [FloatLike F] in
/-- The neighbours of a node are those listed for it, or none. -/
theorem neighbors_neighborMap (a : NodeId) : (neighborMap adjacency).neighbors a = adjacency[a]?.getD [] := rfl

/-- Pushing a neighbour enters its node, if it is not there. -/
theorem mem_pushNeighbor {node neighbor : NodeId} :
    a ∈ pushNeighbor adjacency node neighbor ↔ a ∈ adjacency ∨ a = node := by
  rw [pushNeighbor, ExtTreeMap.mem_insert, or_comm]
  refine or_congr_right ⟨fun h => (Std.LawfulEqCmp.eq_of_compare h).symm, ?_⟩
  rintro rfl
  exact Std.ReflCmp.compare_self

/-- It enters the neighbour for this node, and changes no other list. -/
theorem mem_neighbors_pushNeighbor {node neighbor : NodeId} :
    b ∈ (neighborMap (pushNeighbor adjacency node neighbor)).neighbors a ↔
      b ∈ (neighborMap adjacency).neighbors a ∨ a = node ∧ b = neighbor := by
  rw [neighbors_neighborMap, neighbors_neighborMap, pushNeighbor, ExtTreeMap.getElem?_insert]
  by_cases h : node = a
  · subst h
    rw [if_pos Std.ReflCmp.compare_self]
    simp
  · rw [if_neg fun heq => h (Std.LawfulEqCmp.eq_of_compare heq)]
    simp [Ne.symm h]

/-- One more pair relates its own two nodes, if it is strong enough. -/
theorem paired_append_singleton {pair : PairStat F} : Paired (pairs ++ [pair]) threshold a b ↔
    Paired pairs threshold a b ∨ ¬ pair.avgStrength < threshold ∧ pair.u = a ∧ pair.v = b := by
  simp [Paired, or_and_right, exists_or]

/-- One more pair is entered from both of its ends, if it is strong enough. -/
theorem buildAdjacency_append_singleton (pairs : List (PairStat F)) (pair : PairStat F) (threshold : F) :
    buildAdjacency (pairs ++ [pair]) threshold =
      if pair.avgStrength < threshold then buildAdjacency pairs threshold
      else pushNeighbor (pushNeighbor (buildAdjacency pairs threshold) pair.u pair.v) pair.v pair.u := by
  rw [buildAdjacency, List.foldl_append]
  rfl

/-- The lists of neighbours are those of the graph, and self loops. -/
theorem mem_neighbors_buildAdjacency : b ∈ (neighborMap (buildAdjacency pairs threshold)).neighbors a ↔
    Paired pairs threshold a b ∨ Paired pairs threshold b a := by
  induction pairs using List.reverseRecOn with
  | nil => simp [buildAdjacency, neighbors_neighborMap, Paired]
  | append_singleton pairs pair ih =>
      rw [buildAdjacency_append_singleton, paired_append_singleton, paired_append_singleton]
      split_ifs with hweak
      · simp [ih, hweak]
      · rw [mem_neighbors_pushNeighbor, mem_neighbors_pushNeighbor, ih]
        grind

/-- The nodes that are entered are those with a strong pair, on either side of it. -/
theorem mem_buildAdjacency : a ∈ buildAdjacency pairs threshold ↔
    ∃ b, Paired pairs threshold a b ∨ Paired pairs threshold b a := by
  induction pairs using List.reverseRecOn with
  | nil => simp [buildAdjacency, Paired]
  | append_singleton pairs pair ih =>
      rw [buildAdjacency_append_singleton]
      simp only [paired_append_singleton]
      split_ifs with hweak
      · simp [ih, hweak]
      · rw [mem_pushNeighbor, mem_pushNeighbor, ih]
        grind

/-- Neighbours are mutual. -/
theorem neighbors_symm (a b : NodeId) (h : b ∈ (neighborMap (buildAdjacency pairs threshold)).neighbors a) :
    a ∈ (neighborMap (buildAdjacency pairs threshold)).neighbors b :=
  mem_neighbors_buildAdjacency.mpr (mem_neighbors_buildAdjacency.mp h).symm

/-- What the search can reach is what the graph connects. -/
theorem reach_iff_reachable : (neighborMap (buildAdjacency pairs threshold)).Reach a b ↔
    (syncGraph pairs threshold).Reachable a b := by
  rw [SimpleGraph.reachable_iff_reflTransGen]
  constructor
  · intro h
    induction h with
    | refl => exact Relation.ReflTransGen.refl
    | @tail b c _ hstep ih =>
        by_cases hloop : b = c
        · exact hloop ▸ ih
        · exact ih.tail ⟨hloop, mem_neighbors_buildAdjacency.mp hstep⟩
  · intro h
    induction h with
    | refl => exact Relation.ReflTransGen.refl
    | tail _ hadj ih => exact ih.tail (mem_neighbors_buildAdjacency.mpr hadj.2)

end Adjacency

/-! ## Groups -/

section Collected

variable {graph : NeighborMap NodeId}

/-- What holds after each round: what was seen is closed, the groups are what single nodes reach, no two of
them meet, and every node that was seen and reaches another is in one. -/
structure Collected (graph : NeighborMap NodeId) (acc : Finset NodeId × List (List NodeId)) : Prop where
  closed : graph.Closed acc.1
  nodup : ∀ group ∈ acc.2, group.Nodup
  several : ∀ group ∈ acc.2, 1 < group.length
  reached : ∀ group ∈ acc.2, ∃ root, ∀ b, b ∈ group ↔ graph.Reach root b
  disjoint : acc.2.Pairwise List.Disjoint
  seen : ∀ group ∈ acc.2, ∀ b ∈ group, b ∈ acc.1
  covered : ∀ a ∈ acc.1, ∀ b, graph.Reach a b → a ≠ b → ∃ group ∈ acc.2, a ∈ group

/-- Nothing has been collected before the first node. -/
theorem collected_nil : Collected graph (∅, []) where
  closed := by simp [NeighborMap.Closed]
  nodup := by simp
  several := by simp
  reached := by simp
  disjoint := List.Pairwise.nil
  seen := by simp
  covered := by simp

/-- A component of several nodes becomes a group. -/
theorem Collected.add {acc : Finset NodeId × List (List NodeId)} (h : Collected graph acc)
    {seen : Finset NodeId} {group : List NodeId} {root : NodeId} (hclosed : graph.Closed seen)
    (hmem : ∀ b, b ∈ seen ↔ b ∈ acc.1 ∨ b ∈ group) (hnodup : group.Nodup) (hlength : 1 < group.length)
    (hfound : ∀ b, b ∈ group ↔ graph.Reach root b) (hnew : ∀ b ∈ group, b ∉ acc.1) :
    Collected graph (seen, acc.2 ++ [group]) := by
  have hgroups : ∀ other, other ∈ acc.2 ++ [group] ↔ other ∈ acc.2 ∨ other = group := by simp
  constructor
  · exact hclosed
  · intro other hother
    rcases (hgroups other).mp hother with hold | rfl
    · exact h.nodup other hold
    · exact hnodup
  · intro other hother
    rcases (hgroups other).mp hother with hold | rfl
    · exact h.several other hold
    · exact hlength
  · intro other hother
    rcases (hgroups other).mp hother with hold | rfl
    · exact h.reached other hold
    · exact ⟨root, hfound⟩
  · refine List.pairwise_append.mpr ⟨h.disjoint, List.pairwise_singleton _ _, ?_⟩
    intro old hold other hother b hb hbnew
    obtain rfl := List.mem_singleton.mp hother
    exact hnew b hbnew (h.seen old hold b hb)
  · intro other hother b hb
    rcases (hgroups other).mp hother with hold | rfl
    · exact (hmem b).mpr (.inl (h.seen other hold b hb))
    · exact (hmem b).mpr (.inr hb)
  · -- What is reached from a group that was there before lies in it, and so for the new one.
    intro a ha b hreach hne
    rcases (hmem a).mp ha with hstart | ha
    · obtain ⟨other, hold, hagroup⟩ := h.covered a hstart b hreach hne
      exact ⟨other, (hgroups other).mpr (.inl hold), hagroup⟩
    · exact ⟨group, (hgroups _).mpr (.inr rfl), ha⟩

/-- A component of one node is passed. -/
theorem Collected.pass {acc : Finset NodeId × List (List NodeId)} (h : Collected graph acc)
    {seen : Finset NodeId} {group : List NodeId} {root : NodeId} (hclosed : graph.Closed seen)
    (hmem : ∀ b, b ∈ seen ↔ b ∈ acc.1 ∨ b ∈ group) (hlength : ¬ 1 < group.length)
    (hfound : ∀ b, b ∈ group ↔ graph.Reach root b) : Collected graph (seen, acc.2) := by
  refine ⟨hclosed, h.nodup, h.several, h.reached, h.disjoint, ?_, ?_⟩
  · intro old hold b hb
    exact (hmem b).mpr (.inl (h.seen old hold b hb))
  · intro a ha b hreach hne
    rcases (hmem a).mp ha with hstart | ha
    · exact h.covered a hstart b hreach hne
    · -- A node that reaches another one would have it beside it.
      have hb : b ∈ group := (hfound b).mpr (((hfound a).mp ha).trans hreach)
      obtain ⟨c, hc⟩ : ∃ c, group = [c] :=
        List.length_eq_one_iff.mp (le_antisymm (le_of_not_gt hlength) (List.length_pos_of_mem ha))
      rw [hc, List.mem_singleton] at ha hb
      exact absurd (ha.trans hb.symm) hne

/-- Collecting the component of one more node, unless that was seen, keeps what holds of the components so
far. -/
theorem Collected.collect (hsymm : ∀ a b, b ∈ graph.neighbors a → a ∈ graph.neighbors b)
    {acc : Finset NodeId × List (List NodeId)} (h : Collected graph acc) (node : NodeId) :
    Collected graph (collect graph acc node) := by
  rw [ClusterField.collect]
  split_ifs with hseen
  · exact h
  have hclosed := h.closed.search node
  have hfound : ∀ b, b ∈ (graph.search acc.1 [node] []).2 ↔ graph.Reach node b := by
    intro b
    rw [NeighborMap.mem_search_iff h.closed]
    exact ⟨And.left, fun hreach => ⟨hreach, h.closed.not_mem_of_reach hsymm hseen hreach⟩⟩
  have hmem := graph.mem_search_seen acc.1 node
  have hnodup := graph.nodup_search acc.1 node
  generalize graph.search acc.1 [node] [] = found at hclosed hfound hmem hnodup ⊢
  dsimp only
  split_ifs with hlength
  · apply h.add hclosed hmem hnodup hlength hfound
    intro b hb
    exact h.closed.not_mem_of_reach hsymm hseen ((hfound b).mp hb)
  · exact h.pass hclosed hmem hlength hfound

/-- All keys have been seen in the end. -/
theorem collected_foldl (hsymm : ∀ a b, b ∈ graph.neighbors a → a ∈ graph.neighbors b)
    (nodes : List NodeId) {acc : Finset NodeId × List (List NodeId)} (h : Collected graph acc) :
    Collected graph (nodes.foldl (collect graph) acc) ∧
      ∀ a, a ∈ nodes ∨ a ∈ acc.1 → a ∈ (nodes.foldl (collect graph) acc).1 := by
  induction nodes generalizing acc with
  | nil => exact ⟨h, fun a ha => ha.resolve_left List.not_mem_nil⟩
  | cons node nodes ih =>
      obtain ⟨hcollected, hseen⟩ := ih (h.collect hsymm node)
      refine ⟨hcollected, fun a ha => hseen a ?_⟩
      have hround : ∀ a, a = node ∨ a ∈ acc.1 → a ∈ (collect graph acc node).1 := by
        intro a ha
        rw [collect]
        split_ifs with hold
        · rcases ha with rfl | hstart
          · exact hold
          · exact hstart
        · rcases ha with rfl | hstart
          · exact graph.root_mem_search acc.1 a
          · exact (graph.mem_search_seen acc.1 node a).mpr (.inl hstart)
      rcases ha with hnode | hstart
      · rcases List.mem_cons.mp hnode with rfl | hrest
        · exact .inr (hround a (.inl rfl))
        · exact .inl hrest
      · exact .inr (hround a (.inr hstart))

end Collected

section Groups

variable (pairs : List (PairStat F)) (threshold : F)

/-- After the last node the components are collected, and every node that was entered has been seen. -/
theorem collected_extractComponents (order : Order NodeId) : ∃ seen,
    Collected (neighborMap (buildAdjacency pairs threshold))
        (seen, extractComponents order (buildAdjacency pairs threshold)) ∧
      ∀ a ∈ buildAdjacency pairs threshold, a ∈ seen := by
  obtain ⟨hcollected, hseen⟩ := collected_foldl (@neighbors_symm _ _ pairs threshold)
    (order.arrange (buildAdjacency pairs threshold).keys) collected_nil
  refine ⟨_, hcollected, fun a ha => hseen a (.inl ?_)⟩
  rw [Order.mem_arrange, ExtTreeMap.mem_keys]
  exact ha

variable {pairs threshold}

/-- A group is what the graph connects to one of its nodes. -/
theorem mem_group_iff {order : Order NodeId} {group : List NodeId}
    (hgroup : group ∈ extractComponents order (buildAdjacency pairs threshold)) :
    ∃ root, ∀ b, b ∈ group ↔ b ∈ ((syncGraph pairs threshold).connectedComponentMk root).supp := by
  obtain ⟨seen, hcollected, -⟩ := collected_extractComponents pairs threshold order
  obtain ⟨root, hroot⟩ := hcollected.reached group hgroup
  refine ⟨root, fun b => ?_⟩
  rw [hroot, reach_iff_reachable, SimpleGraph.ConnectedComponent.mem_supp_iff,
    SimpleGraph.ConnectedComponent.eq, SimpleGraph.reachable_comm]

/-- Nodes that the graph connects are in a group together. -/
theorem exists_group_of_reachable (order : Order NodeId) {a b : NodeId} (hne : a ≠ b)
    (h : (syncGraph pairs threshold).Reachable a b) :
    ∃ group ∈ extractComponents order (buildAdjacency pairs threshold), a ∈ group ∧ b ∈ group := by
  obtain ⟨seen, hcollected, hseen⟩ := collected_extractComponents pairs threshold order
  have hreach := reach_iff_reachable.mpr h
  -- A node that is connected to another one has a neighbour, and with it a list.
  have hkey : a ∈ buildAdjacency pairs threshold := by
    rcases hreach.cases_head with heq | ⟨c, hstep, -⟩
    · exact absurd heq hne
    · exact mem_buildAdjacency.mpr ⟨c, mem_neighbors_buildAdjacency.mp hstep⟩
  obtain ⟨group, hgroup, ha⟩ := hcollected.covered a (hseen a hkey) b hreach hne
  obtain ⟨root, hroot⟩ := hcollected.reached group hgroup
  exact ⟨group, hgroup, ha, (hroot b).mpr (((hroot a).mp ha).trans hreach)⟩

end Groups

/-- **Synchrony groups are the connected components.** For all pairs, every threshold and whatever the order
in which the keys are visited, the groups have no node twice and do not meet; as sets of nodes they are the
components, with more than one node, of the graph whose edges are the pairs that are not below the threshold;
each is connected; and the ends of such a pair of different nodes are in a group. -/
theorem syncGroups_are_components (pairs : List (PairStat F)) (threshold : F) (order : Order NodeId) :
    let groups := extractComponents order (buildAdjacency pairs threshold)
    let graph := syncGraph pairs threshold
    (∀ group ∈ groups, group.Nodup) ∧ groups.Pairwise List.Disjoint ∧
      (∀ nodes : Set NodeId, (∃ group ∈ groups, {a | a ∈ group} = nodes) ↔
        ∃ component : graph.ConnectedComponent, component.supp = nodes ∧ nodes.Nontrivial) ∧
      (∀ group ∈ groups, (graph.induce {a | a ∈ group}).Connected) ∧
      ∀ u v, u ≠ v → Paired pairs threshold u v → ∃ group ∈ groups, u ∈ group ∧ v ∈ group := by
  obtain ⟨seen, hcollected, -⟩ := collected_extractComponents pairs threshold order
  refine ⟨hcollected.nodup, hcollected.disjoint, fun nodes => ⟨?_, ?_⟩, ?_, fun u v hne hpaired => ?_⟩
  · rintro ⟨group, hgroup, rfl⟩
    obtain ⟨root, hroot⟩ := mem_group_iff hgroup
    refine ⟨_, (Set.ext hroot).symm, ?_⟩
    -- A list of more than one node, none of them twice.
    have hnodup := hcollected.nodup group hgroup
    have hseveral := hcollected.several group hgroup
    match group, hnodup, hseveral with
    | a :: b :: rest, hnodup, _ =>
        refine ⟨a, by simp, b, by simp, ?_⟩
        rintro rfl
        simp at hnodup
  · rintro ⟨component, rfl, a, ha, b, hb, hne⟩
    have hreach := component.reachable_of_mem_supp ha hb
    obtain ⟨group, hgroup, hagroup, -⟩ := exists_group_of_reachable order hne hreach
    obtain ⟨root, hroot⟩ := mem_group_iff hgroup
    refine ⟨group, hgroup, (Set.ext hroot).trans ?_⟩
    rw [SimpleGraph.ConnectedComponent.eq_of_common_vertex ((hroot a).mp hagroup) ha]
  · intro group hgroup
    obtain ⟨root, hroot⟩ := mem_group_iff hgroup
    have hset : {a | a ∈ group} = ((syncGraph pairs threshold).connectedComponentMk root).supp :=
      Set.ext hroot
    rw [hset]
    exact SimpleGraph.ConnectedComponent.connected_toSimpleGraph _
  · exact exists_group_of_reachable order hne (SimpleGraph.Adj.reachable ⟨hne, .inl hpaired⟩)

/-- A pair whose mean strength is no number is not below any threshold, nor at least it: its nodes are
grouped, though no edge of strength at least the threshold connects them. -/
theorem nan_pair_is_grouped :
    let pairs : List (PairStat Float32) := [⟨1, 2, 1, 0 / 0⟩]
    let strong (u v : NodeId) : Prop :=
      ∃ pair ∈ pairs, (0.5 : Float32) ≤ pair.avgStrength ∧ pair.u = u ∧ pair.v = v
    ¬ ∀ group ∈ extractComponents .listed (buildAdjacency pairs 0.5),
      ((SimpleGraph.fromRel strong).induce {a | a ∈ group}).Connected := by
  intro pairs strong h
  have hpaired : Paired pairs 0.5 1 2 := ⟨_, List.mem_singleton.mpr rfl, by decide +kernel, rfl, rfl⟩
  have hedge : (syncGraph pairs 0.5).Adj 1 2 := ⟨by decide, .inl hpaired⟩
  obtain ⟨group, hgroup, hone, htwo⟩ :=
    exists_group_of_reachable .listed (by decide) hedge.reachable
  have hweak : ¬ (0.5 : Float32) ≤ 0 / 0 := by decide +kernel
  have hempty : SimpleGraph.fromRel strong = ⊥ := by
    ext u v
    simp [strong, pairs, hweak]
  have hconnected := (h group hgroup).preconnected ⟨1, hone⟩ ⟨2, htwo⟩
  have hreach : (SimpleGraph.fromRel strong).Reachable 1 2 :=
    hconnected.map (SimpleGraph.Embedding.induce _).toHom
  rw [hempty] at hreach
  exact absurd (SimpleGraph.reachable_bot.mp hreach) (by decide)

end ClusterField

end LiminalDB
