import Mathlib.Data.Finset.Card
import Mathlib.Data.Finset.SDiff
import Mathlib.Logic.Relation

/-! # Searching what can be reached

A worklist search through a finite graph that is given by lists of neighbours. The vertices that were seen
are shared by searches one after another: what they have seen stays closed (`Closed.search`), so that a
search finds what can be reached from its root and has not been seen before (`mem_search_iff`). -/

namespace LiminalDB

open Relation

/-- Lists of neighbours, for finitely many vertices. -/
structure NeighborMap (α : Type*) where
  keys : Finset α
  get : α → Option (List α)
  mem_keys : ∀ {a neighbors}, get a = some neighbors → a ∈ keys

namespace NeighborMap

variable {α : Type*}

/-- The neighbours of a vertex: none without a list. -/
def neighbors (graph : NeighborMap α) (a : α) : List α := (graph.get a).getD []

/-- What can be reached along the lists. -/
def Reach (graph : NeighborMap α) : α → α → Prop := ReflTransGen fun a b => b ∈ graph.neighbors a

/-- The search: the last vertex of the queue, here its head, is taken off, and if it was not seen yet, it
is added to the component and its neighbours to the queue. -/
def search [DecidableEq α] (graph : NeighborMap α) (seen : Finset α) (queue component : List α) :
    Finset α × List α :=
  match queue with
  | [] => (seen, component)
  | current :: queue =>
      if current ∈ seen then graph.search seen queue component
      else graph.search (insert current seen)
        (((graph.neighbors current).filter (· ∉ insert current seen)).reverse ++ queue)
        (component ++ [current])
termination_by ((graph.keys \ seen).card, queue.length)
decreasing_by
  · exact Prod.Lex.right _ (Nat.lt_succ_self _)
  · rename_i hnew
    rw [Finset.sdiff_insert]
    cases hget : graph.get current with
    | none =>
        -- A vertex without a list only leaves the queue.
        have hle : ((graph.keys \ seen).erase current).card ≤ (graph.keys \ seen).card :=
          Finset.card_erase_le
        rcases hle.lt_or_eq with hlt | heq
        · exact Prod.Lex.left _ _ hlt
        · rw [heq, neighbors, hget]
          exact Prod.Lex.right _ (Nat.lt_succ_self _)
    | some neighbors =>
        have hmem := Finset.mem_sdiff.mpr ⟨graph.mem_keys hget, hnew⟩
        exact Prod.Lex.left _ _ (Finset.card_erase_lt_of_mem hmem)

/-- No list leads out of what was seen. -/
def Closed (graph : NeighborMap α) (seen : Finset α) : Prop :=
  ∀ a ∈ seen, ∀ b ∈ graph.neighbors a, b ∈ seen

variable {graph : NeighborMap α}

/-- What is reached from a closed set is in it, by induction over the path. -/
theorem Closed.of_reach {seen : Finset α} (h : graph.Closed seen) {a b : α} (ha : a ∈ seen)
    (hreach : graph.Reach a b) : b ∈ seen := by
  induction hreach with
  | refl => exact ha
  | tail _ hstep ih => exact h _ ih _ hstep

/-- What holds of a search from `root` in each round, when `start` was seen before. -/
structure Searching (graph : NeighborMap α) (start : Finset α) (root : α) (seen : Finset α)
    (queue component : List α) : Prop where
  nodup : component.Nodup
  mem_seen : ∀ b, b ∈ seen ↔ b ∈ start ∨ b ∈ component
  fresh : ∀ b ∈ component, b ∉ start
  reach : ∀ b, b ∈ component ∨ b ∈ queue → graph.Reach root b
  /-- What neighbours the component was seen, or will be. -/
  frontier : ∀ a ∈ component, ∀ b ∈ graph.neighbors a, b ∈ seen ∨ b ∈ queue
  root : root ∈ seen ∨ root ∈ queue

variable {start seen : Finset α} {root : α} {queue component : List α}

/-- A search that has only entered its root is under way. -/
theorem searching_root (start : Finset α) (root : α) : graph.Searching start root start [root] [] where
  nodup := List.nodup_nil
  mem_seen := by simp
  fresh := by simp
  reach := by
    rintro b (h | h)
    · cases h
    · obtain rfl := List.mem_singleton.mp h
      exact ReflTransGen.refl
  frontier := by simp
  root := by simp

/-- A vertex that was seen before is passed. -/
theorem Searching.skip {current : α} (h : graph.Searching start root seen (current :: queue) component)
    (hseen : current ∈ seen) : graph.Searching start root seen queue component where
  nodup := h.nodup
  mem_seen := h.mem_seen
  fresh := h.fresh
  reach b hb := h.reach b (hb.imp_right (List.mem_cons_of_mem _))
  frontier a ha b hb := by
    rcases h.frontier a ha b hb with hold | hqueue
    · exact .inl hold
    · rcases List.mem_cons.mp hqueue with rfl | hrest
      · exact .inl hseen
      · exact .inr hrest
  root := by
    rcases h.root with hold | hqueue
    · exact .inl hold
    · rcases List.mem_cons.mp hqueue with rfl | hrest
      · exact .inl hseen
      · exact .inr hrest

/-- Where neighbours are mutual, nothing that was seen can be reached from what was not. -/
theorem Closed.not_mem_of_reach (hsymm : ∀ a b, b ∈ graph.neighbors a → a ∈ graph.neighbors b)
    (hclosed : graph.Closed start) {a b : α} (ha : a ∉ start) (hreach : graph.Reach a b) : b ∉ start := by
  have hback : graph.Reach b a := by
    induction hreach with
    | refl => exact ReflTransGen.refl
    | tail _ hstep ih => exact ReflTransGen.head (hsymm _ _ hstep) ih
  exact fun hb => ha (hclosed.of_reach hb hback)

variable [DecidableEq α]

/-- A new vertex joins the component, and its neighbours are queued. -/
theorem Searching.visit {current : α} (h : graph.Searching start root seen (current :: queue) component)
    (hnew : current ∉ seen) :
    graph.Searching start root (insert current seen)
      (((graph.neighbors current).filter (· ∉ insert current seen)).reverse ++ queue)
      (component ++ [current]) := by
  have hcurrent : graph.Reach root current := h.reach current (.inr List.mem_cons_self)
  have hcomponent : ∀ b, b ∈ component ++ [current] ↔ b ∈ component ∨ b = current := by simp
  -- What was seen or queued still is.
  have hkept : ∀ b, b ∈ seen ∨ b ∈ current :: queue → b ∈ insert current seen ∨
      b ∈ ((graph.neighbors current).filter (· ∉ insert current seen)).reverse ++ queue := by
    rintro b (hold | hqueue)
    · exact .inl (Finset.mem_insert_of_mem hold)
    · rcases List.mem_cons.mp hqueue with rfl | hrest
      · exact .inl (Finset.mem_insert_self _ _)
      · exact .inr (List.mem_append_right _ hrest)
  constructor
  · refine List.nodup_append.mpr ⟨h.nodup, List.nodup_singleton _, ?_⟩
    rintro b hb c hc rfl
    obtain rfl := List.mem_singleton.mp hc
    exact hnew ((h.mem_seen b).mpr (.inr hb))
  · intro b
    rw [Finset.mem_insert, h.mem_seen b, hcomponent]
    tauto
  · intro b hb hstart
    rcases (hcomponent b).mp hb with hold | rfl
    · exact h.fresh b hold hstart
    · exact hnew ((h.mem_seen b).mpr (.inl hstart))
  · rintro b (hb | hb)
    · rcases (hcomponent b).mp hb with hold | rfl
      · exact h.reach b (.inl hold)
      · exact hcurrent
    · rcases List.mem_append.mp hb with hneighbor | hrest
      · exact hcurrent.tail (List.mem_of_mem_filter (List.mem_reverse.mp hneighbor))
      · exact h.reach b (.inr (List.mem_cons_of_mem _ hrest))
  · intro a ha b hb
    rcases (hcomponent a).mp ha with hold | rfl
    · exact hkept b (h.frontier a hold b hb)
    · by_cases hseen : b ∈ insert a seen
      · exact .inl hseen
      · refine .inr (List.mem_append_left _ (List.mem_reverse.mpr (List.mem_filter.mpr ⟨hb, ?_⟩)))
        simpa using hseen
  · exact hkept root h.root

/-- The search ends with an empty queue. -/
theorem Searching.search (h : graph.Searching start root seen queue component) :
    graph.Searching start root (graph.search seen queue component).1 []
      (graph.search seen queue component).2 := by
  induction seen, queue, component using search.induct graph with
  | case1 seen component =>
      rw [NeighborMap.search]
      exact h
  | case2 seen component current queue hseen ih =>
      rw [NeighborMap.search, if_pos hseen]
      exact ih (h.skip hseen)
  | case3 seen component current queue hnew ih =>
      rw [NeighborMap.search, if_neg hnew]
      exact ih (h.visit hnew)

section Found

variable (hclosed : graph.Closed start)

include hclosed

/-- What was seen stays closed. -/
theorem Closed.search (root : α) : graph.Closed (graph.search start [root] []).1 := by
  have h := (@searching_root _ graph start root).search
  intro a ha b hb
  rcases (h.mem_seen a).mp ha with hold | hnew
  · exact (h.mem_seen b).mpr (.inl (hclosed a hold b hb))
  · exact (h.frontier a hnew b hb).resolve_right List.not_mem_nil

/-- A search finds what can be reached from its root and was not seen before. -/
theorem mem_search_iff (root b : α) :
    b ∈ (graph.search start [root] []).2 ↔ graph.Reach root b ∧ b ∉ start := by
  have h := (@searching_root _ graph start root).search
  refine ⟨fun hb => ⟨h.reach b (.inl hb), h.fresh b hb⟩, fun hb => ?_⟩
  have hroot := h.root.resolve_right List.not_mem_nil
  have hseen := (Closed.search hclosed root).of_reach hroot hb.1
  exact ((h.mem_seen b).mp hseen).resolve_left hb.2

end Found

/-- A search visits nothing twice. -/
theorem nodup_search (graph : NeighborMap α) (start : Finset α) (root : α) :
    (graph.search start [root] []).2.Nodup :=
  (searching_root start root).search.nodup

/-- After a search there has been seen what was seen before it, and what it has visited. -/
theorem mem_search_seen (graph : NeighborMap α) (start : Finset α) (root b : α) :
    b ∈ (graph.search start [root] []).1 ↔ b ∈ start ∨ b ∈ (graph.search start [root] []).2 :=
  (searching_root start root).search.mem_seen b

/-- The root has been seen after its search. -/
theorem root_mem_search (graph : NeighborMap α) (start : Finset α) (root : α) :
    root ∈ (graph.search start [root] []).1 :=
  (searching_root start root).search.root.resolve_right List.not_mem_nil

end NeighborMap

end LiminalDB
