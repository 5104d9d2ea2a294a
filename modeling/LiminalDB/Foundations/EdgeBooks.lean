import Mathlib.Data.Set.Insert
import Mathlib.Logic.Function.Basic
import Mathlib.Tactic.Tauto

/-! # Books about the edges of a graph

The nodes of a directed graph come and go, and an edge may outlast the node it leads to: then it dangles.
Three books are kept about pairs of nodes. The books are tidy when the scores are those of the edges that
do not dangle, and no book names a node that is not there. Each operation keeps them tidy as long as it
neither makes a dangling edge nor enters one; rebuilding enters every edge there is. -/

namespace LiminalDB

/-- A directed graph, and the books about pairs of its nodes. -/
@[ext] structure EdgeBooks (α : Type*) where
  /-- The targets of the edges of a node, if it is there. -/
  edges : α → Option (Set α)
  usage : Set (α × α)
  scores : Set (α × α)
  routes : Set (α × α)

namespace EdgeBooks

open scoped Classical

variable {α : Type*} (b : EdgeBooks α)

/-- Whether a node is there. -/
def There (a : α) : Prop := ∃ targets, b.edges a = some targets

/-- Whether an edge leads from one node, which is there, to another, which need not be. -/
def Edge (a c : α) : Prop := ∃ targets, b.edges a = some targets ∧ c ∈ targets

/-- An edge whose target is not there. -/
def Dangling (a c : α) : Prop := b.Edge a c ∧ ¬ b.There c

/-- A node that is there, or that an edge leads to. -/
def Occurs (a : α) : Prop := b.There a ∨ ∃ source, b.Edge source a

/-- The books are about nodes that are there, and the scores are those of the edges between them. -/
structure Tidy : Prop where
  usage : ∀ a c, (a, c) ∈ b.usage → b.There a ∧ b.There c
  scores : ∀ a c, (a, c) ∈ b.scores ↔ b.Edge a c ∧ b.There c
  routes : ∀ a c, (a, c) ∈ b.routes → b.There a ∧ b.There c

variable {b} {a c x y : α} {targets gone : Set α}

/-- A node with an edge is there. -/
theorem Edge.there (h : b.Edge a c) : b.There a := by
  obtain ⟨targets, htargets, -⟩ := h
  exact ⟨targets, htargets⟩

/-- Which nodes are there depends on the edges alone. -/
theorem there_congr {b' : EdgeBooks α} (h : b'.edges = b.edges) : b'.There x ↔ b.There x := by
  unfold There
  rw [h]

/-- So do the edges themselves, which the tables do not enter into. -/
theorem edge_congr {b' : EdgeBooks α} (h : b'.edges = b.edges) : b'.Edge x y ↔ b.Edge x y := by
  unfold Edge
  rw [h]

/-- Entries about nodes that are there do no harm, except to the scores. -/
theorem Tidy.of_entries (h : b.Tidy) {b' : EdgeBooks α} (hedges : b'.edges = b.edges)
    (hscores : b'.scores = b.scores)
    (husage : ∀ x y, (x, y) ∈ b'.usage → (x, y) ∈ b.usage ∨ b.There x ∧ b.There y)
    (hroutes : ∀ x y, (x, y) ∈ b'.routes → (x, y) ∈ b.routes ∨ b.There x ∧ b.There y) : b'.Tidy where
  usage x y hmem := by
    rw [there_congr hedges, there_congr hedges]
    exact (husage x y hmem).elim (h.usage x y) id
  scores x y := by
    rw [hscores, edge_congr hedges, there_congr hedges]
    exact h.scores x y
  routes x y hmem := by
    rw [there_congr hedges, there_congr hedges]
    exact (hroutes x y hmem).elim (h.routes x y) id

/-- An edge that does not dangle has a score. -/
theorem Tidy.insert_scores (h : b.Tidy) (hedge : b.Edge a c) (hthere : b.There c) :
    insert (a, c) b.scores = b.scores :=
  Set.insert_eq_self.mpr ((h.scores a c).mpr ⟨hedge, hthere⟩)

/-- A node that occurs in smaller books occurs in those that they are a part of. -/
theorem Occurs.of_subset {b' : EdgeBooks α} (hthere : b'.There x → b.There x)
    (hedge : ∀ source, b'.Edge source x → b.Edge source x) (h : b'.Occurs x) : b.Occurs x :=
  h.imp hthere fun ⟨source, hold⟩ => ⟨source, hedge source hold⟩

/-! ## Nodes that go -/

variable (b) in
/-- The edges are entered, where they are not yet. -/
noncomputable def enter (edges : Set (α × α)) : EdgeBooks α :=
  { b with usage := b.usage ∪ edges, scores := b.scores ∪ edges }

variable (b) in
/-- Every edge is entered. -/
noncomputable def rebuild : EdgeBooks α := b.enter { e | b.Edge e.1 e.2 }

variable (b) in
/-- Nodes go. -/
noncomputable def remove (gone : Set α) : EdgeBooks α :=
  { b with edges := fun a => if a ∈ gone then none else b.edges a }

variable (b) in
/-- What the books have about some nodes is deleted. -/
def purge (gone : Set α) : EdgeBooks α :=
  { b with
    usage := { e ∈ b.usage | e.1 ∉ gone ∧ e.2 ∉ gone }
    scores := { e ∈ b.scores | e.1 ∉ gone ∧ e.2 ∉ gone }
    routes := { e ∈ b.routes | e.1 ∉ gone ∧ e.2 ∉ gone } }

variable (b) in
/-- Nodes go, every edge that is left is entered, and what the books have about the nodes is deleted. -/
noncomputable def bury (gone : Set α) : EdgeBooks α := ((b.remove gone).rebuild).purge gone

/-- Entering two sets of edges one after the other is entering both at once. -/
theorem enter_enter (first second : Set (α × α)) :
    (b.enter first).enter second = b.enter (first ∪ second) :=
  EdgeBooks.ext rfl (Set.union_assoc ..) (Set.union_assoc ..) rfl

/-- Deleting what is about two sets of nodes one after the other is deleting it for both at once. -/
theorem purge_purge (first second : Set α) : (b.purge first).purge second = b.purge (first ∪ second) := by
  have hentries (entries : Set (α × α)) :
      { e ∈ { e ∈ entries | e.1 ∉ first ∧ e.2 ∉ first } | e.1 ∉ second ∧ e.2 ∉ second } =
        { e ∈ entries | e.1 ∉ first ∪ second ∧ e.2 ∉ first ∪ second } := by
    ext e
    simp only [Set.mem_ofPred_eq, Set.mem_union, not_or]
    tauto
  exact EdgeBooks.ext rfl (hentries _) (hentries _) (hentries _)

/-- When no nodes go the books stay as they are. -/
theorem remove_empty : b.remove ∅ = b :=
  EdgeBooks.ext (funext fun _ => if_neg (Set.notMem_empty _)) rfl rfl rfl

/-- Deleting what is about no nodes changes nothing. -/
theorem purge_empty : b.purge ∅ = b := by
  simp [purge]

/-- Left are the nodes that were there and have not gone. -/
@[simp] theorem there_remove : (b.remove gone).There x ↔ b.There x ∧ x ∉ gone := by
  unfold There remove
  by_cases hgone : x ∈ gone <;> simp [hgone]

/-- Left are their edges, those to nodes that have gone included. -/
@[simp] theorem edge_remove : (b.remove gone).Edge x y ↔ b.Edge x y ∧ x ∉ gone := by
  unfold Edge remove
  by_cases hgone : x ∈ gone <;> simp [hgone]

/-- After a burial the nodes that have not gone are left. -/
@[simp] theorem there_bury : (b.bury gone).There x ↔ b.There x ∧ x ∉ gone := there_remove

/-- So are their edges, for entering and deleting concern the tables only. -/
@[simp] theorem edge_bury : (b.bury gone).Edge x y ↔ b.Edge x y ∧ x ∉ gone := edge_remove

/-- Nodes go: an edge that has dangled before goes with them. -/
theorem Tidy.bury (h : b.Tidy) (hdangling : ∀ x y, b.Dangling x y → x ∈ gone ∨ y ∈ gone) :
    (b.bury gone).Tidy where
  usage x y hmem := by
    rw [there_bury, there_bury]
    obtain ⟨hentered, hx, hy⟩ := hmem
    rcases hentered with hold | hedge
    · exact ⟨⟨(h.usage x y hold).1, hx⟩, (h.usage x y hold).2, hy⟩
    · obtain ⟨hedge, -⟩ := edge_remove.mp hedge
      refine ⟨⟨hedge.there, hx⟩, ?_, hy⟩
      by_contra hgone
      exact (hdangling x y ⟨hedge, hgone⟩).elim hx hy
  scores x y := by
    rw [edge_bury, there_bury]
    have hentered : (x, y) ∈ (b.bury gone).scores ↔
        ((b.Edge x y ∧ b.There y) ∨ (b.Edge x y ∧ x ∉ gone)) ∧ x ∉ gone ∧ y ∉ gone :=
      and_congr_left fun _ => or_congr (h.scores x y) edge_remove
    rw [hentered]
    constructor
    · rintro ⟨⟨hedge, hthere⟩ | ⟨hedge, -⟩, hx, hy⟩
      · exact ⟨⟨hedge, hx⟩, hthere, hy⟩
      · refine ⟨⟨hedge, hx⟩, ?_, hy⟩
        by_contra hgone
        exact (hdangling x y ⟨hedge, hgone⟩).elim hx hy
    · rintro ⟨⟨hedge, hx⟩, hthere, hy⟩
      exact ⟨Or.inl ⟨hedge, hthere⟩, hx, hy⟩
  routes x y hmem := by
    rw [there_bury, there_bury]
    obtain ⟨hold, hx, hy⟩ := hmem
    exact ⟨⟨(h.routes x y hold).1, hx⟩, (h.routes x y hold).2, hy⟩

/-- Every edge is entered, and none dangles. -/
theorem tidy_rebuild (husage : ∀ x y, (x, y) ∈ b.usage → b.There x ∧ b.There y)
    (hscores : ∀ x y, (x, y) ∈ b.scores → b.Edge x y)
    (hroutes : ∀ x y, (x, y) ∈ b.routes → b.There x ∧ b.There y) (hnone : ∀ x y, ¬ b.Dangling x y) :
    b.rebuild.Tidy := by
  have hends {x y : α} (hedge : b.Edge x y) : b.There y := by
    by_contra hgone
    exact hnone x y ⟨hedge, hgone⟩
  refine ⟨fun x y hmem => ?_, fun x y => ?_, hroutes⟩
  · exact hmem.elim (husage x y) fun hedge => ⟨Edge.there hedge, hends hedge⟩
  · refine ⟨fun hmem => ?_, fun h => Or.inr h.1⟩
    have hedge : b.Edge x y := hmem.elim (hscores x y) id
    exact ⟨hedge, hends hedge⟩

/-! ## Nodes and edges that come -/

variable [DecidableEq α]

variable (b) in
/-- A node comes, or comes anew, with its edges. -/
noncomputable def attach (a : α) (targets : Set α) : EdgeBooks α :=
  { b with edges := Function.update b.edges a (some targets) }.enter { e | e.1 = a ∧ e.2 ∈ targets }

variable (b) in
/-- An edge comes, if its source is there and it is new. -/
noncomputable def link (a c : α) : EdgeBooks α :=
  if b.There a ∧ ¬ b.Edge a c then
    { b with edges := Function.update b.edges a ((b.edges a).map (insert c)) }.enter {(a, c)}
  else b

variable (b) in
/-- An edge goes. -/
noncomputable def unlink (a c : α) : EdgeBooks α :=
  { b with
    edges := Function.update b.edges a ((b.edges a).map (· \ {c}))
    usage := b.usage \ {(a, c)}
    scores := b.scores \ {(a, c)} }

/-- The node that comes is there, and those that were. -/
@[simp] theorem there_attach : (b.attach a targets).There x ↔ b.There x ∨ x = a := by
  unfold There attach enter
  by_cases heq : x = a
  · subst heq
    simp [Function.update_self]
  · simp [heq]

/-- Its edges are the new ones, whatever it had before, and the other nodes keep theirs. -/
@[simp] theorem edge_attach :
    (b.attach a targets).Edge x y ↔ (x ≠ a ∧ b.Edge x y) ∨ (x = a ∧ y ∈ targets) := by
  unfold Edge attach enter
  by_cases heq : x = a
  · subst heq
    simp [Function.update_self]
  · simp [heq]

/-- A new edge makes no node. -/
@[simp] theorem there_link : (b.link a c).There x ↔ b.There x := by
  unfold link
  split
  · rename_i hnew
    obtain ⟨⟨targets, htargets⟩, -⟩ := hnew
    unfold There enter
    by_cases heq : x = a
    · subst heq
      simp [Function.update_self, htargets]
    · simp [heq]
  · exact Iff.rfl

/-- It is there next to the edges from before, if its source is there. -/
@[simp] theorem edge_link :
    (b.link a c).Edge x y ↔ b.Edge x y ∨ (x = a ∧ y = c ∧ b.There a) := by
  unfold link
  split
  · rename_i hnew
    obtain ⟨⟨targets, htargets⟩, -⟩ := hnew
    have hthere : b.There a := ⟨targets, htargets⟩
    unfold Edge enter
    by_cases heq : x = a
    · subst heq
      simp [Function.update_self, htargets, hthere, or_comm]
    · simp [heq]
  · rename_i hold
    refine (or_iff_left_of_imp ?_).symm
    rintro ⟨rfl, rfl, hthere⟩
    by_contra hno
    exact hold ⟨hthere, hno⟩

/-- No node goes with an edge. -/
@[simp] theorem there_unlink : (b.unlink a c).There x ↔ b.There x := by
  unfold There unlink
  by_cases heq : x = a
  · subst heq
    simp [Function.update_self]
  · simp [Function.update_of_ne heq]

/-- The edge is gone, and the other edges are left. -/
@[simp] theorem edge_unlink : (b.unlink a c).Edge x y ↔ b.Edge x y ∧ (x, y) ≠ (a, c) := by
  unfold Edge unlink
  by_cases heq : x = a
  · subst heq
    simp only [Function.update_self, Option.map_eq_some_iff, ne_eq, Prod.mk.injEq, true_and]
    constructor
    · rintro ⟨_, ⟨targets, htargets, rfl⟩, hmem, hne⟩
      exact ⟨⟨targets, htargets, hmem⟩, hne⟩
    · rintro ⟨⟨targets, htargets, hmem⟩, hne⟩
      exact ⟨_, ⟨targets, htargets, rfl⟩, hmem, hne⟩
  · simp [heq]

/-- A node comes: its edges lead to nodes, it leaves no edge of an earlier self behind, and no edge has
been waiting for it. -/
theorem Tidy.attach (h : b.Tidy) (htargets : ∀ y ∈ targets, b.There y ∨ y = a)
    (hkept : ∀ y, b.Edge a y → b.There y → y ∈ targets) (hinto : ∀ x, ¬ b.Dangling x a) :
    (b.attach a targets).Tidy where
  usage x y hmem := by
    rw [there_attach, there_attach]
    rcases hmem with hold | ⟨rfl, hnew⟩
    · exact ⟨Or.inl (h.usage x y hold).1, Or.inl (h.usage x y hold).2⟩
    · exact ⟨Or.inr rfl, htargets y hnew⟩
  scores x y := by
    have hentered : (x, y) ∈ (b.attach a targets).scores ↔
        (b.Edge x y ∧ b.There y) ∨ (x = a ∧ y ∈ targets) := or_congr (h.scores x y) Iff.rfl
    rw [hentered, edge_attach, there_attach]
    constructor
    · rintro (⟨hedge, hthere⟩ | ⟨rfl, hnew⟩)
      · by_cases heq : x = a
        · subst heq
          exact ⟨Or.inr ⟨rfl, hkept y hedge hthere⟩, Or.inl hthere⟩
        · exact ⟨Or.inl ⟨heq, hedge⟩, Or.inl hthere⟩
      · exact ⟨Or.inr ⟨rfl, hnew⟩, htargets y hnew⟩
    · rintro ⟨⟨hne, hedge⟩ | ⟨rfl, hnew⟩, hthere⟩
      · refine Or.inl ⟨hedge, hthere.elim id ?_⟩
        -- an edge that was there before its target did not dangle
        rintro rfl
        by_contra hgone
        exact hinto x ⟨hedge, hgone⟩
      · exact Or.inr ⟨rfl, hnew⟩
  routes x y hmem := by
    rw [there_attach, there_attach]
    exact ⟨Or.inl (h.routes x y hmem).1, Or.inl (h.routes x y hmem).2⟩

/-- An edge that leads to a node that is there, or that was there before, leaves the books tidy. -/
theorem Tidy.link (h : b.Tidy) (htarget : b.There a → b.Edge a c ∨ b.There c) : (b.link a c).Tidy := by
  by_cases hnew : b.There a ∧ ¬ b.Edge a c
  · have hthere : b.There c := (htarget hnew.1).resolve_left hnew.2
    have hlinked : b.link a c =
        { b with edges := Function.update b.edges a ((b.edges a).map (insert c)) }.enter {(a, c)} :=
      if_pos hnew
    refine ⟨fun x y hmem => ?_, fun x y => ?_, fun x y hmem => ?_⟩
    · rw [there_link, there_link]
      rw [hlinked] at hmem
      rcases hmem with hold | heq
      · exact h.usage x y hold
      · cases heq
        exact ⟨hnew.1, hthere⟩
    · rw [edge_link, there_link, hlinked]
      refine (or_congr (h.scores x y) Iff.rfl).trans ?_
      constructor
      · rintro (⟨hedge, hthere⟩ | heq)
        · exact ⟨Or.inl hedge, hthere⟩
        · cases heq
          exact ⟨Or.inr ⟨rfl, rfl, hnew.1⟩, hthere⟩
      · rintro ⟨hedge | ⟨rfl, rfl, -⟩, hthere⟩
        · exact Or.inl ⟨hedge, hthere⟩
        · exact Or.inr rfl
    · rw [there_link, there_link]
      rw [hlinked] at hmem
      exact h.routes x y hmem
  · have hsame : b.link a c = b := if_neg hnew
    rw [hsame]
    exact h

/-- An edge that goes with its entries leaves them tidy. -/
theorem Tidy.unlink (h : b.Tidy) (a c : α) : (b.unlink a c).Tidy where
  usage x y hmem := by
    rw [there_unlink, there_unlink]
    exact h.usage x y hmem.1
  scores x y := by
    rw [edge_unlink, there_unlink, and_right_comm]
    exact and_congr (h.scores x y) Iff.rfl
  routes x y hmem := by
    rw [there_unlink, there_unlink]
    exact h.routes x y hmem

/-- A node that comes brings no other node into the books, if its edges lead to nodes or to itself. -/
theorem Occurs.of_attach (h : (b.attach a targets).Occurs x)
    (htargets : ∀ y ∈ targets, b.There y ∨ y = a) : b.Occurs x ∨ x = a := by
  rcases h with hthere | ⟨source, hedge⟩
  · exact (there_attach.mp hthere).imp_left Or.inl
  · rcases edge_attach.mp hedge with ⟨-, hold⟩ | ⟨-, hnew⟩
    · exact Or.inl (Or.inr ⟨source, hold⟩)
    · exact (htargets x hnew).imp_left Or.inl

/-- Neither does an edge that leads to a node, or that was there before. -/
theorem Occurs.of_link (h : (b.link a c).Occurs x) (htarget : b.There a → b.Edge a c ∨ b.There c) :
    b.Occurs x := by
  rcases h with hthere | ⟨source, hedge⟩
  · exact Or.inl (there_link.mp hthere)
  · rcases edge_link.mp hedge with hold | ⟨rfl, rfl, hsource⟩
    · exact Or.inr ⟨source, hold⟩
    · exact (htarget hsource).elim (fun hold => Or.inr ⟨source, hold⟩) Or.inl

/-- An edge to a node that is there makes no other edge dangle. -/
theorem Dangling.of_link (h : (b.link a c).Dangling x y) (htarget : b.There c) : b.Dangling x y := by
  obtain ⟨hedge, hgone⟩ := h
  rw [there_link] at hgone
  refine ⟨(edge_link.mp hedge).resolve_right ?_, hgone⟩
  rintro ⟨-, rfl, -⟩
  exact hgone htarget

/-- An edge that dangles after another one has gone has dangled before. -/
theorem Dangling.of_unlink (h : (b.unlink a c).Dangling x y) : b.Dangling x y :=
  ⟨(edge_unlink.mp h.1).1, fun hthere => h.2 (there_unlink.mpr hthere)⟩

/-- A link to a node that comes may as well come after it. -/
theorem attach_link_comm (hne : a ≠ c) : (b.link a c).attach c targets = (b.attach c targets).link a c := by
  have hguard : ((b.attach c targets).There a ∧ ¬ (b.attach c targets).Edge a c) ↔
      (b.There a ∧ ¬ b.Edge a c) := by
    simp [hne]
  unfold link
  by_cases hnew : b.There a ∧ ¬ b.Edge a c
  · rw [if_pos hnew, if_pos (hguard.mpr hnew)]
    unfold attach enter
    refine EdgeBooks.ext ?_ (Set.union_right_comm ..) (Set.union_right_comm ..) rfl
    dsimp only
    rw [Function.update_of_ne hne, Function.update_comm hne]
  · rw [if_neg hnew, if_neg fun hnow => hnew (hguard.mp hnow)]

end EdgeBooks

end LiminalDB
