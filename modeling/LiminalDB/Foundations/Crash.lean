import Mathlib.Data.Set.Insert
import Mathlib.Logic.Relation
import Mathlib.Order.SetNotation
import Mathlib.Tactic.Common

/-! # Procedures that a crash can stop

A procedure changes durable state step by step. Besides the state it ends in, a `Procedure` knows
every state a crash may leave behind: the states between two steps, and within a write every file
that holds a prefix of the new contents.

`Guarded pre p crash post` is a triple with a crash condition: started where `pre` holds, the
procedure leaves only states with `crash` behind, whenever it is stopped, and ends in a state with
`post`. There is one rule per constructor. -/

namespace LiminalDB

variable {σ α : Type*}

/-- Where a procedure ends, and where it can be stopped. -/
structure Procedure (σ : Type*) where
  /-- The state at the end of a complete run. -/
  run : σ → σ
  /-- The states a crash can leave. -/
  visits : σ → Set σ
  /-- It can be stopped before it has done anything. -/
  start_mem : ∀ s, s ∈ visits s
  /-- It can be stopped when it has done everything. -/
  run_mem : ∀ s, run s ∈ visits s

namespace Procedure

/-- Nothing to do. -/
def skip : Procedure σ where
  run := id
  visits s := {s}
  start_mem _ := rfl
  run_mem _ := rfl

/-- One step that is done or not done, such as a rename or a removal. -/
def atomic (f : σ → σ) : Procedure σ where
  run := f
  visits s := {s, f s}
  start_mem s := Set.mem_insert s _
  run_mem s := Set.mem_insert_of_mem s rfl

/-- Write `data` piece by piece, where `put` stores what has been written so far. -/
def writing (put : List α → σ → σ) (data : List α) : Procedure σ where
  run := put data
  visits s := insert s {t | ∃ written, written <+: data ∧ t = put written s}
  start_mem s := Set.mem_insert s _
  run_mem s := Set.mem_insert_of_mem s ⟨data, List.prefix_rfl, rfl⟩

/-- One procedure after the other. -/
def seq (p q : Procedure σ) : Procedure σ where
  run s := q.run (p.run s)
  visits s := p.visits s ∪ q.visits (p.run s)
  start_mem s := Set.mem_union_left _ (p.start_mem s)
  run_mem s := Set.mem_union_right _ (q.run_mem (p.run s))

/-- Decide on the state and go on with one of two procedures. -/
def branch (c : σ → Bool) (p q : Procedure σ) : Procedure σ where
  run s := if c s then p.run s else q.run s
  visits s := if c s then p.visits s else q.visits s
  start_mem s := by
    split
    · exact p.start_mem s
    · exact q.start_mem s
  run_mem s := by
    split
    · exact p.run_mem s
    · exact q.run_mem s

/-- An atomic step that is only made where it applies. -/
def atomicIf (c : σ → Bool) (f : σ → σ) : Procedure σ := branch c (atomic f) skip

section Run

variable (p q : Procedure σ) (c : σ → Bool) (f : σ → σ) (s : σ)

/-- A program after another runs from where that one ends. -/
@[simp] theorem seq_run : (p.seq q).run s = q.run (p.run s) := rfl

/-- A branch runs one of its programs. -/
@[simp] theorem branch_run : (branch c p q).run s = if c s then p.run s else q.run s := rfl

/-- A conditional step is made or not. -/
@[simp] theorem atomicIf_run : (atomicIf c f).run s = if c s then f s else s := rfl

/-- Writing all of the data writes it as a whole. -/
@[simp] theorem writing_run (put : List α → σ → σ) (data : List α) :
    (writing put data).run s = put data s := rfl

end Run

/-- Any number of attempts, each stopped somewhere, the next one started from what was left. -/
def Interrupted (p : Procedure σ) : σ → σ → Prop :=
  Relation.ReflTransGen fun s t => t ∈ p.visits s

/-! ## Triples with a crash condition -/

/-- Started where `pre` holds, `p` leaves `crash` behind wherever it is stopped and ends with
`post`. -/
def Guarded (pre : σ → Prop) (p : Procedure σ) (crash post : σ → Prop) : Prop :=
  ∀ s, pre s → (∀ t ∈ p.visits s, crash t) ∧ post (p.run s)

section Guarded

variable {pre mid post crash : σ → Prop} {p q : Procedure σ}

/-- Every state that a guarded program visits is safe to crash in. -/
theorem Guarded.of_visits {s t : σ} (h : Guarded pre p crash post) (hs : pre s)
    (ht : t ∈ p.visits s) : crash t :=
  (h s hs).1 t ht

/-- More may be asked before a program, and less of the states it visits and of its end. -/
theorem Guarded.imp {pre' crash' post' : σ → Prop} (h : Guarded pre p crash post)
    (hpre : ∀ s, pre' s → pre s) (hcrash : ∀ s, crash s → crash' s)
    (hpost : ∀ s, post s → post' s) : Guarded pre' p crash' post' := by
  intro s hs
  obtain ⟨hvisits, hrun⟩ := h s (hpre s hs)
  exact ⟨fun t ht => hcrash t (hvisits t ht), hpost _ hrun⟩

/-- Doing nothing is guarded where the state is safe already. -/
theorem Guarded.skip (h : ∀ s, pre s → crash s ∧ post s) : Guarded pre skip crash post := by
  intro s hs
  refine ⟨fun t ht => ?_, (h s hs).2⟩
  obtain rfl : t = s := ht
  exact (h t hs).1

/-- A single step is guarded if the states before and after it are safe. -/
theorem Guarded.atomic {f : σ → σ} (h : ∀ s, pre s → crash s ∧ crash (f s) ∧ post (f s)) :
    Guarded pre (atomic f) crash post := by
  intro s hs
  obtain ⟨hbefore, hafter, hpost⟩ := h s hs
  refine ⟨fun t ht => ?_, hpost⟩
  obtain rfl | rfl : t = s ∨ t = f s := ht
  · exact hbefore
  · exact hafter

/-- A write in pieces: the crash condition must hold of every prefix. -/
theorem Guarded.writing {put : List α → σ → σ} {data : List α}
    (h : ∀ s, pre s → crash s ∧ (∀ written, written <+: data → crash (put written s)) ∧
      post (put data s)) : Guarded pre (writing put data) crash post := by
  intro s hs
  obtain ⟨hbefore, hduring, hpost⟩ := h s hs
  refine ⟨fun t ht => ?_, hpost⟩
  obtain rfl | ⟨written, hprefix, rfl⟩ := ht
  · exact hbefore
  · exact hduring written hprefix

/-- Two programs after one another are guarded if what the first ends with is what the second starts
from. -/
theorem Guarded.seq (hp : Guarded pre p crash mid) (hq : Guarded mid q crash post) :
    Guarded pre (p.seq q) crash post := by
  intro s hs
  obtain ⟨hvisits, hmid⟩ := hp s hs
  obtain ⟨hvisits', hpost⟩ := hq _ hmid
  refine ⟨fun t ht => ?_, hpost⟩
  rcases ht with ht | ht
  · exact hvisits t ht
  · exact hvisits' t ht

/-- A branch is guarded if both programs are, each under its condition. -/
theorem Guarded.branch {c : σ → Bool} (hp : Guarded (fun s => pre s ∧ c s = true) p crash post)
    (hq : Guarded (fun s => pre s ∧ c s = false) q crash post) :
    Guarded pre (branch c p q) crash post := by
  intro s hs
  unfold Procedure.branch
  cases hc : c s with
  | true => simpa [hc] using hp s ⟨hs, hc⟩
  | false => simpa [hc] using hq s ⟨hs, hc⟩

/-- So is a conditional step. -/
theorem Guarded.atomicIf {c : σ → Bool} {f : σ → σ} (hcrash : ∀ s, pre s → crash s)
    (hdone : ∀ s, pre s → c s = true → crash (f s) ∧ post (f s))
    (hskipped : ∀ s, pre s → c s = false → post s) :
    Guarded pre (atomicIf c f) crash post := by
  refine .branch (.atomic fun s hs => ?_) (.skip fun s hs => ?_)
  · exact ⟨hcrash s hs.1, hdone s hs.1 hs.2⟩
  · exact ⟨hcrash s hs.1, hskipped s hs.1 hs.2⟩

/-- A condition that every stopped attempt keeps survives any number of them. -/
theorem Guarded.interrupted {s t : σ} (h : Guarded pre p pre post) (hs : pre s)
    (ht : p.Interrupted s t) : pre t := by
  induction ht with
  | refl => exact hs
  | tail _ hstep ih => exact h.of_visits ih hstep

end Guarded

end Procedure

end LiminalDB
