import Mathlib.Data.List.Perm.Basic
import Mathlib.Data.List.Pairwise
import Mathlib.Data.String.Basic

/-! # The entries of a map, in the order of their keys

A map that is part of a recursive value is the list of its entries. `insertEntry` keeps them in order: what
is put in one after another under different keys is all there in the end, and keys that ascend determine the
list. -/

namespace LiminalDB

variable {κ α : Type*}

/-- `BTreeMap::insert`: an old value under the key is replaced, its key stays. -/
def insertEntry (cmp : κ → κ → Ordering) (key : κ) (value : α) : List (κ × α) → List (κ × α)
  | [] => [(key, value)]
  | (k, v) :: rest =>
      match cmp key k with
      | .lt => (key, value) :: (k, v) :: rest
      | .eq => (k, value) :: rest
      | .gt => (k, v) :: insertEntry cmp key value rest

variable {cmp : κ → κ → Ordering} {key : κ} {value : α} {entries : List (κ × α)}

/-- Keys and values come from the old entries or the new one. -/
theorem forall_insertEntry {P : κ → Prop} {Q : α → Prop} (hkey : P key) (hvalue : Q value)
    (h : ∀ e ∈ entries, P e.1 ∧ Q e.2) : ∀ e ∈ insertEntry cmp key value entries, P e.1 ∧ Q e.2 := by
  induction entries with
  | nil => simpa [insertEntry] using ⟨hkey, hvalue⟩
  | cons entry rest ih =>
      have hfirst := h entry (by simp)
      have hrest : ∀ e ∈ rest, P e.1 ∧ Q e.2 := fun e he => h e (List.mem_cons_of_mem _ he)
      rw [insertEntry]
      split
      · exact List.forall_mem_cons.mpr ⟨⟨hkey, hvalue⟩, h⟩
      · exact List.forall_mem_cons.mpr ⟨⟨hfirst.1, hvalue⟩, hrest⟩
      · exact List.forall_mem_cons.mpr ⟨hfirst, ih hrest⟩

/-- A new key adds an entry. -/
theorem insertEntry_perm (value : α) (hnew : ∀ e ∈ entries, cmp key e.1 ≠ .eq) :
    (insertEntry cmp key value entries).Perm ((key, value) :: entries) := by
  induction entries with
  | nil => exact List.Perm.refl _
  | cons entry rest ih =>
      have hrest := ih fun e he => hnew e (List.mem_cons_of_mem _ he)
      rw [insertEntry]
      split
      · exact List.Perm.refl _
      · rename_i heq
        exact absurd heq (hnew entry (by simp))
      · exact (hrest.cons entry).trans (List.Perm.swap ..)

/-- The keys ascend. -/
def Ascending [LT κ] (entries : List (κ × α)) : Prop := entries.Pairwise fun a b => a.1 < b.1

/-- Entries are determined by what they are when their keys ascend. -/
theorem Ascending.eq_of_perm [Preorder κ] {l l' : List (κ × α)} (h : Ascending l) (h' : Ascending l')
    (hperm : l.Perm l') : l = l' := by
  refine hperm.eq_of_pairwise (fun a b _ _ hab hba => ?_) h h'
  exact absurd hba (lt_asymm hab)

/-- Different keys, put in one after another. -/
theorem foldl_insertEntry_perm {more : List (κ × α)} (hcmp : ∀ k ∈ more, ∀ e ∈ entries, cmp k.1 e.1 ≠ .eq)
    (hnew : more.Pairwise fun a b => cmp b.1 a.1 ≠ .eq) :
    (more.foldl (fun map e => insertEntry cmp e.1 e.2 map) entries).Perm (entries ++ more) := by
  induction more generalizing entries with
  | nil => simp
  | cons entry more ih =>
      obtain ⟨hentry, hmore⟩ := List.pairwise_cons.mp hnew
      have hperm := insertEntry_perm entry.2 (hcmp entry (by simp))
      refine (ih (fun k hk e he => ?_) hmore).trans ((hperm.append_right more).trans ?_)
      · rcases List.mem_cons.mp (hperm.mem_iff.mp he) with rfl | hold
        · exact hentry k hk
        · exact hcmp k (List.mem_cons_of_mem _ hk) e hold
      · exact (List.perm_middle (a := entry)).symm

/-- What holds of the entries of a map and of those that are inserted holds of all entries afterwards. -/
theorem foldl_forall_insertEntry {P : κ → Prop} {Q : α → Prop} {more : List (κ × α)}
    (hmore : ∀ e ∈ more, P e.1 ∧ Q e.2) (h : ∀ e ∈ entries, P e.1 ∧ Q e.2) :
    ∀ e ∈ more.foldl (fun map e => insertEntry cmp e.1 e.2 map) entries, P e.1 ∧ Q e.2 := by
  induction more generalizing entries with
  | nil => exact h
  | cons entry more ih =>
      have hentry := hmore entry (by simp)
      exact ih (fun e he => hmore e (List.mem_cons_of_mem _ he)) (forall_insertEntry hentry.1 hentry.2 h)

section Ordered

variable [LinearOrder κ]

/-- An entry put among ascending ones. -/
theorem ascending_insertEntry (h : Ascending entries) : Ascending (insertEntry compare key value entries) := by
  induction entries with
  | nil => exact List.pairwise_singleton ..
  | cons entry rest ih =>
      obtain ⟨hfirst, hrest⟩ := List.pairwise_cons.mp h
      rw [insertEntry]
      split
      · rename_i hcmp
        have hlt : key < entry.1 := compare_lt_iff_lt.mp hcmp
        refine List.pairwise_cons.mpr ⟨fun e he => ?_, h⟩
        rcases List.mem_cons.mp he with rfl | hmem
        · exact hlt
        · exact hlt.trans (hfirst e hmem)
      · exact List.pairwise_cons.mpr ⟨hfirst, hrest⟩
      · rename_i hcmp
        have hlt : entry.1 < key := compare_gt_iff_gt.mp hcmp
        refine List.pairwise_cons.mpr ⟨?_, ih hrest⟩
        -- The new key is behind the first one, as all others are.
        have hkeys : ∀ e ∈ insertEntry compare key value rest, entry.1 < e.1 ∧ True :=
          forall_insertEntry (P := fun k => entry.1 < k) (Q := fun _ => True) hlt trivial
            fun e he => ⟨hfirst e he, trivial⟩
        exact fun e he => (hkeys e he).1

/-- Entries put in one after another under different keys, in whatever order. -/
theorem foldl_insertEntry_eq {more : List (κ × α)} (h : Ascending entries) (hperm : more.Perm entries) :
    more.foldl (fun map e => insertEntry compare e.1 e.2 map) [] = entries := by
  have hascending (l : List (κ × α)) (hl : Ascending l) :
      Ascending (more.foldl (fun map e => insertEntry compare e.1 e.2 map) l) := by
    clear hperm
    induction more generalizing l with
    | nil => exact hl
    | cons entry more ih => exact ih _ (ascending_insertEntry hl)
  -- Ascending keys are different, and stay so in every order.
  have hne : more.Pairwise fun a b => compare b.1 a.1 ≠ .eq := by
    have hkeys : entries.Pairwise fun a b => a.1 ≠ b.1 := h.imp fun {a b} hlt => hlt.ne
    refine (hperm.symm.pairwise hkeys fun {a b} hab => hab.symm).imp fun {a b} hab heq => ?_
    exact hab (compare_eq_iff_eq.mp heq).symm
  refine (hascending [] List.Pairwise.nil).eq_of_perm h ?_
  exact (foldl_insertEntry_perm (fun k _ e he => absurd he List.not_mem_nil) hne).trans hperm

end Ordered

end LiminalDB
