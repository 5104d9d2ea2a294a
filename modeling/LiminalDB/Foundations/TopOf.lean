import LiminalDB.Foundations.Floats

/-! # The best of a list

`TopOf score k l top`: the list `top` holds the `k` best of `l`, best first. Elements of equal scores may stand
in any order and be left out one for the other, so `top` is not determined; its scores are (`scores_eq`). -/

namespace LiminalDB

variable {α κ : Type} [LinearOrder κ] {score : α → κ} {k : ℕ} {l l' top top' : List α}

/-- The list descends. -/
def Descending (score : α → κ) (l : List α) : Prop := l.Pairwise fun a b => score b ≤ score a

/-- The first list holds the best `k` of the second, best first. -/
structure TopOf (score : α → κ) (k : ℕ) (l top : List α) : Prop where
  /-- What is left out is no better than what is there. -/
  split : ∃ rest, (top ++ rest).Perm l ∧ Descending score (top ++ rest)
  length : top.length = min k l.length

/-- Scores that descend are in descending order. -/
theorem Descending.map (h : Descending score l) : (l.map score).Pairwise (· ≥ ·) := List.pairwise_map.mpr h

/-- Descending lists with the same scores have them at the same places. -/
theorem Descending.scores_eq (h : Descending score l) (h' : Descending score l')
    (hperm : (l.map score).Perm (l'.map score)) : l.map score = l'.map score :=
  hperm.eq_of_pairwise (fun _ _ _ _ hge hle => le_antisymm hle hge) h.map h'.map

/-- They still are where some elements are left out. -/
theorem Descending.filter (h : Descending score l) (p : α → Bool) : Descending score (l.filter p) :=
  List.Pairwise.filter p h

/-- The first elements of a descending list are the top of it, in whichever order that is looked at. -/
theorem topOf_take (h : Descending score l) (hperm : l.Perm l') : TopOf score k l' (l.take k) where
  split := ⟨l.drop k, by rw [List.take_append_drop]; exact ⟨hperm, h⟩⟩
  length := by rw [List.length_take, hperm.length_eq]

namespace TopOf

/-- The top consists of elements of the list, none of them more often than there. -/
theorem subperm (h : TopOf score k l top) : top.Subperm l := by
  obtain ⟨rest, hperm, -⟩ := h.split
  exact (List.sublist_append_left top rest).subperm.trans hperm.subperm

/-- The top is in descending order. -/
theorem descending (h : TopOf score k l top) : Descending score top := by
  obtain ⟨rest, -, hdescends⟩ := h.split
  exact hdescends.sublist (List.sublist_append_left top rest)

/-- What is missing is no better than anything that is there. -/
theorem le_of_not_mem (h : TopOf score k l top) {a b : α} (ha : a ∈ l) (hmissing : a ∉ top) (hb : b ∈ top) :
    score a ≤ score b := by
  obtain ⟨rest, hperm, hdescends⟩ := h.split
  have hrest : a ∈ rest := (List.mem_append.mp (hperm.mem_iff.mpr ha)).resolve_left hmissing
  exact (List.pairwise_append.mp hdescends).2.2 b hb a hrest

/-- The best scores are determined. -/
theorem scores_eq (h : TopOf score k l top) (h' : TopOf score k l' top')
    (hperm : (l.map score).Perm (l'.map score)) : top.map score = top'.map score := by
  obtain ⟨rest, hsplit, hdescends⟩ := h.split
  obtain ⟨rest', hsplit', hdescends'⟩ := h'.split
  have hwhole := hdescends.scores_eq hdescends'
    ((hsplit.map score).trans (hperm.trans (hsplit'.map score).symm))
  rw [List.map_append, List.map_append] at hwhole
  have hlength : (top.map score).length = (top'.map score).length := by
    have hsame := hperm.length_eq
    rw [List.length_map, List.length_map] at hsame ⊢
    rw [h.length, h'.length, hsame]
  exact (List.append_inj hwhole hlength).1

end TopOf

/-- Sorting with a comparison that goes by the scores, best first. -/
theorem descending_sortBy {cmp : α → α → Ordering} (hcmp : ∀ a b, (cmp a b).isLE = true ↔ score b ≤ score a)
    (l : List α) : Descending score (sortBy cmp l) := by
  have htotal : Std.Total fun a b => (cmp a b).isLE = true := by
    refine ⟨fun a b => ?_⟩
    rw [hcmp, hcmp]
    exact le_total _ _
  have htrans : IsTrans α fun a b => (cmp a b).isLE = true := by
    refine ⟨fun a b c => ?_⟩
    rw [hcmp, hcmp, hcmp]
    exact fun hab hbc => hbc.trans hab
  exact (List.pairwise_insertionSort _ l).imp fun h => (hcmp _ _).mp h

/-- Exact numbers compare as they are ordered. -/
theorem isLE_partialCmp {x y : ℚ} : (FloatLike.partialCmp x y).isLE = true ↔ x ≤ y := by
  unfold FloatLike.partialCmp
  by_cases hlt : x < y
  · simp [hlt, hlt.le]
  · by_cases hgt : y < x
    · simp [hlt, hgt]
    · simp [hlt, hgt, not_lt.mp hgt]

end LiminalDB
