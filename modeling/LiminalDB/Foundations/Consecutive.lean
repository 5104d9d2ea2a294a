import Mathlib.Data.List.Sort
import Std.Data.ExtTreeMap

/-! # Maps with consecutive keys

A directory of numbered files is a map from numbers to contents. When the numbers are consecutive it
is a list: `Consecutive m first cs` says that `m` holds exactly `cs`, under the keys `first`,
`first + 1`, and so on. Replacing the last entry and adding a next one keep this shape, and the keys
in order are a range. -/

namespace LiminalDB

variable {α : Type*} {m : Std.ExtTreeMap Nat α compare} {first : Nat} {cs : List α} {c : α}

/-- `m` holds exactly the list `cs`, under the keys from `first` on. -/
def Consecutive (m : Std.ExtTreeMap Nat α compare) (first : Nat) (cs : List α) : Prop :=
  ∀ n, m[n]? = if first ≤ n then cs[n - first]? else none

namespace Consecutive

/-- The entry at a position of the list. -/
theorem getElem? (h : Consecutive m first cs) (i : Nat) : m[first + i]? = cs[i]? := by
  rw [h (first + i), if_pos (Nat.le_add_right _ _), Nat.add_sub_cancel_left]

/-- The empty map holds the empty list. -/
theorem nil (first : Nat) : Consecutive (∅ : Std.ExtTreeMap Nat α compare) first [] := by
  intro n
  simp

/-- Writing the key after the last one extends the list. -/
theorem push (h : Consecutive m first cs) (c : α) :
    Consecutive (m.insert (first + cs.length) c) first (cs ++ [c]) := by
  intro n
  rw [Std.ExtTreeMap.getElem?_insert, h n]
  rcases lt_trichotomy n (first + cs.length) with hlt | rfl | hgt
  · rw [if_neg (by simp; omega)]
    by_cases hn : first ≤ n
    · rw [if_pos hn, if_pos hn, List.getElem?_append_left (by omega)]
    · rw [if_neg hn, if_neg hn]
  · simp
  · rw [if_neg (by simp; omega), if_pos (by omega), if_pos (by omega)]
    rw [List.getElem?_eq_none (by omega), List.getElem?_eq_none (by simp; omega)]

/-- Writing the last key replaces the last entry. -/
theorem replace_last (h : Consecutive m first (cs ++ [c])) (c' : α) :
    Consecutive (m.insert (first + cs.length) c') first (cs ++ [c']) := by
  intro n
  rw [Std.ExtTreeMap.getElem?_insert, h n]
  rcases lt_trichotomy n (first + cs.length) with hlt | rfl | hgt
  · rw [if_neg (by simp; omega)]
    by_cases hn : first ≤ n
    · rw [if_pos hn, if_pos hn, List.getElem?_append_left (by omega),
        List.getElem?_append_left (by omega)]
    · rw [if_neg hn, if_neg hn]
  · simp
  · rw [if_neg (by simp; omega), if_pos (by omega), if_pos (by omega)]
    rw [List.getElem?_eq_none (by simp; omega), List.getElem?_eq_none (by simp; omega)]

/-- Without its first `k` keys the map holds the list without its first `k` entries. -/
theorem drop (h : Consecutive m first cs) {m' : Std.ExtTreeMap Nat α compare} {k : Nat}
    (hcut : ∀ n, m'[n]? = if n < first + k then none else m[n]?) :
    Consecutive m' (first + k) (cs.drop k) := by
  intro n
  rw [hcut n, h n]
  by_cases hn : first + k ≤ n
  · rw [if_neg (by omega), if_pos (by omega), if_pos hn, List.getElem?_drop]
    congr 1
    omega
  · rw [if_pos (by omega), if_neg hn]

/-- The keys in increasing order are a range. -/
theorem keys_eq (h : Consecutive m first cs) : m.keys = List.range' first cs.length := by
  have hkeys : m.keys.Pairwise (· < ·) :=
    m.ordered_keys.imp fun hlt => compare_lt_iff_lt.mp hlt
  refine hkeys.eq_of_mem_iff List.pairwise_lt_range' fun n => ?_
  rw [Std.ExtTreeMap.mem_keys, Std.ExtTreeMap.mem_iff_isSome_getElem?, h n, List.mem_range'_1]
  by_cases hn : first ≤ n
  · rw [if_pos hn, Option.isSome_iff_ne_none, ne_eq, List.getElem?_eq_none_iff]
    omega
  · rw [if_neg hn]
    simp only [Option.isSome_none, Bool.false_eq_true, false_iff]
    omega

end Consecutive

end LiminalDB
