import Mathlib.Data.List.Perm.Basic
import Mathlib.Algebra.BigOperators.Group.List.Basic
import Mathlib.Algebra.Ring.Nat
import Std.Data.ExtTreeMap

/-! # Sums over the values of a map

`valueSum f m` adds `f v` over all values `v` of a map. Writing one key changes the sum by the new
value less the replaced one, whatever the order of the keys. -/

namespace LiminalDB

variable {α β : Type*} {cmp : α → α → Ordering} [Std.TransCmp cmp]

/-- The sum of `f` over the values of a map. -/
def valueSum (f : β → Nat) (m : Std.ExtTreeMap α β cmp) : Nat :=
  (m.toList.map fun entry => f entry.2).sum

variable [Std.LawfulEqCmp cmp] {m : Std.ExtTreeMap α β cmp} {k : α} {v w : β}

/-- The entries of a map do not repeat. -/
theorem nodup_toList (m : Std.ExtTreeMap α β cmp) : m.toList.Nodup :=
  m.distinct_keys_toList.imp fun {a b} hab heq => hab (by rw [heq]; exact Std.ReflCmp.compare_self)

/-- Two maps that agree outside `k`, one of them without `k`, differ by the entry of `k`. -/
theorem toList_perm_cons {m' : Std.ExtTreeMap α β cmp} (hk : m[k]? = none)
    (hk' : m'[k]? = some v) (hrest : ∀ a, a ≠ k → m'[a]? = m[a]?) :
    m'.toList.Perm ((k, v) :: m.toList) := by
  have hnot : (k, v) ∉ m.toList := by
    rw [Std.ExtTreeMap.mem_toList_iff_getElem?_eq_some, hk]
    exact nofun
  refine (List.perm_ext_iff_of_nodup (nodup_toList m')
    (List.nodup_cons.mpr ⟨hnot, nodup_toList m⟩)).mpr ?_
  rintro ⟨a, b⟩
  rw [List.mem_cons, Std.ExtTreeMap.mem_toList_iff_getElem?_eq_some,
    Std.ExtTreeMap.mem_toList_iff_getElem?_eq_some]
  by_cases ha : a = k
  · subst ha
    simp [hk, hk', eq_comm]
  · simp [hrest a ha, ha]

/-- A map with one more key has a sum that is larger by what stands under it. -/
theorem valueSum_of_agree {m' : Std.ExtTreeMap α β cmp} (f : β → Nat) (hk : m[k]? = none)
    (hk' : m'[k]? = some v) (hrest : ∀ a, a ≠ k → m'[a]? = m[a]?) :
    valueSum f m' = valueSum f m + f v := by
  have hperm := (toList_perm_cons hk hk' hrest).map fun entry => f entry.2
  rw [valueSum, hperm.sum_eq, List.map_cons, List.sum_cons, Nat.add_comm, valueSum]

/-- Reading a key after writing one. -/
theorem getElem?_insert_of_ne {a : α} (h : a ≠ k) : (m.insert k v)[a]? = m[a]? := by
  rw [Std.ExtTreeMap.getElem?_insert, if_neg]
  intro hcmp
  exact h (Std.LawfulEqCmp.eq_of_compare hcmp).symm

/-- Writing a new key adds its value. -/
theorem valueSum_insert_new (f : β → Nat) (h : m[k]? = none) :
    valueSum f (m.insert k v) = valueSum f m + f v :=
  valueSum_of_agree f h Std.ExtTreeMap.getElem?_insert_self fun _ ha => getElem?_insert_of_ne ha

/-- Writing an existing key replaces its value. -/
theorem valueSum_insert_old (f : β → Nat) (h : m[k]? = some w) :
    valueSum f (m.insert k v) + f w = valueSum f m + f v := by
  -- both maps extend the map without `k`
  have herase : (m.erase k)[k]? = none := Std.ExtTreeMap.getElem?_erase_self
  have hne : ∀ a, a ≠ k → (m.erase k)[a]? = m[a]? := by
    intro a ha
    rw [Std.ExtTreeMap.getElem?_erase, if_neg]
    intro hcmp
    exact ha (Std.LawfulEqCmp.eq_of_compare hcmp).symm
  have hold := valueSum_of_agree f herase h fun a ha => (hne a ha).symm
  have hnew : valueSum f (m.insert k v) = valueSum f (m.erase k) + f v :=
    valueSum_of_agree f herase Std.ExtTreeMap.getElem?_insert_self fun a ha => by
      rw [getElem?_insert_of_ne ha, hne a ha]
  omega

/-- A key that is missing counts like one whose value counts for nothing. -/
theorem valueSum_congr {m' : Std.ExtTreeMap α β cmp} {f : β → Nat} {zero : β} (hzero : f zero = 0)
    (h : ∀ k : α, m[k]?.getD zero = m'[k]?.getD zero) : valueSum f m = valueSum f m' := by
  have hcounted (m : Std.ExtTreeMap α β cmp) :
      valueSum f m = ((m.toList.filter fun entry => f entry.2 ≠ 0).map fun entry => f entry.2).sum := by
    unfold valueSum
    induction m.toList with
    | nil => rfl
    | cons entry entries ih =>
        by_cases hentry : f entry.2 = 0 <;> simp [hentry, ih]
  have hmem (m : Std.ExtTreeMap α β cmp) (entry : α × β) :
      entry ∈ (m.toList.filter fun entry => f entry.2 ≠ 0) ↔
        m[entry.1]?.getD zero = entry.2 ∧ f entry.2 ≠ 0 := by
    rw [List.mem_filter, Std.ExtTreeMap.mem_toList_iff_getElem?_eq_some, decide_eq_true_iff]
    refine and_congr_left fun hcounts => ?_
    cases hentry : m[entry.1]? with
    | none => exact iff_of_false (by simp) fun heq => hcounts (heq ▸ hzero)
    | some v => simp
  rw [hcounted, hcounted]
  refine List.Perm.sum_eq (List.Perm.map _ ?_)
  refine (List.perm_ext_iff_of_nodup ((nodup_toList m).filter _) ((nodup_toList m').filter _)).mpr ?_
  intro entry
  rw [hmem, hmem, h]

end LiminalDB
