import Mathlib.Data.List.Basic
import Mathlib.Logic.Relation
import Mathlib.Order.Compare
import Std.Data.ExtTreeMap

/-! # Folding the entries of one map into another

A loop over the entries of a map that touches, for each entry, only its own key of an accumulator.
Since no key repeats, what such a loop leaves at a key depends on the entry of that key alone
(`look_foldl_entry`), whatever the order of the keys. -/

namespace LiminalDB

/-- The comparison of a linear order tells its elements apart. -/
theorem lawfulEqOrd (α : Type) [LinearOrder α] : Std.LawfulEqOrd α := inferInstance

/-- Comparing by a linear order is transitive. -/
theorem transOrd (α : Type) [LinearOrder α] : Std.TransOrd α := inferInstance

variable {α β γ σ : Type*} {cmp : α → α → Ordering} [Std.TransCmp cmp] [Std.LawfulEqCmp cmp]

/-- A loop body that touches one key: it reads and writes the accumulator at the key of its entry. -/
structure TouchesKey (look : σ → α → Option γ) (step : σ → α → β → σ)
    (update : Option γ → β → Option γ) : Prop where
  /-- The key of the entry is updated. -/
  self : ∀ s k v, look (step s k v) k = update (look s k) v
  /-- Every other key is left alone. -/
  other : ∀ s {k a} v, a ≠ k → look (step s k v) a = look s a

variable {look : σ → α → Option γ} {step : σ → α → β → σ} {update : Option γ → β → Option γ}

/-- A key that no entry has is left alone. -/
theorem look_foldl_of_not_mem (h : TouchesKey look step update) {l : List (α × β)} {a : α}
    (ha : ∀ entry ∈ l, entry.1 ≠ a) (s : σ) :
    look (l.foldl (fun s entry => step s entry.1 entry.2) s) a = look s a := by
  induction l generalizing s with
  | nil => rfl
  | cons entry l ih =>
      have hne : a ≠ entry.1 := fun heq => ha entry List.mem_cons_self heq.symm
      rw [List.foldl_cons, ih fun entry' hmem => ha entry' (List.mem_cons_of_mem _ hmem),
        h.other s entry.2 hne]

/-- A key that one entry has is updated once. -/
theorem look_foldl_of_mem (h : TouchesKey look step update) {l : List (α × β)}
    (hdistinct : l.Pairwise fun x y => x.1 ≠ y.1) {a : α} {v : β} (ha : (a, v) ∈ l) (s : σ) :
    look (l.foldl (fun s entry => step s entry.1 entry.2) s) a = update (look s a) v := by
  induction l generalizing s with
  | nil => cases ha
  | cons entry l ih =>
      obtain ⟨hfirst, hrest⟩ := List.pairwise_cons.mp hdistinct
      rw [List.foldl_cons]
      rcases List.mem_cons.mp ha with heq | hmem
      · subst heq
        rw [look_foldl_of_not_mem h fun entry hentry => (hfirst entry hentry).symm]
        exact h.self s a v
      · have hne : a ≠ entry.1 := fun heq => hfirst _ hmem heq.symm
        rw [ih hrest hmem, h.other s entry.2 hne]

/-- The keys of the entries of a map differ. -/
theorem pairwise_ne_toList (m : Std.ExtTreeMap α β cmp) :
    m.toList.Pairwise fun x y => x.1 ≠ y.1 :=
  m.distinct_keys_toList.imp fun {x y} hxy heq =>
    hxy (by rw [heq]; exact Std.ReflCmp.compare_self)

/-- What a loop over the entries of a map leaves at a key. -/
theorem look_foldl_entry (h : TouchesKey look step update) (m : Std.ExtTreeMap α β cmp) (s : σ)
    (a : α) : look (m.foldl step s) a = m[a]?.elim (look s a) (update (look s a)) := by
  rw [Std.ExtTreeMap.foldl_eq_foldl_toList]
  cases hm : m[a]? with
  | none =>
      refine look_foldl_of_not_mem h ?_ s
      rintro ⟨k, v⟩ hentry rfl
      rw [Std.ExtTreeMap.mem_toList_iff_getElem?_eq_some.mp hentry] at hm
      cases hm
  | some v =>
      have hentry : (a, v) ∈ m.toList := Std.ExtTreeMap.mem_toList_iff_getElem?_eq_some.mpr hm
      exact look_foldl_of_mem h (pairwise_ne_toList m) hentry s

/-- A condition on every element of a list and what stands before it. -/
theorem forall_split_append_singleton {α : Type*} {P : List α → α → Prop} {xs : List α} {x : α} :
    (∀ before y after, xs ++ [x] = before ++ y :: after → P before y) ↔
      (∀ before y after, xs = before ++ y :: after → P before y) ∧ P xs x := by
  constructor
  · intro h
    refine ⟨fun before y after heq => h before y (after ++ [x]) ?_, h xs x [] rfl⟩
    rw [heq, List.append_assoc, List.cons_append]
  · rintro ⟨hxs, hlast⟩ before y after heq
    rcases List.eq_nil_or_concat after with rfl | ⟨after, last, rfl⟩
    · obtain ⟨rfl, hsame⟩ := List.append_inj' heq rfl
      obtain rfl : x = y := List.head_eq_of_cons_eq hsame
      exact hlast
    · rw [List.concat_eq_append, ← List.cons_append, ← List.append_assoc] at heq
      exact hxs before y after (List.append_inj' heq rfl).1

/-- A loop over a list that leaves one part of its accumulator alone. -/
theorem list_foldl_keeps {δ : Type*} {step : σ → β → σ} (part : σ → δ)
    (h : ∀ s b, part (step s b) = part s) (l : List β) (s : σ) :
    part (l.foldl step s) = part s := by
  induction l generalizing s with
  | nil => rfl
  | cons b l ih => rw [List.foldl_cons, ih, h]

/-- A loop whose rounds read no more than a part of their accumulators ends alike in that part. -/
theorem list_foldl_part_congr {δ : Type*} {step : σ → β → σ} (part : σ → δ)
    (h : ∀ s s' b, part s = part s' → part (step s b) = part (step s' b)) (l : List β) {s s' : σ}
    (hs : part s = part s') : part (l.foldl step s) = part (l.foldl step s') := by
  induction l generalizing s s' with
  | nil => exact hs
  | cons b l ih => exact ih (h s s' b hs)

omit [Std.LawfulEqCmp cmp] in
open Std.DTreeMap.Internal in
/-- The values of a map are those of its entries. -/
theorem values_eq_map_toList (m : Std.ExtTreeMap α γ cmp) : m.values = m.toList.map Prod.snd := by
  obtain ⟨m⟩ := m
  induction m using Std.ExtDTreeMap.inductionOn with
  | mk m =>
      show m.inner.values = (Impl.Const.toList m.inner).map Prod.snd
      rw [Impl.values_eq_map_snd, Impl.Const.toList_eq_toListModel_map, List.map_map]
      rfl

/-- A loop that writes entries of one map into another that lacks none but them makes it the same. -/
theorem foldl_insert_eq (key : β → α) (value : β → γ) {target : Std.ExtTreeMap α γ cmp} {l : List β}
    (hl : ∀ b ∈ l, target[key b]? = some (value b)) {m : Std.ExtTreeMap α γ cmp}
    (hm : ∀ a, m[a]? = target[a]? ∨ ∃ b ∈ l, key b = a) :
    l.foldl (fun m b => m.insert (key b) (value b)) m = target := by
  induction l generalizing m with
  | nil =>
      refine Std.ExtTreeMap.ext_getElem? fun a => (hm a).resolve_right ?_
      rintro ⟨b, hb, -⟩
      cases hb
  | cons b l ih =>
      refine ih (fun b' hb' => hl b' (List.mem_cons_of_mem _ hb')) fun a => ?_
      rw [Std.ExtTreeMap.getElem?_insert]
      by_cases heq : cmp (key b) a = .eq
      · left
        obtain rfl : key b = a := Std.LawfulEqCmp.eq_of_compare heq
        rw [if_pos heq, hl b List.mem_cons_self]
      · rw [if_neg heq]
        refine (hm a).imp_right ?_
        rintro ⟨b', hb', rfl⟩
        rcases List.mem_cons.mp hb' with rfl | hmem
        · exact absurd Std.ReflCmp.compare_self heq
        · exact ⟨b', hmem, rfl⟩

omit [Std.LawfulEqCmp cmp] in
/-- A loop that leaves one part of its accumulator alone. -/
theorem foldl_keeps {δ : Type*} (part : σ → δ) (h : ∀ s k v, part (step s k v) = part s)
    (m : Std.ExtTreeMap α β cmp) (s : σ) : part (m.foldl step s) = part s := by
  rw [Std.ExtTreeMap.foldl_eq_foldl_toList]
  exact list_foldl_keeps part (fun s entry => h s entry.1 entry.2) m.toList s

/-- A loop over values with keys leaves alone the keys that none of them has. -/
theorem look_foldl_of_forall_ne (key : β → α) (look : σ → α → Option γ) {step : σ → β → σ}
    (hother : ∀ s b a, a ≠ key b → look (step s b) a = look s a) {l : List β} {a : α}
    (ha : ∀ b ∈ l, a ≠ key b) (s : σ) : look (l.foldl step s) a = look s a := by
  induction l generalizing s with
  | nil => rfl
  | cons b l ih =>
      rw [List.foldl_cons, ih fun b' hb' => ha b' (List.mem_cons_of_mem _ hb')]
      exact hother s b a (ha b List.mem_cons_self)

/-! ## Loops as chains of steps -/

section Chains

open Relation

variable {τ : Type*} {r : τ → τ → Prop} (trace : σ → τ)

/-- A loop whose every round is a chain of steps, as long as an invariant holds, is a chain of steps. -/
theorem reflTransGen_foldl_inv {I : σ → Prop} {step : σ → β → σ} {l : List β}
    (h : ∀ s, I s → ∀ b ∈ l, ReflTransGen r (trace s) (trace (step s b)) ∧ I (step s b)) {s : σ}
    (hs : I s) : ReflTransGen r (trace s) (trace (l.foldl step s)) ∧ I (l.foldl step s) := by
  induction l generalizing s with
  | nil => exact ⟨.refl, hs⟩
  | cons b l ih =>
      obtain ⟨hchain, hI⟩ := h s hs b List.mem_cons_self
      obtain ⟨hrest, hlast⟩ := ih (fun s hs b' hb' => h s hs b' (List.mem_cons_of_mem _ hb')) hI
      exact ⟨hchain.trans hrest, hlast⟩

/-- If every step of a fold leads along a relation, the whole fold leads along a chain of it. -/
theorem reflTransGen_foldl {step : σ → β → σ} {l : List β}
    (h : ∀ s, ∀ b ∈ l, ReflTransGen r (trace s) (trace (step s b))) (s : σ) :
    ReflTransGen r (trace s) (trace (l.foldl step s)) := by
  have hrounds : ∀ s, True → ∀ b ∈ l, ReflTransGen r (trace s) (trace (step s b)) ∧ True :=
    fun s _ b hb => ⟨h s b hb, trivial⟩
  exact (reflTransGen_foldl_inv trace hrounds trivial).1

/-- A loop over distinct keys whose rounds only touch their own: what holds of the values of the keys
before the loop holds when their turn comes. -/
theorem reflTransGen_foldl_distinct (key : β → α) (look : σ → α → Option γ) (P : β → γ → Prop)
    (step : σ → β → σ) (s : σ)
    (hother : ∀ s b a, a ≠ key b → look (step s b) a = look s a) {l : List β}
    (hstep : ∀ s, ∀ b ∈ l, (∀ v, look s (key b) = some v → P b v) →
      ReflTransGen r (trace s) (trace (step s b)))
    (hl : (l.map key).Nodup) (hP : ∀ b ∈ l, ∀ v, look s (key b) = some v → P b v) :
    ReflTransGen r (trace s) (trace (l.foldl step s)) := by
  induction l generalizing s with
  | nil => exact .refl
  | cons b l ih =>
      obtain ⟨hb, hl⟩ := List.nodup_cons.mp hl
      refine (hstep s b List.mem_cons_self (hP b List.mem_cons_self)).trans
        (ih _ (fun s b' hb' => hstep s b' (List.mem_cons_of_mem _ hb')) hl fun b' hb' v hv => ?_)
      have hne : key b' ≠ key b := fun heq => hb (heq ▸ List.mem_map_of_mem hb')
      rw [hother s b (key b') hne] at hv
      exact hP b' (List.mem_cons_of_mem _ hb') v hv

end Chains

end LiminalDB
