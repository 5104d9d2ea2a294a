import Mathlib.Data.List.Induction
import Mathlib.Logic.Function.Basic

/-! # The first to lead

A count that is kept while a list is read, and with it the element that leads: one takes the lead when it
comes to have more than the leader had. In the end the leader is a most frequent element, and of these the
one that reached its number first (`leader_foldl_see`). -/

namespace LiminalDB

variable {α : Type*} [DecidableEq α]

/-- How often the elements came, which of them leads, and how often that one came. -/
structure Lead (α : Type*) where
  counts : α → ℕ
  leader : Option α
  record : ℕ

/-- Nothing has come yet. -/
def Lead.start : Lead α := ⟨fun _ => 0, none, 0⟩

/-- One more element comes. -/
def Lead.see (acc : Lead α) (a : α) : Lead α :=
  let count := acc.counts a + 1
  { counts := Function.update acc.counts a count
    leader := if acc.record < count then some a else acc.leader
    record := if acc.record < count then count else acc.record }

/-- A most frequent element, that had its number before any other had as many. -/
structure FirstToLead (l : List α) (a : α) : Prop where
  mem : a ∈ l
  most : ∀ b, l.count b ≤ l.count a
  first : ∀ b, b ≠ a → l.count b = l.count a →
    ∃ early late, l = early ++ late ∧ early.count a = l.count a ∧ early.count b < l.count b

/-- One more element counts for itself alone. -/
theorem count_concat (l : List α) (a b : α) : (l ++ [a]).count b = if b = a then l.count b + 1 else l.count b := by
  rw [List.count_append, List.count_singleton]
  by_cases h : b = a
  · simp [h]
  · simp [h, Ne.symm h]

/-- Who comes takes the lead. -/
theorem FirstToLead.take {l : List α} {a : α} (h : ∀ b, l.count b ≤ l.count a) : FirstToLead (l ++ [a]) a where
  mem := by simp
  most := by
    intro b
    rw [count_concat, count_concat, if_pos rfl]
    split
    · exact Nat.succ_le_succ (h b)
    · exact Nat.le_succ_of_le (h b)
  first := by
    intro b hne heq
    rw [count_concat, count_concat, if_neg hne, if_pos rfl] at heq
    exact absurd (h b) (by omega)

/-- The leader keeps the lead. -/
theorem FirstToLead.keep {l : List α} {a x : α} (h : FirstToLead l a) (hx : l.count x < l.count a) :
    FirstToLead (l ++ [x]) a := by
  have hne : a ≠ x := by
    rintro rfl
    exact Nat.lt_irrefl _ hx
  have hsame : (l ++ [x]).count a = l.count a := by
    rw [count_concat, if_neg hne]
  constructor
  · exact List.mem_append_left _ h.mem
  · intro b
    rw [hsame, count_concat]
    split
    · rename_i heq
      rw [heq]
      exact hx
    · exact h.most b
  · intro b hb heq
    rw [hsame] at heq ⊢
    by_cases hbx : b = x
    · -- Only now it has as many.
      subst hbx
      exact ⟨l, [b], rfl, rfl, by rw [count_concat, if_pos rfl]; exact Nat.lt_succ_self _⟩
    · rw [count_concat, if_neg hbx] at heq ⊢
      obtain ⟨early, late, hsplit, hcount, hless⟩ := h.first b hb heq
      exact ⟨early, late ++ [x], by rw [hsplit, List.append_assoc], hcount, hless⟩

/-- What is kept while a list is read. -/
structure Lead.Keeps (acc : Lead α) (l : List α) : Prop where
  counts : ∀ a, acc.counts a = l.count a
  none_iff : acc.leader = none ↔ l = []
  leads : ∀ a, acc.leader = some a → FirstToLead l a ∧ acc.record = l.count a
  idle : acc.leader = none → acc.record = 0

/-- Seeing one more element keeps the counts those of what was seen. -/
theorem Lead.Keeps.see {acc : Lead α} {l : List α} (h : acc.Keeps l) (a : α) : (acc.see a).Keeps (l ++ [a]) := by
  have hcounts : ∀ b, (acc.see a).counts b = (l ++ [a]).count b := by
    intro b
    rw [count_concat]
    simp only [Lead.see, Function.update_apply, h.counts]
    split
    · rename_i heq
      rw [heq]
    · rfl
  have hmost : ∀ b, l.count b ≤ acc.record := by
    intro b
    cases hleader : acc.leader with
    | none => simp [h.none_iff.mp hleader]
    | some c =>
        obtain ⟨hc, hrecord⟩ := h.leads c hleader
        exact hrecord ▸ hc.most b
  by_cases htakes : acc.record < acc.counts a + 1
  · have hleads : FirstToLead (l ++ [a]) a := by
      apply FirstToLead.take
      intro b
      have hb := hmost b
      rw [h.counts] at htakes
      omega
    refine ⟨hcounts, ?_, ?_, ?_⟩
    · simp [Lead.see, htakes]
    · intro b hb
      obtain rfl : a = b := by simpa [Lead.see, htakes] using hb
      refine ⟨hleads, ?_⟩
      rw [count_concat, if_pos rfl, ← h.counts]
      exact if_pos htakes
    · intro hnone
      simp [Lead.see, htakes] at hnone
  · have hsame : (acc.see a).leader = acc.leader ∧ (acc.see a).record = acc.record :=
      ⟨if_neg htakes, if_neg htakes⟩
    -- Nobody comes first without taking the lead.
    obtain ⟨c, hleader⟩ : ∃ c, acc.leader = some c := by
      cases hleader : acc.leader with
      | none => exact absurd (h.idle hleader ▸ Nat.succ_pos _) htakes
      | some c => exact ⟨c, rfl⟩
    obtain ⟨hc, hrecord⟩ := h.leads c hleader
    have hless : l.count a < l.count c := by
      rw [h.counts] at htakes
      omega
    have hkeeps := hc.keep hless
    refine ⟨hcounts, ?_, ?_, ?_⟩
    · simp [hsame.1, hleader]
    · intro b hb
      obtain rfl : c = b := by simpa [hsame.1, hleader] using hb
      refine ⟨hkeeps, ?_⟩
      have hne : c ≠ a := by
        rintro rfl
        exact Nat.lt_irrefl _ hless
      rw [hsame.2, hrecord, count_concat, if_neg hne]
    · simp [hsame.1, hleader]

/-- By induction they are so after a whole list. -/
theorem keeps_foldl_see (l : List α) : (l.foldl Lead.see Lead.start).Keeps l := by
  induction l using List.reverseRecOn with
  | nil => exact ⟨fun _ => rfl, by simp [Lead.start], by simp [Lead.start], fun _ => rfl⟩
  | append_singleton l a ih =>
      rw [List.foldl_append]
      exact ih.see a

/-- The leader of a list, if it is not empty, is the first to lead. -/
theorem leader_foldl_see {l : List α} {a : α} (h : (l.foldl Lead.see Lead.start).leader = some a) :
    FirstToLead l a := ((keeps_foldl_see l).leads a h).1

end LiminalDB
