import Mathlib.Tactic.Common

/-! # Folds that tell what they do

A fold whose steps say words. What holds of the words of a step holds of those of a run, and a listener who
keeps a view of the state is told enough when the words of each step take the view along (`Retells.foldl`). -/

namespace LiminalDB

variable {σ α β γ δ : Type*}

/-- What the steps of a fold say, one after the other. -/
def narrate (step : σ → α → σ) (say : σ → α → List β) : σ → List α → List β
  | _, [] => []
  | s, a :: l => say s a ++ narrate step say (step s a) l

/-- Translating the words of a run is translating those of each step. -/
theorem map_narrate {f : List β → List δ} (hnil : f [] = []) (happend : ∀ u v, f (u ++ v) = f u ++ f v)
    (step : σ → α → σ) (say : σ → α → List β) (s : σ) (l : List α) :
    f (narrate step say s l) = narrate step (fun s a => f (say s a)) s l := by
  induction l generalizing s with
  | nil => exact hnil
  | cons a l ih => rw [narrate, happend, ih, narrate]

/-- What holds of the words of each step, as long as an invariant is kept, holds of those of a run. -/
theorem forall_mem_narrate {step : σ → α → σ} {say : σ → α → List β} {Inv : σ → Prop} {Legal : α → Prop}
    {P : β → Prop} (hstep : ∀ s a, Inv s → Legal a → Inv (step s a) ∧ ∀ b ∈ say s a, P b) {s : σ} {l : List α}
    (hs : Inv s) (hl : ∀ a ∈ l, Legal a) : ∀ b ∈ narrate step say s l, P b := by
  induction l generalizing s with
  | nil =>
      intro b hb
      cases hb
  | cons a l ih =>
      intro b hb
      obtain ⟨ha, hrest⟩ := List.forall_mem_cons.mp hl
      obtain ⟨hnext, hnow⟩ := hstep s a hs ha
      rcases List.mem_append.mp hb with hsaid | hlater
      · exact hnow b hsaid
      · exact ih hnext hrest b hlater

/-- Two ways to tell a run are the same if they are so wherever an invariant holds that every step keeps. -/
theorem narrate_congr {step : σ → α → σ} {say say' : σ → α → List β} (Inv : σ → Prop)
    (hstep : ∀ s a, Inv s → Inv (step s a) ∧ say s a = say' s a) {s : σ} {l : List α} (hs : Inv s) :
    narrate step say s l = narrate step say' s l := by
  induction l generalizing s with
  | nil => rfl
  | cons a l ih =>
      obtain ⟨hnext, hsame⟩ := hstep s a hs
      rw [narrate, hsame, ih hnext, narrate]

/-- The words of each step take the view along. -/
def Retells (step : σ → α → σ) (say : σ → α → List β) (view : σ → γ) (hear : γ → β → γ) : Prop :=
  ∀ s a, view (step s a) = (say s a).foldl hear (view s)

/-- By induction over the list, a listener who starts from the view of a state and hears the whole narration
has the view of the last state. -/
theorem Retells.foldl {step : σ → α → σ} {say : σ → α → List β} {view : σ → γ} {hear : γ → β → γ}
    (h : Retells step say view hear) (s : σ) (l : List α) :
    view (l.foldl step s) = (narrate step say s l).foldl hear (view s) := by
  induction l generalizing s with
  | nil => rfl
  | cons a l ih => rw [List.foldl_cons, ih, h, narrate, List.foldl_append]

/-- A view that grows by the words is the view before with the words behind it. -/
theorem foldl_concat (heard words : List β) :
    words.foldl (fun heard word => heard ++ [word]) heard = heard ++ words := by
  induction words generalizing heard with
  | nil => rw [List.foldl_nil, List.append_nil]
  | cons word words ih => rw [List.foldl_cons, ih, List.append_assoc, List.singleton_append]

end LiminalDB
