import Mathlib.Data.List.Basic

/-! # Purging a run

Some of the calls of a run do not matter for a part of its state: those that leave the part alone, when what the
others make of the part depends on nothing else. Then a run without them makes the same of it. -/

namespace LiminalDB

variable {σ τ γ : Type*}

/-- Calls that leave a part alone can be left out, when the part after any other call is a function of the part
before it. -/
theorem purge_foldl {step : σ → γ → σ} (part : σ → τ) (matters : γ → Bool)
    (hquiet : ∀ s c, matters c = false → part (step s c) = part s)
    (hlocal : ∀ s s' c, matters c = true → part s = part s' → part (step s c) = part (step s' c))
    (calls : List γ) {s s' : σ} (hs : part s = part s') :
    part (calls.foldl step s) = part ((calls.filter matters).foldl step s') := by
  induction calls generalizing s s' with
  | nil => exact hs
  | cons c calls ih =>
      cases hc : matters c with
      | false =>
          rw [List.filter_cons_of_neg (by rw [hc]; exact Bool.false_ne_true)]
          exact ih ((hquiet s c hc).trans hs)
      | true =>
          rw [List.filter_cons_of_pos hc]
          exact ih (hlocal s s' c hc hs)

end LiminalDB
