import Mathlib.Tactic.Common

/-! # Independent streams on one machine

A machine takes inputs one after the other, accepts or rejects each of them and skips those it
rejects (`feed`). Every input has a key. A machine `Splits` when it is, for each key, a machine of
its own: seen through `view k`, an input with another key changes nothing, and an input with key `k`
does what the local machine does with it. Then what becomes of the stream of one key does not depend
on how the streams are interleaved (`Splits.feed_congr`). -/

namespace LiminalDB

variable {σ τ ι κ : Type*}

/-- Feed the inputs one after the other: each with the machine's answer, and the state at the end. -/
def feed (step : ι → σ → Bool × σ) : List ι → σ → List (ι × Bool) × σ
  | [], s => ([], s)
  | i :: inputs, s =>
      ((i, (step i s).1) :: (feed step inputs (step i s).2).1, (feed step inputs (step i s).2).2)

/-- The machine is a family of independent local machines, one for each key. This may depend on an
invariant of its states and on which inputs it is fed. -/
structure Splits (key : ι → κ) (step : ι → σ → Bool × σ) (localStep : ι → τ → Bool × τ)
    (view : κ → σ → τ) (Inv : σ → Prop) (Legal : ι → Prop) : Prop where
  /-- The invariant is kept. -/
  keeps : ∀ {s i}, Inv s → Legal i → Inv (step i s).2
  /-- The input's own key sees the local machine. -/
  own : ∀ {s i}, Inv s → Legal i →
    ((step i s).1, view (key i) (step i s).2) = localStep i (view (key i) s)
  /-- The other keys see nothing. -/
  frame : ∀ {s i k}, Inv s → Legal i → k ≠ key i → view k (step i s).2 = view k s

namespace Splits

variable [DecidableEq κ] {key : ι → κ} {step : ι → σ → Bool × σ} {localStep : ι → τ → Bool × τ}
  {view : κ → σ → τ} {Inv : σ → Prop} {Legal : ι → Prop}

/-- **One stream alone.** The answers to the inputs with key `k` and the final view of `k` are those
of the local machine on these inputs. -/
theorem feed_eq (h : Splits key step localStep view Inv Legal) (k : κ) {inputs : List ι} {s : σ}
    (hs : Inv s) (hinputs : ∀ i ∈ inputs, Legal i) :
    ((feed step inputs s).1.filter fun answer => key answer.1 = k,
        view k (feed step inputs s).2) =
      feed localStep (inputs.filter fun i => key i = k) (view k s) := by
  induction inputs generalizing s with
  | nil => rfl
  | cons i inputs ih =>
      have hi : Legal i := hinputs i List.mem_cons_self
      have hrest := ih (h.keeps hs hi) fun j hj => hinputs j (List.mem_cons_of_mem _ hj)
      rw [Prod.mk.injEq] at hrest
      simp only [feed]
      by_cases hk : key i = k
      · subst hk
        have hown := h.own hs hi
        rw [List.filter_cons_of_pos (by simp), List.filter_cons_of_pos (by simp), feed, ← hown,
          hrest.1, hrest.2]
      · -- the step is invisible to `k`
        rw [List.filter_cons_of_neg (by simpa using hk), List.filter_cons_of_neg (by simpa using hk),
          hrest.1, hrest.2, h.frame hs hi (Ne.symm hk)]

/-- **Interleavings.** Two runs that feed the same stream of inputs with key `k` answer it alike and
leave `k` alike, whatever they feed in between. -/
theorem feed_congr (h : Splits key step localStep view Inv Legal) (k : κ) {xs ys : List ι} {s t : σ}
    (hs : Inv s) (ht : Inv t) (hxs : ∀ i ∈ xs, Legal i) (hys : ∀ i ∈ ys, Legal i)
    (hview : view k s = view k t)
    (hstream : (xs.filter fun i => key i = k) = ys.filter fun i => key i = k) :
    (feed step xs s).1.filter (fun answer => key answer.1 = k) =
        (feed step ys t).1.filter (fun answer => key answer.1 = k) ∧
      view k (feed step xs s).2 = view k (feed step ys t).2 := by
  have hx := h.feed_eq k hs hxs
  have hy := h.feed_eq k ht hys
  rw [hstream, hview, ← hy] at hx
  exact Prod.mk.inj hx

end Splits

end LiminalDB
