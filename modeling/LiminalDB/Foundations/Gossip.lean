import Mathlib.Order.Lattice

/-! # Gossip about values that only grow

Every party has a value of its own, which it alone raises, and a view of the values of the others. A party
may receive, at any time and as often as it likes, the views that another one had at an earlier moment, and
joins them to its own. Every view of a party is then a value which that party has had, and no older than
what has come from it on any way (`Gossips.informed`). -/

namespace LiminalDB

/-- What happens between two moments. -/
inductive GossipEvent (ι : Type*)
  /-- A party raises its own value. -/
  | edit (party : ι)
  /-- A party receives the views that another one had at a moment. -/
  | receive (receiver sender : ι) (moment : ℕ)
  | idle

variable {ι α : Type*} [SemilatticeSup α]

/-- What an event makes of the views at a moment. `views t r p` is what `r` has as the value of `p` at `t`. -/
structure GossipStep (views : ℕ → ι → ι → α) (event : ℕ → GossipEvent ι) (t : ℕ) : Prop where
  edit : ∀ p, event t = .edit p → views t p p ≤ views (t + 1) p p ∧
    ∀ r q, (r ≠ p ∨ q ≠ p) → views (t + 1) r q = views t r q
  receive : ∀ r s moment, event t = .receive r s moment → moment ≤ t ∧
    (∀ p, views (t + 1) r p = views t r p ⊔ views moment s p) ∧
    ∀ other, other ≠ r → views (t + 1) other = views t other
  idle : event t = .idle → views (t + 1) = views t

/-- A run of so many events, before which all parties agree. -/
structure Gossips (views : ℕ → ι → ι → α) (event : ℕ → GossipEvent ι) (length : ℕ) : Prop where
  start : ∀ r p, views 0 r p = views 0 p p
  follows : ∀ t < length, GossipStep views event t

/-- By the moment `t` the party `r` has received, on some way, what `p` had at the moment `s`. -/
inductive Informed (event : ℕ → GossipEvent ι) (length : ℕ) : ℕ → ι → ℕ → ι → Prop
  | own (t : ℕ) (p : ι) : Informed event length t p t p
  | keep {t s : ℕ} {r p : ι} : t < length → Informed event length t r s p →
      Informed event length (t + 1) r s p
  | receive {t moment s : ℕ} {r sender p : ι} : t < length → event t = .receive r sender moment →
      Informed event length moment sender s p → Informed event length (t + 1) r s p

namespace Gossips

variable {views : ℕ → ι → ι → α} {event : ℕ → GossipEvent ι} {length : ℕ}

/-- One more event. -/
theorem snoc (h : Gossips views event length) {views' : ℕ → ι → ι → α} {event' : ℕ → GossipEvent ι}
    (hviews : ∀ t ≤ length, views' t = views t) (hevent : ∀ t < length, event' t = event t)
    (hlast : GossipStep views' event' length) : Gossips views' event' (length + 1) := by
  refine ⟨fun r p => by rw [hviews 0 (Nat.zero_le _)]; exact h.start r p, fun t ht => ?_⟩
  rcases Nat.lt_succ_iff_lt_or_eq.mp ht with hlt | rfl
  · have hnow := hviews t hlt.le
    have hnext := hviews (t + 1) hlt
    refine ⟨fun p hp => ?_, fun r s moment hreceive => ?_, fun hidle => ?_⟩
    · rw [hevent t hlt] at hp
      rw [hnow, hnext]
      exact (h.follows t hlt).edit p hp
    · rw [hevent t hlt] at hreceive
      obtain ⟨hmoment, hrest⟩ := (h.follows t hlt).receive r s moment hreceive
      rw [hnow, hnext, hviews moment (hmoment.trans hlt.le)]
      exact ⟨hmoment, hrest⟩
    · rw [hevent t hlt] at hidle
      rw [hnow, hnext]
      exact (h.follows t hlt).idle hidle
  · exact hlast

/-- A view only grows. -/
theorem le_succ (h : Gossips views event length) {t : ℕ} (ht : t < length) (r p : ι) :
    views t r p ≤ views (t + 1) r p := by
  cases hevent : event t with
  | edit party =>
      obtain ⟨hraised, hrest⟩ := (h.follows t ht).edit party hevent
      by_cases hown : r = party ∧ p = party
      · obtain ⟨rfl, rfl⟩ := hown
        exact hraised
      · rw [hrest r p (not_and_or.mp hown)]
  | receive receiver sender moment =>
      obtain ⟨-, hjoined, hothers⟩ := (h.follows t ht).receive receiver sender moment hevent
      by_cases hown : r = receiver
      · subst hown
        rw [hjoined p]
        exact le_sup_left
      · rw [hothers r hown]
  | idle => rw [(h.follows t ht).idle hevent]

/-- What a replica has heard of another one never shrinks, by induction over the events in between. -/
theorem mono (h : Gossips views event length) {s t : ℕ} (hst : s ≤ t) (ht : t ≤ length) (r p : ι) :
    views s r p ≤ views t r p := by
  induction t, hst using Nat.le_induction with
  | base => exact le_rfl
  | succ t _ ih => exact (ih (by omega)).trans (h.le_succ (by omega) r p)

/-- Every view is a value that its party has had. -/
theorem view_eq (h : Gossips views event length) {t : ℕ} (ht : t ≤ length) (r p : ι) :
    ∃ s ≤ t, views t r p = views s p p := by
  induction t using Nat.strong_induction_on generalizing r with
  | _ t ih =>
    cases t with
    | zero => exact ⟨0, le_rfl, h.start r p⟩
    | succ t =>
        have hkept (heq : views (t + 1) r p = views t r p) : ∃ s ≤ t + 1, views (t + 1) r p = views s p p := by
          obtain ⟨s, hs, hview⟩ := ih t (Nat.lt_succ_self t) (by omega) r
          exact ⟨s, by omega, heq.trans hview⟩
        by_cases hself : r = p
        · subst hself
          exact ⟨t + 1, le_rfl, rfl⟩
        cases hevent : event t with
        | edit party =>
            obtain ⟨-, hrest⟩ := (h.follows t (by omega)).edit party hevent
            -- An edit of `p` itself is none of `r`, so the view stays.
            refine hkept (hrest r p ?_)
            by_contra hboth
            push Not at hboth
            exact hself (hboth.1.trans hboth.2.symm)
        | receive receiver sender moment =>
            obtain ⟨hmoment, hjoined, hothers⟩ := (h.follows t (by omega)).receive receiver sender moment hevent
            by_cases hown : r = receiver
            · subst hown
              -- Of two values that the party has had, one is the later.
              obtain ⟨s, hs, hview⟩ := ih t (Nat.lt_succ_self t) (by omega) r
              obtain ⟨s', hs', hview'⟩ := ih moment (by omega) (by omega) sender
              rw [hjoined p, hview, hview']
              rcases le_total s s' with hle | hle
              · exact ⟨s', by omega, sup_eq_right.mpr (h.mono hle (by omega) p p)⟩
              · exact ⟨s, by omega, sup_eq_left.mpr (h.mono hle (by omega) p p)⟩
            · exact hkept (congrFun (hothers r hown) p)
        | idle => exact hkept (by rw [(h.follows t (by omega)).idle hevent])

/-- No view is ahead of its party. -/
theorem view_le (h : Gossips views event length) {t : ℕ} (ht : t ≤ length) (r p : ι) :
    views t r p ≤ views t p p := by
  obtain ⟨s, hs, hview⟩ := h.view_eq ht r p
  rw [hview]
  exact h.mono hs ht p p

/-- What has come from a party is in the view of it. -/
theorem informed (h : Gossips views event length) {t s : ℕ} {r p : ι} (hinformed : Informed event length t r s p)
    (ht : t ≤ length) : views s p p ≤ views t r p := by
  induction hinformed with
  | own t p => exact le_rfl
  | keep hlt _ ih => exact (ih (by omega)).trans (h.le_succ hlt _ _)
  | receive hlt hevent _ ih =>
      obtain ⟨hmoment, hjoined, -⟩ := (h.follows _ hlt).receive _ _ _ hevent
      rw [hjoined]
      exact (ih (by omega)).trans le_sup_right

/-- Receiving does not change the value of the party itself. -/
theorem own_succ (h : Gossips views event length) {t : ℕ} (ht : t < length) {p : ι}
    (hquiet : event t ≠ .edit p) : views (t + 1) p p = views t p p := by
  cases hevent : event t with
  | edit party =>
      obtain ⟨-, hrest⟩ := (h.follows t ht).edit party hevent
      refine hrest p p (Or.inl ?_)
      rintro rfl
      exact hquiet hevent
  | receive receiver sender moment =>
      obtain ⟨hmoment, hjoined, hothers⟩ := (h.follows t ht).receive receiver sender moment hevent
      by_cases hown : p = receiver
      · subst hown
        rw [hjoined p]
        -- What others have of it is not ahead of it.
        refine sup_eq_left.mpr ((h.view_le (by omega) sender p).trans ?_)
        exact h.mono hmoment (by omega) p p
      · exact congrFun (hothers p hown) p
  | idle => rw [(h.follows t ht).idle hevent]

/-- A party that does not edit any more has its last value. -/
theorem settled (h : Gossips views event length) {s : ℕ} {p : ι} (hs : s ≤ length)
    (hquiet : ∀ t, s ≤ t → t < length → event t ≠ .edit p) : views length p p = views s p p := by
  have hstays (t : ℕ) (hst : s ≤ t) (ht : t ≤ length) : views t p p = views s p p := by
    induction t, hst using Nat.le_induction with
    | base => rfl
    | succ t hst ih => rw [← ih (by omega), h.own_succ (by omega) (hquiet t hst (by omega))]
  exact hstays length hs le_rfl

/-- A party that has received the last value of another one has it. -/
theorem view_eq_of_informed (h : Gossips views event length) {s : ℕ} {r p : ι} (hs : s ≤ length)
    (hinformed : Informed event length length r s p)
    (hquiet : ∀ t, s ≤ t → t < length → event t ≠ .edit p) : views length r p = views length p p := by
  refine le_antisymm (h.view_le le_rfl r p) ?_
  rw [h.settled hs hquiet]
  exact h.informed hinformed le_rfl

end Gossips

end LiminalDB
