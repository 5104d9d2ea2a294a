import LiminalDB.Foundations.Gossip
import LiminalDB.Foundations.MapSum
import LiminalDB.Noetic.Crdt
import Mathlib.Algebra.Order.Group.Unbundled.Int
import Mathlib.Algebra.Order.BigOperators.Group.List
import Mathlib.Algebra.Order.Monoid.Prod

/-! # The counter that goes up and down

Each peer adds up its own increments and decrements, and merging keeps, for every peer, the greater sums.
However the states of the replicas travel, what a replica has for a peer is what the peer has had, and a
replica that has heard the last of all peers has the value of all their edits. -/

namespace LiminalDB

/-- The result of an operation on an `i64`, unless it runs over. -/
def i64 (n : ℤ) : Option ℤ := if -2 ^ 63 ≤ n ∧ n < 2 ^ 63 then some n else none

/-- `iter().sum::<i64>()`: a sum that is none where a partial sum leaves 64 bits. -/
def sumI64 (values : List ℤ) : Option ℤ := values.foldlM (fun sum value => i64 (sum + value)) 0

/-- `PnCounter`: what each peer has added and taken off. -/
structure PnCounter where
  positives : Std.ExtTreeMap PeerId ℤ compare
  negatives : Std.ExtTreeMap PeerId ℤ compare

namespace PnCounter

/-- `PnCounter::default`: nothing added and nothing taken off. -/
def default : PnCounter := ⟨∅, ∅⟩

/-- What a peer has added up, with an amount more. -/
def raise (sums : Std.ExtTreeMap PeerId ℤ compare) (peer : PeerId) (delta : ℤ) :
    Option (Std.ExtTreeMap PeerId ℤ compare) := do
  -- `delta.abs()` and the sum may run over, and a peer without an entry has zero.
  let amount ← i64 |delta|
  let sum ← i64 (sums[peer]?.getD 0 + amount)
  some (sums.insert peer sum)

/-- `increment`: a peer adds, where its sum stays within 64 bits. -/
def increment (self : PnCounter) (peer : PeerId) (delta : ℤ) : Option PnCounter :=
  (raise self.positives peer delta).map fun positives => { self with positives }

/-- `decrement`: a peer takes off, where its sum stays within 64 bits. -/
def decrement (self : PnCounter) (peer : PeerId) (delta : ℤ) : Option PnCounter :=
  (raise self.negatives peer delta).map fun negatives => { self with negatives }

/-- `value`: what was added less what was taken off, where all of it stays within 64 bits. -/
def value (self : PnCounter) : Option ℤ := do
  let pos ← sumI64 (self.positives.toList.map Prod.snd)
  let neg ← sumI64 (self.negatives.toList.map Prod.snd)
  i64 (pos - neg)

/-- One of the loops of `merge`. -/
def mergeSums (self other : Std.ExtTreeMap PeerId ℤ compare) : Std.ExtTreeMap PeerId ℤ compare :=
  other.foldl (fun sums peer value => sums.insert peer (max (sums[peer]?.getD 0) value)) self

/-- `merge`: of each peer the greater sum of both sides. -/
def merge (self other : PnCounter) : PnCounter :=
  ⟨mergeSums self.positives other.positives, mergeSums self.negatives other.negatives⟩

/-! ## Merging -/

/-- No sum is negative. -/
def NonNeg (sums : Std.ExtTreeMap PeerId ℤ compare) : Prop :=
  ∀ (peer : PeerId) (sum : ℤ), sums[peer]? = some sum → 0 ≤ sum

/-- Neither sum of a peer is negative. -/
structure Proper (counter : PnCounter) : Prop where
  positives : NonNeg counter.positives
  negatives : NonNeg counter.negatives

section Sums

variable {sums other third : Std.ExtTreeMap PeerId ℤ compare}

/-- For each peer, the greater sum is kept. -/
theorem getElem?_mergeSums (hother : NonNeg other) (peer : PeerId) :
    (mergeSums sums other)[peer]? = Option.merge max sums[peer]? other[peer]? := by
  -- Each entry of the other side touches the entry of its own peer, once.
  have htouches : TouchesKey (fun (m : Std.ExtTreeMap PeerId ℤ compare) peer => m[peer]?)
      (fun m peer value => m.insert peer (max (m[peer]?.getD 0) value))
      (fun sum value => some (max (sum.getD 0) value)) := by
    refine ⟨fun m peer value => Std.ExtTreeMap.getElem?_insert_self, fun m k a value h => ?_⟩
    rw [Std.ExtTreeMap.getElem?_insert, if_neg (by simpa using h.symm)]
  refine (look_foldl_entry htouches other sums peer).trans ?_
  cases hvalue : other[peer]? with
  | none => simp
  | some value =>
      cases sums[peer]? with
      | none => simp [hother peer value hvalue]
      | some sum => simp

/-- Merging two tables of sums takes sums from either, so that none of them becomes negative. -/
theorem nonNeg_mergeSums (h : NonNeg sums) (hother : NonNeg other) : NonNeg (mergeSums sums other) := by
  intro peer sum hsum
  rw [getElem?_mergeSums hother] at hsum
  cases hmine : sums[peer]? with
  | none =>
      rw [hmine, Option.merge_none_left] at hsum
      exact hother peer sum hsum
  | some mine =>
      cases htheirs : other[peer]? with
      | none =>
          rw [hmine, htheirs, Option.merge_none_right] at hsum
          exact h peer sum (hmine.trans hsum)
      | some theirs =>
          rw [hmine, htheirs, Option.merge_some_some] at hsum
          obtain rfl := Option.some.inj hsum
          exact le_max_of_le_left (h peer mine hmine)

/-- On tables without negative sums, where a missing sum counts as zero, the order of a merge does not
matter. -/
theorem mergeSums_comm (h : NonNeg sums) (hother : NonNeg other) :
    mergeSums sums other = mergeSums other sums := by
  refine Std.ExtTreeMap.ext_getElem? fun peer => ?_
  rw [getElem?_mergeSums hother, getElem?_mergeSums h]
  exact Std.Commutative.comm sums[peer]? other[peer]?

/-- Nor does it matter how three tables are bracketed: each sum is the largest of the three. -/
theorem mergeSums_assoc (hother : NonNeg other) (hthird : NonNeg third) :
    mergeSums (mergeSums sums other) third = mergeSums sums (mergeSums other third) := by
  refine Std.ExtTreeMap.ext_getElem? fun peer => ?_
  rw [getElem?_mergeSums hthird, getElem?_mergeSums hother,
    getElem?_mergeSums (nonNeg_mergeSums hother hthird), getElem?_mergeSums hthird]
  exact Std.Associative.assoc sums[peer]? other[peer]? third[peer]?

/-- A table that is merged with itself stays as it is. -/
theorem mergeSums_self (h : NonNeg sums) : mergeSums sums sums = sums := by
  refine Std.ExtTreeMap.ext_getElem? fun peer => ?_
  rw [getElem?_mergeSums h]
  exact Std.IdempotentOp.idempotent sums[peer]?

end Sums

variable {a b c : PnCounter}

/-- Both tables of a merged counter are merged tables, and so hold no negative sum. -/
theorem Proper.merge (ha : a.Proper) (hb : b.Proper) : (a.merge b).Proper :=
  ⟨nonNeg_mergeSums ha.positives hb.positives, nonNeg_mergeSums ha.negatives hb.negatives⟩

/-- Counters without negative sums merge to the same one in either order. -/
theorem merge_comm (ha : a.Proper) (hb : b.Proper) : a.merge b = b.merge a := by
  unfold PnCounter.merge
  rw [mergeSums_comm ha.positives hb.positives, mergeSums_comm ha.negatives hb.negatives]

/-- Three counters merge to the same one however they are bracketed. -/
theorem merge_assoc (hb : b.Proper) (hc : c.Proper) : (a.merge b).merge c = a.merge (b.merge c) := by
  unfold PnCounter.merge
  rw [mergeSums_assoc hb.positives hc.positives, mergeSums_assoc hb.negatives hc.negatives]

/-- Merging a counter with itself changes nothing, so that a state may be delivered twice. -/
theorem merge_self (ha : a.Proper) : a.merge a = a := by
  unfold PnCounter.merge
  rw [mergeSums_self ha.positives, mergeSums_self ha.negatives]

/-! ## What a counter has for a peer -/

/-- The sums of a peer. -/
def entry (self : PnCounter) (peer : PeerId) : ℤ × ℤ :=
  (self.positives[peer]?.getD 0, self.negatives[peer]?.getD 0)

/-- A merged table holds for each peer the larger of its two sums, a missing one being zero. -/
theorem getD_mergeSums {sums other : Std.ExtTreeMap PeerId ℤ compare} (h : NonNeg sums)
    (hother : NonNeg other) (peer : PeerId) : (mergeSums sums other)[peer]?.getD 0 =
      max (sums[peer]?.getD 0) (other[peer]?.getD 0) := by
  rw [getElem?_mergeSums hother]
  cases hmine : sums[peer]? with
  | none =>
      cases htheirs : other[peer]? with
      | none => rfl
      | some theirs => simp [hother peer theirs htheirs]
  | some mine =>
      cases other[peer]? with
      | none => simp [h peer mine hmine]
      | some theirs => rfl

/-- What a merged counter holds of a peer is the larger of what the two hold, increments and decrements
apart. -/
theorem entry_merge (ha : a.Proper) (hb : b.Proper) (peer : PeerId) :
    (a.merge b).entry peer = a.entry peer ⊔ b.entry peer :=
  Prod.ext (getD_mergeSums ha.positives hb.positives peer) (getD_mergeSums ha.negatives hb.negatives peer)

/-! ## Edits -/

/-- A number is an `i64` exactly when it lies in the range of one, and then it is this number. -/
theorem i64_eq_some_iff {n m : ℤ} : i64 n = some m ↔ n = m ∧ -2 ^ 63 ≤ n ∧ n < 2 ^ 63 := by
  unfold i64
  split
  · rename_i hfits
    rw [Option.some.injEq]
    exact (and_iff_left hfits).symm
  · rename_i hover
    exact iff_of_false (by simp) fun h => hover h.2

/-- A sum that a table holds, or the zero that stands for a missing one, is not negative. -/
theorem getD_nonneg {sums : Std.ExtTreeMap PeerId ℤ compare} (h : NonNeg sums) (peer : PeerId) :
    0 ≤ sums[peer]?.getD 0 := by
  cases hsum : sums[peer]? with
  | none => exact le_rfl
  | some sum => exact h peer sum hsum

/-- Raising a sum succeeds exactly when the new one is still an `i64`, and sets it; otherwise it overflows. -/
theorem raise_eq_some_iff {sums after : Std.ExtTreeMap PeerId ℤ compare} {peer : PeerId} {delta : ℤ}
    (h : NonNeg sums) : raise sums peer delta = some after ↔
      sums[peer]?.getD 0 + |delta| < 2 ^ 63 ∧ sums.insert peer (sums[peer]?.getD 0 + |delta|) = after := by
  have hsum := getD_nonneg h peer
  have hamount : 0 ≤ |delta| := abs_nonneg delta
  unfold raise
  simp only [Option.bind_eq_bind, Option.bind_eq_some_iff, i64_eq_some_iff, Option.some.injEq]
  constructor
  · rintro ⟨_, ⟨rfl, -⟩, _, ⟨rfl, -, hroom⟩, rfl⟩
    exact ⟨hroom, rfl⟩
  · rintro ⟨hroom, rfl⟩
    exact ⟨_, ⟨rfl, by omega, by omega⟩, _, ⟨rfl, by omega, hroom⟩, rfl⟩

/-- A raised sum grows by the amount, and the sums of the other peers stay. -/
theorem getD_raised (sums : Std.ExtTreeMap PeerId ℤ compare) (peer other : PeerId) (amount : ℤ) :
    (sums.insert peer (sums[peer]?.getD 0 + amount))[other]?.getD 0 =
      sums[other]?.getD 0 + if other = peer then amount else 0 := by
  by_cases heq : other = peer
  · subst heq
    rw [Std.ExtTreeMap.getElem?_insert_self, Option.getD_some, if_pos rfl]
  · rw [getElem?_insert_of_ne heq, if_neg heq, add_zero]

/-- Raising a sum by an amount that is not negative leaves no sum negative. -/
theorem nonNeg_raised {sums : Std.ExtTreeMap PeerId ℤ compare} (h : NonNeg sums) (peer : PeerId) {amount : ℤ}
    (hamount : 0 ≤ amount) : NonNeg (sums.insert peer (sums[peer]?.getD 0 + amount)) := by
  intro other value hvalue
  have hraised := getD_raised sums peer other amount
  rw [hvalue, Option.getD_some] at hraised
  have hsum := getD_nonneg h other
  rw [hraised]
  split <;> omega

/-- What increments, decrements and merges make of counters that have nothing. -/
inductive Occurs : PnCounter → Prop
  | default : Occurs .default
  | increment {a b : PnCounter} {peer : PeerId} {delta : ℤ} :
      Occurs a → a.increment peer delta = some b → Occurs b
  | decrement {a b : PnCounter} {peer : PeerId} {delta : ℤ} :
      Occurs a → a.decrement peer delta = some b → Occurs b
  | merge {a b : PnCounter} : Occurs a → Occurs b → Occurs (a.merge b)

/-- A counter that occurs is made by increments, decrements and merges, none of which makes a sum negative. -/
theorem Occurs.proper (h : Occurs a) : a.Proper := by
  induction h with
  | default => exact ⟨fun _ _ h => by simp [PnCounter.default] at h, fun _ _ h => by simp [PnCounter.default] at h⟩
  | increment _ hafter ih =>
      obtain ⟨positives, hraise, rfl⟩ := Option.map_eq_some_iff.mp hafter
      obtain ⟨-, rfl⟩ := (raise_eq_some_iff ih.positives).mp hraise
      exact ⟨nonNeg_raised ih.positives _ (abs_nonneg _), ih.negatives⟩
  | decrement _ hafter ih =>
      obtain ⟨negatives, hraise, rfl⟩ := Option.map_eq_some_iff.mp hafter
      obtain ⟨-, rfl⟩ := (raise_eq_some_iff ih.negatives).mp hraise
      exact ⟨ih.positives, nonNeg_raised ih.negatives _ (abs_nonneg _)⟩
  | merge _ _ ha hb => exact ha.merge hb

/-- A peer has added an amount to its sums. -/
structure Edited (before after : PnCounter) (peer : PeerId) (amount : ℤ × ℤ) : Prop where
  occurs : after.Occurs
  entry : ∀ other, after.entry other = before.entry other + if other = peer then amount else 0
  nonneg : 0 ≤ amount

/-- An increment edits one entry, that of its peer, and raises the first of its two sums by the absolute value
of the delta. -/
theorem edited_increment {before after : PnCounter} {peer : PeerId} {delta : ℤ} (h : before.Occurs)
    (hafter : before.increment peer delta = some after) : Edited before after peer (|delta|, 0) := by
  refine ⟨h.increment hafter, fun other => ?_, ⟨abs_nonneg delta, le_rfl⟩⟩
  obtain ⟨positives, hraise, rfl⟩ := Option.map_eq_some_iff.mp hafter
  obtain ⟨-, rfl⟩ := (raise_eq_some_iff h.proper.positives).mp hraise
  refine Prod.ext ((getD_raised before.positives peer other |delta|).trans ?_) ?_
  · split <;> rfl
  · split <;> exact (add_zero _).symm

/-- A decrement does the same with the second of the two sums. -/
theorem edited_decrement {before after : PnCounter} {peer : PeerId} {delta : ℤ} (h : before.Occurs)
    (hafter : before.decrement peer delta = some after) : Edited before after peer (0, |delta|) := by
  refine ⟨h.decrement hafter, fun other => ?_, ⟨le_rfl, abs_nonneg delta⟩⟩
  obtain ⟨negatives, hraise, rfl⟩ := Option.map_eq_some_iff.mp hafter
  obtain ⟨-, rfl⟩ := (raise_eq_some_iff h.proper.negatives).mp hraise
  refine Prod.ext ?_ ((getD_raised before.negatives peer other |delta|).trans ?_)
  · split <;> exact (add_zero _).symm
  · split <;> rfl

end PnCounter

/-! ## Replicas -/

/-- What a peer does. -/
inductive CounterStep
  | increment (peer : PeerId) (delta : ℤ)
  | decrement (peer : PeerId) (delta : ℤ)
  /-- A peer merges the counter that another one had after so many steps. -/
  | deliver (receiver sender : PeerId) (moment : ℕ)

/-- The counters of all peers, now and after every earlier step. -/
structure Network where
  past : List (PeerId → PnCounter)
  now : PeerId → PnCounter

namespace Network

/-- The counters at each moment. -/
def moments (net : Network) : List (PeerId → PnCounter) := net.past ++ [net.now]

/-- The counter of one peer changes. -/
def set (net : Network) (peer : PeerId) (counter : PnCounter) : Network :=
  ⟨net.moments, Function.update net.now peer counter⟩

/-- A peer edits its counter, under its own id, or merges one that has been on its way. -/
def step (net : Network) : CounterStep → Option Network
  | .increment peer delta => ((net.now peer).increment peer delta).map (net.set peer)
  | .decrement peer delta => ((net.now peer).decrement peer delta).map (net.set peer)
  | .deliver receiver sender moment =>
      match net.moments[moment]? with
      | some counters => some (net.set receiver ((net.now receiver).merge (counters sender)))
      | none => some ⟨net.moments, net.now⟩

/-- The network after some steps, unless one of them runs over. -/
def run (steps : List CounterStep) : Option Network := steps.foldlM step ⟨[], fun _ => .default⟩

/-- The counters after so many of the steps. -/
def countersAt (steps : List CounterStep) (t : ℕ) : PeerId → PnCounter :=
  ((run (steps.take t)).map now).getD fun _ => .default

/-- What a step is to the gossip. -/
def eventAt (steps : List CounterStep) (t : ℕ) : GossipEvent PeerId :=
  match steps[t]? with
  | some (.increment peer _) => .edit peer
  | some (.decrement peer _) => .edit peer
  | some (.deliver receiver sender moment) =>
      if moment ≤ t then .receive receiver sender moment else .idle
  | none => .idle

/-- The views of a network. -/
def viewsOf (steps : List CounterStep) (t : ℕ) (r p : PeerId) : ℤ × ℤ := (countersAt steps t r).entry p

/-- A run with one more step is the run and then, if it did not overflow, the step. -/
theorem run_append_singleton (steps : List CounterStep) (s : CounterStep) :
    run (steps ++ [s]) = (run steps).bind fun net => net.step s := by
  unfold run
  rw [List.foldlM_append]
  cases steps.foldlM step ⟨[], fun _ => .default⟩ with
  | none => rfl
  | some net => simp

/-! ## What a run keeps -/

/-- What peers have added to their positive sums. -/
def increments (steps : List CounterStep) : List (PeerId × ℤ) :=
  steps.filterMap fun
    | .increment peer delta => some (peer, |delta|)
    | _ => none

/-- What peers have added to their negative sums. -/
def decrements (steps : List CounterStep) : List (PeerId × ℤ) :=
  steps.filterMap fun
    | .decrement peer delta => some (peer, |delta|)
    | _ => none

/-- What one peer has added. -/
def sumOf (peer : PeerId) (edits : List (PeerId × ℤ)) : ℤ :=
  (edits.map fun e => if peer = e.1 then e.2 else 0).sum

/-- The network is that of its steps: its moments are those of the run, it gossips, and each peer has in its
own counter what it has added. -/
structure Kept (steps : List CounterStep) (net : Network) : Prop where
  run : run steps = some net
  moments : net.moments = (List.range (steps.length + 1)).map (countersAt steps)
  occurs : ∀ counters ∈ net.moments, ∀ peer, (counters peer).Occurs
  gossips : Gossips (viewsOf steps) (eventAt steps) steps.length
  own : ∀ peer, (net.now peer).entry peer = (sumOf peer (increments steps), sumOf peer (decrements steps))

variable {steps : List CounterStep} {s : CounterStep} {net after : Network}

/-- What the peers held at a time within a run does not depend on the step that follows it. -/
theorem countersAt_append {t : ℕ} (ht : t ≤ steps.length) : countersAt (steps ++ [s]) t = countersAt steps t := by
  unfold countersAt
  rw [List.take_append_of_le_length ht]

/-- At the end of a run the peers hold what the network holds now. -/
theorem countersAt_length (hrun : run steps = some net) : countersAt steps steps.length = net.now := by
  unfold countersAt
  rw [List.take_length, hrun]
  rfl

/-- Nor does the event at a time within a run depend on the step that follows it. -/
theorem eventAt_append {t : ℕ} (ht : t < steps.length) : eventAt (steps ++ [s]) t = eventAt steps t := by
  unfold eventAt
  rw [List.getElem?_append_left ht]

/-- Before the first step nothing is on its way and every peer holds the empty counter. -/
theorem kept_nil : Kept [] ⟨[], fun _ => .default⟩ := by
  refine ⟨rfl, rfl, fun counters hcounters peer => ?_, ⟨fun r p => rfl, fun t ht => ?_⟩, fun peer => rfl⟩
  · obtain rfl := List.mem_singleton.mp hcounters
    exact PnCounter.Occurs.default
  · exact absurd ht (Nat.not_lt_zero t)

/-- A step that follows the rules of gossip, and adds to the own sums what it adds. -/
theorem kept_snoc (h : Kept steps net) (hstep : net.step s = some after)
    (hmoments : after.moments = net.moments ++ [after.now]) (hoccurs : ∀ peer, (after.now peer).Occurs)
    (hfollows : GossipStep (viewsOf (steps ++ [s])) (eventAt (steps ++ [s])) steps.length)
    (hown : ∀ peer, (after.now peer).entry peer = (sumOf peer (increments (steps ++ [s])),
      sumOf peer (decrements (steps ++ [s])))) : Kept (steps ++ [s]) after := by
  have hrun : run (steps ++ [s]) = some after := by
    rw [run_append_singleton, h.run]
    exact hstep
  refine ⟨hrun, ?_, ?_, ?_, hown⟩
  -- The moments before the last are those of the steps before.
  · have hlast := countersAt_length hrun
    rw [List.length_append, List.length_singleton] at hlast ⊢
    rw [hmoments, h.moments, List.range_succ (n := steps.length + 1), List.map_append, List.map_singleton, hlast]
    congr 1
    refine List.map_congr_left fun t ht => (countersAt_append ?_).symm
    exact Nat.lt_succ_iff.mp (List.mem_range.mp ht)
  · intro counters hcounters
    rw [hmoments] at hcounters
    rcases List.mem_append.mp hcounters with hold | hnew
    · exact h.occurs counters hold
    · obtain rfl := List.mem_singleton.mp hnew
      exact hoccurs
  · rw [List.length_append, List.length_singleton]
    refine h.gossips.snoc (fun t ht => ?_) (fun t ht => eventAt_append ht) hfollows
    unfold viewsOf
    rw [countersAt_append ht]

/-! ## Each step -/

/-- One time later than the end of a run the peers hold what the step has left them with. -/
theorem countersAt_snoc (h : Kept steps net) (hstep : net.step s = some after) :
    countersAt (steps ++ [s]) (steps.length + 1) = after.now := by
  have hrun : run (steps ++ [s]) = some after := by
    rw [run_append_singleton, h.run]
    exact hstep
  simpa using countersAt_length hrun

/-- The views before the last step. -/
theorem viewsOf_last (h : Kept steps net) (r p : PeerId) :
    viewsOf (steps ++ [s]) steps.length r p = (net.now r).entry p := by
  unfold viewsOf
  rw [countersAt_append le_rfl, countersAt_length h.run]

/-- The views after it. -/
theorem viewsOf_snoc (h : Kept steps net) (hstep : net.step s = some after) (r p : PeerId) :
    viewsOf (steps ++ [s]) (steps.length + 1) r p = (after.now r).entry p := by
  unfold viewsOf
  rw [countersAt_snoc h hstep]

/-- Whatever a peer holds now is a counter that occurs. -/
theorem Kept.occurs_now (h : Kept steps net) (peer : PeerId) : (net.now peer).Occurs :=
  h.occurs net.now (List.mem_append_right _ (List.mem_singleton_self _)) peer

/-- Setting the counter of one peer leaves what the others hold. -/
theorem now_set (net : Network) (peer : PeerId) (counter : PnCounter) :
    (net.set peer counter).now = Function.update net.now peer counter := rfl

/-- If the new counter of a peer occurs, all the peers still hold counters that occur. -/
theorem occurs_set (h : Kept steps net) {peer : PeerId} {counter : PnCounter} (hcounter : counter.Occurs)
    (other : PeerId) : ((net.set peer counter).now other).Occurs := by
  rw [now_set]
  by_cases heq : other = peer
  · subst heq
    rw [Function.update_self]
    exact hcounter
  · rw [Function.update_of_ne heq]
    exact h.occurs_now other

/-- The increments of a longer run are those of its beginning and then those of the rest. -/
theorem increments_append (more : List CounterStep) :
    increments (steps ++ more) = increments steps ++ increments more := List.filterMap_append

/-- The same of the decrements. -/
theorem decrements_append (more : List CounterStep) :
    decrements (steps ++ more) = decrements steps ++ decrements more := List.filterMap_append

/-- The sum of the edits of a peer adds up over the two parts of a list. -/
theorem sumOf_append (peer : PeerId) (edits more : List (PeerId × ℤ)) :
    sumOf peer (edits ++ more) = sumOf peer edits + sumOf peer more := by
  unfold sumOf
  rw [List.map_append, List.sum_append]

/-- A peer edits its own counter. -/
theorem kept_edit (h : Kept steps net) {peer : PeerId} {counter : PnCounter} {amount : ℤ × ℤ}
    (hstep : net.step s = some (net.set peer counter)) (hedited : PnCounter.Edited (net.now peer) counter peer amount)
    (hevent : eventAt (steps ++ [s]) steps.length = .edit peer)
    (hsums : ∀ other, (sumOf other (increments [s]), sumOf other (decrements [s])) =
      if other = peer then amount else 0) : Kept (steps ++ [s]) (net.set peer counter) := by
  have hsame : (net.set peer counter).now peer = counter := by
    rw [now_set, Function.update_self]
  have hothers (other : PeerId) (hne : other ≠ peer) : (net.set peer counter).now other = net.now other := by
    rw [now_set, Function.update_of_ne hne]
  refine kept_snoc h hstep rfl (occurs_set h hedited.occurs) ?_ fun other => ?_
  · refine ⟨fun p hp => ?_, fun r sender moment hreceive => ?_, fun hidle => ?_⟩
    -- A peer only adds to its sums, and what others have of it is not touched.
    · obtain rfl : peer = p := GossipEvent.edit.inj (hevent.symm.trans hp)
      refine ⟨?_, fun r q hne => ?_⟩
      · rw [viewsOf_last h, viewsOf_snoc h hstep, hsame, hedited.entry peer, if_pos rfl]
        exact ⟨le_add_of_nonneg_right hedited.nonneg.1, le_add_of_nonneg_right hedited.nonneg.2⟩
      · rw [viewsOf_last h, viewsOf_snoc h hstep]
        by_cases hr : r = peer
        · subst hr
          rw [hsame, hedited.entry q, if_neg (hne.resolve_left (not_not_intro rfl)), add_zero]
        · rw [hothers r hr]
    · exact absurd (hevent.symm.trans hreceive) (by simp)
    · exact absurd (hevent.symm.trans hidle) (by simp)
  · have hown : ((net.set peer counter).now other).entry other =
        (net.now other).entry other + if other = peer then amount else 0 := by
      by_cases heq : other = peer
      · subst heq
        rw [hsame, hedited.entry other]
      · rw [hothers other heq, if_neg heq, add_zero]
    rw [hown, h.own other, ← hsums other, increments_append, decrements_append, sumOf_append, sumOf_append]
    rfl

/-- A peer merges a counter that another one had. -/
theorem kept_receive (h : Kept steps net) (receiver sender : PeerId) {moment : ℕ}
    (hmoment : moment ≤ steps.length) :
    ∃ counters, net.moments[moment]? = some counters ∧ Kept (steps ++ [.deliver receiver sender moment])
      (net.set receiver ((net.now receiver).merge (counters sender))) := by
  have hsent : net.moments[moment]? = some (countersAt steps moment) := by
    rw [h.moments, List.getElem?_map, List.getElem?_range (by omega)]
    rfl
  have hsender : (countersAt steps moment sender).Occurs :=
    h.occurs _ (List.mem_of_getElem? hsent) sender
  have hstep : net.step (.deliver receiver sender moment) =
      some (net.set receiver ((net.now receiver).merge (countersAt steps moment sender))) := by
    simp only [step, hsent]
  have hevent : eventAt (steps ++ [.deliver receiver sender moment]) steps.length =
      .receive receiver sender moment := by
    unfold eventAt
    rw [List.getElem?_concat_length]
    exact if_pos hmoment
  refine ⟨_, hsent, kept_snoc h hstep rfl (occurs_set h ((h.occurs_now receiver).merge hsender)) ?_ fun other => ?_⟩
  · refine ⟨fun p hp => absurd (hevent.symm.trans hp) (by simp), fun r s m hreceive => ?_,
      fun hidle => absurd (hevent.symm.trans hidle) (by simp)⟩
    obtain ⟨rfl, rfl, rfl⟩ := GossipEvent.receive.inj (hevent.symm.trans hreceive)
    refine ⟨hmoment, fun p => ?_, fun other hne => ?_⟩
    · rw [viewsOf_last h, viewsOf_snoc h hstep, now_set, Function.update_self]
      unfold viewsOf
      rw [countersAt_append hmoment]
      exact PnCounter.entry_merge (h.occurs_now receiver).proper hsender.proper p
    · funext p
      rw [viewsOf_last h, viewsOf_snoc h hstep, now_set, Function.update_of_ne hne]
  · have hown : ((net.set receiver ((net.now receiver).merge (countersAt steps moment sender))).now other).entry
        other = (net.now other).entry other := by
      rw [now_set]
      by_cases heq : other = receiver
      · subst heq
        rw [Function.update_self, PnCounter.entry_merge (h.occurs_now other).proper hsender.proper]
        -- What comes back to a peer about itself is not ahead of it.
        refine sup_eq_left.mpr ((h.gossips.view_le hmoment sender other).trans ?_)
        refine (h.gossips.mono hmoment le_rfl other other).trans_eq ?_
        unfold viewsOf
        rw [countersAt_length h.run]
      · rw [Function.update_of_ne heq]
    rw [hown, h.own other, increments_append, decrements_append]
    simp [increments, decrements]

/-- Nothing happens when nothing has been sent. -/
theorem kept_idle (h : Kept steps net) (receiver sender : PeerId) {moment : ℕ} (hmoment : steps.length < moment) :
    net.moments[moment]? = none ∧ Kept (steps ++ [.deliver receiver sender moment]) ⟨net.moments, net.now⟩ := by
  have hnone : net.moments[moment]? = none := by
    rw [h.moments, List.getElem?_eq_none_iff, List.length_map, List.length_range]
    exact hmoment
  have hstep : net.step (.deliver receiver sender moment) = some ⟨net.moments, net.now⟩ := by
    simp only [step, hnone]
  have hevent : eventAt (steps ++ [.deliver receiver sender moment]) steps.length = .idle := by
    unfold eventAt
    rw [List.getElem?_concat_length]
    exact if_neg (not_le.mpr hmoment)
  refine ⟨hnone, kept_snoc h hstep rfl h.occurs_now ?_ fun other => ?_⟩
  · refine ⟨fun p hp => absurd (hevent.symm.trans hp) (by simp),
      fun r s m hreceive => absurd (hevent.symm.trans hreceive) (by simp), fun _ => ?_⟩
    funext r p
    rw [viewsOf_last h, viewsOf_snoc h hstep]
  · rw [h.own other, increments_append, decrements_append]
    simp [increments, decrements]

/-- Every step, be it an edit, a state that is sent or one that is delivered, keeps what is known of runs. -/
theorem kept_step (h : Kept steps net) (hstep : net.step s = some after) : Kept (steps ++ [s]) after := by
  cases s with
  | increment peer delta =>
      obtain ⟨counter, hcounter, rfl⟩ := Option.map_eq_some_iff.mp hstep
      refine kept_edit h hstep (PnCounter.edited_increment (h.occurs_now peer) hcounter) ?_ fun other => ?_
      · unfold eventAt
        rw [List.getElem?_concat_length]
      · by_cases heq : other = peer <;> simp [increments, decrements, sumOf, heq]
  | decrement peer delta =>
      obtain ⟨counter, hcounter, rfl⟩ := Option.map_eq_some_iff.mp hstep
      refine kept_edit h hstep (PnCounter.edited_decrement (h.occurs_now peer) hcounter) ?_ fun other => ?_
      · unfold eventAt
        rw [List.getElem?_concat_length]
      · by_cases heq : other = peer <;> simp [increments, decrements, sumOf, heq]
  | deliver receiver sender moment =>
      by_cases hmoment : moment ≤ steps.length
      · obtain ⟨counters, hsent, hkept⟩ := kept_receive h receiver sender hmoment
        simp only [step, hsent, Option.some.injEq] at hstep
        exact hstep ▸ hkept
      · obtain ⟨hsent, hkept⟩ := kept_idle h receiver sender (not_le.mp hmoment)
        simp only [step, hsent, Option.some.injEq] at hstep
        exact hstep ▸ hkept

/-- Every run keeps it. -/
theorem kept (hrun : run steps = some net) : Kept steps net := by
  induction steps using List.reverseRecOn generalizing net with
  | nil =>
      obtain rfl := Option.some.inj hrun
      exact kept_nil
  | append_singleton steps s ih =>
      rw [run_append_singleton] at hrun
      obtain ⟨before, hbefore, hstep⟩ := Option.bind_eq_some_iff.mp hrun
      exact kept_step (ih hbefore) hstep

/-! ## Totals -/

/-- What all peers have added. -/
def total (edits : List (PeerId × ℤ)) : ℤ := (edits.map Prod.snd).sum

/-- Only amounts are added. -/
def Adds (edits : List (PeerId × ℤ)) : Prop := ∀ e ∈ edits, 0 ≤ e.2

/-- The increments of a run are sums of absolute values, so that each adds. -/
theorem adds_increments (steps : List CounterStep) : Adds (increments steps) := by
  intro e he
  obtain ⟨s, -, hs⟩ := List.mem_filterMap.mp he
  cases s <;> cases hs
  exact abs_nonneg _

/-- So does each of the decrements. -/
theorem adds_decrements (steps : List CounterStep) : Adds (decrements steps) := by
  intro e he
  obtain ⟨s, -, hs⟩ := List.mem_filterMap.mp he
  cases s <;> cases hs
  exact abs_nonneg _

/-- Among edits that add, one peer accounts for no more than all of them together. -/
theorem sumOf_le_total {edits : List (PeerId × ℤ)} (h : Adds edits) (peer : PeerId) :
    sumOf peer edits ≤ total edits := by
  unfold sumOf total
  refine List.sum_le_sum fun e he => ?_
  have hamount := h e he
  split <;> omega

/-- An edit whose total fits does not run over. -/
theorem raise_of_total {sums : Std.ExtTreeMap PeerId ℤ compare} {peer : PeerId} {delta : ℤ}
    {edits : List (PeerId × ℤ)} (hsums : PnCounter.NonNeg sums) (hadds : Adds edits)
    (hown : sums[peer]?.getD 0 = sumOf peer edits) (htotal : total (edits ++ [(peer, |delta|)]) < 2 ^ 63) :
    ∃ after, PnCounter.raise sums peer delta = some after := by
  refine ⟨_, (PnCounter.raise_eq_some_iff hsums).mpr ⟨?_, rfl⟩⟩
  have hle := sumOf_le_total hadds peer
  have hlast : total (edits ++ [(peer, |delta|)]) = total edits + |delta| := by simp [total]
  omega

/-- With totals that fit, a run does not run over. -/
theorem run_of_totals (hincrements : total (increments steps) < 2 ^ 63)
    (hdecrements : total (decrements steps) < 2 ^ 63) : ∃ net, run steps = some net := by
  induction steps using List.reverseRecOn with
  | nil => exact ⟨_, rfl⟩
  | append_singleton steps s ih =>
      rw [increments_append] at hincrements
      rw [decrements_append] at hdecrements
      -- Totals only grow, so those before the last step fit as well.
      have hpart (edits more : List (PeerId × ℤ)) (hmore : Adds more) (htotal : total (edits ++ more) < 2 ^ 63) :
          total edits < 2 ^ 63 := by
        have hnonneg : 0 ≤ total more := List.sum_nonneg (by simpa using fun b a h => hmore (a, b) h)
        have happend : total (edits ++ more) = total edits + total more := by simp [total]
        omega
      obtain ⟨net, hnet⟩ := ih (hpart _ _ (adds_increments [s]) hincrements)
        (hpart _ _ (adds_decrements [s]) hdecrements)
      -- What the peer adds to is its own total, and that is a part of the total of all.
      have hkept := kept hnet
      rw [run_append_singleton, hnet, Option.bind_some]
      cases s with
      | increment peer delta =>
          obtain ⟨positives, hraise⟩ := raise_of_total (hkept.occurs_now peer).proper.positives
            (adds_increments steps) (congrArg Prod.fst (hkept.own peer)) hincrements
          refine ⟨net.set peer ⟨positives, (net.now peer).negatives⟩, ?_⟩
          simp [step, PnCounter.increment, hraise]
      | decrement peer delta =>
          obtain ⟨negatives, hraise⟩ := raise_of_total (hkept.occurs_now peer).proper.negatives
            (adds_decrements steps) (congrArg Prod.snd (hkept.own peer)) hdecrements
          refine ⟨net.set peer ⟨(net.now peer).positives, negatives⟩, ?_⟩
          simp [step, PnCounter.decrement, hraise]
      | deliver receiver sender moment =>
          by_cases hmoment : moment ≤ steps.length
          · obtain ⟨counters, hsent, -⟩ := kept_receive hkept receiver sender hmoment
            exact ⟨_, by simp only [step, hsent]; rfl⟩
          · obtain ⟨hsent, -⟩ := kept_idle hkept receiver sender (not_le.mp hmoment)
            exact ⟨_, by simp only [step, hsent]; rfl⟩

/-! ## The value -/

/-- The sums of all peers, after some edits. -/
def tally (edits : List (PeerId × ℤ)) : Std.ExtTreeMap PeerId ℤ compare :=
  edits.foldl (fun sums e => sums.insert e.1 (sums[e.1]?.getD 0 + e.2)) ∅

/-- The tally has for each peer what it has added, and in all what all have added. -/
theorem tally_spec {edits : List (PeerId × ℤ)} (h : Adds edits) : PnCounter.NonNeg (tally edits) ∧
    (∀ peer : PeerId, (tally edits)[peer]?.getD 0 = sumOf peer edits) ∧
      (valueSum Int.toNat (tally edits) : ℤ) = total edits := by
  induction edits using List.reverseRecOn with
  | nil => exact ⟨fun _ _ h => by simp [tally] at h, fun peer => by simp [tally, sumOf],
      rfl⟩
  | append_singleton edits e ih =>
      obtain ⟨hnonneg, hsums, hall⟩ := ih fun e he => h e (List.mem_append_left _ he)
      have hamount := h e (by simp)
      have hlast : tally (edits ++ [e]) =
          (tally edits).insert e.1 ((tally edits)[e.1]?.getD 0 + e.2) := List.foldl_concat ..
      rw [hlast]
      refine ⟨PnCounter.nonNeg_raised hnonneg e.1 hamount, fun peer => ?_, ?_⟩
      · rw [PnCounter.getD_raised, hsums, sumOf_append]
        simp [sumOf]
      · have htotal : total (edits ++ [e]) = total edits + e.2 := by simp [total]
        -- The sum of the values changes by the amount, whether or not the peer is there.
        cases hold : (tally edits)[e.1]? with
        | none =>
            rw [valueSum_insert_new _ hold, Option.getD_none]
            omega
        | some sum =>
            have hsum := hnonneg e.1 sum hold
            have hchanged := valueSum_insert_old (v := sum + e.2) Int.toNat hold
            rw [Option.getD_some]
            omega

/-- A sum that fits is added up without running over. -/
theorem sumI64_eq {values : List ℤ} (hnonneg : ∀ value ∈ values, 0 ≤ value) (hfits : values.sum < 2 ^ 63) :
    sumI64 values = some values.sum := by
  unfold sumI64
  induction values using List.reverseRecOn with
  | nil => rfl
  | append_singleton values value ih =>
      have hlast := hnonneg value (by simp)
      have hfirst : ∀ value ∈ values, 0 ≤ value := fun v hv => hnonneg v (List.mem_append_left _ hv)
      have hsum : 0 ≤ values.sum := List.sum_nonneg hfirst
      rw [List.sum_append, List.sum_singleton] at hfits ⊢
      have hadded : i64 (values.sum + value) = some (values.sum + value) :=
        PnCounter.i64_eq_some_iff.mpr ⟨rfl, by omega, hfits⟩
      rw [List.foldlM_append, ih hfirst (by omega)]
      simpa using hadded

/-- Sums that are those of some edits add up to their total. -/
theorem sumI64_values {sums : Std.ExtTreeMap PeerId ℤ compare} {edits : List (PeerId × ℤ)}
    (hnonneg : PnCounter.NonNeg sums) (hadds : Adds edits)
    (hsums : ∀ peer : PeerId, sums[peer]?.getD 0 = sumOf peer edits) (hfits : total edits < 2 ^ 63) :
    sumI64 (sums.toList.map Prod.snd) = some (total edits) := by
  obtain ⟨-, htally, hall⟩ := tally_spec hadds
  have hvalues : ∀ value ∈ sums.toList.map Prod.snd, 0 ≤ value := by
    intro value hvalue
    obtain ⟨entry, hentry, rfl⟩ := List.mem_map.mp hvalue
    exact hnonneg entry.1 entry.2 (Std.ExtTreeMap.mem_toList_iff_getElem?_eq_some.mp hentry)
  have hcast (values : List ℤ) (h : ∀ value ∈ values, 0 ≤ value) :
      ((values.map Int.toNat).sum : ℤ) = values.sum := by
    induction values with
    | nil => rfl
    | cons value values ih =>
        have hfirst := h value (by simp)
        have hrest := ih fun v hv => h v (by simp [hv])
        rw [List.map_cons, List.sum_cons, List.sum_cons]
        omega
  have hsum : (sums.toList.map Prod.snd).sum = total edits := by
    -- The sum of the values is that of every map with the same entries.
    have hsame : valueSum Int.toNat sums = valueSum Int.toNat (tally edits) :=
      valueSum_congr rfl fun peer => (hsums peer).trans (htally peer).symm
    rw [← hall, ← hsame, ← hcast _ hvalues, List.map_map]
    rfl
  rw [← hsum] at hfits ⊢
  exact sumI64_eq hvalues hfits

/-- The peer has received, directly or through others, the last counter of every peer that edits. -/
def HasAll (steps : List CounterStep) (r : PeerId) : Prop :=
  ∀ p, (∃ t < steps.length, eventAt steps t = .edit p) →
    ∃ s ≤ steps.length, (∀ t, s ≤ t → t < steps.length → eventAt steps t ≠ .edit p) ∧
      Informed (eventAt steps) steps.length steps.length r s p

/-- Who has all has for each peer what it has added. -/
theorem entry_of_hasAll (h : Kept steps net) {r : PeerId} (hall : HasAll steps r) (p : PeerId) :
    (net.now r).entry p = (sumOf p (increments steps), sumOf p (decrements steps)) := by
  have hview : viewsOf steps steps.length r p = viewsOf steps steps.length p p := by
    by_cases hedits : ∃ t < steps.length, eventAt steps t = .edit p
    · obtain ⟨s, hs, hquiet, hinformed⟩ := hall p hedits
      exact h.gossips.view_eq_of_informed hs hinformed hquiet
    · -- Who never edits has always had the same.
      push Not at hedits
      obtain ⟨s, hs, hview⟩ := h.gossips.view_eq le_rfl r p
      exact hview.trans (h.gossips.settled hs fun t _ ht => hedits t ht).symm
  unfold viewsOf at hview
  rw [countersAt_length h.run] at hview
  exact hview.trans (h.own p)

/-- Peers edit a counter under their own ids and merge the counters of others, late, again or not at all. What
a replica has for a peer is what that peer has had at some moment; merging is commutative, associative and
idempotent; and a replica that has received the last counter of all has the value of all the edits. -/
theorem pn_counters_converge (hincrements : total (increments steps) < 2 ^ 63)
    (hdecrements : total (decrements steps) < 2 ^ 63) : ∃ net, run steps = some net ∧
      (∀ t ≤ steps.length, ∀ r p, ∃ s ≤ t,
        (countersAt steps t r).entry p = (countersAt steps s p).entry p) ∧
      (∀ a b c : PnCounter, a.Occurs → b.Occurs → c.Occurs →
        a.merge b = b.merge a ∧ (a.merge b).merge c = a.merge (b.merge c) ∧ a.merge a = a) ∧
      (∀ t ≤ steps.length, ∀ r, (countersAt steps t r).Occurs) ∧
      ∀ r, HasAll steps r → (net.now r).value = some (total (increments steps) - total (decrements steps)) := by
  obtain ⟨net, hnet⟩ := run_of_totals hincrements hdecrements
  have hkept := kept hnet
  refine ⟨net, hnet, fun t ht r p => hkept.gossips.view_eq ht r p, fun a b c ha hb hc => ?_,
    fun t ht r => ?_, fun r hall => ?_⟩
  · exact ⟨PnCounter.merge_comm ha.proper hb.proper, PnCounter.merge_assoc hb.proper hc.proper,
      PnCounter.merge_self ha.proper⟩
  · refine hkept.occurs _ ?_ r
    rw [hkept.moments]
    exact List.mem_map.mpr ⟨t, List.mem_range.mpr (Nat.lt_succ_of_le ht), rfl⟩
  · have hproper := (hkept.occurs_now r).proper
    have hentry := entry_of_hasAll hkept hall
    have hpos := sumI64_values hproper.positives (adds_increments steps)
      (fun p => congrArg Prod.fst (hentry p)) hincrements
    have hneg := sumI64_values hproper.negatives (adds_decrements steps)
      (fun p => congrArg Prod.snd (hentry p)) hdecrements
    have hpos' : 0 ≤ total (increments steps) :=
      List.sum_nonneg (by simpa using fun b a h => adds_increments steps (a, b) h)
    have hneg' : 0 ≤ total (decrements steps) :=
      List.sum_nonneg (by simpa using fun b a h => adds_decrements steps (a, b) h)
    unfold PnCounter.value
    rw [hpos, hneg]
    exact PnCounter.i64_eq_some_iff.mpr ⟨rfl, by omega, by omega⟩

/-- Two peers count, and one hears of the other twice. -/
def evenCount : List CounterStep :=
  [.increment (samplePeer 1) 3, .decrement (samplePeer 2) (-2), .deliver (samplePeer 1) (samplePeer 2) 2,
    .deliver (samplePeer 1) (samplePeer 2) 2]

/-- The run of two peers above: whatever a peer holds of another is what that one held at some time before,
and the peers that have heard of everything read one. -/
theorem pn_counters_converge_evenCount : ∃ net, run evenCount = some net ∧
    (∀ t ≤ evenCount.length, ∀ r p, ∃ s ≤ t,
      (countersAt evenCount t r).entry p = (countersAt evenCount s p).entry p) ∧
    (∀ a b c : PnCounter, a.Occurs → b.Occurs → c.Occurs →
      a.merge b = b.merge a ∧ (a.merge b).merge c = a.merge (b.merge c) ∧ a.merge a = a) ∧
    (∀ t ≤ evenCount.length, ∀ r, (countersAt evenCount t r).Occurs) ∧
    ∀ r, HasAll evenCount r → (net.now r).value = some 1 :=
  @pn_counters_converge evenCount (by decide) (by decide)

end Network

end LiminalDB
