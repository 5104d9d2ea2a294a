import LiminalDB.Field.Epochs

/-! # Queues that forget

Entries are pushed at the end of a queue. Each push takes what has grown too old from the front, with the
retention that holds at that moment, and then what is over a limit. As the clock does not go back, the queue
is what no push has found too old, as far as the limit goes (`pushed_eq`). -/

namespace LiminalDB

variable {α : Type}

/-! ## Lists of which the back is kept -/

section Back

variable {keep : α → Bool} {l : List α}

/-- A list that a condition splits in two: nothing of the front is kept, and all of the back. -/
theorem exists_split (h : l.Pairwise fun a b => keep a = true → keep b = true) :
    ∃ front back, l = front ++ back ∧ (∀ a ∈ front, keep a = false) ∧ ∀ a ∈ back, keep a = true := by
  induction l with
  | nil => exact ⟨[], [], rfl, List.forall_mem_nil _, List.forall_mem_nil _⟩
  | cons a l ih =>
      obtain ⟨hfirst, hrest⟩ := List.pairwise_cons.mp h
      by_cases hkeep : keep a = true
      · refine ⟨[], a :: l, rfl, List.forall_mem_nil _, ?_⟩
        exact List.forall_mem_cons.mpr ⟨hkeep, fun b hb => hfirst b hb hkeep⟩
      · obtain ⟨front, back, rfl, hfront, hback⟩ := ih hrest
        exact ⟨a :: front, back, rfl, List.forall_mem_cons.mpr ⟨by simpa using hkeep, hfront⟩, hback⟩

/-- A list whose first part fails a test and whose second passes it is filtered to the second. -/
theorem filter_split {front back : List α} (hfront : ∀ a ∈ front, keep a = false)
    (hback : ∀ a ∈ back, keep a = true) : (front ++ back).filter keep = back := by
  rw [List.filter_append, List.filter_eq_nil_iff.mpr fun a ha => by simp [hfront a ha],
    List.filter_eq_self.mpr hback, List.nil_append]

/-- Taking from the front what is not kept. -/
theorem dropWhile_not_eq_filter (h : l.Pairwise fun a b => keep a = true → keep b = true) :
    l.dropWhile (fun a => !keep a) = l.filter keep := by
  obtain ⟨front, back, rfl, hfront, hback⟩ := exists_split h
  rw [filter_split hfront hback, List.dropWhile_append_of_pos fun a ha => by simp [hfront a ha]]
  cases back with
  | nil => rfl
  | cons a back => rw [List.dropWhile_cons_of_neg (by simp [hback a])]

/-- Looking from the back for what is kept. -/
theorem reverse_takeWhile_eq_filter (h : l.Pairwise fun a b => keep a = true → keep b = true) :
    (l.reverse.takeWhile keep).reverse = l.filter keep := by
  obtain ⟨front, back, rfl, hfront, hback⟩ := exists_split h
  rw [filter_split hfront hback, List.reverse_append,
    List.takeWhile_append_of_pos fun a ha => hback a (List.mem_reverse.mp ha)]
  cases hreversed : front.reverse with
  | nil => simp
  | cons a rest =>
      have hdropped := hfront a (List.mem_reverse.mp (hreversed ▸ List.mem_cons_self))
      rw [List.takeWhile_cons_of_neg (by simp [hdropped]), List.append_nil, List.reverse_reverse]

/-- The last elements of two lists are those of the second, and as many of the first as are still to be had.
-/
theorem lastOf_append (n : ℕ) (front back : List α) :
    lastOf n (front ++ back) = lastOf (n - back.length) front ++ lastOf n back := by
  rw [lastOf, lastOf, lastOf, List.length_append, List.drop_append]
  congr 1
  · by_cases hroom : back.length ≤ n
    · congr 1
      omega
    · rw [List.drop_of_length_le (by omega), List.drop_of_length_le (by omega)]
  · congr 1
    omega

/-- What is kept of the last entries is the last of what is kept. -/
theorem filter_lastOf (n : ℕ) (h : l.Pairwise fun a b => keep a = true → keep b = true) :
    (lastOf n l).filter keep = lastOf n (l.filter keep) := by
  obtain ⟨front, back, rfl, hfront, hback⟩ := exists_split h
  rw [filter_split hfront hback, lastOf_append]
  refine filter_split (fun a ha => hfront a ((lastOf_suffix _ _).subset ha)) fun a ha => ?_
  exact hback a ((lastOf_suffix _ _).subset ha)

end Back

/-! ## Pushing -/

variable {limit : ℕ} {ts : α → UInt64}

/-- The queue after some pushes, each with the retention of its moment. -/
def pushed (limit : ℕ) (ts : α → UInt64) (history : List (α × UInt64)) : List α :=
  history.foldl (fun queue e => expire (ts e.1) e.2 limit ts (queue ++ [e.1])) []

/-- The entries that no later push finds too old. -/
def remembered (ts : α → UInt64) : List (α × UInt64) → List α
  | [] => []
  | e :: later =>
      if later.all fun push => saturatingSub (ts push.1) (ts e.1) ≤ push.2 then e.1 :: remembered ts later
      else remembered ts later

/-- The entries are in the order of their times. -/
def InOrder (ts : α → UInt64) (l : List α) : Prop := l.Pairwise fun a b => (ts a).toNat ≤ (ts b).toNat

/-- A difference that saturates is compared as a sum of natural numbers. -/
theorem saturatingSub_le_iff {a b c : UInt64} : saturatingSub a b ≤ c ↔ a.toNat ≤ b.toNat + c.toNat := by
  unfold saturatingSub
  split
  · rename_i hlt
    have hlt : a.toNat < b.toNat := hlt
    exact iff_of_true (Nat.zero_le _) (by omega)
  · rename_i hle
    have hle := UInt64.not_lt.mp hle
    have hsub := UInt64.toNat_sub_of_le a b hle
    have hle : b.toNat ≤ a.toNat := hle
    rw [UInt64.le_iff_toNat_le, hsub]
    omega

/-- What is remembered is from the history, in its order. -/
theorem remembered_sublist (history : List (α × UInt64)) :
    (remembered ts history).Sublist (history.map Prod.fst) := by
  induction history with
  | nil => exact List.Sublist.refl _
  | cons e history ih =>
      rw [remembered, List.map_cons]
      split
      · exact ih.cons_cons e.1
      · exact ih.cons e.1

/-- One more entry is remembered, and those before it as far as they are not too old for it. -/
theorem remembered_concat (history : List (α × UInt64)) (e : α × UInt64) :
    remembered ts (history ++ [e]) =
      (remembered ts history).filter (fun a => saturatingSub (ts e.1) (ts a) ≤ e.2) ++ [e.1] := by
  induction history with
  | nil => rfl
  | cons first history ih =>
      -- The first entry stays if no later push finds it too old, the last one included.
      rw [List.cons_append, remembered, remembered, ih, List.all_append]
      by_cases hlater : (history.all fun push => saturatingSub (ts push.1) (ts first.1) ≤ push.2) = true
      · by_cases hlast : saturatingSub (ts e.1) (ts first.1) ≤ e.2
        · simp [hlater, hlast]
        · simp [hlater, hlast]
      · simp [hlater]

/-- One more entry is pushed, and what is too old or too much is taken away at the front. -/
theorem pushed_concat (history : List (α × UInt64)) (e : α × UInt64) : pushed limit ts (history ++ [e]) =
    expire (ts e.1) e.2 limit ts (pushed limit ts history ++ [e.1]) := List.foldl_concat ..

/-- A queue holds the last entries that no push has found too old. -/
theorem pushed_eq {history : List (α × UInt64)} (h : InOrder ts (history.map Prod.fst)) :
    pushed limit ts history = lastOf limit (remembered ts history) := by
  induction history using List.reverseRecOn with
  | nil => simp [pushed, remembered, lastOf]
  | append_singleton history e ih =>
      rw [List.map_append] at h
      obtain ⟨hfront, -, hlast⟩ := List.pairwise_append.mp h
      -- What is too old stands before what is not.
      have hback : ((remembered ts history) ++ [e.1]).Pairwise fun a b =>
          decide (saturatingSub (ts e.1) (ts a) ≤ e.2) = true →
            decide (saturatingSub (ts e.1) (ts b) ≤ e.2) = true := by
        have hordered : InOrder ts (remembered ts history ++ [e.1]) :=
          h.sublist ((remembered_sublist history).append_right [e.1])
        refine hordered.imp fun {a b} hab ha => ?_
        rw [decide_eq_true_iff, saturatingSub_le_iff] at ha ⊢
        omega
      have hself : saturatingSub (ts e.1) (ts e.1) ≤ e.2 := saturatingSub_le_iff.mpr (by omega)
      have hold : (fun a => decide (e.2 < saturatingSub (ts e.1) (ts a))) =
          fun a => !decide (saturatingSub (ts e.1) (ts a) ≤ e.2) := by
        funext a
        rw [← decide_not, decide_eq_decide, UInt64.not_le]
      -- So what is dropped from the front is what the push finds too old, and the limit comes last.
      obtain ⟨hremembered, -, -⟩ := List.pairwise_append.mp hback
      rw [pushed_concat, ih hfront, remembered_concat, expire, hold, dropWhile_not_eq_filter
        (hback.sublist ((lastOf_suffix limit _).sublist.append_right [e.1])), List.filter_append,
        filter_lastOf limit hremembered, List.filter_singleton, decide_eq_true hself, cond_true,
        lastOf_lastOf_append]

/-- What every push still finds young enough is remembered. -/
theorem filter_remembered {history : List (α × UInt64)} {p : α → Bool}
    (h : ∀ e ∈ history, ∀ push ∈ history, p e.1 = true → saturatingSub (ts push.1) (ts e.1) ≤ push.2) :
    (remembered ts history).filter p = (history.map Prod.fst).filter p := by
  induction history with
  | nil => rfl
  | cons e history ih =>
      have hrest := ih fun e he push hpush => h e (List.mem_cons_of_mem _ he) push (List.mem_cons_of_mem _ hpush)
      rw [remembered, List.map_cons]
      by_cases hp : p e.1 = true
      · have hyoung : (history.all fun push => saturatingSub (ts push.1) (ts e.1) ≤ push.2) = true := by
          rw [List.all_eq_true]
          intro push hpush
          exact decide_eq_true (h e List.mem_cons_self push (List.mem_cons_of_mem _ hpush) hp)
        rw [if_pos hyoung, List.filter_cons_of_pos hp, List.filter_cons_of_pos hp, hrest]
      · rw [List.filter_cons_of_neg hp, ← hrest]
        split
        · rw [List.filter_cons_of_neg hp]
        · rfl

end LiminalDB
