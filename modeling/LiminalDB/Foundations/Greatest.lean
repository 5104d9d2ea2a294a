import Mathlib.Order.Lattice
import Mathlib.Order.Defs.LinearOrder
import Mathlib.Data.List.Induction
import Mathlib.Tactic.Push

/-! # Registers that keep the greatest value

`keepGreatest` is the merge of a last-writer register: the second value replaces the first when its
key is greater. Under one order this is associative and idempotent, and commutative when the key tells
the values apart.

The second half is about a register whose order depends on a context that grows with every message
received (`deliver`). Such a register need not converge. `deliver_eq_iff` says exactly when every way
to deliver the same messages ends with the same value. -/

namespace LiminalDB

section Fixed

variable {α κ : Type*} [LinearOrder κ] {key : α → κ} {a b c : α}

/-- Keep the first value unless the second has a greater key. -/
def keepGreatest (key : α → κ) (a b : α) : α := if key a < key b then b else a

/-- The second of two values is kept if its key is larger. -/
theorem keepGreatest_of_lt (h : key a < key b) : keepGreatest key a b = b := if_pos h

/-- The first of two values is kept if the key of the second is not larger, and in particular where the keys
are equal. -/
theorem keepGreatest_of_le (h : key b ≤ key a) : keepGreatest key a b = a := if_neg (not_lt.mpr h)

/-- Keeping the greater of a value and itself changes nothing. -/
@[simp] theorem keepGreatest_self (key : α → κ) (a : α) : keepGreatest key a a = a :=
  keepGreatest_of_le le_rfl

/-- What is kept is one of the two values, never a mixture. -/
theorem keepGreatest_eq_or (key : α → κ) (a b : α) :
    keepGreatest key a b = a ∨ keepGreatest key a b = b := by
  by_cases h : key a < key b
  · exact .inr (keepGreatest_of_lt h)
  · exact .inl (keepGreatest_of_le (not_lt.mp h))

/-- Its key is the larger of the two keys. -/
theorem key_keepGreatest (key : α → κ) (a b : α) :
    key (keepGreatest key a b) = max (key a) (key b) := by
  by_cases h : key a < key b
  · rw [keepGreatest_of_lt h, max_eq_right h.le]
  · rw [keepGreatest_of_le (not_lt.mp h), max_eq_left (not_lt.mp h)]

/-- The order of two values does not matter, if equal keys mean equal values. -/
theorem keepGreatest_comm (h : key a = key b → a = b) :
    keepGreatest key a b = keepGreatest key b a := by
  rcases lt_trichotomy (key a) (key b) with hlt | heq | hgt
  · rw [keepGreatest_of_lt hlt, keepGreatest_of_le hlt.le]
  · rw [h heq]
  · rw [keepGreatest_of_le hgt.le, keepGreatest_of_lt hgt]

/-- Which two of three values are compared first does not matter, even where keys are equal. -/
theorem keepGreatest_assoc (key : α → κ) (a b c : α) :
    keepGreatest key (keepGreatest key a b) c = keepGreatest key a (keepGreatest key b c) := by
  by_cases hab : key a < key b
  · rw [keepGreatest_of_lt hab]
    by_cases hbc : key b < key c
    · rw [keepGreatest_of_lt hbc, keepGreatest_of_lt (hab.trans hbc)]
    · rw [keepGreatest_of_le (not_lt.mp hbc), keepGreatest_of_lt hab]
  · have hba := not_lt.mp hab
    rw [keepGreatest_of_le hba]
    by_cases hbc : key b < key c
    · rw [keepGreatest_of_lt hbc]
    · rw [keepGreatest_of_le (not_lt.mp hbc), keepGreatest_of_le ((not_lt.mp hbc).trans hba),
        keepGreatest_of_le hba]

end Fixed

/-! ## A register under a growing context -/

section Joined

variable {C ι : Type*} [SemilatticeSup C]

/-- The context after the messages `l`. -/
def joined (context : ι → C) (c : C) (l : List ι) : C := l.foldl (fun c i => c ⊔ context i) c

variable {context : ι → C} {c d : C} {l l' : List ι}

/-- The context of two deliveries is joined with those of the first and then with those of the second. -/
@[simp] theorem joined_append :
    joined context c (l ++ l') = joined context (joined context c l) l' :=
  List.foldl_append

/-- A joined context is the least one above the first and above those of all that is delivered. -/
theorem joined_le_iff : joined context c l ≤ d ↔ c ≤ d ∧ ∀ i ∈ l, context i ≤ d := by
  induction l generalizing c with
  | nil => simp [joined]
  | cons i l ih =>
      rw [joined, List.foldl_cons, ← joined, ih, sup_le_iff, List.forall_mem_cons, and_assoc]

/-- Delivering more makes the context larger, or leaves it. -/
theorem joined_mono (h : l ⊆ l') : joined context c l ≤ joined context c l' := by
  obtain ⟨hc, hall⟩ := joined_le_iff.mp (le_refl (joined context c l'))
  exact joined_le_iff.mpr ⟨hc, fun i hi => hall i (h hi)⟩

/-- The context does not depend on the order of the messages, or on how often each one arrives. -/
theorem joined_congr (h : ∀ i, i ∈ l ↔ i ∈ l') : joined context c l = joined context c l' :=
  le_antisymm (joined_mono fun i => (h i).mp) (joined_mono fun i => (h i).mpr)

end Joined

/-- A register that holds a value of `α` and receives messages of `ι`. Each message carries a value
and a context, and a context orders the values. -/
structure GrowingRegister (α κ C ι : Type*) [LinearOrder κ] where
  /-- The order that a context gives. -/
  key : C → α → κ
  /-- Every context tells the values apart. -/
  key_injective : ∀ c, Function.Injective (key c)
  /-- The context that a message carries. -/
  context : ι → C
  /-- The value that a message carries. -/
  value : ι → α

namespace GrowingRegister

variable {α κ C ι : Type*} [LinearOrder κ] [SemilatticeSup C] (R : GrowingRegister α κ C ι)

/-- Receive one message: the context grows first, and the order it gives decides. -/
def receive (state : C × α) (i : ι) : C × α :=
  (state.1 ⊔ R.context i, keepGreatest (R.key (state.1 ⊔ R.context i)) state.2 (R.value i))

/-- Receive the messages one after another. -/
def deliver (state : C × α) (l : List ι) : C × α := l.foldl R.receive state

/-- The value `a` stays in place while the messages arrive. -/
def Survives (a : α) : C → List ι → Prop
  | _, [] => True
  | c, i :: l => R.key (c ⊔ R.context i) (R.value i) ≤ R.key (c ⊔ R.context i) a ∧
      Survives a (c ⊔ R.context i) l

/-- The messages that carry the value `g` are all in `l`. -/
def Covers (messages : List ι) (g : α) (l : List ι) : Prop :=
  ∀ i ∈ messages, R.value i = g → i ∈ l

/-- The value `g` prevails whatever the order of the messages. -/
structure Settled (start : C × α) (messages : List ι) (g : α) : Prop where
  /-- Once every message that carries `g` has arrived, no message beats it. -/
  unbeaten : ∀ l, l ⊆ messages → R.Covers messages g l → ∀ i ∈ l,
    R.key (joined R.context start.1 l) (R.value i) ≤ R.key (joined R.context start.1 l) g
  /-- The first value, if it is another one, is replaced before that. -/
  overtaken : start.2 = g ∨
    ∀ l, l ⊆ messages → R.Covers messages g l → ¬ R.Survives start.2 start.1 l

variable {R} {start : C × α} {messages l l' : List ι} {g : α} {c : C}

/-- Two deliveries after one another are the delivery of both lists together. -/
@[simp] theorem deliver_append (state : C × α) (l l' : List ι) :
    R.deliver state (l ++ l') = R.deliver (R.deliver state l) l' :=
  List.foldl_append

/-- The context after a delivery is joined from all contexts, whichever values are kept. -/
theorem deliver_fst (state : C × α) (l : List ι) :
    (R.deliver state l).1 = joined R.context state.1 l := by
  induction l generalizing state with
  | nil => rfl
  | cons i l ih => exact ih (R.receive state i)

/-- The value after one more message. -/
theorem deliver_concat_snd (state : C × α) (l : List ι) (i : ι) :
    (R.deliver state (l ++ [i])).2 =
      keepGreatest (R.key (joined R.context state.1 (l ++ [i]))) (R.deliver state l).2
        (R.value i) := by
  rw [deliver_append, joined_append, ← deliver_fst state l]
  rfl

/-- The value after a delivery is the one before, or one of those that were delivered. -/
theorem deliver_snd_mem (R : GrowingRegister α κ C ι) (state : C × α) (l : List ι) :
    (R.deliver state l).2 = state.2 ∨ ∃ i ∈ l, (R.deliver state l).2 = R.value i := by
  induction l using List.reverseRecOn with
  | nil => exact .inl rfl
  | append_singleton l i ih =>
      rw [deliver_concat_snd]
      rcases keepGreatest_eq_or (R.key (joined R.context state.1 (l ++ [i])))
        (R.deliver state l).2 (R.value i) with heq | heq
      · rw [heq]
        exact ih.imp id fun ⟨j, hj, hval⟩ => ⟨j, List.mem_append_left _ hj, hval⟩
      · exact .inr ⟨i, by simp, heq⟩

/-- A value survives two deliveries if it survives the first, and then, in the context reached, the second. -/
theorem survives_append {a : α} :
    R.Survives a c (l ++ l') ↔ R.Survives a c l ∧ R.Survives a (joined R.context c l) l' := by
  induction l generalizing c with
  | nil => simp [Survives, joined]
  | cons i l ih =>
      rw [List.cons_append, Survives, Survives, ih, and_assoc]
      rfl

/-- One more delivery is survived if the value delivered is not greater, in the context reached by then. -/
theorem survives_concat {a : α} {i : ι} :
    R.Survives a c (l ++ [i]) ↔ R.Survives a c l ∧
      R.key (joined R.context c (l ++ [i])) (R.value i) ≤ R.key (joined R.context c (l ++ [i])) a := by
  rw [survives_append, joined_append]
  exact and_congr_right fun _ => and_iff_left trivial

/-- A surviving value is what the register holds. -/
theorem Survives.deliver_snd (h : R.Survives start.2 start.1 l) :
    (R.deliver start l).2 = start.2 := by
  induction l using List.reverseRecOn with
  | nil => rfl
  | append_singleton l i ih =>
      obtain ⟨hl, hi⟩ := survives_concat.mp h
      rw [deliver_concat_snd, ih hl]
      exact keepGreatest_of_le hi

/-- A first value that no message carries and that is still there has survived. -/
theorem survives_of_deliver_snd (hnot : ∀ i ∈ l, R.value i ≠ start.2)
    (heq : (R.deliver start l).2 = start.2) : R.Survives start.2 start.1 l := by
  induction l using List.reverseRecOn with
  | nil => trivial
  | append_singleton l i ih =>
      rw [deliver_concat_snd] at heq
      by_cases hlt : R.key (joined R.context start.1 (l ++ [i])) (R.deliver start l).2 <
          R.key (joined R.context start.1 (l ++ [i])) (R.value i)
      · rw [keepGreatest_of_lt hlt] at heq
        exact absurd heq (hnot i (by simp))
      · rw [keepGreatest_of_le (not_lt.mp hlt)] at heq
        rw [heq] at hlt
        exact survives_concat.mpr
          ⟨ih (fun j hj => hnot j (List.mem_append_left _ hj)) heq, not_lt.mp hlt⟩

omit [SemilatticeSup C] in
/-- A value that is not greater is replaced by one of another key, and by itself otherwise. -/
theorem keepGreatest_eq_right (R : GrowingRegister α κ C ι) {a b : α}
    (h : R.key c a ≤ R.key c b) : keepGreatest (R.key c) a b = b := by
  rcases h.lt_or_eq with hlt | heq
  · exact keepGreatest_of_lt hlt
  · rw [R.key_injective c heq, keepGreatest_self]

/-- A settled value is in place as soon as every message that carries it has arrived. -/
theorem Settled.deliver_snd (h : R.Settled start messages g) (hl : l ⊆ messages)
    (hcovers : R.Covers messages g l) : (R.deliver start l).2 = g := by
  induction l using List.reverseRecOn with
  | nil =>
      rcases h.overtaken with heq | hnone
      · exact heq
      · exact absurd trivial (hnone [] hl hcovers)
  | append_singleton l i ih =>
      have hl' : l ⊆ messages := fun j hj => hl (List.mem_append_left _ hj)
      rw [deliver_concat_snd]
      by_cases hbefore : R.Covers messages g l
      · rw [ih hl' hbefore]
        exact keepGreatest_of_le (h.unbeaten _ hl hcovers i (by simp))
      · -- the last message that carries `g` is the one that arrives now
        have hi : R.value i = g := by
          unfold Covers at hbefore
          push Not at hbefore
          obtain ⟨j, hj, hval, hnot⟩ := hbefore
          rcases List.mem_append.mp (hcovers j hj hval) with hmem | hmem
          · exact absurd hmem hnot
          · rw [← List.mem_singleton.mp hmem]; exact hval
        rcases deliver_snd_mem R start l with hfirst | ⟨j, hj, hcarried⟩
        · by_cases hmem : ∃ j ∈ l, R.value j = start.2
          · obtain ⟨j, hj, hval⟩ := hmem
            rw [hfirst, ← hval, ← hi]
            have hle := h.unbeaten _ hl hcovers j (List.mem_append_left _ hj)
            rw [← hi] at hle
            exact keepGreatest_eq_right R hle
          · -- the first value is still there, and only now is it overtaken
            push Not at hmem
            rcases h.overtaken with heq | hnone
            · rw [hfirst, heq, hi, keepGreatest_self]
            · have hnot := hnone _ hl hcovers
              rw [survives_concat, not_and, not_le] at hnot
              rw [hfirst, keepGreatest_of_lt (hnot (survives_of_deliver_snd hmem hfirst)), hi]
        · rw [hcarried, ← hi]
          have hle := h.unbeaten _ hl hcovers j (List.mem_append_left _ hj)
          rw [← hi] at hle
          exact keepGreatest_eq_right R hle

/-- Messages that do not carry `g` do not bring it. -/
theorem deliver_snd_ne (hne : start.2 ≠ g) (hl : ∀ i ∈ l, R.value i ≠ g) :
    (R.deliver start l).2 ≠ g := by
  rcases deliver_snd_mem R start l with heq | ⟨i, hi, heq⟩
  · rw [heq]; exact hne
  · rw [heq]; exact hl i hi

/-- If every delivery of the messages ends with `g`, so does every partial one that has all the
messages with `g` in it: the rest could not bring it back. -/
theorem deliver_snd_of_covers
    (hall : ∀ l, (∀ i, i ∈ l ↔ i ∈ messages) → (R.deliver start l).2 = g)
    (hl : l ⊆ messages) (hcovers : R.Covers messages g l) : (R.deliver start l).2 = g := by
  classical
  by_contra hne
  have hmembers : ∀ i, i ∈ l ++ messages.filter (R.value · ≠ g) ↔ i ∈ messages := by
    intro i
    rw [List.mem_append, List.mem_filter, decide_eq_true_eq]
    constructor
    · rintro (hi | ⟨hi, -⟩)
      · exact hl hi
      · exact hi
    · intro hi
      by_cases hval : R.value i = g
      · exact .inl (hcovers i hi hval)
      · exact .inr ⟨hi, hval⟩
  have hlast := hall _ hmembers
  rw [deliver_append] at hlast
  refine deliver_snd_ne hne (fun i hi => ?_) hlast
  exact decide_eq_true_eq.mp (List.mem_filter.mp hi).2

/-- **When every delivery ends with `g`.** -/
theorem deliver_eq_iff :
    (∀ l, (∀ i, i ∈ l ↔ i ∈ messages) → (R.deliver start l).2 = g) ↔
      R.Settled start messages g := by
  constructor
  · intro hall
    refine ⟨fun l hl hcovers i hi => ?_, ?_⟩
    · -- deliver the message once more: it does not replace `g`
      have hjoined : joined R.context start.1 (l ++ [i]) = joined R.context start.1 l := by
        refine joined_congr fun j => ?_
        rw [List.mem_append, List.mem_singleton]
        exact ⟨fun h => h.elim id fun h => h ▸ hi, .inl⟩
      have hagain : (R.deliver start (l ++ [i])).2 = g := by
        refine deliver_snd_of_covers hall ?_ fun j hj hval => List.mem_append_left _ (hcovers j hj hval)
        intro j hj
        rcases List.mem_append.mp hj with hj | hj
        · exact hl hj
        · rw [List.mem_singleton.mp hj]; exact hl hi
      rw [deliver_concat_snd, hjoined] at hagain
      rw [← hagain]
      exact (le_max_right _ _).trans_eq (key_keepGreatest (R.key (joined R.context start.1 l)) _ _).symm
    · by_cases hstart : start.2 = g
      · exact .inl hstart
      · refine .inr fun l hl hcovers hsurvives => hstart ?_
        rw [← hsurvives.deliver_snd]
        exact deliver_snd_of_covers hall hl hcovers
  · intro h l hl
    exact h.deliver_snd (fun i => (hl i).mp) fun i hi _ => (hl i).mpr hi

/-- **When all deliveries of the same messages agree.** -/
theorem deliver_agree_iff :
    (∀ l l', (∀ i, i ∈ l ↔ i ∈ messages) → (∀ i, i ∈ l' ↔ i ∈ messages) →
        (R.deliver start l).2 = (R.deliver start l').2) ↔
      ∃ g, R.Settled start messages g := by
  constructor
  · intro hagree
    exact ⟨_, deliver_eq_iff.mp fun l hl => hagree l messages hl fun _ => Iff.rfl⟩
  · rintro ⟨g, hg⟩ l l' hl hl'
    have hall := deliver_eq_iff.mpr hg
    rw [hall l hl, hall l' hl']

/-- A nonempty list has an element of the greatest level. -/
theorem exists_level_le {L : Type*} [LinearOrder L] (level : α → L) (a : α) (l : List α) :
    ∃ g ∈ a :: l, ∀ b ∈ a :: l, level b ≤ level g := by
  induction l generalizing a with
  | nil => exact ⟨a, by simp, by simp⟩
  | cons b l ih =>
      obtain ⟨g, hg, hmax⟩ := ih b
      by_cases hle : level a ≤ level g
      · refine ⟨g, List.mem_cons_of_mem _ hg, fun c hc => ?_⟩
        rcases List.mem_cons.mp hc with rfl | hc
        · exact hle
        · exact hmax c hc
      · refine ⟨a, List.mem_cons_self, fun c hc => ?_⟩
        rcases List.mem_cons.mp hc with rfl | hc
        · exact le_rfl
        · exact (hmax c hc).trans (not_le.mp hle).le

/-- **Without ties the context does not matter.** If every context refines one order of levels, and
the values in play have different levels, the value of the greatest level is settled. -/
theorem exists_settled_of_level {L : Type*} [LinearOrder L] (level : α → L)
    (hlevel : ∀ c {a b}, level a < level b → R.key c a < R.key c b)
    (hties : ∀ a ∈ start.2 :: messages.map R.value, ∀ b ∈ start.2 :: messages.map R.value,
      level a = level b → a = b) : ∃ g, R.Settled start messages g := by
  obtain ⟨g, hg, hmax⟩ := exists_level_le level start.2 (messages.map R.value)
  refine ⟨g, fun l hl _ i hi => ?_, ?_⟩
  · have hi' : R.value i ∈ start.2 :: messages.map R.value :=
      List.mem_cons_of_mem _ (List.mem_map_of_mem (hl hi))
    rcases (hmax _ hi').lt_or_eq with hlt | heq
    · exact (hlevel _ hlt).le
    · rw [hties _ hi' g hg heq]
  · by_cases hstart : start.2 = g
    · exact .inl hstart
    · refine .inr fun l hl hcovers hsurvives => ?_
      obtain ⟨i, hi, hval⟩ := List.mem_map.mp ((List.mem_cons.mp hg).resolve_left (Ne.symm hstart))
      obtain ⟨before, after, rfl⟩ := List.append_of_mem (hcovers i hi hval)
      -- the message that carries `g` replaces a first value of a lower level
      have hstep := (survives_append.mp hsurvives).2.1
      rw [hval] at hstep
      have hlt : level start.2 < level g :=
        (hmax _ List.mem_cons_self).lt_of_ne fun heq =>
          hstart (hties _ List.mem_cons_self g hg heq)
      exact absurd (hlevel _ hlt) (not_lt.mpr hstep)

end GrowingRegister

end LiminalDB
