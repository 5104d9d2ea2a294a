import Mathlib.Algebra.Order.Field.Rat
import Mathlib.Tactic.Linarith
import Mathlib.Tactic.Positivity
import Mathlib.Tactic.Ring

/-! # The rate limit of a namespace

`TokenBucket` lets a call through when the bucket holds its cost, and fills with the time that its clock
shows; a clock that jumps back fills nothing. Numbers of type `f64` are read as exact rationals. What a
stretch of calls is granted is bounded by what the bucket holds at its first call and what flows in until its
last one (`rate_limit_holds`). -/

namespace LiminalDB

/-- `Quotas`, as far as the bucket reads them. -/
structure Quotas where
  rps : Nat
  burst : Nat
  deriving DecidableEq, Repr

/-- `TokenBucket`: the tokens that are left, out of how many, and how fast they come back. -/
structure TokenBucket where
  capacity : ℚ
  tokens : ℚ
  refillPerMs : ℚ
  lastRefillMs : Nat
  deriving DecidableEq

/-- The arguments of `allow`: no call has a negative cost. -/
structure BucketCall where
  nowMs : Nat
  cost : ℚ
  cost_nonneg : 0 ≤ cost

namespace TokenBucket

/-- `TokenBucket::new`: a full bucket that holds the burst, or the rate where this is greater. -/
def new (quotas : Quotas) (nowMs : Nat) : TokenBucket :=
  let burst := max quotas.burst quotas.rps
  let capacity : ℚ := burst
  let refillPerMs : ℚ := if quotas.rps = 0 then 0 else quotas.rps / 1000
  { capacity := capacity
    tokens := capacity
    refillPerMs := refillPerMs
    lastRefillMs := nowMs }

/-- `TokenBucket::refill`: the tokens of the time gone by come back, up to the capacity. -/
def refill (bucket : TokenBucket) (nowMs : Nat) : TokenBucket :=
  if nowMs ≤ bucket.lastRefillMs then bucket
  else
    let elapsed := nowMs - bucket.lastRefillMs
    { bucket with
      lastRefillMs := nowMs
      tokens := min (bucket.tokens + bucket.refillPerMs * elapsed) bucket.capacity }

/-- `TokenBucket::allow`: a call is let through where its cost is there, and takes it. -/
def allow (bucket : TokenBucket) (nowMs : Nat) (cost : ℚ) : Bool × TokenBucket :=
  let bucket := bucket.refill nowMs
  if bucket.tokens ≥ cost then (true, { bucket with tokens := bucket.tokens - cost })
  else (false, bucket)

/-- The bucket after calls. -/
def after (bucket : TokenBucket) (calls : List BucketCall) : TokenBucket :=
  calls.foldl (fun bucket call => (bucket.allow call.nowMs call.cost).2) bucket

/-- What a call is granted. -/
def granted (bucket : TokenBucket) (call : BucketCall) : ℚ :=
  if (bucket.allow call.nowMs call.cost).1 then call.cost else 0

/-- The total cost that calls are granted. -/
def totalGranted (bucket : TokenBucket) : List BucketCall → ℚ
  | [] => 0
  | call :: calls => bucket.granted call + (bucket.after [call]).totalGranted calls

/-- The latest time that was seen: that of the creation or of a call. -/
def latest (createdMs : Nat) (calls : List BucketCall) : Nat :=
  calls.foldl (fun latest call => max latest call.nowMs) createdMs

/-! ## One call -/

/-- What every bucket keeps: its tokens are neither negative nor more than it holds. -/
structure Within (bucket : TokenBucket) : Prop where
  nonneg : 0 ≤ bucket.tokens
  le_capacity : bucket.tokens ≤ bucket.capacity
  rate_nonneg : 0 ≤ bucket.refillPerMs

section Call

variable {bucket : TokenBucket}

/-- A bucket holds the burst of its quotas, or what a second brings where that is more. -/
@[simp] theorem new_capacity (quotas : Quotas) (nowMs : Nat) :
    (new quotas nowMs).capacity = max (quotas.burst : ℚ) quotas.rps := by
  simp [new]

/-- A millisecond brings a thousandth of what a second does. -/
@[simp] theorem new_refillPerMs (quotas : Quotas) (nowMs : Nat) :
    (new quotas nowMs).refillPerMs = quotas.rps / 1000 := by
  by_cases h : quotas.rps = 0
  · simp [new, h]
  · simp [new, h]

/-- A new bucket counts from the time when it was made. -/
@[simp] theorem new_lastRefillMs (quotas : Quotas) (nowMs : Nat) :
    (new quotas nowMs).lastRefillMs = nowMs := rfl

/-- A new bucket is full, and so within its bounds. -/
theorem within_new (quotas : Quotas) (nowMs : Nat) : (new quotas nowMs).Within where
  nonneg := Nat.cast_nonneg _
  le_capacity := le_rfl
  rate_nonneg := by
    rw [new_refillPerMs]
    positivity

/-- Refilling does not change what a bucket can hold. -/
@[simp] theorem refill_capacity (nowMs : Nat) : (bucket.refill nowMs).capacity = bucket.capacity := by
  rw [refill]
  split_ifs <;> rfl

/-- Nor does it change what a millisecond brings. -/
@[simp] theorem refill_refillPerMs (nowMs : Nat) :
    (bucket.refill nowMs).refillPerMs = bucket.refillPerMs := by
  rw [refill]
  split_ifs <;> rfl

/-- The clock of the bucket does not follow one that jumps back. -/
@[simp] theorem refill_lastRefillMs (nowMs : Nat) :
    (bucket.refill nowMs).lastRefillMs = max bucket.lastRefillMs nowMs := by
  rw [refill]
  split_ifs with h
  · exact (max_eq_left h).symm
  · exact (max_eq_right (le_of_not_ge h)).symm

/-- A refilled bucket holds no more than it can: what would run over is lost. -/
theorem Within.refill (h : bucket.Within) (nowMs : Nat) : (bucket.refill nowMs).Within := by
  rw [TokenBucket.refill]
  split_ifs
  · exact h
  · have hin : 0 ≤ bucket.refillPerMs * ((nowMs - bucket.lastRefillMs : Nat) : ℚ) :=
      mul_nonneg h.rate_nonneg (Nat.cast_nonneg _)
    exact ⟨le_min (add_nonneg h.nonneg hin) (h.nonneg.trans h.le_capacity), min_le_right _ _, h.rate_nonneg⟩

/-- No more flows in than the clock of the bucket went on. -/
theorem refill_tokens_le (nowMs : Nat) : (bucket.refill nowMs).tokens ≤
    bucket.tokens + bucket.refillPerMs * ((bucket.refill nowMs).lastRefillMs - bucket.lastRefillMs) := by
  rw [refill_lastRefillMs, refill]
  split_ifs with h
  · rw [max_eq_left h, sub_self, mul_zero, add_zero]
  · have hle : bucket.lastRefillMs ≤ nowMs := le_of_not_ge h
    rw [max_eq_right hle, ← Nat.cast_sub hle]
    exact min_le_left _ _

/-- A call is granted its whole cost or nothing. -/
theorem granted_eq (call : BucketCall) : bucket.granted call =
    if call.cost ≤ (bucket.refill call.nowMs).tokens then call.cost else 0 := by
  rw [granted, allow]
  split_ifs <;> simp_all

/-- A call takes what it is granted, and nothing else changes but by the refill. -/
theorem allow_snd (call : BucketCall) : (bucket.allow call.nowMs call.cost).2 =
    { bucket.refill call.nowMs with
      tokens := (bucket.refill call.nowMs).tokens - bucket.granted call } := by
  rw [granted_eq, allow]
  dsimp only
  split_ifs
  · rfl
  · rw [sub_zero]

/-- What is granted is not negative, as no cost is. -/
theorem granted_nonneg (bucket : TokenBucket) (call : BucketCall) : 0 ≤ bucket.granted call := by
  rw [granted_eq]
  split_ifs
  · exact call.cost_nonneg
  · exact le_rfl

/-- No more is granted than there is after refilling. -/
theorem granted_le (h : bucket.Within) (call : BucketCall) :
    bucket.granted call ≤ (bucket.refill call.nowMs).tokens := by
  rw [granted_eq]
  split_ifs with henough
  · exact henough
  · exact (h.refill call.nowMs).nonneg

/-- After a call, granted or not, the bucket is within its bounds. -/
theorem Within.allow (h : bucket.Within) (call : BucketCall) :
    (bucket.allow call.nowMs call.cost).2.Within := by
  have hrefill := h.refill call.nowMs
  have hnonneg := granted_nonneg bucket call
  rw [allow_snd]
  refine ⟨sub_nonneg.mpr (granted_le h call), ?_, hrefill.rate_nonneg⟩
  exact (sub_le_self _ hnonneg).trans hrefill.le_capacity

end Call

/-! ## A stretch of calls -/

section Calls

variable {bucket : TokenBucket}

/-- Without calls a bucket stays as it is. -/
@[simp] theorem after_nil (bucket : TokenBucket) : bucket.after [] = bucket := rfl

/-- The first call comes before the others. -/
theorem after_cons (bucket : TokenBucket) (call : BucketCall) (calls : List BucketCall) :
    bucket.after (call :: calls) = (bucket.after [call]).after calls := rfl

/-- The calls of two runs are those of the first and then those of the second. -/
theorem after_append (bucket : TokenBucket) (calls more : List BucketCall) :
    bucket.after (calls ++ more) = (bucket.after calls).after more := List.foldl_append

/-- A call does not change what a bucket can hold. -/
@[simp] theorem after_singleton_capacity (call : BucketCall) :
    (bucket.after [call]).capacity = bucket.capacity := by
  show (bucket.allow call.nowMs call.cost).2.capacity = bucket.capacity
  rw [allow_snd]
  exact refill_capacity call.nowMs

/-- Nor does it change what a millisecond brings. -/
@[simp] theorem after_singleton_refillPerMs (call : BucketCall) :
    (bucket.after [call]).refillPerMs = bucket.refillPerMs := by
  show (bucket.allow call.nowMs call.cost).2.refillPerMs = bucket.refillPerMs
  rw [allow_snd]
  exact refill_refillPerMs call.nowMs

/-- A call sets the time of the last refill to its own, unless that is earlier. -/
theorem after_singleton_lastRefillMs (call : BucketCall) :
    (bucket.after [call]).lastRefillMs = max bucket.lastRefillMs call.nowMs := by
  show (bucket.allow call.nowMs call.cost).2.lastRefillMs = _
  rw [allow_snd]
  exact refill_lastRefillMs call.nowMs

/-- What a call is granted comes out of the refilled bucket. -/
theorem granted_add_tokens (call : BucketCall) :
    bucket.granted call + (bucket.after [call]).tokens = (bucket.refill call.nowMs).tokens := by
  show bucket.granted call + (bucket.allow call.nowMs call.cost).2.tokens = _
  rw [allow_snd]
  exact add_sub_cancel _ _

/-- By induction over the calls, neither does a run change what a bucket can hold. -/
theorem after_capacity (bucket : TokenBucket) (calls : List BucketCall) :
    (bucket.after calls).capacity = bucket.capacity := by
  induction calls generalizing bucket with
  | nil => rfl
  | cons call calls ih => rw [after_cons, ih, after_singleton_capacity]

/-- Nor what a millisecond brings. -/
theorem after_refillPerMs (bucket : TokenBucket) (calls : List BucketCall) :
    (bucket.after calls).refillPerMs = bucket.refillPerMs := by
  induction calls generalizing bucket with
  | nil => rfl
  | cons call calls ih => rw [after_cons, ih, after_singleton_refillPerMs]

/-- The clock of the bucket shows the latest time that was seen. -/
theorem after_lastRefillMs (bucket : TokenBucket) (calls : List BucketCall) :
    (bucket.after calls).lastRefillMs = latest bucket.lastRefillMs calls := by
  induction calls generalizing bucket with
  | nil => rfl
  | cons call calls ih =>
      rw [after_cons, ih, after_singleton_lastRefillMs]
      rfl

/-- By induction over the calls, the bucket is within its bounds after a run. -/
theorem Within.after (h : bucket.Within) (calls : List BucketCall) : (bucket.after calls).Within := by
  induction calls generalizing bucket with
  | nil => exact h
  | cons call calls ih =>
      rw [after_cons]
      exact ih (h.allow call)

/-- What calls are granted and what is left behind them was there before or flowed in with the time. -/
theorem totalGranted_add_tokens_le (bucket : TokenBucket) (calls : List BucketCall) :
    bucket.totalGranted calls + (bucket.after calls).tokens ≤ bucket.tokens +
      bucket.refillPerMs * ((bucket.after calls).lastRefillMs - bucket.lastRefillMs) := by
  induction calls generalizing bucket with
  | nil => simp [totalGranted]
  | cons call calls ih =>
      have hlast : (bucket.after [call]).lastRefillMs = (bucket.refill call.nowMs).lastRefillMs := by
        rw [after_singleton_lastRefillMs, refill_lastRefillMs]
      -- The clock goes on by the refill of the first call, and from there by the others.
      have hrest := ih (bucket.after [call])
      have hfirst := @granted_add_tokens bucket call
      have hin := @refill_tokens_le bucket call.nowMs
      rw [after_singleton_refillPerMs] at hrest
      rw [← hlast] at hin
      rw [totalGranted, after_cons bucket call calls]
      linarith

/-- A stretch that begins with a call is granted no more than the capacity and what flows in after it. -/
theorem totalGranted_cons_le (h : bucket.Within) (call : BucketCall) (calls : List BucketCall) :
    bucket.totalGranted (call :: calls) ≤ bucket.capacity + bucket.refillPerMs *
      ((bucket.after (call :: calls)).lastRefillMs - (bucket.after [call]).lastRefillMs) := by
  have hrest := totalGranted_add_tokens_le (bucket.after [call]) calls
  have hleft : 0 ≤ ((bucket.after [call]).after calls).tokens := ((h.allow call).after calls).nonneg
  -- However long the bucket filled before the first call, it holds no more than its capacity.
  have hfull := (h.refill call.nowMs).le_capacity
  rw [refill_capacity, ← granted_add_tokens] at hfull
  rw [after_singleton_refillPerMs] at hrest
  rw [totalGranted, after_cons bucket call calls]
  linarith

end Calls

/-- **The rate limit holds.** After any calls, whatever their times, the tokens are within the bucket; a
stretch of calls from there on is granted at most the capacity and what flows in between the latest times
seen at its first and at its last call; and a call that is refused changes nothing but by the refill. -/
theorem rate_limit_holds (quotas : Quotas) (createdMs : Nat) (before : List BucketCall) :
    let bucket := (new quotas createdMs).after before
    (0 ≤ bucket.tokens ∧ bucket.tokens ≤ bucket.capacity) ∧
      (∀ call calls, bucket.totalGranted (call :: calls) ≤ max (quotas.burst : ℚ) quotas.rps +
        quotas.rps / 1000 * (latest createdMs (before ++ call :: calls) -
          latest createdMs (before ++ [call]))) ∧
      ∀ nowMs cost, (bucket.allow nowMs cost).1 = false →
        (bucket.allow nowMs cost).2 = bucket.refill nowMs := by
  have hwithin := (within_new quotas createdMs).after before
  refine ⟨⟨hwithin.nonneg, hwithin.le_capacity⟩, fun call calls => ?_, fun nowMs cost hrefused => ?_⟩
  · have hbound := totalGranted_cons_le hwithin call calls
    have hlatest : ∀ calls, (((new quotas createdMs).after before).after calls).lastRefillMs =
        latest createdMs (before ++ calls) := by
      intro calls
      rw [← after_append, after_lastRefillMs, new_lastRefillMs]
    rwa [after_capacity, after_refillPerMs, hlatest, hlatest, new_capacity, new_refillPerMs] at hbound
  · rw [allow] at hrefused ⊢
    split_ifs at hrefused ⊢
    rfl

/-- Six calls at once, and then calls as the tokens flow in: five of a burst of five and two later ones. -/
example : (new ⟨3, 5⟩ 0).totalGranted ([0, 0, 0, 0, 0, 0, 100, 334, 668, 668].map fun nowMs =>
    ⟨nowMs, 1, by decide⟩) = 7 := by decide +kernel

end TokenBucket

end LiminalDB
