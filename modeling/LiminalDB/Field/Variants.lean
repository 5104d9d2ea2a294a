import LiminalDB.Field.Feedback
import LiminalDB.Foundations.TopOf
import LiminalDB.Foundations.Words
import Mathlib.Algebra.Order.Field.Basic
import Mathlib.Data.List.Infix
import Mathlib.Tactic.Linarith
import Mathlib.Tactic.NormNum

/-! # The variant layer: `variant.rs`

Variants of a plan compete for a commitment. `rank_variants` scores them; `commit` and `pivot` move the one
commitment there is from variant to variant, `defuse` drains the pendulums that pull at them. -/

namespace LiminalDB

variable {F : Type}

/-- `Variant`: a way to go on, with its evidence, cost, time, risk and gain, and the hints of its
path. -/
structure Variant (F : Type) where
  id : String
  title : String
  evidenceScore : F
  costEst : F
  timeEstMs : UInt32
  risk : F
  expectedGain : F
  pathHint : List String
  resonanceHint : Option F

/-- `Slide`: a choice of variants and the metrics it is after. -/
structure Slide where
  id : String
  variantIds : List String
  desiredMetrics : List (String × Float)
  ethicsGuard : Option String

/-- `Intention`: the tokens in focus with their weights, a horizon and a budget. -/
structure Intention (F : Type) where
  focusTokens : List String
  weights : List F
  horizonMs : Option UInt64
  budget : Option F

/-- `Pendulum`: something that drains variants which share its tokens. -/
structure Pendulum (F : Type) where
  id : String
  signatureTokens : List String
  drainRate : F
  counterPolicy : Option String

/-- `ProbabilityWeights`: what evidence, cost, gain, risk and resonance count for a variant. -/
structure ProbabilityWeights (F : Type) where
  evidence : F
  cost : F
  gain : F
  risk : F
  resonance : F

/-- `ProbabilityFlow`: those weights, and the least effort that is reckoned with. -/
structure ProbabilityFlow (F : Type) where
  weights : ProbabilityWeights F
  minEffort : F

/-- `VariantScore`: the place of a variant in a ranking, and what it comes from. -/
structure VariantScore (F : Type) where
  id : String
  title : String
  probability : F
  effort : F
  score : F
  evidence : F
  risk : F
  expectedGain : F

/-- `EvidenceEma`: a moving average of evidence, which starts with the first sample. -/
structure EvidenceEma (F : Type) where
  value : F
  alpha : F
  seen : Bool

/-- `CommitState`: the variant that is followed, since when, and the effort so far. -/
structure CommitState (F : Type) where
  variantId : String
  startedMs : UInt64
  accumulatedEffort : F

/-- `PivotOutcome`: from which variant to which, and the effort that is carried over. -/
structure PivotOutcome (F : Type) where
  source : String
  target : String
  inertia : F

/-- `DefuseOutcome`: the drain of a pendulum before and after. -/
structure DefuseOutcome (F : Type) where
  pendulumId : String
  previousDrain : F
  newDrain : F

/-- `VariantManifold`: the variants, slides and pendulums that are known, the evidence for each variant,
and what is active. -/
structure VariantManifold (F : Type) where
  variants : Std.ExtTreeMap String (Variant F) compare
  slides : String → Option Slide
  pendulums : Std.ExtTreeMap String (Pendulum F) compare
  evidence : Std.ExtTreeMap String (EvidenceEma F) compare
  activeSlide : Option String
  activeIntention : Option (Intention F)
  activeCommit : Option (CommitState F)
  flow : ProbabilityFlow F

section Float

variable [FloatLike F]

open FloatLike (clamp ofNat)

/-- `Variant::effort`: its cost and its time in seconds, and never nothing. -/
def Variant.effort (self : Variant F) : F :=
  let time := ofNat self.timeEstMs.toNat / 1000.0
  FloatLike.max (self.costEst + time) 1e-3

/-- `normalized_weights`: the positive weights as shares of their sum. -/
def Intention.normalizedWeights (self : Intention F) : List F :=
  if self.weights.isEmpty then []
  else
    let sum := (self.weights.filter fun v => decide (0.0 < v)).foldl (· + ·) 0.0
    if sum ≤ 0.0 then self.weights.map fun _ => 0.0
    else self.weights.map fun w => FloatLike.max w 0.0 / sum

/-- `penalty_for`: the share of its tokens that are among the given ones, times its drain. -/
def Pendulum.penaltyFor (self : Pendulum F) (tokens : List String) : F :=
  if self.signatureTokens.isEmpty then 0.0
  else
    let hits := tokens.countP fun token =>
      self.signatureTokens.any fun needle => eqIgnoreAsciiCase needle token
    if hits = 0 then 0.0
    else ofNat hits / ofNat self.signatureTokens.length * FloatLike.max self.drainRate 0.0

/-- `ProbabilityWeights::default` and `ProbabilityFlow::default` -/
def ProbabilityFlow.default : ProbabilityFlow F :=
  { weights := { evidence := 2.1, cost := 1.3, gain := 1.4, risk := 1.1, resonance := 1.6 }, minEffort := 0.2 }

/-- `sigmoid`, with `f32::exp`. -/
def sigmoid (exp : F → F) (x : F) : F := 1.0 / (1.0 + exp (-x))

namespace ProbabilityFlow

/-- `probability`: a weighted sum of what speaks for and against the variant, through a sigmoid. -/
def probability (exp : F → F) (self : ProbabilityFlow F) (variant : Variant F) (intention : Option (Intention F))
    (resonance : F) : F :=
  let costNorm := match intention.bind Intention.budget with
    | some budget => if 0.0 < budget then variant.costEst / FloatLike.max budget 1e-3 else variant.costEst
    | none => variant.costEst
  let x := self.weights.evidence * variant.evidenceScore - self.weights.cost * costNorm +
    self.weights.gain * variant.expectedGain - self.weights.risk * variant.risk +
    self.weights.resonance * resonance
  sigmoid exp x

/-- `ProbabilityFlow::effort`: the effort of the variant, and at least the least that is reckoned
with. -/
def effort (self : ProbabilityFlow F) (variant : Variant F) : F :=
  FloatLike.max variant.effort self.minEffort

/-- `ProbabilityFlow::score`: probability by effort, with both of them. -/
def score (exp : F → F) (self : ProbabilityFlow F) (variant : Variant F) (intention : Option (Intention F))
    (resonance : F) : F × F × F :=
  let probability := self.probability exp variant intention resonance
  let effort := self.effort variant
  let score := probability / FloatLike.max effort self.minEffort
  (probability, effort, score)

end ProbabilityFlow

/-- `EvidenceEma::update`: the first sample as it is, and each further one by its share. -/
def EvidenceEma.update (self : EvidenceEma F) (sample : F) : F × EvidenceEma F :=
  let value := if !self.seen then sample else self.alpha * sample + (1.0 - self.alpha) * self.value
  (value, { self with value, seen := true })

namespace VariantManifold

/-- `VariantManifold::default`: nothing known and nothing active. -/
def default : VariantManifold F :=
  { variants := ∅, slides := fun _ => none, pendulums := ∅, evidence := ∅, activeSlide := none,
    activeIntention := none, activeCommit := none, flow := .default }

/-- `upsert_variant`: the variant is entered, and its evidence starts at zero unless there is some
already. -/
def upsertVariant (self : VariantManifold F) (variant : Variant F) : VariantManifold F :=
  { self with
    evidence := if variant.id ∈ self.evidence then self.evidence
      else self.evidence.insert variant.id { value := 0.0, alpha := 0.35, seen := false }
    variants := self.variants.insert variant.id variant }

/-- `set_slide`: the slide is entered and becomes the active one. -/
def setSlide (self : VariantManifold F) (slide : Slide) : VariantManifold F :=
  { self with
    slides := fun id => if id = slide.id then some slide else self.slides id
    activeSlide := some slide.id }

/-- `register_pendulum`: the pendulum is entered under its id. -/
def registerPendulum (self : VariantManifold F) (pendulum : Pendulum F) : VariantManifold F :=
  { self with pendulums := self.pendulums.insert pendulum.id pendulum }

/-- `set_intention`: the intention becomes the active one. -/
def setIntention (self : VariantManifold F) (intention : Intention F) : VariantManifold F :=
  { self with activeIntention := some intention }

/-- `observe_variant`: a sample, clamped to a share, is averaged into the evidence of a known variant. -/
def observeVariant (self : VariantManifold F) (variantId : String) (evidence : F) :
    Option F × VariantManifold F :=
  match self.evidence[variantId]? with
  | none => (none, self)
  | some ema =>
      let updated := ema.update (clamp evidence 0.0 1.0)
      (some updated.1, { self with evidence := self.evidence.insert variantId updated.2 })

/-- `commit`. The seeds of the outcome are planted by the caller. -/
def commit (self : VariantManifold F) (variantId : String) (nowMs : UInt64) :
    Option String × VariantManifold F :=
  match self.variants[variantId]? with
  | none => (none, self)
  | some variant =>
      (some variantId, { self with activeCommit := some ⟨variantId, nowMs, variant.effort⟩ })

/-- `pivot`: the commitment moves from the variant it is for to another known one, and takes a part of
its effort along. -/
def pivot (self : VariantManifold F) (source target : String) (nowMs : UInt64) :
    Option (PivotOutcome F) × VariantManifold F :=
  match self.activeCommit with
  | none => (none, self)
  | some current =>
      if current.variantId ≠ source then (none, self)
      else
        match self.variants[target]? with
        | none => (none, self)
        | some nextVariant =>
            let elapsed := ofNat (saturatingSub nowMs current.startedMs).toNat / 1000.0
            let inertia := current.accumulatedEffort / nextVariant.effort * (1.0 + elapsed * 0.05)
            (some ⟨source, target, inertia⟩,
              { self with activeCommit := some ⟨target, nowMs, nextVariant.effort⟩ })

/-- `defuse`: the drain of a known pendulum is reduced, and not below zero. -/
def defuse (self : VariantManifold F) (pendulumId : String) (reduction : F) :
    Option (DefuseOutcome F) × VariantManifold F :=
  match self.pendulums[pendulumId]? with
  | none => (none, self)
  | some pendulum =>
      let newDrain := FloatLike.max (pendulum.drainRate - reduction) 0.0
      (some ⟨pendulumId, pendulum.drainRate, newDrain⟩,
        { self with pendulums := self.pendulums.insert pendulumId { pendulum with drainRate := newDrain } })

/-- `pendulum_penalty`. The sum runs in the order in which the map is visited. -/
def pendulumPenalty (order : Order (Pendulum F)) (self : VariantManifold F) (tokens : List String) : F :=
  FloatLike.min (((order.arrange self.pendulums.values).map fun pendulum => pendulum.penaltyFor tokens).foldl
    (· + ·) 0.0) 0.95

/-- `resonance_for`: the hint of the variant and the weights of the tokens in focus that it shares, less
the penalties. -/
def resonanceFor (platform : Platform F) (self : VariantManifold F) (variant : Variant F) : F :=
  let hinted := variant.resonanceHint.getD 0.0
  let focused := match self.activeIntention with
    | none => hinted
    | some intention =>
        let weights := intention.normalizedWeights
        intention.focusTokens.zipIdx.foldl (fun score token =>
          if (variant.pathHint.any fun hint => eqIgnoreAsciiCase hint token.1) ||
              decide ((platform.toLowercase token.1).toList <:+: (platform.toLowercase variant.title).toList) then
            score + weights.getD token.2 0.0
          else score) hinted
  let slid := match self.activeSlide.bind self.slides with
    | some slide => if slide.variantIds.any fun id => id == variant.id then focused + 0.2 else focused
    | none => focused
  clamp slid (-1.0) 1.0

/-- The score of a variant in `rank_variants`. -/
def scoreOf (platform : Platform F) (exp : F → F) (pendulums : Order (Pendulum F)) (self : VariantManifold F)
    (variant : Variant F) : VariantScore F :=
  let resonance := self.resonanceFor platform variant
  let scored := self.flow.score exp variant self.activeIntention resonance
  let penalty := self.pendulumPenalty pendulums variant.pathHint
  let score := if 0.0 < penalty then scored.2.2 * clamp (1.0 - penalty) 0.0 1.0 else scored.2.2
  { id := variant.id, title := variant.title, probability := scored.1, effort := scored.2.1, score
    evidence := variant.evidenceScore, risk := variant.risk, expectedGain := variant.expectedGain }

/-- The last loop of `rank_variants`: it stops once there are `limit` items. -/
def takeRanked (limit : Option UInt64) (minProbability : Option F) :
    List (VariantScore F) → List (VariantScore F) → List (VariantScore F)
  | filtered, [] => filtered
  | filtered, item :: items =>
      if minProbability.any fun threshold => decide (item.probability < threshold) then
        takeRanked limit minProbability filtered items
      else
        let filtered := filtered ++ [item]
        if limit.any fun limit => decide (limit.toNat ≤ filtered.length) then filtered
        else takeRanked limit minProbability filtered items

/-- `rank_variants`: all variants by their scores, the best first, as many and as probable as asked
for. -/
def rankVariants (platform : Platform F) (exp : F → F) (variants : Order (Variant F))
    (pendulums : Order (Pendulum F)) (self : VariantManifold F) (limit : Option UInt64)
    (minProbability : Option F) : List (VariantScore F) :=
  takeRanked limit minProbability []
    (sortBy (fun a b => FloatLike.partialCmp b.score a.score)
      ((variants.arrange self.variants.values).map (self.scoreOf platform exp pendulums)))

/-! ## Ranking -/

/-- The items that a threshold lets through. -/
def passing (minProbability : Option F) (items : List (VariantScore F)) : List (VariantScore F) :=
  items.filter fun item => !minProbability.any fun threshold => decide (item.probability < threshold)

/-- How many of the items a limit allows: a limit of zero allows one. -/
def allowed (limit : Option UInt64) (items : List (VariantScore F)) : ℕ :=
  limit.elim items.length fun limit => max 1 limit.toNat

/-- Without a limit everything that passes is taken. -/
theorem takeRanked_none (minProbability : Option F) (filtered items : List (VariantScore F)) :
    takeRanked none minProbability filtered items = filtered ++ passing minProbability items := by
  induction items generalizing filtered with
  | nil => exact (List.append_nil filtered).symm
  | cons item items ih =>
      by_cases hbelow : (minProbability.any fun threshold => decide (item.probability < threshold)) = true
      · rw [takeRanked, if_pos hbelow, ih, passing, passing, List.filter_cons_of_neg (by rw [hbelow]; decide)]
      · rw [takeRanked, if_neg hbelow, if_neg (by simp), ih, passing, passing,
          List.filter_cons_of_pos (by simpa using hbelow), List.append_assoc, List.singleton_append]

/-- The loop goes on until the limit is reached, and takes the item with which it is. -/
theorem takeRanked_some (limit : UInt64) (minProbability : Option F) (filtered items : List (VariantScore F)) :
    takeRanked (some limit) minProbability filtered items =
      filtered ++ (passing minProbability items).take (max 1 (limit.toNat - filtered.length)) := by
  induction items generalizing filtered with
  | nil => simp [takeRanked, passing]
  | cons item items ih =>
      by_cases hbelow : (minProbability.any fun threshold => decide (item.probability < threshold)) = true
      · rw [takeRanked, if_pos hbelow, ih, passing, passing, List.filter_cons_of_neg (by rw [hbelow]; decide)]
      · have hpasses : passing minProbability (item :: items) = item :: passing minProbability items :=
          List.filter_cons_of_pos (by simpa using hbelow)
        rw [takeRanked, if_neg hbelow, hpasses]
        by_cases hfull : limit.toNat ≤ (filtered ++ [item]).length
        · rw [if_pos (by simpa using hfull)]
          rw [List.length_append, List.length_singleton] at hfull
          have hone : max 1 (limit.toNat - filtered.length) = 1 := by omega
          rw [hone, List.take_succ_cons, List.take_zero]
        · rw [if_neg (by simpa using hfull), ih]
          rw [List.length_append, List.length_singleton] at hfull ⊢
          have hnext : max 1 (limit.toNat - filtered.length) =
              max 1 (limit.toNat - (filtered.length + 1)) + 1 := by omega
          rw [hnext, List.take_succ_cons, List.append_assoc, List.singleton_append]

/-- With one, as much of it as is allowed, from the front. -/
theorem takeRanked_nil (limit : Option UInt64) (minProbability : Option F) (items : List (VariantScore F)) :
    takeRanked limit minProbability [] items =
      (passing minProbability items).take (allowed limit (passing minProbability items)) := by
  cases limit with
  | none => rw [takeRanked_none, allowed, Option.elim_none, List.take_length, List.nil_append]
  | some limit => rw [takeRanked_some, allowed, Option.elim_some, List.length_nil, Nat.sub_zero, List.nil_append]

end VariantManifold

end Float

namespace VariantManifold

/-- Exact sums do not depend on the order in which pendulums are visited. -/
theorem scoreOf_order (platform : Platform ℚ) (exp : ℚ → ℚ) (order order' : Order (Pendulum ℚ))
    (self : VariantManifold ℚ) (variant : Variant ℚ) :
    self.scoreOf platform exp order variant = self.scoreOf platform exp order' variant := by
  have hpenalty : self.pendulumPenalty order variant.pathHint = self.pendulumPenalty order' variant.pathHint := by
    have hperm := (order.perm self.pendulums.values).trans (order'.perm self.pendulums.values).symm
    have hsum := (hperm.map fun pendulum => pendulum.penaltyFor variant.pathHint).foldl_eq (f := (· + ·)) 0.0
    rw [pendulumPenalty, pendulumPenalty, hsum]
  simp only [scoreOf, hpenalty]

/-- The scores of the variants that a threshold lets through. -/
def candidates (platform : Platform ℚ) (exp : ℚ → ℚ) (self : VariantManifold ℚ) (minProbability : Option ℚ) :
    List (VariantScore ℚ) :=
  passing minProbability (self.variants.values.map (self.scoreOf platform exp .listed))

/-- How much is allowed does not depend on the order. -/
theorem allowed_perm {limit : Option UInt64} {items items' : List (VariantScore ℚ)} (h : items.Perm items') :
    allowed limit items = allowed limit items' := by
  cases limit with
  | none => exact h.length_eq
  | some limit => rfl

/-- The best of any items, after sorting. -/
theorem topOf_takeRanked (limit : Option UInt64) (minProbability : Option ℚ) {items items' : List (VariantScore ℚ)}
    (hperm : items.Perm items') :
    TopOf VariantScore.score (allowed limit (passing minProbability items')) (passing minProbability items')
      (takeRanked limit minProbability [] (sortBy (fun a b => FloatLike.partialCmp b.score a.score) items)) := by
  have hsorted : Descending VariantScore.score (sortBy (fun a b => FloatLike.partialCmp b.score a.score) items) :=
    descending_sortBy (fun a b => @isLE_partialCmp b.score a.score) items
  have hpassing : (passing minProbability (sortBy (fun a b => FloatLike.partialCmp b.score a.score) items)).Perm
      (passing minProbability items') := ((sortBy_perm _ items).trans hperm).filter _
  rw [takeRanked_nil, allowed_perm hpassing]
  exact topOf_take (hsorted.filter _) hpassing

/-- The ranking is the top of all variants by their scores, in whichever orders variants and pendulums are
visited. -/
theorem topOf_rankVariants (platform : Platform ℚ) (exp : ℚ → ℚ) (self : VariantManifold ℚ)
    (variants : Order (Variant ℚ)) (pendulums : Order (Pendulum ℚ)) (limit : Option UInt64)
    (minProbability : Option ℚ) :
    TopOf VariantScore.score (allowed limit (self.candidates platform exp minProbability))
      (self.candidates platform exp minProbability)
      (self.rankVariants platform exp variants pendulums limit minProbability) := by
  have hscores : (variants.arrange self.variants.values).map (self.scoreOf platform exp pendulums) =
      (variants.arrange self.variants.values).map (self.scoreOf platform exp .listed) :=
    List.map_congr_left fun variant _ => scoreOf_order platform exp pendulums .listed self variant
  rw [rankVariants, hscores]
  exact topOf_takeRanked limit minProbability ((variants.perm _).map _)

/-- In exact arithmetic a ranking is the best of the variants that pass the threshold, and the scores that it
shows do not depend on the order in which the maps are visited. -/
theorem ranking_is_best (platform : Platform ℚ) (exp : ℚ → ℚ) (self : VariantManifold ℚ)
    (variants variants' : Order (Variant ℚ)) (pendulums pendulums' : Order (Pendulum ℚ))
    (limit : Option UInt64) (minProbability : Option ℚ) :
    TopOf VariantScore.score (allowed limit (self.candidates platform exp minProbability))
        (self.candidates platform exp minProbability)
        (self.rankVariants platform exp variants pendulums limit minProbability) ∧
      (self.rankVariants platform exp variants pendulums limit minProbability).map VariantScore.score =
        (self.rankVariants platform exp variants' pendulums' limit minProbability).map VariantScore.score := by
  have hbest := topOf_rankVariants platform exp self variants pendulums limit minProbability
  have hother := topOf_rankVariants platform exp self variants' pendulums' limit minProbability
  exact ⟨hbest, hbest.scores_eq hother (.refl _)⟩

end VariantManifold

end LiminalDB
