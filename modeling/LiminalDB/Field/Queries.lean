import LiminalDB.Field.Epochs
import LiminalDB.Field.Seeds
import LiminalDB.Field.Variants
import LiminalDB.Field.Views
import LiminalDB.Lql.Parser

/-! # Executing LQL: `exec_lql`

A field with the views, the seed garden and the variant layer, a command of LQL on it, and the tick that
answers views and lets seeds grow. Left out of a tick are the lines of its log and the reflex engine, which
writes to the log alone. An event is the object that is written as JSON. -/

namespace LiminalDB

variable {F : Type}

/-- `ClusterField` with the parts that LQL commands. -/
structure QueryField (F : Type) extends ReflexField F where
  views : ViewRegistry F
  viewTickAccum : UInt64
  seedGarden : SeedGarden F
  variantLayer : VariantManifold F

/-- `LqlSelectResult`: the answer to a `SELECT`: what was asked, and the statistics of it. -/
structure LqlSelectResult (F : Type) where
  pattern : String
  windowMs : UInt32
  filter : ViewFilter F
  stats : ViewStats F

/-- `LqlSubscribeResult`: the view that a `SUBSCRIBE` has made. -/
structure LqlSubscribeResult (F : Type) where
  id : ViewId
  pattern : String
  windowMs : UInt32
  everyMs : UInt32
  filter : ViewFilter F

/-- `LqlUnsubscribeResult`: whether the view was there to be removed. -/
structure LqlUnsubscribeResult where
  id : ViewId
  removed : Bool

/-- `LqlVariantsResult`: the variants in their order, and how they were asked for. -/
structure LqlVariantsResult (F : Type) where
  limit : Option UInt64
  minProbability : Option F
  variants : List (VariantScore F)

/-- `LqlCommitResult`: the variant that is followed now, and the seeds that were planted for it. -/
structure LqlCommitResult where
  variantId : String
  seeds : List UInt64

/-- `LqlPivotResult`: what the change of variants did, and why it was asked for. -/
structure LqlPivotResult (F : Type) where
  outcome : PivotOutcome F
  reason : Option String

/-- `LqlResponse`: the answer to a command, of the command's own kind. -/
inductive LqlResponse (F : Type)
  | select (result : LqlSelectResult F)
  | subscribe (result : LqlSubscribeResult F)
  | unsubscribe (result : LqlUnsubscribeResult)
  | intend (intention : Intention F)
  | variants (result : LqlVariantsResult F)
  | slide (id : String) (variantIds : List String) (desiredMetrics : List (String × Float))
  | commit (result : LqlCommitResult)
  | pivot (result : LqlPivotResult F)
  | defuse (outcome : DefuseOutcome F)

/-- The events of commands, by what they hold. -/
inductive LqlEvent (F : Type)
  | select (result : LqlSelectResult F)
  | subscribe (result : LqlSubscribeResult F)
  | unsubscribe (result : LqlUnsubscribeResult)
  | introspectModel (limit : UInt64) (edges : List (ResonantEdge F))
  | introspectInfluence (limit : UInt64) (influences : List (Influence F))
  | introspectTension (limit : UInt64) (tensions : List (Tension F))
  | introspectEpochs (limit : UInt64) (epochs : List (Epoch F))
  | introspectEpoch (id : UInt64) (epoch : Option (Epoch F))
  | intention (intention : Intention F)
  | variants (result : LqlVariantsResult F)
  | slide (slide : Slide)
  | commit (result : LqlCommitResult)
  | pivot (result : LqlPivotResult F)
  | defuse (pendulum : String) (drainRate : F)
  | reflex (enabled : Bool) (cfg : Option (ReflexCfg F))
  | reflexStatus (enabled : Bool) (cfg : ReflexCfg F) (lastReport : Option (ReflexReport F))

/-- `LqlExecResult`: the answer to a command, with the events that the host hears of. -/
structure LqlExecResult (F : Type) where
  response : Option (LqlResponse F)
  events : List (LqlEvent F)

variable [FloatLike F]

/-- `top_influencers`: the epochs with the greatest impact, the earlier one first where two have the
same. -/
def topInfluencers (timeline : MirrorTimeline F) (k : ℕ) : List (Epoch F) :=
  (sortBy (fun a b => ((FloatLike.partialCmp b.impact a.impact).then
    (compareOfLessAndEq a.startMs b.startMs)).then (compareOfLessAndEq a.id b.id)) timeline.epochs).take k

/-- What the field takes from the machine when it executes a command. -/
structure LqlVisits (F : Type) where
  variants : Order (Variant F)
  pendulums : Order (Pendulum F)

/-- The orders in which a tick visits maps. -/
structure TickVisits (F : Type) where
  field : Visits F
  views : UInt64 → Order ViewId
  seeds : Order UInt64

namespace QueryField

/-- `ClusterField::new`: a new field, without views, seeds and variants. -/
def new : QueryField F :=
  { toReflexField := .new, views := .new, viewTickAccum := 0, seedGarden := .default, variantLayer := .default }

/-- One seed of `plant_variant_seeds`. -/
def variantSeed (self : QueryField F) (variant : Variant F) (token : String) : Seed F :=
  Seed.new .policyBundle token (if variant.timeEstMs < 1 then 1 else variant.timeEstMs) "manifold" self.nowMs

/-- The tokens for which a variant plants seeds. -/
def plantedTokens (variant : Variant F) : List String :=
  (if variant.pathHint.isEmpty then [variant.title] else variant.pathHint).take 3

/-- One round of `plant_variant_seeds`: the garden and the ids so far. -/
def plantSeed (self : QueryField F) (variant : Variant F) (acc : SeedGarden F × List UInt64) (token : String) :
    SeedGarden F × List UInt64 :=
  let seed := self.variantSeed variant token
  (acc.1.plant seed, acc.2 ++ [acc.1.plantId seed])

/-- `plant_variant_seeds`: a seed for every token of the variant, with their ids. -/
def plantVariantSeeds (self : QueryField F) (variantId : String) : List UInt64 × QueryField F :=
  match self.variantLayer.variants[variantId]? with
  | none => ([], self)
  | some variant =>
      let planted := (plantedTokens variant).foldl (self.plantSeed variant) (self.seedGarden, [])
      (planted.2, { self with seedGarden := planted.1 })

/-- The distance of a view that LQL subscribes to. -/
def lqlEvery (everyMs : Option UInt32) : UInt32 :=
  let every := everyMs.getD 1000
  if every < 200 then 200 else every

/-- `exec_lql`: what a command of the query language answers, and what becomes of the field. -/
def execLql (platform : Platform F) (exp : F → F) (visits : LqlVisits F) (self : QueryField F) :
    LqlAst F → Except LqlError (LqlExecResult F) × QueryField F
  | .select pattern windowMs filter =>
      let window := ClusterField.lqlWindow windowMs
      let stats := self.statsForPattern platform pattern window filter
      let payload := { pattern, windowMs := window, filter, stats }
      (.ok ⟨some (.select payload), [.select payload]⟩, self)
  | .subscribe pattern windowMs everyMs filter =>
      let window := ClusterField.lqlWindow windowMs
      let every := lqlEvery everyMs
      let added := self.views.addView pattern window every self.nowMs filter
      let payload := { id := added.1, pattern, windowMs := window, everyMs := every, filter }
      (.ok ⟨some (.subscribe payload), [.subscribe payload]⟩, { self with views := added.2 })
  | .introspectModel topN =>
      let limit := topN.getD 10
      (.ok ⟨none, [.introspectModel limit (self.resonantModel.edges.take limit.toNat)]⟩, self)
  | .introspectInfluence topN =>
      let limit := topN.getD 10
      (.ok ⟨none, [.introspectInfluence limit (self.resonantModel.influences.take limit.toNat)]⟩, self)
  | .introspectTension topN =>
      let limit := topN.getD 10
      (.ok ⟨none, [.introspectTension limit (self.resonantModel.tensions.take limit.toNat)]⟩, self)
  | .introspectEpochs topN =>
      let limit := topN.getD 10
      (.ok ⟨none, [.introspectEpochs limit (topInfluencers self.mirrorTimeline limit.toNat)]⟩, self)
  | .introspectEpoch id =>
      (.ok ⟨none, [.introspectEpoch id (self.mirrorEpochs.find? fun epoch => epoch.id == id)]⟩, self)
  | .intend tokens weights horizonMs budget =>
      let intention := ⟨tokens, weights, horizonMs, budget⟩
      (.ok ⟨some (.intend intention), [.intention intention]⟩,
        { self with variantLayer := self.variantLayer.setIntention intention })
  | .variants limit minProbability =>
      let ranked := self.variantLayer.rankVariants platform exp visits.variants visits.pendulums limit minProbability
      let payload := ⟨limit, minProbability, ranked⟩
      (.ok ⟨some (.variants payload), [.variants payload]⟩, self)
  | .slideSet id variants goals ethicsGuard =>
      let slide := ⟨id, variants, goals, ethicsGuard⟩
      (.ok ⟨some (.slide id variants goals), [.slide slide]⟩,
        { self with variantLayer := self.variantLayer.setSlide slide })
  | .commit variantId =>
      match self.variantLayer.commit variantId self.nowMs with
      | (none, variantLayer) => (.error ⟨"unknown variant " ++ variantId⟩, { self with variantLayer })
      | (some committed, variantLayer) =>
          let planted := { self with variantLayer }.plantVariantSeeds variantId
          let payload := ⟨committed, planted.1⟩
          (.ok ⟨some (.commit payload), [.commit payload]⟩, planted.2)
  | .pivot source target reason =>
      match self.variantLayer.pivot source target self.nowMs with
      | (none, variantLayer) => (.error ⟨"unable to pivot: variant mismatch"⟩, { self with variantLayer })
      | (some outcome, variantLayer) =>
          let payload := ⟨outcome, reason⟩
          (.ok ⟨some (.pivot payload), [.pivot payload]⟩, { self with variantLayer })
  | .defuse pendulumId drain =>
      match self.variantLayer.defuse pendulumId drain with
      | (none, variantLayer) => (.error ⟨"unknown pendulum"⟩, { self with variantLayer })
      | (some outcome, variantLayer) =>
          (.ok ⟨some (.defuse outcome), [.defuse outcome.pendulumId outcome.newDrain]⟩, { self with variantLayer })
  | .unsubscribe id =>
      let removed := self.views.removeView id
      let payload := ⟨id, removed.1⟩
      (.ok ⟨some (.unsubscribe payload), [.unsubscribe payload]⟩, { self with views := removed.2 })
  | .reflexOn =>
      let reflexFeedback := { self.reflexFeedback with enabled := true }
      (.ok ⟨none, [.reflex true (some reflexFeedback.cfg)]⟩, { self with reflexFeedback })
  | .reflexOff =>
      (.ok ⟨none, [.reflex false none]⟩, { self with reflexFeedback := { self.reflexFeedback with enabled := false } })
  | .reflexStatus =>
      (.ok ⟨none, [.reflexStatus self.reflexFeedback.enabled self.reflexFeedback.cfg self.reflexReports.getLast?]⟩, self)
  | .reflexTune cfg =>
      (.ok ⟨none, [.reflex self.reflexFeedback.enabled (some cfg)]⟩,
        { self with reflexFeedback := { self.reflexFeedback with cfg } })

/-- `tick_all`, with the events of its views. Their statistics are taken before `awaken_tick`, which changes
nothing that they read. -/
def tickAll (platform : Platform F) (visits : TickVisits F) (variation : NodeId → F) (self : QueryField F)
    (dtMs : UInt64) : List (ViewEvent F) × QueryField F :=
  let field := self.toClusterField.tickAll platform visits.field variation dtMs
  let checked := self.views.checkViews visits.views field.nowMs (saturatingAdd self.viewTickAccum dtMs)
  (checked.1.map fun view =>
      ViewRegistry.buildEvent view (field.statsForPattern platform view.pattern view.windowMs view.filter),
    { self with
      toClusterField := field
      views := checked.2.2
      viewTickAccum := checked.2.1
      seedGarden := self.seedGarden.tickGarden visits.seeds field.nowMs })

end QueryField

end LiminalDB
