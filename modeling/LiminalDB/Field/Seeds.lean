import LiminalDB.Foundations.Floats
import LiminalDB.Foundations.KeyedFold
import Mathlib.Data.List.Induction

/-! # The seed garden: `seeds.rs`

Seeds are planted with a time to live, grow with their age, and end as harvested or aborted. A tick
passes over seeds that have ended; `abort` does not look at the stage. `seed_lifecycle_one_way_iff` says
when a history of a garden keeps the lifecycle one-way.

The arguments of a seed, which nothing here reads, and the lines a tick returns for the log are left
out. -/

namespace LiminalDB

/-- `SeedKind`: what a seed does once it blooms. -/
inductive SeedKind
  | boostToken
  | cooldownToken
  | spawnCluster
  | viewWatch
  | policyBundle
  | script
  deriving DecidableEq, Repr

/-- `SeedStage`: how far a seed has come, from the planting to the harvest or the abort. -/
inductive SeedStage
  | planted
  | sprouting
  | blooming
  | harvested
  | aborted
  deriving DecidableEq, Repr

/-- `Seed`: a change that is tried for a while, with its stage, vitality and yield. -/
structure Seed (F : Type) where
  id : UInt64
  tsPlanted : UInt64
  kind : SeedKind
  target : String
  stage : SeedStage
  ttlMs : UInt32
  vitality : F
  mutation : F
  yieldScore : F
  lastTickMs : UInt64
  ns : String
  deriving DecidableEq

/-- `SeedLog`: what a tick says about a seed that it has moved on. -/
structure SeedLog (F : Type) where
  id : UInt64
  stage : SeedStage
  vitality : F
  yieldScore : F
  deriving DecidableEq

/-- `SeedTelemetry`: what was measured of a seed since it was planted. -/
structure SeedTelemetry (F : Type) where
  hits : UInt64
  avgLatency : F
  errors : UInt32
  energyDelta : F
  salienceGain : F

/-- `SeedGarden`: the seeds under their ids, the next id, and the logs of the last tick. -/
structure SeedGarden (F : Type) where
  seeds : Std.ExtTreeMap UInt64 (Seed F) compare
  nextId : UInt64
  recent : List (SeedLog F)

section Garden

variable {F : Type} [FloatLike F]

/-- `Seed::new`: a seed that is just planted, under an id which the garden still has to give. -/
def Seed.new (kind : SeedKind) (target : String) (ttlMs : UInt32) (ns : String) (now : UInt64) :
    Seed F :=
  { id := 0, tsPlanted := now, kind, target, stage := .planted, ttlMs, vitality := 1.0,
    mutation := 0.0, yieldScore := 0.0, lastTickMs := now, ns }

/-- `Seed::lifetime_ms`: how long ago it was planted, and zero if the clock went back. -/
def Seed.lifetimeMs (self : Seed F) (now : UInt64) : UInt64 :=
  if self.tsPlanted ≤ now then now - self.tsPlanted else 0

/-- The test `matches!(stage, Harvested | Aborted)`. -/
def SeedStage.isTerminal : SeedStage → Bool
  | harvested | aborted => true
  | planted | sprouting | blooming => false

/-- `evaluate`: a placeholder that looks neither at the field nor at the seed. -/
def evaluate (_seed : Seed F) : SeedTelemetry F :=
  { hits := 0, avgLatency := 0.0, errors := 0, energyDelta := 0.0, salienceGain := 0.0 }

/-- `score`: hits, salience and energy count for a seed, latency and errors against it. -/
def score (telemetry : SeedTelemetry F) : F :=
  let latencyPenalty := if telemetry.avgLatency ≤ 0.0 then 0.0 else -telemetry.avgLatency
  let hitReward := FloatLike.ofNat telemetry.hits.toNat * 0.5
  let errorPenalty := FloatLike.ofNat telemetry.errors.toNat * 1.5
  latencyPenalty + hitReward + telemetry.salienceGain + telemetry.energyDelta - errorPenalty

/-- The stage by age, before the time to live is looked at: both tests in turn. -/
def Seed.grown (self : Seed F) (elapsed : UInt64) : SeedStage :=
  let stage := if self.stage = .planted ∧ elapsed ≥ 1000 then .sprouting else self.stage
  if stage = .sprouting ∧ elapsed ≥ 10000 then .blooming else stage

/-- What a tick makes of a seed that has not ended. -/
def Seed.ticked (self : Seed F) (now : UInt64) : Seed F :=
  let elapsed := self.lifetimeMs now
  let telemetry := evaluate self
  let newScore := score telemetry
  let yieldScore := 0.6 * self.yieldScore + 0.4 * newScore
  let vitalityDelta := telemetry.salienceGain - FloatLike.ofNat telemetry.errors.toNat * 0.05
  { self with
    stage :=
      if elapsed ≥ self.ttlMs.toUInt64 then if yieldScore ≥ 0.0 then .harvested else .aborted
      else self.grown elapsed
    yieldScore := yieldScore
    vitality := FloatLike.clamp (self.vitality + vitalityDelta) 0.0 1.0
    lastTickMs := now }

namespace SeedGarden

/-- `SeedGarden::default()`: a garden without seeds, whose ids begin with one. -/
def default : SeedGarden F := ⟨∅, 1, []⟩

/-- The id `plant` gives a seed: its own, or the next one. -/
def plantId (self : SeedGarden F) (seed : Seed F) : UInt64 := if seed.id = 0 then self.nextId else seed.id

/-- `plant`: the seed goes under the id that the garden gives it, and the next id moves on. -/
def plant (self : SeedGarden F) (seed : Seed F) : SeedGarden F :=
  let id := self.plantId seed
  -- `id.saturating_add(1)`
  let next := if id + 1 = 0 then id else id + 1
  { self with
    nextId := if self.nextId < next then next else self.nextId
    seeds := self.seeds.insert id { seed with id := id } }

/-- `abort`: a seed that is there is aborted, whatever its stage is. -/
def abort (self : SeedGarden F) (id : UInt64) : SeedGarden F :=
  match self.seeds[id]? with
  | some seed =>
      let seed := { seed with stage := .aborted }
      { self with
        seeds := self.seeds.insert id seed
        recent := self.recent ++ [⟨id, .aborted, seed.vitality, seed.yieldScore⟩] }
  | none => self

/-- The loop of `tick_garden`, at one id. -/
def tickSeed (now : UInt64) (self : SeedGarden F) (id : UInt64) : SeedGarden F :=
  match self.seeds[id]? with
  | some seed =>
      if seed.stage.isTerminal then self
      else
        let seed := seed.ticked now
        { self with
          seeds := self.seeds.insert id seed
          recent := self.recent ++ [⟨id, seed.stage, seed.vitality, seed.yieldScore⟩] }
  | none => self

/-- `tick_garden`, in an order of the ids. -/
def tickGarden (order : Order UInt64) (now : UInt64) (self : SeedGarden F) : SeedGarden F :=
  (order.arrange self.seeds.keys).foldl (tickSeed now) { self with recent := [] }

end SeedGarden

/-! ## One-way stages -/

/-- The place of a stage on the way; the last one has two names. -/
def SeedStage.rank : SeedStage → Nat
  | planted => 0
  | sprouting => 1
  | blooming => 2
  | harvested => 3
  | aborted => 3

/-- A later stage of the same seed. -/
def SeedStage.Forward (stage stage' : SeedStage) : Prop := stage = stage' ∨ stage.rank < stage'.rank

/-- What may happen to a seed: its stage moves forward, and once it has ended nothing of its stage, its
vitality and its yield changes. -/
structure Seed.Advances (seed seed' : Seed F) : Prop where
  tsPlanted : seed'.tsPlanted = seed.tsPlanted
  ttlMs : seed'.ttlMs = seed.ttlMs
  stage : seed.stage.Forward seed'.stage
  ended : seed.stage.isTerminal = true →
    seed'.stage = seed.stage ∧ seed'.vitality = seed.vitality ∧ seed'.yieldScore = seed.yieldScore

omit [FloatLike F] in
/-- A seed that does not change advances: its state is the one before or a later one. -/
theorem Seed.Advances.refl (seed : Seed F) : seed.Advances seed :=
  ⟨rfl, rfl, .inl rfl, fun _ => ⟨rfl, rfl, rfl⟩⟩

omit [FloatLike F] in
/-- Advancing goes on from one seed to the next. -/
theorem Seed.Advances.trans {seed₁ seed₂ seed₃ : Seed F} (h : seed₁.Advances seed₂)
    (h' : seed₂.Advances seed₃) : seed₁.Advances seed₃ := by
  refine ⟨h'.tsPlanted.trans h.tsPlanted, h'.ttlMs.trans h.ttlMs, ?_, fun hended => ?_⟩
  · rcases h.stage with heq | hlt
    · rw [heq]
      exact h'.stage
    · rcases h'.stage with heq' | hlt'
      · rw [← heq']
        exact .inr hlt
      · exact .inr (hlt.trans hlt')
  · obtain ⟨hstage, hvitality, hyield⟩ := h.ended hended
    obtain ⟨hstage', hvitality', hyield'⟩ := h'.ended (by rwa [hstage])
    exact ⟨hstage'.trans hstage, hvitality'.trans hvitality, hyield'.trans hyield⟩

/-- A seed that has not ended advances by a tick. -/
theorem Seed.advances_ticked {seed : Seed F} (h : seed.stage.isTerminal = false) (now : UInt64) :
    seed.Advances (seed.ticked now) := by
  refine ⟨rfl, rfl, ?_, fun hended => by rw [h] at hended; cases hended⟩
  simp only [Seed.ticked, Seed.grown]
  cases hstage : seed.stage with
  | harvested => rw [hstage] at h; cases h
  | aborted => rw [hstage] at h; cases h
  | planted =>
      split_ifs <;> first | exact .inl rfl | exact .inr (by decide)
  | sprouting =>
      split_ifs <;> first | exact .inl rfl | exact .inr (by decide)
  | blooming =>
      split_ifs <;> first | exact .inl rfl | exact .inr (by decide) | simp_all

/-- A tick at the end of its time to live ends a seed. -/
theorem Seed.isTerminal_ticked {seed : Seed F} {now : UInt64}
    (h : seed.lifetimeMs now ≥ seed.ttlMs.toUInt64) : (seed.ticked now).stage.isTerminal = true := by
  simp only [Seed.ticked, if_pos h]
  split_ifs <;> rfl

omit [FloatLike F] in
/-- The age of a seed whose time to live has passed. -/
theorem Seed.ttl_le_lifetimeMs {seed : Seed F} {now : UInt64}
    (h : seed.tsPlanted.toNat + seed.ttlMs.toNat ≤ now.toNat) :
    seed.lifetimeMs now ≥ seed.ttlMs.toUInt64 := by
  have hle : seed.tsPlanted ≤ now := UInt64.le_iff_toNat_le.mpr (by omega)
  rw [Seed.lifetimeMs, if_pos hle]
  apply UInt64.le_iff_toNat_le.mpr
  rw [UInt64.toNat_sub_of_le _ _ hle, UInt32.toNat_toUInt64]
  omega

/-! ## Histories -/

/-- A call on the garden. -/
inductive GardenStep (F : Type)
  | plant (seed : Seed F)
  | abort (id : UInt64)
  | tick (order : Order UInt64) (now : UInt64)

namespace SeedGarden

/-- One call. -/
def step (self : SeedGarden F) : GardenStep F → SeedGarden F
  | .plant seed => self.plant seed
  | .abort id => self.abort id
  | .tick order now => self.tickGarden order now

/-- The garden after the calls, in turn. -/
def run (self : SeedGarden F) (steps : List (GardenStep F)) : SeedGarden F := steps.foldl step self

/-- The id a seed is planted under is new. -/
def Fresh (self : SeedGarden F) : GardenStep F → Prop
  | .plant seed => self.plantId seed ∉ self.seeds
  | .abort _ | .tick _ _ => True

/-- No harvested seed is aborted. -/
def Spares (self : SeedGarden F) : GardenStep F → Prop
  | .abort id => ∀ seed, self.seeds[id]? = some seed → seed.stage ≠ .harvested
  | .plant _ | .tick _ _ => True

/-- Every seed is still there and has advanced. -/
def Grows (self garden : SeedGarden F) : Prop :=
  ∀ (id : UInt64) (seed : Seed F), self.seeds[id]? = some seed →
    ∃ seed', garden.seeds[id]? = some seed' ∧ seed.Advances seed'

omit [FloatLike F] in
/-- A garden that does not change grows. -/
theorem Grows.refl (self : SeedGarden F) : self.Grows self :=
  fun _ seed h => ⟨seed, h, .refl seed⟩

omit [FloatLike F] in
/-- Growing goes on from one garden to the next. -/
theorem Grows.trans {garden₁ garden₂ garden₃ : SeedGarden F} (h : garden₁.Grows garden₂)
    (h' : garden₂.Grows garden₃) : garden₁.Grows garden₃ := by
  intro id seed hseed
  obtain ⟨seed', hseed', hadvance⟩ := h id seed hseed
  obtain ⟨seed'', hseed'', hadvance'⟩ := h' id seed' hseed'
  exact ⟨seed'', hseed'', hadvance.trans hadvance'⟩

omit [FloatLike F] in
/-- A garden in which one seed was replaced by one it advances to. -/
theorem grows_insert {self : SeedGarden F} {id : UInt64} {seed seed' : Seed F}
    (hseed : self.seeds[id]? = some seed) (h : seed.Advances seed') {nextId : UInt64}
    {recent : List (SeedLog F)} : self.Grows ⟨self.seeds.insert id seed', nextId, recent⟩ := by
  intro other found hfound
  by_cases hid : id = other
  · subst hid
    obtain rfl := Option.some.inj (hseed.symm.trans hfound)
    exact ⟨seed', Std.ExtTreeMap.getElem?_insert_self, h⟩
  · refine ⟨found, ?_, .refl found⟩
    rw [Std.ExtTreeMap.getElem?_insert, if_neg (by simpa using hid), hfound]

/-- Ticking one seed advances this one, and touches no other. -/
theorem grows_tickSeed (now : UInt64) (self : SeedGarden F) (id : UInt64) :
    self.Grows (self.tickSeed now id) := by
  unfold tickSeed
  split
  · rename_i seed hseed
    split
    · exact .refl self
    · rename_i hstage
      exact grows_insert hseed (Seed.advances_ticked (by simpa using hstage) now)
  · exact .refl self

/-- By induction, so does ticking one after the other. -/
theorem grows_ticks (now : UInt64) (ids : List UInt64) (self : SeedGarden F) :
    self.Grows (ids.foldl (tickSeed now) self) := by
  induction ids generalizing self with
  | nil => exact .refl self
  | cons id ids ih => exact (grows_tickSeed now self id).trans (ih _)

/-- The loop ends the seeds it comes to when their time to live has passed. -/
theorem isTerminal_ticks {now : UInt64} {ids : List UInt64} {self : SeedGarden F} {id : UInt64}
    (hid : id ∈ ids) {seed : Seed F} (hseed : self.seeds[id]? = some seed)
    (hage : seed.lifetimeMs now ≥ seed.ttlMs.toUInt64) :
    ∃ seed', (ids.foldl (tickSeed now) self).seeds[id]? = some seed' ∧
      seed'.stage.isTerminal = true := by
  induction ids generalizing self seed with
  | nil => cases hid
  | cons other ids ih =>
      rw [List.foldl_cons]
      by_cases hother : other = id
      · subst hother
        -- this round ends the seed, and later ones leave its stage alone
        obtain ⟨seed', hseed', hended⟩ : ∃ seed', (self.tickSeed now other).seeds[other]? = some seed' ∧
            seed'.stage.isTerminal = true := by
          unfold tickSeed
          simp only [hseed]
          split
          · rename_i hstage
            exact ⟨seed, hseed, hstage⟩
          · exact ⟨_, Std.ExtTreeMap.getElem?_insert_self, Seed.isTerminal_ticked hage⟩
        obtain ⟨last, hlast, hadvance⟩ := grows_ticks now ids _ other seed' hseed'
        exact ⟨last, hlast, by rw [(hadvance.ended hended).1, hended]⟩
      · obtain ⟨seed', hseed', hadvance⟩ := grows_tickSeed now self other id seed hseed
        refine ih ((List.mem_cons.mp hid).resolve_left (Ne.symm hother)) hseed' ?_
        rw [Seed.lifetimeMs, hadvance.tsPlanted, hadvance.ttlMs]
        exact hage

/-- **A tick.** -/
theorem grows_tickGarden (order : Order UInt64) (now : UInt64) (self : SeedGarden F) :
    self.Grows (self.tickGarden order now) :=
  grows_ticks now (order.arrange self.seeds.keys) { self with recent := [] }

/-- The seeds whose time to live has passed at a tick have ended behind it. -/
theorem isTerminal_tickGarden (order : Order UInt64) {now : UInt64} {self : SeedGarden F} {id : UInt64}
    {seed' : Seed F} (hseed' : (self.tickGarden order now).seeds[id]? = some seed')
    (hkept : id ∈ self.seeds)
    (hage : seed'.tsPlanted.toNat + seed'.ttlMs.toNat ≤ now.toNat) : seed'.stage.isTerminal = true := by
  have hsome : self.seeds[id]? = some self.seeds[id] := Std.ExtTreeMap.getElem?_eq_some_getElem hkept
  obtain ⟨found, hfound, hadvance⟩ := grows_tickGarden order now self id _ hsome
  obtain rfl := Option.some.inj (hfound.symm.trans hseed')
  have hold : self.seeds[id].lifetimeMs now ≥ self.seeds[id].ttlMs.toUInt64 := by
    apply Seed.ttl_le_lifetimeMs
    rw [← hadvance.tsPlanted, ← hadvance.ttlMs]
    exact hage
  have hmem : id ∈ order.arrange self.seeds.keys :=
    order.mem_arrange.mpr (Std.ExtTreeMap.mem_keys.mpr hkept)
  obtain ⟨last, hlast, hended⟩ :=
    @isTerminal_ticks F _ now (order.arrange self.seeds.keys) { self with recent := [] } id hmem _ hsome
      hold
  obtain rfl := Option.some.inj (hlast.symm.trans hseed')
  exact hended

/-- A tick plants nothing. -/
theorem mem_of_tickGarden {order : Order UInt64} {now : UInt64} {self : SeedGarden F} {id : UInt64}
    (h : id ∈ (self.tickGarden order now).seeds) : id ∈ self.seeds := by
  have hkeep : ∀ (ids : List UInt64) (garden : SeedGarden F),
      id ∈ (ids.foldl (tickSeed now) garden).seeds → id ∈ garden.seeds := by
    intro ids
    induction ids with
    | nil => exact fun _ h => h
    | cons other ids ih =>
        intro garden h
        have hround := ih _ h
        unfold tickSeed at hround
        split at hround
        · rename_i seed hseed
          split at hround
          · exact hround
          · rcases Std.ExtTreeMap.mem_insert.mp hround with heq | hmem
            · rw [← Std.LawfulEqCmp.eq_of_compare heq]
              exact Std.ExtTreeMap.mem_iff_isSome_getElem?.mpr (by rw [hseed]; rfl)
            · exact hmem
        · exact hround
  exact hkeep (order.arrange self.seeds.keys) { self with recent := [] } h

omit [FloatLike F] in
/-- Aborting a seed that was not harvested moves it forward. -/
theorem advances_aborted {seed : Seed F} (h : seed.stage ≠ .harvested) :
    seed.Advances { seed with stage := .aborted } := by
  cases hstage : seed.stage with
  | harvested => exact absurd hstage h
  | aborted => exact ⟨rfl, rfl, .inl hstage, fun _ => ⟨hstage.symm, rfl, rfl⟩⟩
  | planted | sprouting | blooming =>
      refine ⟨rfl, rfl, .inr ?_, fun hended => by rw [hstage] at hended; cases hended⟩
      rw [hstage]
      show _ < SeedStage.aborted.rank
      decide

/-- **One call.** -/
theorem grows_step {self : SeedGarden F} {step : GardenStep F} (hfresh : self.Fresh step)
    (hspares : self.Spares step) : self.Grows (self.step step) := by
  cases step with
  | plant seed =>
      intro id found hfound
      refine ⟨found, ?_, .refl found⟩
      have hid : self.plantId seed ≠ id := by
        intro heq
        rw [Fresh, heq] at hfresh
        exact hfresh (Std.ExtTreeMap.mem_iff_isSome_getElem?.mpr (by rw [hfound]; rfl))
      simp only [SeedGarden.step, plant]
      rw [Std.ExtTreeMap.getElem?_insert, if_neg (by simpa using hid), hfound]
  | abort id =>
      simp only [SeedGarden.step, SeedGarden.abort]
      split
      · rename_i seed hseed
        exact grows_insert hseed (advances_aborted (hspares seed hseed))
      · exact .refl self
  | tick order now => exact grows_tickGarden order now self

/-- Aborting a harvested seed moves it back. -/
theorem not_grows_abort {self : SeedGarden F} {id : UInt64} {seed : Seed F}
    (hseed : self.seeds[id]? = some seed) (h : seed.stage = .harvested) :
    ¬ self.Grows (self.step (.abort id)) := by
  intro hgrows
  obtain ⟨seed', hseed', hadvance⟩ := hgrows id seed hseed
  simp only [SeedGarden.step, SeedGarden.abort, hseed, Std.ExtTreeMap.getElem?_insert_self] at hseed'
  have hstage := (hadvance.ended (by rw [h]; rfl)).1
  rw [← Option.some.inj hseed', h] at hstage
  cases hstage

/-! ## Whole histories -/

/-- In a history every seed advances from any point to any later one, and a tick leaves no seed behind
whose time to live has passed. -/
structure OneWay (garden : SeedGarden F) (steps : List (GardenStep F)) : Prop where
  grows : ∀ before between after, steps = before ++ (between ++ after) →
    (garden.run before).Grows (garden.run (before ++ between))
  ends : ∀ before order now after, steps = before ++ .tick order now :: after →
    ∀ (id : UInt64) (seed : Seed F), (garden.run (before ++ [.tick order now])).seeds[id]? = some seed →
      seed.tsPlanted.toNat + seed.ttlMs.toNat ≤ now.toNat → seed.stage.isTerminal = true

/-- One more step is made in the garden reached by those before it. -/
theorem run_concat (self : SeedGarden F) (steps : List (GardenStep F)) (step : GardenStep F) :
    self.run (steps ++ [step]) = (self.run steps).step step := by
  rw [run, List.foldl_append]
  rfl

/-- **When the lifecycle of seeds is one-way.** In a history that plants seeds under new ids, stages
only move forward, seeds that have ended stay as they are and every tick ends the seeds whose time to
live has passed, exactly when no `abort` comes to a harvested seed. -/
theorem seed_lifecycle_one_way_iff (self : SeedGarden F) {steps : List (GardenStep F)}
    (hfresh : ∀ before step after, steps = before ++ step :: after → (self.run before).Fresh step) :
    self.OneWay steps ↔
      ∀ before step after, steps = before ++ step :: after → (self.run before).Spares step := by
  constructor
  · intro h before step after hsteps
    cases step with
    | plant seed => trivial
    | tick order now => trivial
    -- Only an abort can move a harvested seed back.
    | abort id =>
        intro seed hseed hharvested
        have hgrows := h.grows before [.abort id] after hsteps
        rw [run_concat] at hgrows
        exact not_grows_abort hseed hharvested hgrows
  · intro h
    refine ⟨fun before between after hsteps => ?_, fun before order now after hsteps id seed hseed hage => ?_⟩
    · -- one call after the other, from the first of them on
      induction between using List.reverseRecOn generalizing after with
      | nil =>
          rw [List.append_nil]
          exact .refl _
      | append_singleton between step ih =>
          have hbefore : steps = before ++ (between ++ (step :: after)) := by
            rw [hsteps, List.append_assoc]
            rfl
          have hcall : steps = (before ++ between) ++ step :: after := by
            rw [hbefore, List.append_assoc]
          rw [← List.append_assoc, run_concat]
          exact (ih _ hbefore).trans (grows_step (hfresh _ step after hcall) (h _ step after hcall))
    · rw [run_concat] at hseed
      have hmem : id ∈ ((self.run before).tickGarden order now).seeds :=
        Std.ExtTreeMap.mem_iff_isSome_getElem?.mpr (by
          show ((self.run before).step (.tick order now)).seeds[id]?.isSome = true
          rw [hseed]
          rfl)
      exact isTerminal_tickGarden order hseed (mem_of_tickGarden hmem) hage

/-- A seed with a time to live of a second. -/
def sampleSeed : Seed Float32 := Seed.new .viewWatch "view" 1000 "garden" 0

/-- It is planted, ticked when it is old, and ticked again. -/
def sampleHistory : List (GardenStep Float32) :=
  [.plant sampleSeed, .tick .listed 1000, .tick .listed 5000]

/-- A history that plants a seed first and no other one has fresh ids only. -/
theorem fresh_of_plants_first {steps : List (GardenStep F)} {seed : Seed F}
    (h : ∀ step ∈ steps, ∀ s, step ≠ .plant s) : ∀ before step after,
      .plant seed :: steps = before ++ step :: after →
        ((default : SeedGarden F).run before).Fresh step := by
  intro before step after hsteps
  cases before with
  | nil =>
      obtain ⟨rfl, -⟩ := List.cons.inj hsteps
      exact Std.ExtTreeMap.not_mem_empty
  | cons first before =>
      have hmem : step ∈ steps := by
        rw [(List.cons.inj hsteps).2]
        simp
      cases step with
      | plant s => exact absurd rfl (h _ hmem s)
      | abort id => trivial
      | tick order now => trivial

/-- The seed of the sample is planted and ticked, and goes through its states one way. -/
theorem seed_lifecycle_one_way_sample :
    (default : SeedGarden Float32).OneWay sampleHistory := by
  have hfresh : ∀ before step after, sampleHistory = before ++ step :: after →
      ((default : SeedGarden Float32).run before).Fresh step :=
    fresh_of_plants_first (by simp)
  refine (seed_lifecycle_one_way_iff default hfresh).mpr fun before step after hsteps => ?_
  have hmem : step ∈ sampleHistory := by
    rw [hsteps]
    simp
  simp only [sampleHistory, List.mem_cons, List.not_mem_nil, or_false] at hmem
  rcases hmem with rfl | rfl | rfl <;> trivial

/-- An abort that comes after the harvest. -/
theorem not_one_way_abort_after_harvest :
    ¬ (default : SeedGarden Float32).OneWay
      [.plant sampleSeed, .tick .listed 1000, .abort 1] := by
  intro h
  have hgrows := h.grows [.plant sampleSeed, .tick .listed 1000] [.abort 1] [] rfl
  rw [run_concat] at hgrows
  have hseed : (((default : SeedGarden Float32).run
      [.plant sampleSeed, .tick .listed 1000]).seeds[(1 : UInt64)]?.map Seed.stage) =
      some .harvested := by
    decide +kernel
  obtain ⟨seed, hseed, hstage⟩ := Option.map_eq_some_iff.mp hseed
  exact not_grows_abort hseed hstage hgrows

end SeedGarden

end Garden

end LiminalDB
