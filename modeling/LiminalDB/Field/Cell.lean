import LiminalDB.Foundations.Floats
import LiminalDB.Foundations.Text
import Std.Data.ExtTreeMap
import Std.Data.ExtTreeSet

/-! # Cells: `node_cell.rs`, `seed.rs` and `types.rs`

One cell of the field: what an impulse, a tick, a division and old age do to it. The text of log lines is
left out; where the code returns `Option<String>` only to log, the model returns whether there is a line. -/

namespace LiminalDB

/-- `NodeId`: the number of a cell. -/
abbrev NodeId := UInt64

/-- `u64::saturating_sub`: a difference that stays at zero instead of wrapping around. -/
def saturatingSub (a b : UInt64) : UInt64 := if a < b then 0 else a - b

/-- A difference that saturates is that of natural numbers. -/
theorem toNat_saturatingSub (a b : UInt64) : (saturatingSub a b).toNat = a.toNat - b.toNat := by
  unfold saturatingSub
  split
  · rename_i hlt
    have hlt : a.toNat < b.toNat := hlt
    exact (Nat.sub_eq_zero_of_le hlt.le).symm
  · rename_i hle
    exact UInt64.toNat_sub_of_le a b (UInt64.not_lt.mp hle)

/-- `u64::saturating_add`: a sum that stays at the greatest value instead of wrapping around. -/
def saturatingAdd (a b : UInt64) : UInt64 := if a + b < a then 0xffffffffffffffff else a + b

/-- `ImpulseKind`: what an impulse does to a cell. -/
inductive ImpulseKind
  | query
  | write
  | affect
  deriving DecidableEq

/-- `Impulse`: a pattern with a strength and tags, which reaches the cells that match it. -/
structure Impulse (F : Type) where
  kind : ImpulseKind
  pattern : String
  strength : F
  ttlMs : UInt64
  tags : List String

/-- `NodeState`: how awake a cell is. -/
inductive NodeState
  | active
  | idle
  | sleep
  | dead
  deriving DecidableEq

/-- What the field takes from outside: `str::to_lowercase`, and the two floats and the number that the
generator of `create_seed` draws from a seed of 32 bytes. -/
structure Platform (F : Type) where
  toLowercase : String → String
  toLowercase_twice : ∀ s, toLowercase (toLowercase s) = toLowercase s
  chacha : List UInt8 → F × F × UInt32

variable {F : Type}

/-- `tokenize`: the parts between `/`, `:` and `.`, in lower case. -/
def tokenize (platform : Platform F) (input : String) : List String :=
  (((input.toList.splitOnP fun c => c == '/' || c == ':' || c == '.').filter (· ≠ [])).map
    String.ofList).map platform.toLowercase

/-! ## Seeds -/

/-- `SeedParams`: what a cell is made from, and drifts back to. -/
structure SeedParams (F : Type) where
  affinity : F
  baseMetabolism : F
  corePattern : String

/-- `derive_seed_bytes`: the bytes of a seed are repeated to 32, each one shifted by its place. -/
def deriveSeedBytes (seed : String) : List UInt8 :=
  let bytes := asBytes seed
  if bytes.isEmpty then List.replicate 32 0
  else (List.range 32).map fun i => bytes.getD (i % bytes.length) 0 + UInt8.ofNat (i * 37)

/-- `create_seed`: the generator gives affinity and metabolism, and the text its own pattern unless it is
blank. -/
def createSeed [FloatLike F] (platform : Platform F) (seed : String) : SeedParams F :=
  let (first, second, third) := platform.chacha (deriveSeedBytes seed)
  let pattern := trim seed
  { affinity := FloatLike.clamp first 0.0 1.0
    baseMetabolism := 0.3 + second * 0.7
    corePattern := if pattern.isEmpty then "seed-" ++ toString third.toNat else pattern }

/-! ## Cells -/

/-- `NodeCell`: a cell with its seed, its links, and all that impulses and time change of it. -/
structure NodeCell (F : Type) where
  id : NodeId
  seed : SeedParams F
  state : NodeState
  links : Std.ExtTreeSet NodeId compare
  metabolism : F
  affinity : F
  lastResponseMs : UInt64
  energy : F
  salience : F
  adrenoTag : Bool
  lastRecallMs : UInt64

namespace NodeCell

variable [FloatLike F]

open FloatLike

/-- `NodeCell::from_seed`: a new cell, awake and without links. -/
def fromSeed (id : NodeId) (seed : SeedParams F) : NodeCell F :=
  { id, seed
    affinity := seed.affinity
    metabolism := seed.baseMetabolism
    state := .active
    links := ∅
    lastResponseMs := 0
    energy := 0.6
    salience := 0.0
    adrenoTag := false
    lastRecallMs := 0 }

/-- `bump_salience`: salience grows, within zero and one. -/
def bumpSalience (self : NodeCell F) (amount : F) : NodeCell F :=
  { self with salience := clamp (self.salience + amount) 0.0 1.0 }

/-- `pattern_match`: one for a shared token, otherwise how close affinity and strength are if they are
close at all. -/
def patternMatch (platform : Platform F) (affinity : F) (core pattern : String) (strength : F)
    (tags : List String) : Option F :=
  let coreTokens := tokenize platform core
  let patternTokens := tokenize platform pattern ++ tags.map platform.toLowercase
  if patternTokens.any fun token => coreTokens.any fun core => core == token then some 1.0
  else
    let closeness := 1.0 - abs (affinity - strength)
    if 0.45 < closeness then some closeness else none

/-- The first lines of a response: an impulse below `affect/` that matches well raises the salience. -/
def feel (self : NodeCell F) (imp : Impulse F) (matchScore : F) : NodeCell F :=
  if imp.kind = .affect && "affect/".toList.isPrefixOf imp.pattern.toList && decide (0.6 ≤ matchScore)
  then self.bumpSalience (0.15 * imp.strength) else self

/-- What a query recalls. -/
def noteRecall (self : NodeCell F) (matchScore : F) (nowMs : UInt64) : NodeCell F :=
  if 0.6 ≤ matchScore then
    let self := { self with lastRecallMs := nowMs }
    if self.adrenoTag then self.bumpSalience 0.05 else self
  else self

/-- The response to an impulse that matches: the cell, and the change of its energy. -/
def respond (self : NodeCell F) (imp : Impulse F) (matchScore : F) (nowMs : UInt64) :
    NodeCell F × F :=
  match imp.kind with
  | .query =>
      let self := if self.state = .sleep && decide (0.6 < imp.strength) then
        { self with state := .idle } else self
      (self.noteRecall matchScore nowMs, -0.05 * imp.strength)
  | .write => ({ self with state := .active }, 0.08 * imp.strength)
  | .affect =>
      let self := if 0.8 < imp.strength then { self with state := .active }
        else if imp.strength < 0.3 then { self with state := .idle } else self
      (self, 0.05 * (imp.strength - 0.4))

/-- `ingest`: the cell, and whether it responds. -/
def ingest (platform : Platform F) (self : NodeCell F) (imp : Impulse F) (nowMs : UInt64) :
    NodeCell F × Bool :=
  if self.state = .dead then (self, false)
  else
    match patternMatch platform self.affinity self.seed.corePattern imp.pattern imp.strength imp.tags with
    | none => ({ self with energy := clamp (self.energy - 0.01) 0.0 1.0 }, false)
    | some matchScore =>
        let (self, delta) := (self.feel imp matchScore).respond imp matchScore nowMs
        ({ self with energy := clamp (self.energy + delta) 0.0 1.0 }, true)

/-- `tick`: metabolism drifts to its target while energy decays, and the state follows the energy. -/
def tick (self : NodeCell F) (dtMs : UInt64) (metabolismScale sleepShift : F) : NodeCell F :=
  if self.state = .dead then self
  else
    let target := self.seed.baseMetabolism * clamp metabolismScale 0.5 1.5
    let metabolism := self.metabolism + (target - self.metabolism) * 0.05
    let decay := metabolism * ofNat dtMs.toNat * 0.0003
    let energy := clamp (self.energy - decay) 0.0 1.0
    let shift := clamp sleepShift (-0.2) 0.2
    let state := if energy < clamp (0.2 - shift) 0.05 0.45 && self.state = .active then .idle
      else self.state
    let state := if clamp (0.6 - shift) 0.35 0.95 < energy && state = .idle then .active else state
    let state := if state = .sleep && clamp (0.5 - shift) 0.2 0.85 < energy then .idle else state
    { self with metabolism, energy, state }

/-- `maybe_divide`, with the drawn variation: the parent afterwards and the child, if there is one. -/
def maybeDivide (self : NodeCell F) (variation : F) : NodeCell F × Option (NodeCell F) :=
  if self.state ≠ .active || decide (self.energy ≤ 0.8) then (self, none)
  else
    let childAffinity := clamp (self.affinity + variation) 0.0 1.0
    ({ self with energy := self.energy * 0.55 },
      some
        { id := 0
          seed := { self.seed with affinity := childAffinity }
          state := .idle
          links := ∅
          metabolism := (self.metabolism + self.seed.baseMetabolism) / 2.0
          affinity := childAffinity
          lastResponseMs := self.lastResponseMs
          energy := 0.45
          salience := clamp (self.salience * 0.5) 0.0 1.0
          adrenoTag := self.adrenoTag
          lastRecallMs := self.lastRecallMs })

/-- `drift_affinity`: affinity goes back towards that of the seed, by a quarter of the way at most. -/
def driftAffinity (self : NodeCell F) (drive : F) : NodeCell F :=
  let t := clamp (drive * 0.05) 0.0 0.25
  { self with affinity := self.affinity + (self.seed.affinity - self.affinity) * t }

/-- `maybe_sleep_or_die`: the cell, and whether it dies. -/
def maybeSleepOrDie (self : NodeCell F) (nowMs : UInt64) (sleepShift : F) : NodeCell F × Bool :=
  if self.state = .dead then (self, false)
  else
    let idleFor := saturatingSub nowMs self.lastResponseMs
    let sleepThreshold := clamp (0.15 - clamp sleepShift (-0.2) 0.2) 0.01 0.3
    let self := if self.energy < sleepThreshold && 3000 < idleFor then
      { self with state := .sleep } else self
    if self.energy < 0.05 && 6000 < idleFor then ({ self with state := .dead }, true)
    else (self, false)

end NodeCell

end LiminalDB
