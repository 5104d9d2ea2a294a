import LiminalDB.Field.ClusterField
import Mathlib.Data.List.Dedup

/-! # Roots and impulses: `add_root` and `route_impulse`

An impulse first counts for the reflex rules and fires those that are due, then reaches the three cells
that score best. -/

namespace LiminalDB

namespace ClusterField

variable {F : Type} [FloatLike F]

open FloatLike (abs clamp partialCmp)

/-! ## Spawning -/

/-- A cell with the next id is attached, and its snapshot emitted. -/
def spawn (platform : Platform F) (self : ClusterField F) (cell : NodeCell F) : ClusterField F :=
  ({ self with nextId := self.nextId + 1 }.attachCell platform cell).emit (.spawn cell.toSnapshot)

/-- `add_root`: a cell from a seed of its own, under the next id. -/
def addRoot (platform : Platform F) (self : ClusterField F) (seed : String) : ClusterField F :=
  self.spawn platform (.fromSeed self.nextId (createSeed platform seed))

/-- `perform_spawn_seed`: a cell from the seed of a rule, with its affinity shifted. -/
def performSpawnSeed (platform : Platform F) (self : ClusterField F) (seed : String)
    (affinityShift : F) : ClusterField F :=
  let params := createSeed platform seed
  let params := { params with affinity := clamp (params.affinity + affinityShift) 0.0 1.0 }
  let cell := NodeCell.fromSeed self.nextId params
  let affinity := clamp cell.affinity 0.0 1.0
  self.spawn platform { cell with affinity, seed := { cell.seed with affinity } }

/-! ## Reflexes -/

/-- `wake_priority`: the cells of a token wake first, then those of middling affinity. -/
def wakePriority (platform : Platform F) (cell : NodeCell F) (token : String) : F :=
  if (tokenize platform cell.seed.corePattern).any (· == platform.toLowercase token) then 0.0
  else abs (cell.affinity - 0.5) + 0.5

/-- A sleeping cell wakes. -/
def wake (self : ClusterField F) (id : NodeId) : ClusterField F :=
  match self.cells[id]? with
  | some cell =>
      if cell.state = .sleep then
        let cell :=
          { cell with
            state := .idle
            energy := FloatLike.max cell.energy 0.3
            lastResponseMs := self.nowMs }
        (self.setCell id cell).emit (energyDelta id cell)
      else self
  | none => self

/-- The sleeping cells, the most urgent first. -/
def sleeping (platform : Platform F) (visits : Visits F) (self : ClusterField F) (token : String) :
    List NodeId :=
  (sortBy (fun a b => partialCmp a.1 b.1)
    ((visits.cells.arrange self.cells.keys).filterMap fun id =>
      match self.cells[id]? with
      | some cell => if cell.state = .sleep then some (wakePriority platform cell token, id) else none
      | none => none)).map Prod.snd

/-- `perform_wake_sleeping`: the first sleeping cells by priority wake up, as many as the rule says. -/
def performWakeSleeping (platform : Platform F) (visits : Visits F) (self : ClusterField F)
    (count : UInt16) (token : String) : ClusterField F :=
  ((self.sleeping platform visits token).take count.toNat).foldl wake self

/-- The nodes that answered a token lately, those that answered most often first. -/
def ranked (history : List (RecentRoute F)) : List NodeId :=
  let nodes := (history.reverse.take 64).map RecentRoute.node
  (sortBy (fun a b => (compareOfLessAndEq b.1 a.1).then (compareOfLessAndEq b.2 a.2))
    (nodes.eraseDups.map fun node => (nodes.count node, node))).map Prod.snd

/-- The bias of one node for a token grows by a factor. -/
def boost (token : String) (factor : F) (self : ClusterField F) (node : NodeId) : ClusterField F :=
  let bias := (self.routeBias (token, node)).getD 1.0
  { self with
    routeBias := fun e => if e = (token, node) then some (clamp (bias * clamp factor 0.1 3.0) 0.2 5.0)
      else self.routeBias e }

/-- `perform_boost_links`: the best of the cells that have answered a token are preferred for it from now
on. -/
def performBoostLinks (platform : Platform F) (self : ClusterField F) (token : String) (factor : F)
    (top : UInt16) : ClusterField F :=
  if top = 0 then self
  else
    let normalized := platform.toLowercase token
    let self := { self with recentRoutes := entry normalized [] id self.recentRoutes }
    ((ranked ((self.recentRoutes.lookup normalized).getD [])).take top.toNat).foldl
      (boost normalized factor) self

/-- `fire_reflex`: the journal hears that the rule has fired, and then its action is taken. -/
def fireReflex (platform : Platform F) (visits : Visits F) (self : ClusterField F)
    (rule : ReflexRule F) (matched : UInt16) (token : String) : ClusterField F :=
  let self := self.emit (.reflexFire rule.id self.nowMs matched)
  match rule.action with
  | .emitHint _ => self
  | .spawnSeed seed affinityShift => self.performSpawnSeed platform seed affinityShift
  | .wakeSleeping count => self.performWakeSleeping platform visits count token
  | .boostLinks factor top => self.performBoostLinks platform token factor top

/-- `reflex_token_matches`: a token matches a rule as it is, or as one of the rule's own tokens. -/
def reflexTokenMatches (platform : Platform F) (ruleToken token : String) : Bool :=
  ruleToken == token || (tokenize platform ruleToken).any (· == token)

/-- The enabled rules for the kind of an impulse and one of its tokens. -/
def relevantRules (platform : Platform F) (visits : Visits F) (self : ClusterField F) (token : String)
    (imp : Impulse F) : List (ReflexRule F) :=
  (visits.rules.arrange self.rules.values).filter fun rule =>
    rule.enabled && rule.when.kind = imp.kind && reflexTokenMatches platform rule.when.token token

/-- An impulse is counted under a token. -/
def countImpulse (self : ClusterField F) (token : String) (imp : Impulse F)
    (relevant : List (ReflexRule F)) : ClusterField F :=
  let retention := max ((relevant.map fun rule => rule.when.windowMs.toUInt64).max?.getD 2000) 1
  { self with
    counters := fun key => if key = (token, imp.kind) then
        expire self.nowMs retention 256 Prod.fst (self.counters key ++ [(self.nowMs, imp.strength)])
      else self.counters key }

/-- The rules that are due, with the number of impulses that match. -/
def pendingRules (self : ClusterField F) (token : String) (imp : Impulse F)
    (relevant : List (ReflexRule F)) (fired : List ReflexId) : List (ReflexRule F × UInt16) :=
  relevant.filterMap fun rule =>
    if rule.id ∈ fired then none
    else
      let matched := UInt16.ofNat ((self.counters (token, imp.kind)).countP fun e =>
        saturatingSub self.nowMs e.1 ≤ rule.when.windowMs.toUInt64
          && decide (rule.when.minStrength ≤ e.2))
      if rule.when.minCount ≤ matched then some (rule, matched) else none

/-- An impulse is counted under a token: the field, and the rules that are due then. -/
def considerImpulse (platform : Platform F) (visits : Visits F) (self : ClusterField F) (token : String)
    (imp : Impulse F) (fired : List ReflexId) : ClusterField F × List (ReflexRule F × UInt16) :=
  let relevant := self.relevantRules platform visits token imp
  let self := self.countImpulse token imp relevant
  (self, self.pendingRules token imp relevant fired)

/-- The rules that are due fire. -/
def fireAll (platform : Platform F) (visits : Visits F) (token : String) (self : ClusterField F)
    (due : List (ReflexRule F × UInt16)) : ClusterField F :=
  due.foldl (fun self due => self.fireReflex platform visits due.1 due.2 token) self

/-- `process_reflex_for`: the field, and the rules fired so far. -/
def processReflexFor (platform : Platform F) (visits : Visits F) (self : ClusterField F)
    (token : String) (imp : Impulse F) (fired : List ReflexId) : ClusterField F × List ReflexId :=
  let normalized := platform.toLowercase token
  let (self, due) := self.considerImpulse platform visits normalized imp fired
  (self.fireAll platform visits normalized due, fired ++ due.map fun due => due.1.id)

/-- The reflexes of all tokens of an impulse. -/
def processReflexes (platform : Platform F) (visits : Visits F) (imp : Impulse F) :
    ClusterField F → List String → List ReflexId → ClusterField F
  | self, [], _ => self
  | self, token :: tokens, fired =>
      let (self, fired) := self.processReflexFor platform visits token imp fired
      processReflexes platform visits imp self tokens fired

/-! ## Scores -/

/-- `noradrenaline_active`: the effect, as long as it lasts. -/
def noradrenalineActive (self : ClusterField F) : Option (NoradrenalineEffect F) :=
  self.noradrenaline.filter fun effect => self.nowMs < effect.untilMs

/-- `affinity_scale_for`: how much affinity counts for a cell, more for a tagged one under
noradrenaline. -/
def affinityScaleFor (self : ClusterField F) (cell : NodeCell F) : F :=
  match self.noradrenalineActive with
  | some effect =>
      if cell.adrenoTag then self.harmony.affinityScale * (1.0 + 0.25 * effect.strength)
      else self.harmony.affinityScale
  | none => self.harmony.affinityScale

/-- `score_cell`: how well affinity fits the strength, and how awake the cell is. -/
def scoreCell (cell : NodeCell F) (imp : Impulse F) (affinityScale : F) : F :=
  let matchScore := 1.0 - abs (cell.affinity - imp.strength)
  let affinityScore := if 0.6 < matchScore then matchScore * clamp affinityScale 0.5 1.5
    else matchScore
  let stateBonus : F := match cell.state with
    | .active => 0.2
    | .idle => 0.0
    | .sleep => -0.4
    | .dead => -1.0
  affinityScore + stateBonus

/-- The score of a cell, times its best bias for a token of the impulse. -/
def routeScore (self : ClusterField F) (tokens : List String) (imp : Impulse F) (id : NodeId)
    (cell : NodeCell F) : F :=
  let bestBias := tokens.foldl (fun best token =>
    match self.routeBias (token, id) with
    | some bias => if best < bias then bias else best
    | none => best) 1.0
  scoreCell cell imp (self.affinityScaleFor cell) * bestBias

/-- The cells under the tokens of an impulse, or all of them. -/
def candidates (self : ClusterField F) (tokens : List String) : List NodeId :=
  let ids := (tokens.flatMap self.index).dedup
  if ids.isEmpty then self.cells.keys else ids

/-- The three best cells. -/
def targets (visits : Visits F) (self : ClusterField F) (tokens : List String) (imp : Impulse F) :
    List NodeId :=
  ((sortBy (fun a b => partialCmp b.1 a.1)
    ((visits.candidates.arrange (self.candidates tokens)).filterMap fun id =>
      self.cells[id]?.map fun cell => (self.routeScore tokens imp id cell, id))).take 3).map Prod.snd

/-! ## Responses -/

/-- What the responses of the cells have made of the field, their deltas, and who responded how late. -/
structure Responses (F : Type) where
  field : ClusterField F
  deltas : List (EventDelta F)
  responded : List (NodeId × UInt32)

/-- One cell takes in an impulse. -/
def ingestAt (platform : Platform F) (imp : Impulse F) (acc : Responses F) (id : NodeId) :
    Responses F :=
  match acc.field.cells[id]? with
  | some cell =>
      let (after, responds) := cell.ingest platform imp acc.field.nowMs
      if responds then
        let after := { after with lastResponseMs := acc.field.nowMs }
        { field := acc.field.setCell id after
          deltas := acc.deltas ++ [energyDelta id after]
          responded := acc.responded ++
            [(id, (min (saturatingSub acc.field.nowMs cell.lastResponseMs) 0xffffffff).toUInt32)] }
      else { acc with field := acc.field.setCell id after }
  | none => acc

/-- The history of a token after an impulse. -/
def recordRecent (imp : Impulse F) (nodes : List NodeId) (self : ClusterField F) (token : String) :
    ClusterField F :=
  { self with
    recentRoutes := entry token [] (fun history =>
      expire self.nowMs 90000 96 RecentRoute.ts
        (history ++ nodes.map fun node => ⟨self.nowMs, node, imp.strength⟩)) self.recentRoutes }

/-- `record_token_hit`: the answer gets the next number and goes to the hits of its token. -/
def recordTokenHit (platform : Platform F) (self : ClusterField F) (token : String) (node : NodeId)
    (strength : F) (latencyMs : UInt32) : ClusterField F :=
  let hit : Hit F := ⟨self.nextHitSeq, self.nowMs, node, strength, latencyMs⟩
  { self with
    nextHitSeq := saturatingAdd self.nextHitSeq 1
    tokenHits := fun key => if key = platform.toLowercase token then
        expire self.nowMs 120000 512 Hit.ts (self.tokenHits key ++ [hit])
      else self.tokenHits key }

/-- An impulse of noradrenaline takes hold. -/
def feelHormone (self : ClusterField F) (imp : Impulse F) : ClusterField F :=
  if imp.pattern = "affect/noradrenaline" then
    { self with
      noradrenaline := some ⟨saturatingAdd self.nowMs imp.ttlMs, clamp imp.strength 0.0 1.0⟩ }
  else self

/-- What an impulse does before it reaches a cell. -/
def react (platform : Platform F) (visits : Visits F) (self : ClusterField F) (imp : Impulse F) :
    ClusterField F :=
  processReflexes platform visits imp (self.feelHormone imp)
    (tokenize platform imp.pattern).eraseDups []

/-- `route_impulse`: reflexes first, then the targets answer one after another, then the answers are
recorded. -/
def routeImpulse (platform : Platform F) (visits : Visits F) (self : ClusterField F)
    (imp : Impulse F) : ClusterField F :=
  let tokens := tokenize platform imp.pattern
  let seen := visits.tokens.arrange tokens.eraseDups
  let self := self.react platform visits imp
  let responses := (self.targets visits tokens imp).foldl (ingestAt platform imp) ⟨self, [], []⟩
  let nodes := responses.responded.map Prod.fst
  let self := responses.field.recordRouteSequence visits nodes
  let self := seen.foldl (recordRecent imp nodes) self
  let self := seen.foldl (fun self token =>
    responses.responded.foldl (fun self (node, latencyMs) =>
      self.recordTokenHit platform token node imp.strength latencyMs) self) self
  responses.deltas.foldl emit { self with ticksSinceImpulse := 0 }

end ClusterField

end LiminalDB
