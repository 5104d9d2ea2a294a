import LiminalDB.Bridge.Events
import LiminalDB.Field.Hits
import LiminalDB.Field.Lql
import LiminalDB.Field.TokenIndex
import LiminalDB.Foundations.Narration

/-! # Hints: what a host is told of an impulse

An impulse writes lines about the hormone it carries, the reflexes it fires and the cells that answer it. The
bridge makes a hint of a line that begins as an answer does, so none of the other lines may: in every state a
field reaches, the hints are the answers of the cells that respond, in the order in which they do
(`hints_are_answers`). -/

namespace LiminalDB

open StreamCodec (CborValue)
open FloatLike (abs)

variable {F G : Type}

/-- The hints a host makes of some lines. -/
def hintsIn (lines : List String) : List (ProtocolEvent (CborValue G)) := lines.filterMap eventFromImpulseLog

section Hints

/-- No lines have no hints. -/
@[simp] theorem hintsIn_nil : hintsIn [] = ([] : List (ProtocolEvent (CborValue G))) := rfl

/-- The hints of two pieces of a log are those of the first and then those of the second. -/
@[simp] theorem hintsIn_append (lines lines' : List String) :
    hintsIn (lines ++ lines') = (hintsIn lines ++ hintsIn lines' : List (ProtocolEvent (CborValue G))) := by
  simp [hintsIn]

/-- A line that starts with another letter than an answer does is no hint. -/
theorem eventFromImpulseLog_of_head {line : String} {c : Char} (hhead : line.toList.head? = some c)
    (hsolid : isWhitespace c = false) (hne : 'n' ≠ c) :
    eventFromImpulseLog line = (none : Option (ProtocolEvent (CborValue G))) := by
  rw [eventFromImpulseLog, stripPrefix_of_head (d := 'n') (head?_trim hhead hsolid) (by decide) hne]

end Hints

/-! ## Lines -/

/-- A line the bridge makes no hint of: it begins with one of these characters. -/
def Mute (line : String) : Prop := ∃ c ∈ ['H', 'A', 'R', 'S'], line.toList.head? = some c

/-- A line that is no hint for its first letter is none whatever follows. -/
theorem Mute.append {line : String} (h : Mute line) (t : String) : Mute (line ++ t) := by
  obtain ⟨c, hc, hhead⟩ := h
  exact ⟨c, hc, head?_append_of_head hhead t⟩

/-- Lines that are no hints have none. -/
theorem hintsIn_of_mute {lines : List String} (h : ∀ line ∈ lines, Mute line) :
    hintsIn lines = ([] : List (ProtocolEvent (CborValue G))) := by
  rw [hintsIn, List.filterMap_eq_nil_iff]
  intro line hline
  obtain ⟨c, hc, hhead⟩ := h line hline
  have hplain : isWhitespace c = false ∧ 'n' ≠ c := by
    simp only [List.mem_cons, List.not_mem_nil, or_false] at hc
    rcases hc with rfl | rfl | rfl | rfl <;> exact ⟨by decide, by decide⟩
  exact eventFromImpulseLog_of_head hhead hplain.1 hplain.2

/-- `{:?}` -/
def Hint.debug : Hint → String
  | .slowTick => "SlowTick"
  | .fastTick => "FastTick"
  | .trimField => "TrimField"
  | .wakeSeeds => "WakeSeeds"

namespace ClusterField

variable [FloatLike F] (fixed2 : F → String)

/-- The lines of the hormone that an impulse carries. -/
def feelLines (imp : Impulse F) : List String :=
  if imp.pattern = "affect/noradrenaline" then
    ["HORMONE noradrenaline s=" ++ fixed2 imp.strength ++ " window=" ++ imp.ttlMs.toNat.repr ++ "ms",
      "ASTRO TAG on"]
  else []

/-- How many of some cells wake. -/
def woken : ClusterField F → List NodeId → ℕ
  | _, [] => 0
  | self, id :: ids =>
      -- A cell that is woken is counted as it stands when its turn comes.
      (if (self.cells[id]?).any (·.state = .sleep) then 1 else 0) + woken (self.wake id) ids

/-- The line of `perform_wake_sleeping`. -/
def wakeLines (platform : Platform F) (visits : Visits F) (self : ClusterField F) (rule : ReflexId)
    (count : UInt16) (token : String) : List String :=
  if count = 0 then []
  else
    let woke := self.woken ((self.sleeping platform visits token).take count.toNat)
    ["REFLEX_WAKE id=" ++ rule.toNat.repr ++ " requested=" ++ count.toNat.repr ++ " woke=" ++
      (min woke 65535).repr]

/-- The line of `perform_boost_links`. -/
def boostLines (platform : Platform F) (self : ClusterField F) (rule : ReflexId) (token : String) (factor : F)
    (top : UInt16) : List String :=
  let boosted := if top = 0 then 0
    else ((ranked ((self.recentRoutes.lookup (platform.toLowercase token)).getD [])).take top.toNat).length
  ["REFLEX_BOOST id=" ++ rule.toNat.repr ++ " top=" ++ top.toNat.repr ++ " factor=" ++ fixed2 factor ++
    " boosted=" ++ (min boosted 65535).repr]

/-- The lines of `fire_reflex`. -/
def fireLines (platform : Platform F) (visits : Visits F) (self : ClusterField F)
    (rule : ReflexRule F) (matched : UInt16) (token : String) : List String :=
  let self := self.emit (.reflexFire rule.id self.nowMs matched)
  ("REFLEX_FIRE id=" ++ rule.id.toNat.repr ++ " matched=" ++ matched.toNat.repr) ::
    match rule.action with
    | .emitHint hint => ["REFLEX_HINT id=" ++ rule.id.toNat.repr ++ " hint=" ++ hint.debug]
    | .spawnSeed seed affinityShift =>
        ["REFLEX_SPAWN id=" ++ rule.id.toNat.repr ++ " node=n" ++ self.nextId.toNat.repr ++ " seed=" ++ seed ++
          " shift=" ++ fixed2 affinityShift]
    | .wakeSleeping count => self.wakeLines platform visits rule.id count token
    | .boostLinks factor top => self.boostLines fixed2 platform rule.id token factor top

/-- The lines of the rules that are due. -/
def fireAllLines (platform : Platform F) (visits : Visits F) (token : String)
    (self : ClusterField F) (due : List (ReflexRule F × UInt16)) : List String :=
  narrate (fun self due => self.fireReflex platform visits due.1 due.2 token)
    (fun self due => self.fireLines fixed2 platform visits due.1 due.2 token) self due

/-- The lines of the reflexes, token by token. -/
def reflexLines (platform : Platform F) (visits : Visits F) (imp : Impulse F) :
    ClusterField F → List String → List ReflexId → List String
  | _, [], _ => []
  | self, token :: tokens, fired =>
      let normalized := platform.toLowercase token
      let considered := self.considerImpulse platform visits normalized imp fired
      -- A rule that has fired for one token does not fire for a later one.
      let (after, fired) := self.processReflexFor platform visits token imp fired
      considered.1.fireAllLines fixed2 platform visits normalized considered.2 ++
        reflexLines platform visits imp after tokens fired

/-- The lines of one cell that takes in an impulse; the bound is `f32::EPSILON`. -/
def ingestLines (platform : Platform F) (imp : Impulse F) (acc : Responses F) (id : NodeId) : List String :=
  match acc.field.cells[id]? with
  | some cell =>
      let (after, responds) := cell.ingest platform imp acc.field.nowMs
      if responds then
        answerLine cell.id imp ::
          if 1.1920929e-7 < abs (after.salience - cell.salience) then
            ["SALIENCE n" ++ id.toNat.repr ++ " " ++ fixed2 cell.salience ++ "->" ++ fixed2 after.salience]
          else []
      else []
  | none => []

/-- What `route_impulse` returns. -/
def impulseLines (platform : Platform F) (visits : Visits F) (self : ClusterField F)
    (imp : Impulse F) : List String :=
  let tokens := tokenize platform imp.pattern
  let reacted := self.react platform visits imp
  feelLines fixed2 imp ++ reflexLines fixed2 platform visits imp (self.feelHormone imp) tokens.eraseDups [] ++
    narrate (ingestAt platform imp) (ingestLines fixed2 platform imp) ⟨reacted, [], []⟩
      (reacted.targets visits tokens imp)

/-! ## Silence -/

omit [FloatLike F] in
/-- What a field logs about an impulse that it feels is no hint. -/
theorem mute_feelLines (imp : Impulse F) : ∀ line ∈ feelLines fixed2 imp, Mute line := by
  have hhormone : Mute "HORMONE noradrenaline s=" := ⟨'H', by decide, by decide⟩
  have htag : Mute "ASTRO TAG on" := ⟨'A', by decide, by decide⟩
  intro line hline
  unfold feelLines at hline
  split at hline
  · simp only [List.mem_cons, List.not_mem_nil, or_false] at hline
    rcases hline with rfl | rfl
    · exact ((hhormone.append _).append _).append _ |>.append _
    · exact htag
  · cases hline

/-- Nor is what it logs about a reflex that fires. -/
theorem mute_fireLines (platform : Platform F) (visits : Visits F)
    (self : ClusterField F) (rule : ReflexRule F) (matched : UInt16) (token : String) :
    ∀ line ∈ self.fireLines fixed2 platform visits rule matched token, Mute line := by
  -- The lines of a reflex all begin with the same letter, which no hint begins with.
  have hfire : Mute "REFLEX_FIRE id=" := ⟨'R', by decide, by decide⟩
  have hhint : Mute "REFLEX_HINT id=" := ⟨'R', by decide, by decide⟩
  have hspawn : Mute "REFLEX_SPAWN id=" := ⟨'R', by decide, by decide⟩
  have hwake : Mute "REFLEX_WAKE id=" := ⟨'R', by decide, by decide⟩
  have hboost : Mute "REFLEX_BOOST id=" := ⟨'R', by decide, by decide⟩
  intro line hline
  rcases List.mem_cons.mp hline with rfl | hline
  · exact ((hfire.append _).append _).append _
  · cases haction : rule.action with
    | emitHint hint =>
        rw [haction] at hline
        cases List.mem_singleton.mp hline
        exact ((hhint.append _).append _).append _
    | spawnSeed seed affinityShift =>
        rw [haction] at hline
        cases List.mem_singleton.mp hline
        exact ((((((hspawn.append _).append _).append _).append _).append _).append _).append _
    | wakeSleeping count =>
        rw [haction] at hline
        dsimp only at hline
        unfold wakeLines at hline
        split at hline
        · cases hline
        · cases List.mem_singleton.mp hline
          exact ((((hwake.append _).append _).append _).append _).append _
    | boostLinks factor top =>
        rw [haction] at hline
        cases List.mem_singleton.mp hline
        exact ((((((hboost.append _).append _).append _).append _).append _).append _).append _

/-- Nor what it logs about the reflexes of several tokens. -/
theorem mute_reflexLines (platform : Platform F) (visits : Visits F)
    (imp : Impulse F) (self : ClusterField F) (tokens : List String) (fired : List ReflexId) :
    ∀ line ∈ reflexLines fixed2 platform visits imp self tokens fired, Mute line := by
  induction tokens generalizing self fired with
  | nil =>
      intro line hline
      cases hline
  | cons token tokens ih =>
      intro line hline
      rcases List.mem_append.mp hline with hfired | hlater
      · refine forall_mem_narrate (fun self due (_ : True) (_ : True) => ⟨trivial, ?_⟩) trivial
          (fun _ _ => trivial) line hfired
        exact mute_fireLines fixed2 platform visits self due.1 due.2 _
      · exact ih _ _ line hlater

/-! ## Answers -/

/-- The answer of a cell that takes in an impulse, if it responds. -/
def answerOf (platform : Platform F) (imp : Impulse F) (acc : Responses F) (id : NodeId) :
    List (ProtocolEvent (CborValue G)) :=
  match acc.field.cells[id]? with
  | some cell => if (cell.ingest platform imp acc.field.nowMs).2 then [answerEvent id imp] else []
  | none => []

/-- The answers to an impulse. -/
def answers (platform : Platform F) (visits : Visits F) (self : ClusterField F) (imp : Impulse F) :
    List (ProtocolEvent (CborValue G)) :=
  (self.responders platform visits imp).map fun response => answerEvent response.1 imp

section Answers

variable {platform : Platform F}

/-- Where every cell stands under its id, a cell that takes in an impulse is heard when it answers. -/
theorem hintsIn_ingestLines (imp : Impulse F) {acc : Responses F} (h : InPlace acc.field.replica.cells)
    (id : NodeId) :
    InPlace (ingestAt platform imp acc id).field.replica.cells ∧
      hintsIn (ingestLines fixed2 platform imp acc id) =
        (answerOf platform imp acc id : List (ProtocolEvent (CborValue G))) := by
  unfold ingestAt ingestLines answerOf
  cases hcell : acc.field.cells[id]? with
  | none => exact ⟨h, rfl⟩
  | some cell =>
      have hid : cell.id = id := h id cell hcell
      have hafter : (cell.ingest platform imp acc.field.nowMs).1.id = cell.id :=
        (Tweaks.ingest platform cell imp acc.field.nowMs).id
      dsimp only
      generalize cell.ingest platform imp acc.field.nowMs = ingested at hafter ⊢
      obtain ⟨after, responds⟩ := ingested
      have hset (stamped : NodeCell F) (hstamped : stamped.id = id) :
          InPlace (acc.field.setCell id stamped).replica.cells := by
        rw [replica_setCell]
        apply Each.update h
        intro cell' hcell'
        cases hcell'
        exact hstamped
      cases responds with
      | false => exact ⟨hset _ (hafter.trans hid), rfl⟩
      | true =>
          refine ⟨hset _ (hafter.trans hid), ?_⟩
          -- The cell responds: one line is its answer, and the other, if there is one, is no hint.
          have hsalience : Mute "SALIENCE n" := ⟨'S', by decide, by decide⟩
          have hquiet : ∀ line ∈ (if 1.1920929e-7 < abs (after.salience - cell.salience) then
              ["SALIENCE n" ++ id.toNat.repr ++ " " ++ fixed2 cell.salience ++ "->" ++
                fixed2 after.salience] else []), Mute line := by
            intro line hline
            split at hline
            · cases List.mem_singleton.mp hline
              exact ((((hsalience.append _).append _).append _).append _).append _
            · cases hline
          have hanswer : hintsIn [answerLine cell.id imp] =
              ([answerEvent id imp] : List (ProtocolEvent (CborValue G))) := by
            simp [hintsIn, eventFromImpulseLog_answerLine, hid]
          rw [if_pos rfl, if_pos rfl, ← List.singleton_append, hintsIn_append, hanswer, hintsIn_of_mute hquiet]
          rfl

/-- The cells that have responded are those whose answers are heard. -/
theorem retells_ingestAt (imp : Impulse F) :
    Retells (ingestAt platform imp) (answerOf platform imp)
      (fun acc => acc.responded.map fun response => (answerEvent response.1 imp : ProtocolEvent (CborValue G)))
      (fun heard answer => heard ++ [answer]) := by
  intro acc id
  unfold ingestAt answerOf
  cases acc.field.cells[id]? with
  | none => rfl
  | some cell =>
      dsimp only
      obtain ⟨after, responds⟩ := cell.ingest platform imp acc.field.nowMs
      cases responds <;> simp

/-- The answers to an impulse are told one cell after the other, in the field that has reacted. -/
theorem answers_eq_narrate (visits : Visits F) (self : ClusterField F) (imp : Impulse F) :
    (self.answers platform visits imp : List (ProtocolEvent (CborValue G))) =
      narrate (ingestAt platform imp) (answerOf platform imp) ⟨self.react platform visits imp, [], []⟩
        ((self.react platform visits imp).targets visits (tokenize platform imp.pattern) imp) := by
  have hrun := (@retells_ingestAt F G _ platform imp).foldl ⟨self.react platform visits imp, [], []⟩
    ((self.react platform visits imp).targets visits (tokenize platform imp.pattern) imp)
  rw [foldl_concat] at hrun
  exact hrun

/-- The hints of an impulse are its answers, where every cell stands under its id. -/
theorem hintsIn_impulseLines (visits : Visits F) {self : ClusterField F}
    (h : InPlace self.replica.cells) (imp : Impulse F) :
    hintsIn (self.impulseLines fixed2 platform visits imp) =
      (self.answers platform visits imp : List (ProtocolEvent (CborValue G))) := by
  have hreacted : InPlace (self.react platform visits imp).replica.cells :=
    inPlace_chain (chain_react_deathless visits imp) h
  unfold impulseLines
  dsimp only
  rw [hintsIn_append, hintsIn_append, hintsIn_of_mute (mute_feelLines fixed2 imp),
    hintsIn_of_mute (mute_reflexLines fixed2 platform visits imp _ _ []), answers_eq_narrate,
    map_narrate hintsIn_nil hintsIn_append]
  refine (List.nil_append _).trans (narrate_congr (fun acc : Responses F => InPlace acc.field.replica.cells) ?_
    hreacted)
  intro acc id hacc
  exact hintsIn_ingestLines fixed2 imp hacc id

/-- At most three cells answer an impulse. -/
theorem length_responders_le (visits : Visits F) (self : ClusterField F) (imp : Impulse F) :
    (self.responders platform visits imp).length ≤ 3 := by
  -- Each of the cells that are asked responds once at most.
  have hasked (ids : List NodeId) (acc : Responses F) :
      (ids.foldl (ingestAt platform imp) acc).responded.length ≤ acc.responded.length + ids.length := by
    induction ids generalizing acc with
    | nil => exact le_rfl
    | cons id ids ih =>
        have hone : (ingestAt platform imp acc id).responded.length ≤ acc.responded.length + 1 := by
          unfold ingestAt
          dsimp only
          split
          · split <;> simp
          · exact Nat.le_succ _
        have hrest := ih (ingestAt platform imp acc id)
        rw [List.foldl_cons, List.length_cons]
        omega
  have htargets :
      ((self.react platform visits imp).targets visits (tokenize platform imp.pattern) imp).length ≤ 3 := by
    unfold targets
    rw [List.length_map]
    exact List.length_take_le _ _
  have hall := hasked ((self.react platform visits imp).targets visits (tokenize platform imp.pattern) imp)
    ⟨self.react platform visits imp, [], []⟩
  exact hall.trans (by simpa using htargets)

end Answers

/-! ## Runs -/

/-- The lines that a step hands to the bridge. -/
def stepLines (platform : Platform F) (self : ClusterField F) : FieldStep F → List String
  | .call (.routeImpulse visits imp) => self.impulseLines fixed2 platform visits imp
  | _ => []

/-- The answers to the impulse of a step. -/
def stepAnswers (platform : Platform F) (self : ClusterField F) : FieldStep F → List (ProtocolEvent (CborValue G))
  | .call (.routeImpulse visits imp) => self.answers platform visits imp
  | _ => []

/-- Whatever happens to a field, the hints of its impulses are the answers of the cells that respond, in the
order in which they do; to one impulse no more than three cells answer, and none twice. -/
theorem hints_are_answers (platform : Platform F) (steps : List (FieldStep F)) :
    hintsIn (narrate (step platform) (stepLines fixed2 platform) new steps) =
        (narrate (step platform) (stepAnswers platform) new steps : List (ProtocolEvent (CborValue G))) ∧
      ∀ (visits : Visits F) (imp : Impulse F),
        ((reach platform steps).responders platform visits imp).length ≤ 3 ∧
          (((reach platform steps).responders platform visits imp).map Prod.fst).Nodup := by
  refine ⟨?_, fun visits imp => ⟨length_responders_le visits _ imp, nodup_responders visits imp⟩⟩
  rw [map_narrate hintsIn_nil hintsIn_append]
  -- The invariant of the run is that every cell stands under its id, which is what the answer calls it by.
  refine narrate_congr (fun self : ClusterField F => InPlace self.replica.cells) ?_ (indexed_reach platform []).1
  intro self s hself
  refine ⟨inPlace_step hself s, ?_⟩
  unfold stepLines stepAnswers
  split
  · exact hintsIn_impulseLines fixed2 _ hself _
  · rfl

end ClusterField

end LiminalDB
