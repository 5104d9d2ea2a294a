import LiminalDB.Field.ViewRuns

/-! # The seeds of commitments, over whole runs

A `COMMIT` plants seeds for its variant. In every run their ids belong to that command alone, the seeds are
there from then on with the time at which they were planted, and each of them has ended as soon as its time to
live has passed (`committed_seeds`). -/

namespace LiminalDB

variable {F : Type}

namespace SeedGarden

/-- Every seed is still there, as old as before, and has ended if it had. -/
def Keeps (self garden : SeedGarden F) : Prop :=
  ∀ (id : UInt64) (seed : Seed F), self.seeds[id]? = some seed → ∃ seed', garden.seeds[id]? = some seed' ∧
    seed'.tsPlanted = seed.tsPlanted ∧ seed'.ttlMs = seed.ttlMs ∧
      (seed.stage.isTerminal = true → seed'.stage.isTerminal = true)

/-- A garden keeps its own seeds. -/
theorem Keeps.refl (self : SeedGarden F) : self.Keeps self := fun _ seed h => ⟨seed, h, rfl, rfl, fun hended => hended⟩

/-- Keeping the seeds goes on from one garden to the next: what has ended in between stays so. -/
theorem Keeps.trans {garden₁ garden₂ garden₃ : SeedGarden F} (h : garden₁.Keeps garden₂)
    (h' : garden₂.Keeps garden₃) : garden₁.Keeps garden₃ := by
  intro id seed hseed
  obtain ⟨seed', hseed', hplanted, httl, hended⟩ := h id seed hseed
  obtain ⟨seed'', hseed'', hplanted', httl', hended'⟩ := h' id seed' hseed'
  exact ⟨seed'', hseed'', hplanted'.trans hplanted, httl'.trans httl, fun hterminal => hended' (hended hterminal)⟩

/-- A garden that only grows keeps its seeds. -/
theorem Grows.keeps {self garden : SeedGarden F} (h : self.Grows garden) : self.Keeps garden := by
  intro id seed hseed
  obtain ⟨seed', hseed', hadvance⟩ := h id seed hseed
  refine ⟨seed', hseed', hadvance.tsPlanted, hadvance.ttlMs, fun hterminal => ?_⟩
  rw [(hadvance.ended hterminal).1, hterminal]

/-- What holds of the garden of a session: its ids have been given out, no seed is from the future, and a
seed whose time to live has passed has ended. -/
structure Rooted (garden : SeedGarden F) (nowMs : UInt64) : Prop where
  given : ∀ id ∈ garden.seeds, id.toNat < garden.nextId.toNat
  pos : 0 < garden.nextId.toNat
  past : ∀ (id : UInt64) (seed : Seed F), garden.seeds[id]? = some seed → seed.tsPlanted.toNat ≤ nowMs.toNat
  ended : ∀ (id : UInt64) (seed : Seed F), garden.seeds[id]? = some seed →
    seed.tsPlanted.toNat + max 1 seed.ttlMs.toNat ≤ nowMs.toNat → seed.stage.isTerminal = true

variable {self : SeedGarden F} {nowMs : UInt64}

/-- An empty garden is rooted: it has no seeds, and hands out the first id. -/
theorem rooted_default : (default : SeedGarden F).Rooted 0 where
  given id h := by
    rw [default] at h
    exact absurd h Std.ExtTreeMap.not_mem_empty
  pos := by
    show 0 < (1 : UInt64).toNat
    decide
  past id seed h := by
    rw [default, Std.ExtTreeMap.getElem?_empty] at h
    cases h
  ended id seed h := by
    rw [default, Std.ExtTreeMap.getElem?_empty] at h
    cases h

/-! ## One operation -/

/-- A seed without an id of its own is planted under the next one. -/
theorem nextId_plant {seed : Seed F} (hseed : seed.id = 0) (hroom : self.nextId.toNat + 1 < 2 ^ 64) :
    (self.plant seed).nextId.toNat = self.nextId.toNat + 1 := by
  have hnext : (self.nextId + 1).toNat = self.nextId.toNat + 1 := by
    rw [UInt64.toNat_add]
    exact Nat.mod_eq_of_lt hroom
  have hne : self.nextId + 1 ≠ 0 := by
    intro heq
    rw [heq] at hnext
    exact absurd hnext.symm (Nat.succ_ne_zero _)
  have hlt : self.nextId < self.nextId + 1 := by
    rw [UInt64.lt_iff_toNat_lt, hnext]
    exact Nat.lt_succ_self _
  simp only [plant, plantId, if_pos hseed, if_neg hne, if_pos hlt]
  exact hnext

/-- A planted seed is found under the next id, with this id, and the others as before. -/
theorem getElem?_plant {seed : Seed F} (hseed : seed.id = 0) (id : UInt64) :
    (self.plant seed).seeds[id]? = if self.nextId = id then some { seed with id := self.nextId }
      else self.seeds[id]? := by
  simp only [plant, plantId, if_pos hseed]
  rw [Std.ExtTreeMap.getElem?_insert]
  simp only [Std.compare_eq_iff_eq]

/-- The next id of a rooted garden belongs to no seed. -/
theorem Rooted.not_mem_nextId (h : self.Rooted nowMs) : self.nextId ∉ self.seeds :=
  fun hmem => Nat.lt_irrefl _ (h.given _ hmem)

/-- Planting a seed without an id of its own takes no place of another. -/
theorem Rooted.keeps_plant (h : self.Rooted nowMs) {seed : Seed F} (hseed : seed.id = 0) :
    self.Keeps (self.plant seed) := by
  intro id old hold
  refine ⟨old, ?_, rfl, rfl, fun hended => hended⟩
  have hne : self.nextId ≠ id := by
    rintro rfl
    exact h.not_mem_nextId (Std.ExtTreeMap.mem_iff_isSome_getElem?.mpr (by rw [hold]; rfl))
  rw [getElem?_plant hseed, if_neg hne, hold]

/-- A seed that is planted now leaves the garden rooted, as long as there is one more id. -/
theorem Rooted.plant (h : self.Rooted nowMs) {seed : Seed F} (hseed : seed.id = 0)
    (hplanted : seed.tsPlanted = nowMs) (hroom : self.nextId.toNat + 1 < 2 ^ 64) :
    (self.plant seed).Rooted nowMs := by
  have hnext := nextId_plant hseed hroom
  constructor
  · intro id hid
    rw [hnext]
    have hsome := Std.ExtTreeMap.mem_iff_isSome_getElem?.mp hid
    rw [getElem?_plant hseed] at hsome
    split at hsome
    · rename_i heq
      rw [← heq]
      exact Nat.lt_succ_self _
    · exact Nat.lt_succ_of_lt (h.given id (Std.ExtTreeMap.mem_iff_isSome_getElem?.mpr hsome))
  · rw [hnext]
    exact Nat.succ_pos _
  · intro id found hfound
    rw [getElem?_plant hseed] at hfound
    split at hfound
    · cases hfound
      exact (congrArg UInt64.toNat hplanted).le
    · exact h.past id found hfound
  · intro id found hfound hage
    rw [getElem?_plant hseed] at hfound
    split at hfound
    · -- A seed does not end in the moment in which it is planted.
      cases hfound
      have hage : seed.tsPlanted.toNat + max 1 seed.ttlMs.toNat ≤ nowMs.toNat := hage
      rw [hplanted] at hage
      omega
    · exact h.ended id found hfound hage

/-- Aborting a seed ends it and keeps it, and touches no other. -/
theorem keeps_abort (id : UInt64) : self.Keeps (self.abort id) := by
  unfold abort
  split
  · rename_i seed hseed
    intro other found hfound
    by_cases heq : id = other
    · subst heq
      rw [hseed] at hfound
      cases hfound
      exact ⟨_, Std.ExtTreeMap.getElem?_insert_self, rfl, rfl, fun _ => rfl⟩
    · refine ⟨found, ?_, rfl, rfl, fun hended => hended⟩
      rw [Std.ExtTreeMap.getElem?_insert, if_neg (by simpa using heq), hfound]
  · exact .refl self

/-- Aborting a seed hands out no id. -/
theorem nextId_abort (id : UInt64) : (self.abort id).nextId = self.nextId := by
  unfold abort
  split <;> rfl

/-- Aborting a seed leaves the garden rooted. -/
theorem Rooted.abort (h : self.Rooted nowMs) (id : UInt64) : (self.abort id).Rooted nowMs := by
  unfold SeedGarden.abort
  split
  · rename_i seed hseed
    have hmem : id ∈ self.seeds := Std.ExtTreeMap.mem_iff_isSome_getElem?.mpr (by rw [hseed]; rfl)
    have hold {other : UInt64} {found : Seed F}
        (hfound : (self.seeds.insert id { seed with stage := .aborted })[other]? = some found) :
        (id = other ∧ found = { seed with stage := .aborted }) ∨ self.seeds[other]? = some found := by
      rw [Std.ExtTreeMap.getElem?_insert] at hfound
      split at hfound
      · rename_i heq
        exact Or.inl ⟨by simpa using heq, (Option.some.inj hfound).symm⟩
      · exact Or.inr hfound
    constructor
    · intro other hother
      rcases Std.ExtTreeMap.mem_insert.mp hother with heq | hother
      · rw [← Std.LawfulEqCmp.eq_of_compare heq]
        exact h.given id hmem
      · exact h.given other hother
    · exact h.pos
    · intro other found hfound
      rcases hold hfound with ⟨-, rfl⟩ | hfound
      · exact h.past id seed hseed
      · exact h.past other found hfound
    · intro other found hfound hage
      rcases hold hfound with ⟨-, rfl⟩ | hfound
      · rfl
      · exact h.ended other found hfound hage
  · exact h

variable [FloatLike F]

/-- Ticking the garden hands out no id. -/
theorem nextId_tickGarden (order : Order UInt64) (now : UInt64) :
    (self.tickGarden order now).nextId = self.nextId := by
  have hround (garden : SeedGarden F) (id : UInt64) : (garden.tickSeed now id).nextId = garden.nextId := by
    unfold tickSeed
    split
    · split <;> rfl
    · rfl
  exact list_foldl_keeps SeedGarden.nextId hround _ _

/-- A tick ends the seeds whose time to live has passed. -/
theorem Rooted.tick (h : self.Rooted nowMs) (order : Order UInt64) {later : UInt64}
    (hlater : nowMs.toNat ≤ later.toNat) : (self.tickGarden order later).Rooted later := by
  constructor
  · intro id hid
    rw [nextId_tickGarden]
    exact h.given id (mem_of_tickGarden hid)
  · rw [nextId_tickGarden]
    exact h.pos
  · intro id seed' hseed'
    have hmem : id ∈ self.seeds :=
      mem_of_tickGarden (Std.ExtTreeMap.mem_iff_isSome_getElem?.mpr (by rw [hseed']; rfl))
    have hseed : self.seeds[id]? = some self.seeds[id] := Std.ExtTreeMap.getElem?_eq_some_getElem hmem
    obtain ⟨found, hfound, hadvance⟩ := grows_tickGarden order later self id _ hseed
    obtain rfl := Option.some.inj (hfound.symm.trans hseed')
    rw [hadvance.tsPlanted]
    exact (h.past id _ hseed).trans hlater
  · intro id seed' hseed' hage
    have hmem : id ∈ self.seeds :=
      mem_of_tickGarden (Std.ExtTreeMap.mem_iff_isSome_getElem?.mpr (by rw [hseed']; rfl))
    refine isTerminal_tickGarden order hseed' hmem ?_
    omega

/-- The seeds of a commitment: they get consecutive ids from the next one on. -/
theorem Rooted.plantSeeds {field : QueryField F} (variant : Variant F) {tokens : List String}
    (h : self.Rooted field.nowMs) (hroom : self.nextId.toNat + tokens.length < 2 ^ 64) (ids : List UInt64) :
    let planted := tokens.foldl (field.plantSeed variant) (self, ids)
    planted.1.Rooted field.nowMs ∧ self.Keeps planted.1 ∧
      planted.1.nextId.toNat = self.nextId.toNat + tokens.length ∧
      ∃ new, planted.2 = ids ++ new ∧ new.map UInt64.toNat = List.range' self.nextId.toNat tokens.length ∧
        ∀ id ∈ new, ∃ seed, planted.1.seeds[id]? = some seed ∧ seed.tsPlanted = field.nowMs := by
  induction tokens generalizing self ids with
  | nil => exact ⟨h, .refl self, rfl, [], (List.append_nil _).symm, rfl, fun _ hid => nomatch hid⟩
  | cons token tokens ih =>
      rw [List.length_cons] at hroom
      have hone : self.nextId.toNat + 1 < 2 ^ 64 := by omega
      have hid : (field.variantSeed variant token).id = 0 := rfl
      have hnext := nextId_plant hid hone
      have hrooted := h.plant hid rfl hone
      obtain ⟨hafter, hkeeps, hlast, new, hnew, hrange, hthere⟩ := ih hrooted (by omega) (ids ++ [self.nextId])
      have hstart : self.plantId (field.variantSeed variant token) = self.nextId := if_pos hid
      simp only [List.foldl_cons, QueryField.plantSeed, hstart]
      refine ⟨hafter, (h.keeps_plant hid).trans hkeeps, ?_, self.nextId :: new, ?_, ?_, ?_⟩
      · rw [hlast, hnext, List.length_cons]
        omega
      · rw [hnew, List.append_assoc, List.singleton_append]
      · rw [List.map_cons, hrange, hnext, List.length_cons, List.range'_succ]
      · intro id hmem
        rcases List.mem_cons.mp hmem with rfl | hmem
        · -- The seed that was planted first is still there.
          obtain ⟨seed, hseed, hplanted, -, -⟩ := hkeeps self.nextId _
            ((getElem?_plant hid self.nextId).trans (if_pos rfl))
          exact ⟨seed, hseed, hplanted⟩
        · exact hthere id hmem

end SeedGarden

/-! ## Sessions -/

/-- The successful commitments of a log, with their times. -/
def commitments (log : List (Logged F)) : List (UInt64 × LqlCommitResult) :=
  log.filterMap fun
    | .reply nowMs (.ok ⟨some (.commit result), _⟩) => some (nowMs, result)
    | _ => none

/-- How many seeds a call plants at most. -/
def QueryCall.plantings : QueryCall F → ℕ
  | .plantSeed .. => 1
  | .lql _ (.commit _) => 3
  | _ => 0

/-- What a run keeps of the garden of a session and its log. -/
structure Session.Committed (session : Session F) : Prop where
  rooted : session.field.seedGarden.Rooted session.field.nowMs
  size : ∀ entry ∈ commitments session.log, 0 < entry.2.seeds.length ∧ entry.2.seeds.length ≤ 3
  given : ∀ entry ∈ commitments session.log, ∀ id ∈ entry.2.seeds,
    id.toNat < session.field.seedGarden.nextId.toNat
  apart : ((commitments session.log).flatMap fun entry => entry.2.seeds).Nodup
  there : ∀ entry ∈ commitments session.log, ∀ id ∈ entry.2.seeds,
    ∃ seed, session.field.seedGarden.seeds[id]? = some seed ∧ seed.tsPlanted = entry.1

section Steps

variable {session after : Session F}

/-- A call that commits to nothing. -/
theorem Session.Committed.step (h : session.Committed)
    (hlog : commitments after.log = commitments session.log)
    (hkeeps : session.field.seedGarden.Keeps after.field.seedGarden)
    (hnext : session.field.seedGarden.nextId.toNat ≤ after.field.seedGarden.nextId.toNat)
    (hrooted : after.field.seedGarden.Rooted after.field.nowMs) : after.Committed where
  rooted := hrooted
  size := hlog ▸ h.size
  given entry hentry id hid := (h.given entry (hlog ▸ hentry) id hid).trans_le hnext
  apart := hlog ▸ h.apart
  there entry hentry id hid := by
    obtain ⟨seed, hseed, hplanted⟩ := h.there entry (hlog ▸ hentry) id hid
    obtain ⟨seed', hseed', hsame, -, -⟩ := hkeeps id seed hseed
    exact ⟨seed', hseed', hsame.trans hplanted⟩

/-- What is known of a session depends on its commitments, its garden and its clock. -/
theorem Session.Committed.same (h : session.Committed) (hlog : commitments after.log = commitments session.log)
    (hgarden : after.field.seedGarden = session.field.seedGarden)
    (hnow : after.field.nowMs = session.field.nowMs) : after.Committed :=
  h.step hlog (hgarden ▸ .refl _) (congrArg (fun garden => garden.nextId.toNat) hgarden).ge
    (hgarden ▸ hnow ▸ h.rooted)

/-- A commitment with new seeds. -/
theorem Session.Committed.commit (h : session.Committed) {result : LqlCommitResult}
    (hlog : commitments after.log = commitments session.log ++ [(session.field.nowMs, result)])
    (hkeeps : session.field.seedGarden.Keeps after.field.seedGarden)
    (hrooted : after.field.seedGarden.Rooted after.field.nowMs)
    (hsize : 0 < result.seeds.length ∧ result.seeds.length ≤ 3)
    (hnext : after.field.seedGarden.nextId.toNat = session.field.seedGarden.nextId.toNat + result.seeds.length)
    (hrange : result.seeds.map UInt64.toNat =
      List.range' session.field.seedGarden.nextId.toNat result.seeds.length)
    (hthere : ∀ id ∈ result.seeds, ∃ seed, after.field.seedGarden.seeds[id]? = some seed ∧
      seed.tsPlanted = session.field.nowMs) : after.Committed := by
  -- The new ids come after all that were given before.
  have hnew {id : UInt64} (hid : id ∈ result.seeds) :
      session.field.seedGarden.nextId.toNat ≤ id.toNat ∧ id.toNat < after.field.seedGarden.nextId.toNat := by
    have hmem := List.mem_map_of_mem (f := UInt64.toNat) hid
    rw [hrange, List.mem_range'_1] at hmem
    rw [hnext]
    exact hmem
  constructor
  · exact hrooted
  · rw [hlog]
    intro entry hentry
    rcases List.mem_append.mp hentry with hentry | hentry
    · exact h.size entry hentry
    · rw [List.mem_singleton.mp hentry]
      exact hsize
  · rw [hlog]
    intro entry hentry id hid
    rcases List.mem_append.mp hentry with hentry | hentry
    · have hlt := h.given entry hentry id hid
      omega
    · rw [List.mem_singleton.mp hentry] at hid
      exact (hnew hid).2
  · rw [hlog, List.flatMap_append, List.flatMap_singleton, List.nodup_append]
    refine ⟨h.apart, ?_, ?_⟩
    · have hnodup : (result.seeds.map UInt64.toNat).Nodup := hrange ▸ List.nodup_range' _
      exact hnodup.of_map
    · -- An id of an earlier commitment is less than any of the new ones.
      rintro id hold id' hnewId rfl
      obtain ⟨entry, hentry, hid⟩ := List.mem_flatMap.mp hold
      have hlt := h.given entry hentry id hid
      have hge := (hnew hnewId).1
      omega
  · rw [hlog]
    intro entry hentry id hid
    rcases List.mem_append.mp hentry with hentry | hentry
    · obtain ⟨seed, hseed, hplanted⟩ := h.there entry hentry id hid
      obtain ⟨seed', hseed', hsame, -, -⟩ := hkeeps id seed hseed
      exact ⟨seed', hseed', hsame.trans hplanted⟩
    · rw [List.mem_singleton.mp hentry] at hid ⊢
      exact hthere id hid

variable [FloatLike F] {platform : Platform F} {exp : F → F}

omit [FloatLike F] in
/-- The commitments of a log are those of its first part and then those of the rest. -/
@[simp] theorem commitments_append (before after : List (Logged F)) :
    commitments (before ++ after) = commitments before ++ commitments after := List.filterMap_append

omit [FloatLike F] in
/-- The answers of views are no commitments. -/
theorem commitments_answers (nowMs : UInt64) (events : List (ViewEvent F)) :
    commitments (events.map (.answer nowMs)) = [] := by
  refine List.filterMap_eq_nil_iff.mpr fun entry hentry => ?_
  obtain ⟨event, -, rfl⟩ := List.mem_map.mp hentry
  rfl

/-- The command is a `COMMIT`. -/
def LqlAst.commits : LqlAst F → Bool
  | .commit _ => true
  | _ => false

/-- Other commands leave the garden alone. -/
theorem execLql_uncommitted (visits : LqlVisits F) (field : QueryField F) {ast : LqlAst F}
    (hast : ast.commits = false) :
    (field.execLql platform exp visits ast).2.seedGarden = field.seedGarden ∧
      (field.execLql platform exp visits ast).2.nowMs = field.nowMs ∧
      ∀ nowMs, commitments [.reply nowMs (field.execLql platform exp visits ast).1] = [] := by
  cases ast with
  | commit variantId => cases hast
  | pivot source target reason =>
      simp only [QueryField.execLql]
      split
      · exact ⟨rfl, rfl, fun _ => rfl⟩
      · exact ⟨rfl, rfl, fun _ => rfl⟩
  | defuse pendulumId drain =>
      simp only [QueryField.execLql]
      split
      · exact ⟨rfl, rfl, fun _ => rfl⟩
      · exact ⟨rfl, rfl, fun _ => rfl⟩
  | _ => exact ⟨rfl, rfl, fun _ => rfl⟩

omit [FloatLike F] in
/-- A variant plants a seed for each of its first three tokens, the hints of a path, or one for its title
where it has none. -/
theorem length_plantedTokens (variant : Variant F) :
    0 < (QueryField.plantedTokens variant).length ∧ (QueryField.plantedTokens variant).length ≤ 3 := by
  unfold QueryField.plantedTokens
  split
  · simp
  · rename_i hhints
    have hpos : 0 < variant.pathHint.length := by
      rw [List.length_pos_iff_ne_nil]
      simpa using hhints
    rw [List.length_take]
    omega

/-- What a `COMMIT` of a known variant does. -/
theorem execLql_commit (visits : LqlVisits F) (field : QueryField F) {variantId : String} {variant : Variant F}
    (hvariant : field.variantLayer.variants[variantId]? = some variant) :
    let planted := (QueryField.plantedTokens variant).foldl (field.plantSeed variant) (field.seedGarden, [])
    (field.execLql platform exp visits (.commit variantId)).2.seedGarden = planted.1 ∧
      (field.execLql platform exp visits (.commit variantId)).2.nowMs = field.nowMs ∧
      ∀ nowMs, commitments [.reply nowMs (field.execLql platform exp visits (.commit variantId)).1] =
        [(nowMs, ⟨variantId, planted.2⟩)] := by
  simp only [QueryField.execLql, VariantManifold.commit, hvariant, QueryField.plantVariantSeeds]
  exact ⟨rfl, trivial, fun _ => rfl⟩

/-- Committing to a variant that is not there is an error and changes nothing. -/
theorem execLql_commit_unknown (visits : LqlVisits F) (field : QueryField F) {variantId : String}
    (hvariant : field.variantLayer.variants[variantId]? = none) :
    field.execLql platform exp visits (.commit variantId) = (.error ⟨"unknown variant " ++ variantId⟩, field) := by
  simp only [QueryField.execLql, VariantManifold.commit, hvariant]

/-- A `COMMIT` of a known variant. -/
theorem Session.Committed.lqlCommit (h : session.Committed) (visits : LqlVisits F) {variantId : String}
    {variant : Variant F} (hvariant : session.field.variantLayer.variants[variantId]? = some variant)
    (hroom : session.field.seedGarden.nextId.toNat + 3 < 2 ^ 64) :
    (session.call platform exp (.lql visits (.commit variantId))).Committed ∧
      (session.call platform exp (.lql visits (.commit variantId))).field.seedGarden.nextId.toNat ≤
        session.field.seedGarden.nextId.toNat + 3 := by
  obtain ⟨hgarden, hnow, hreply⟩ := @execLql_commit F _ platform exp visits session.field variantId variant hvariant
  have hsize := length_plantedTokens variant
  obtain ⟨hrooted, hkeeps, hnext, new, hnew, hrange, hthere⟩ :=
    h.rooted.plantSeeds variant (by omega : _ + (QueryField.plantedTokens variant).length < 2 ^ 64) []
  rw [List.nil_append] at hnew
  have hlength : new.length = (QueryField.plantedTokens variant).length := by
    have hlengths := congrArg List.length hrange
    rwa [List.length_map, List.length_range'] at hlengths
  have hlog : commitments (session.call platform exp (.lql visits (.commit variantId))).log =
      commitments session.log ++ [(session.field.nowMs, ⟨variantId, new⟩)] := by
    rw [← hnew, ← hreply, ← commitments_append]
    rfl
  have hafter : (session.call platform exp (.lql visits (.commit variantId))).field.seedGarden =
      ((QueryField.plantedTokens variant).foldl (session.field.plantSeed variant)
        (session.field.seedGarden, [])).1 := hgarden
  refine ⟨h.commit hlog ?_ ?_ ?_ ?_ ?_ ?_, ?_⟩
  · rw [hafter]
    exact hkeeps
  · have hclock : (session.call platform exp (.lql visits (.commit variantId))).field.nowMs = session.field.nowMs :=
      hnow
    rw [hafter, hclock]
    exact hrooted
  · show 0 < new.length ∧ new.length ≤ 3
    rw [hlength]
    exact hsize
  · show _ = _ + new.length
    rw [hafter, hnext, hlength]
  · show new.map UInt64.toNat = List.range' _ new.length
    rw [hlength]
    exact hrange
  · intro id hid
    rw [hafter]
    exact hthere id hid
  · rw [hafter, hnext]
    omega

/-- Any call. -/
theorem Session.Committed.call (h : session.Committed) (call : QueryCall F)
    (hroom : session.field.seedGarden.nextId.toNat + call.plantings < 2 ^ 64) :
    (session.call platform exp call).Committed ∧
      (session.call platform exp call).field.seedGarden.nextId.toNat ≤
        session.field.seedGarden.nextId.toNat + call.plantings := by
  cases call with
  | lql visits ast =>
      by_cases hast : ast.commits = false
      · obtain ⟨hgarden, hnow, hnone⟩ := @execLql_uncommitted F _ platform exp visits session.field ast hast
        have hlog : commitments (session.call platform exp (.lql visits ast)).log = commitments session.log := by
          show commitments (session.log ++ [_]) = _
          rw [commitments_append, hnone, List.append_nil]
        exact ⟨h.same hlog hgarden hnow,
          (congrArg (fun garden => garden.nextId.toNat) hgarden).le.trans (Nat.le_add_right _ _)⟩
      · cases ast with
        | commit variantId =>
            cases hvariant : session.field.variantLayer.variants[variantId]? with
            | none =>
                simp only [Session.call, execLql_commit_unknown visits session.field hvariant]
                refine ⟨h.same ?_ rfl rfl, Nat.le_add_right _ _⟩
                rw [commitments_append]
                exact List.append_nil _
            | some variant => exact h.lqlCommit visits hvariant hroom
        | _ => exact absurd rfl hast
  | tick visits variation dtMs =>
      have hclock := congrArg UInt64.toNat (@nowMs_tickAll F _ platform visits variation session.field dtMs)
      rw [FeedbackRun.toNat_saturatingAdd] at hclock
      have hmax := session.field.nowMs.toNat_lt
      have hlater : session.field.nowMs.toNat ≤
          (session.field.tickAll platform visits variation dtMs).2.nowMs.toNat := by omega
      have hnext := congrArg UInt64.toNat (@SeedGarden.nextId_tickGarden F session.field.seedGarden _
        visits.seeds (session.field.tickAll platform visits variation dtMs).2.nowMs)
      refine ⟨h.step ?_ (SeedGarden.grows_tickGarden visits.seeds _ _).keeps hnext.ge
        (h.rooted.tick visits.seeds hlater), hnext.le⟩
      show commitments (session.log ++ List.map _ _) = _
      rw [commitments_append, commitments_answers, List.append_nil]
  | field call still => exact ⟨h.same rfl rfl (nowMs_call still), Nat.le_add_right _ _⟩
  | recordReflexSnapshot neighbors snapshot =>
      simp only [Session.call]
      split
      · rename_i recorded hrecorded
        exact ⟨h.same rfl rfl (nowMs_recordReflexSnapshot hrecorded), Nat.le_add_right _ _⟩
      · exact ⟨h, Nat.le_add_right _ _⟩
  | plantSeed kind target ttlMs ns =>
      have hroom : session.field.seedGarden.nextId.toNat + 1 < 2 ^ 64 := hroom
      have hid : (Seed.new kind target ttlMs ns session.field.nowMs : Seed F).id = 0 := rfl
      have hnext := SeedGarden.nextId_plant hid hroom
      exact ⟨h.step rfl (h.rooted.keeps_plant hid) (hnext ▸ Nat.le_succ _) (h.rooted.plant hid rfl hroom), hnext.le⟩
  | abortSeed id =>
      have hnext := congrArg UInt64.toNat (@SeedGarden.nextId_abort F session.field.seedGarden id)
      exact ⟨h.step rfl (SeedGarden.keeps_abort id) hnext.ge (h.rooted.abort id), hnext.le⟩
  | _ => exact ⟨h.same rfl rfl rfl, Nat.le_add_right _ _⟩

/-- Nothing is committed to in a new session, and its garden is empty. -/
theorem committed_new : (⟨.new, []⟩ : Session F).Committed where
  rooted := SeedGarden.rooted_default
  size _ h := nomatch h
  given _ h := nomatch h
  apart := List.nodup_nil
  there _ h := nomatch h

/-- What a run keeps, as long as there are ids left for its seeds. -/
theorem committed_run (calls : List (QueryCall F)) (hroom : (calls.map QueryCall.plantings).sum + 1 < 2 ^ 64) :
    (Session.run platform exp calls).Committed ∧
      (Session.run platform exp calls).field.seedGarden.nextId.toNat ≤
        (calls.map QueryCall.plantings).sum + 1 := by
  induction calls using List.reverseRecOn with
  | nil => exact ⟨committed_new, le_rfl⟩
  | append_singleton calls call ih =>
      rw [List.map_append, List.sum_append, List.map_singleton, List.sum_singleton] at hroom ⊢
      obtain ⟨hcommitted, hle⟩ := ih (by omega)
      rw [Session.run, List.foldl_append, List.foldl_cons, List.foldl_nil, ← Session.run]
      obtain ⟨hafter, hnext⟩ := hcommitted.call call (by omega : _ + call.plantings < 2 ^ 64)
      exact ⟨hafter, by omega⟩

end Steps

/-! ## The result -/

section Result

variable [FloatLike F]

/-- In every run the seeds of a `COMMIT` have ids that no other one is given, stay in the garden with the time
of the command, and have ended once their time to live has passed since then. -/
theorem committed_seeds (platform : Platform F) (exp : F → F) (calls : List (QueryCall F))
    (hroom : (calls.map QueryCall.plantings).sum + 1 < 2 ^ 64) :
    ((commitments (Session.run platform exp calls).log).flatMap fun entry => entry.2.seeds).Nodup ∧
      ∀ since result, (since, result) ∈ commitments (Session.run platform exp calls).log →
        (0 < result.seeds.length ∧ result.seeds.length ≤ 3) ∧ ∀ id ∈ result.seeds,
          ∃ seed, (Session.run platform exp calls).field.seedGarden.seeds[id]? = some seed ∧
            seed.tsPlanted = since ∧
            (since.toNat + max 1 seed.ttlMs.toNat ≤ (Session.run platform exp calls).field.nowMs.toNat →
              seed.stage.isTerminal = true) := by
  obtain ⟨hcommitted, -⟩ := @committed_run F _ platform exp calls hroom
  refine ⟨hcommitted.apart, fun since result hresult => ⟨hcommitted.size _ hresult, fun id hid => ?_⟩⟩
  obtain ⟨seed, hseed, hplanted⟩ := hcommitted.there _ hresult id hid
  refine ⟨seed, hseed, hplanted, fun hage => hcommitted.rooted.ended id seed hseed ?_⟩
  rw [hplanted]
  exact hage

/-- A variant that is committed to twice, with a tick that ends the first seeds. -/
def sampleCommitCalls : List (QueryCall ℚ) :=
  [.upsertVariant ⟨"v", "walk", 0.5, 1, 700, 0.1, 0.4, ["cpu", "load"], none⟩,
    .lql ⟨.listed, .listed⟩ (.commit "v"), .tick ⟨.listed, fun _ => .listed, .listed⟩ (fun _ => 0) 800,
    .lql ⟨.listed, .listed⟩ (.commit "v")]

/-- The sample commits to two variants, and the seeds that the replies name are all different. -/
theorem committed_seeds_sampleCommitCalls :
    ((commitments (Session.run (ClusterField.constantPlatform ℚ 0.5) id sampleCommitCalls).log).flatMap
      fun entry => entry.2.seeds).Nodup :=
  (committed_seeds (ClusterField.constantPlatform ℚ 0.5) id sampleCommitCalls (by decide)).1

end Result

end LiminalDB
