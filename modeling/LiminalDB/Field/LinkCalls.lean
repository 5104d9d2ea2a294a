import LiminalDB.Field.LinkBooks
import LiminalDB.Field.Topology

/-! # Link tracking through the calls

Impulses, roots and buds keep the books about the links tidy, as long as there are ids left. -/

namespace LiminalDB

variable {F : Type}

namespace ClusterField

/-- The books are tidy, and what occurs in them has an id that has been handed out. -/
structure Booked (field : ClusterField F) : Prop where
  tidy : field.books.Tidy
  below : ∀ id, field.books.Occurs id → id < field.nextId

variable {platform : Platform F} {self self' : ClusterField F}

/-- The books are in order in every field with the same links, tables and next id. -/
theorem Booked.of_linking (h : Booked self) (hsame : self'.linking = self.linking) : Booked self' := by
  obtain ⟨hbooks, hnextId⟩ := Prod.mk.inj hsame
  exact ⟨hbooks ▸ h.tidy, fun id hoccurs => hnextId ▸ h.below id (hbooks ▸ hoccurs)⟩

/-- The next id is not in the books. -/
theorem Booked.unused (h : Booked self) : ¬ self.books.Occurs self.nextId :=
  fun hoccurs => UInt64.lt_irrefl _ (h.below _ hoccurs)

/-- Entries about cells that are there are made in the usage and the routes. -/
theorem Booked.of_entries (h : Booked self) (hedges : self'.books.edges = self.books.edges)
    (hscores : self'.books.scores = self.books.scores) (hnextId : self'.nextId = self.nextId)
    (husage : ∀ x y, (x, y) ∈ self'.books.usage →
      (x, y) ∈ self.books.usage ∨ self.books.There x ∧ self.books.There y)
    (hroutes : ∀ x y, (x, y) ∈ self'.books.routes →
      (x, y) ∈ self.books.routes ∨ self.books.There x ∧ self.books.There y) : Booked self' := by
  refine ⟨h.tidy.of_entries hedges hscores husage hroutes, fun id hoccurs => ?_⟩
  rw [hnextId]
  exact h.below id (hoccurs.of_subset (EdgeBooks.there_congr hedges).mp
    fun _ => (EdgeBooks.edge_congr hedges).mp)

/-- A new link keeps the books in order if its target is there, or it has led where it leads before. -/
theorem Booked.link (h : Booked self) {source target : NodeId} (hbooks : self'.books = self.books.link source target)
    (hnextId : self'.nextId = self.nextId)
    (htarget : self.books.There source → self.books.Edge source target ∨ self.books.There target) :
    Booked self' := by
  refine ⟨hbooks ▸ h.tidy.link htarget, fun id hoccurs => ?_⟩
  rw [hbooks] at hoccurs
  rw [hnextId]
  exact h.below id (hoccurs.of_link htarget)

/-- A link that is taken away with its entries leaves the books in order. -/
theorem Booked.unlink (h : Booked self) {source target : NodeId}
    (hbooks : self'.books = self.books.unlink source target) (hnextId : self'.nextId = self.nextId) :
    Booked self' := by
  refine ⟨hbooks ▸ h.tidy.unlink source target, fun id hoccurs => ?_⟩
  rw [hbooks] at hoccurs
  rw [hnextId]
  exact h.below id (hoccurs.of_subset EdgeBooks.there_unlink.mp
    fun _ hedge => (EdgeBooks.edge_unlink.mp hedge).1)

variable [FloatLike F]

omit [FloatLike F] in
/-- A cell without links leads nowhere. -/
theorem targets_empty {cell : NodeCell F} (h : cell.links = ∅) : cell.targets = ∅ := by
  refine Set.eq_empty_iff_forall_notMem.mpr fun target hmem => ?_
  unfold NodeCell.targets at hmem
  rw [h] at hmem
  simp at hmem

/-! ## Cells that are born -/

omit [FloatLike F] in
/-- A cell without links takes an id that is new. -/
theorem booked_attachNew {cell : NodeCell F} (h : Booked self) (hnew : ¬ self.books.Occurs cell.id)
    (hlinks : cell.links = ∅) (hbelow : cell.id < self'.nextId)
    (hgrows : ∀ id, id < self.nextId → id < self'.nextId)
    (hbooks : self'.books = self.books.attach cell.id cell.targets) : Booked self' := by
  have hnone : ∀ target ∈ cell.targets, self.books.There target ∨ target = cell.id := fun target hmem => by
    rw [targets_empty hlinks] at hmem
    cases hmem
  constructor
  · rw [hbooks]
    refine h.tidy.attach hnone (fun target hedge => ?_) fun source hdangling => ?_
    · exact absurd (Or.inl hedge.there) hnew
    · exact hnew (Or.inr ⟨source, hdangling.1⟩)
  · intro id hoccurs
    rw [hbooks] at hoccurs
    rcases hoccurs.of_attach hnone with hold | rfl
    · exact hgrows id (h.below id hold)
    · exact hbelow

/-- A new cell without links, under an id that nothing has used, gets a page in the books and no entries. -/
theorem booked_spawn {cell : NodeCell F} (hid : cell.id = self.nextId) (hlinks : cell.links = ∅)
    (hnext : self.nextId < self.nextId + 1) (h : Booked self) : Booked (self.spawn platform cell) := by
  have hnextId : (self.spawn platform cell).nextId = self.nextId + 1 := nextId_spawn platform self cell
  refine booked_attachNew h (hid ▸ h.unused) hlinks ?_ (fun id hlt => ?_)
    (@books_attachCell F { self with nextId := self.nextId + 1 } _ platform cell)
  · rw [hnextId, hid]
    exact hnext
  · rw [hnextId]
    exact UInt64.lt_trans hlt hnext

/-- `add_root` spawns such a cell, as long as the counter of ids does not run over. -/
theorem booked_addRoot (seed : String) (hnext : self.nextId < self.nextId + 1) (h : Booked self) :
    Booked (self.addRoot platform seed) :=
  booked_spawn rfl rfl hnext h

/-! ## Impulses -/

/-- A cell that wakes keeps its links, and nothing is entered or struck out. -/
theorem linking_wake (id : NodeId) : (self.wake id).linking = self.linking := by
  unfold wake
  cases hcell : self.cells[id]? with
  | none => rfl
  | some cell =>
      dsimp only
      split
      · exact linking_setCell hcell rfl
      · rfl

/-- A rule that fires keeps the books in order: only its seeds touch them, and they come without links. -/
theorem booked_fireReflex (visits : Visits F) (rule : ReflexRule F) (matched : UInt16) (token : String)
    (hnext : spawns rule → self.nextId < self.nextId + 1) (h : Booked self) :
    Booked (self.fireReflex platform visits rule matched token) := by
  have hemitted : Booked (self.emit (.reflexFire rule.id self.nowMs matched)) := h.of_linking rfl
  unfold fireReflex
  cases haction : rule.action with
  | emitHint hint => exact hemitted
  | spawnSeed seed affinityShift =>
      exact booked_spawn rfl rfl (hnext (by simp [spawns, haction])) hemitted
  | wakeSleeping count =>
      exact hemitted.of_linking (list_foldl_keeps linking (fun s id => linking_wake id) _ _)
  | boostLinks factor top =>
      have hboost (s : ClusterField F) (node : NodeId) :
          (boost (platform.toLowercase token) factor s node).linking = s.linking := rfl
      dsimp only [performBoostLinks]
      split
      · exact hemitted
      · exact hemitted.of_linking (list_foldl_keeps linking hboost _ _)

/-- By induction over the rules that are due, all of them keep the books in order while ids last. -/
theorem booked_fireAll (visits : Visits F) (token : String) (due : List (ReflexRule F × UInt16))
    (hroom : Room (counted : Permit F) self.nextId (spawnsDue due)) (h : Booked self) :
    Booked (self.fireAll platform visits token due) := by
  induction due generalizing self with
  | nil => exact h
  | cons first due ih =>
      rw [spawnsDue_cons] at hroom
      obtain ⟨-, hnext⟩ := fireReflex_keeps platform visits self first.1 first.2 token
      refine ih (hnext ▸ hroom.right) (booked_fireReflex visits first.1 first.2 token (fun hspawns => ?_) h)
      rw [if_pos hspawns, Nat.add_comm] at hroom
      exact hroom.head

/-- By induction over the tokens of an impulse, with the ids for what their rules spawn. -/
theorem booked_processReflexes (visits : Visits F) (imp : Impulse F) (tokens : List String)
    (fired : List ReflexId)
    (hroom : Room (counted : Permit F) self.nextId (spawnsBy platform visits imp self tokens fired))
    (h : Booked self) : Booked (processReflexes platform visits imp self tokens fired) := by
  induction tokens generalizing self fired with
  | nil => exact h
  | cons token tokens ih =>
      obtain ⟨considered, due, hconsider⟩ :
          ∃ considered due, self.considerImpulse platform visits (platform.toLowercase token) imp fired =
            (considered, due) := ⟨_, _, rfl⟩
      have hlinking : considered.linking = self.linking := congrArg (fun e => e.1.linking) hconsider.symm
      have hid : considered.nextId = self.nextId := congrArg Prod.snd hlinking
      simp only [spawnsBy, hconsider] at hroom
      rw [← hid] at hroom
      simp only [processReflexes, processReflexFor, hconsider]
      have hfired := @booked_fireAll F platform _ _ visits (platform.toLowercase token) due
        hroom.left (h.of_linking hlinking)
      obtain ⟨-, hnext, hsame⟩ := @chain_fireAll F platform counted considered Set.univ _ visits
        (platform.toLowercase token) due hroom.left
      refine ih _ ?_ hfired
      rw [hnext, spawnsBy_congr visits imp tokens _ hsame]
      exact hroom.right

/-- What an impulse does before it reaches a cell keeps the books in order, for the hormone is not in them. -/
theorem booked_react (visits : Visits F) (imp : Impulse F)
    (hroom : self.HasRoom (spawnsBy platform visits imp self (tokenize platform imp.pattern).eraseDups []))
    (h : Booked self) : Booked (self.react platform visits imp) := by
  obtain ⟨hreflexes, -⟩ := @reflexes_feelHormone F self _ imp
  have hlinking : (self.feelHormone imp).linking = self.linking := by
    unfold feelHormone
    split <;> rfl
  have hid : (self.feelHormone imp).nextId = self.nextId := congrArg Prod.snd hlinking
  refine booked_processReflexes visits imp _ [] ?_ (h.of_linking hlinking)
  rw [hid, spawnsBy_congr visits imp _ [] hreflexes]
  exact room_of_hasRoom hroom

/-- The cells that respond are there, and none has changed its links. -/
structure Responses.Keeps (before : ClusterField F) (acc : Responses F) : Prop where
  linking : acc.field.linking = before.linking
  there : ∀ e ∈ acc.responded, before.books.There e.1

/-- A target that takes in an impulse keeps its links, and the tables stay as they are. -/
theorem keeps_ingestAt (imp : Impulse F) {before : ClusterField F} {acc : Responses F}
    (h : acc.Keeps before) (id : NodeId) : (ingestAt platform imp acc id).Keeps before := by
  unfold ingestAt
  cases hcell : acc.field.cells[id]? with
  | none => exact h
  | some cell =>
      have hlinks := (Tweaks.ingest platform cell imp acc.field.nowMs).links
      have hthere : before.books.There id := by
        have hbooks : acc.field.books = before.books := congrArg Prod.fst h.linking
        rw [← hbooks]
        exact there_books.mpr ⟨cell, hcell⟩
      dsimp only
      split
      · refine ⟨Eq.trans (linking_setCell hcell ?_) h.linking, fun e he => ?_⟩
        · exact hlinks
        rcases List.mem_append.mp he with hold | hnew
        · exact h.there e hold
        · obtain rfl := List.mem_singleton.mp hnew
          exact hthere
      · exact ⟨(linking_setCell hcell hlinks).trans h.linking, h.there⟩

/-- By induction over the targets, the same of all of them. -/
theorem keeps_ingest (imp : Impulse F) (ids : List NodeId) {before : ClusterField F} {acc : Responses F}
    (h : acc.Keeps before) : (ids.foldl (ingestAt platform imp) acc).Keeps before := by
  induction ids generalizing acc with
  | nil => exact h
  | cons id ids ih => exact ih (keeps_ingestAt imp h id)

omit [FloatLike F] in
/-- An entry that is made or changed adds no other key to a table than its own. -/
theorem mem_keys_entry {κ β : Type} [DecidableEq κ] {key other : κ} {init : β} {change : β → β}
    {m : List (κ × β)} (h : other ∈ (entry key init change m).map Prod.fst) :
    other ∈ m.map Prod.fst ∨ other = key := by
  unfold entry at h
  split at h
  · rw [List.map_map] at h
    obtain ⟨e, he, rfl⟩ := List.mem_map.mp h
    refine Or.inl (List.mem_map.mpr ⟨e, he, ?_⟩)
    show e.1 = (if e.1 = key then (e.1, change e.2) else e).1
    split <;> rfl
  · rw [List.map_append, List.mem_append] at h
    exact h.imp_right fun hnew => List.mem_singleton.mp hnew

omit [FloatLike F] in
/-- Counting a pair of a route may add this pair to the routes and may drop another one, no more. -/
theorem mem_routes_recordRoutePair {visits : Visits F} {source target : NodeId} {e : NodeId × NodeId}
    (h : e ∈ (self.recordRoutePair visits source target).books.routes) :
    e ∈ self.books.routes ∨ e = (source, target) := by
  refine @mem_keys_entry _ _ _ _ _ ⟨0, 0⟩
    (fun stat : LinkStat => ⟨saturatingAdd stat.hits 1, self.nowMs⟩) _ ?_
  unfold recordRoutePair books at h
  dsimp only at h
  split at h
  · split at h
    · obtain ⟨entry, hentry, rfl⟩ := List.mem_map.mp h
      exact List.mem_map_of_mem (List.mem_filter.mp hentry).1
    · exact h
  · exact h

omit [FloatLike F] in
/-- Two cells that are there may be counted as a pair, and the link between them, if there is one, as used. -/
theorem booked_recordPair (visits : Visits F) {source target : NodeId} (hsource : self.books.There source)
    (htarget : self.books.There target) (h : Booked self) :
    Booked ((if self.linked source target then self.recordLinkHit source target else self).recordRoutePair
      visits source target) := by
  have hroutes (s : ClusterField F) (e : NodeId × NodeId) :=
    @mem_routes_recordRoutePair F s visits source target e
  split
  · refine h.of_entries rfl rfl rfl (fun x y hmem => ?_) fun x y hmem => ?_
    · by_cases heq : (x, y) = (source, target)
      · cases heq
        exact Or.inr ⟨hsource, htarget⟩
      · have hold : (if (x, y) = (source, target) then _ else self.linkUsage (x, y)).isSome = true := hmem
        rw [if_neg heq] at hold
        exact Or.inl hold
    · refine (hroutes _ _ hmem).imp_right fun heq => ?_
      cases heq
      exact ⟨hsource, htarget⟩
  · refine h.of_entries rfl rfl rfl (fun x y hmem => Or.inl hmem) fun x y hmem => ?_
    refine (hroutes _ _ hmem).imp_right fun heq => ?_
    cases heq
    exact ⟨hsource, htarget⟩

omit [FloatLike F] in
/-- By induction along a route of cells that are there, counting it keeps the books in order. -/
theorem booked_recordRouteSequence (visits : Visits F) (nodes : List NodeId)
    (hnodes : ∀ node ∈ nodes, self.books.There node) (h : Booked self) :
    Booked (self.recordRouteSequence visits nodes) := by
  induction nodes generalizing self with
  | nil => exact h
  | cons source nodes ih =>
      cases nodes with
      | nil => exact h
      | cons target rest =>
          obtain ⟨hsource, hrest⟩ := List.forall_mem_cons.mp hnodes
          have hrecorded := booked_recordPair visits hsource (hrest target List.mem_cons_self) h
          rw [recordRouteSequence]
          refine ih (fun node hnode => ?_) hrecorded
          have hthere := hrest node hnode
          split <;> exact hthere

/-- A whole impulse keeps the books in order: its route names cells that have answered, which are there. -/
theorem booked_routeImpulse (visits : Visits F) (imp : Impulse F)
    (hroom : self.HasRoom (spawnsBy platform visits imp self (tokenize platform imp.pattern).eraseDups []))
    (h : Booked self) : Booked (self.routeImpulse platform visits imp) := by
  have hreacted := booked_react visits imp hroom h
  unfold routeImpulse
  dsimp only
  generalize self.react platform visits imp = reacted at hreacted
  have hkeeps := @keeps_ingest F platform _ imp
    (reacted.targets visits (tokenize platform imp.pattern) imp) reacted ⟨reacted, [], []⟩
    ⟨rfl, fun _ he => by cases he⟩
  generalize (List.foldl (ingestAt platform imp) _ _) = responses at hkeeps
  have hbooks : responses.field.books = reacted.books := congrArg Prod.fst hkeeps.linking
  have hrouted := booked_recordRouteSequence visits (responses.responded.map Prod.fst)
    (fun node hnode => by
      obtain ⟨e, he, rfl⟩ := List.mem_map.mp hnode
      rw [hbooks]
      exact hkeeps.there e he) (hreacted.of_linking hkeeps.linking)
  refine hrouted.of_linking ?_
  have hrecent (s : ClusterField F) (token : String) :
      (recordRecent imp (responses.responded.map Prod.fst) s token).linking = s.linking := rfl
  have hhit (token : String) (s : ClusterField F) (e : NodeId × UInt32) :
      (s.recordTokenHit platform token e.1 imp.strength e.2).linking = s.linking := rfl
  rw [linking_foldl_emit]
  refine (list_foldl_keeps linking (fun s token => list_foldl_keeps linking (hhit token) _ s) _ _).trans ?_
  exact list_foldl_keeps linking hrecent _ _

/-! ## Links -/

/-- `add_link` keeps the books in order if it leads to a cell that is there, or to where the source leads
already. -/
theorem booked_addLink {source target : NodeId}
    (htarget : self.books.There source → self.books.Edge source target ∨ self.books.There target)
    (h : Booked self) : Booked (self.addLink source target) :=
  h.link (books_addLink source target) (congrArg Replica.nextId (replica_addLink self source target)) htarget

/-! ## Buds -/

/-- The field when the links to a bud are registered. -/
def registered (bud : NodeId) (acc : ClusterField F × List NodeId) : ClusterField F :=
  acc.2.foldl (fun self source => self.registerLink source bud) acc.1

/-- Writing a cell and registering the links that wait to be registered may be done in either order. -/
theorem registered_setCell (bud id : NodeId) (cell : NodeCell F) (sources : List NodeId)
    (self : ClusterField F) :
    registered bud (self.setCell id cell, sources) = (registered bud (self, sources)).setCell id cell := by
  unfold registered
  induction sources generalizing self with
  | nil => rfl
  | cons source sources ih => exact ih (self.registerLink source bud)

/-- Registering links touches the tables and no cell. -/
theorem cells_registered (bud : NodeId) (acc : ClusterField F × List NodeId) :
    (registered bud acc).cells = acc.1.cells := by
  have hregister (self : ClusterField F) (source : NodeId) :
      (self.registerLink source bud).cells = self.cells := rfl
  exact list_foldl_keeps cells hregister acc.2 acc.1

/-- One more cell is linked to a bud, or not. -/
theorem registered_linkBud (coin : NodeId → Bool) (bud : NodeId) {acc : ClusterField F × List NodeId}
    (hplace : InPlace acc.1.replica.cells) (id : NodeId) :
    registered bud (linkBud coin bud acc id) = registered bud acc ∨
      registered bud (linkBud coin bud acc id) = (registered bud acc).addLink id bud := by
  unfold linkBud
  cases hcell : acc.1.cells[id]? with
  | none => exact Or.inl rfl
  | some cell =>
      dsimp only
      split
      · rename_i hguard
        simp only [Bool.and_eq_true, Bool.not_eq_true'] at hguard
        obtain rfl : cell.id = id := hplace id cell hcell
        right
        have hadd : (registered bud acc).addLink cell.id bud =
            ((registered bud acc).setCell cell.id (cell.link bud)).registerLink cell.id bud := by
          unfold addLink
          rw [cells_registered, hcell]
          dsimp only
          rw [if_neg (by simp [hguard.2])]
        rw [hadd, ← registered_setCell]
        exact List.foldl_append
      · exact Or.inl rfl

/-- By induction over the cells that a bud comes upon: with the links registered that wait for it, the books
are in order at every step. -/
theorem booked_linkBuds (platform : Platform F) (coin : NodeId → Bool) (bud : NodeId) (ids : List NodeId)
    {acc : ClusterField F × List NodeId} (hplace : InPlace acc.1.replica.cells)
    (hbud : (registered bud acc).books.There bud) (h : Booked (registered bud acc)) :
    Booked (registered bud (ids.foldl (linkBud coin bud) acc)) := by
  induction ids generalizing acc with
  | nil => exact h
  | cons id ids ih =>
      have hstep := inPlace_chain (@chain_linkBud F platform deathless coin bud Set.univ acc hplace id) hplace
      rcases registered_linkBud coin bud hplace id with hsame | hadd
      · exact ih hstep (by rw [hsame]; exact hbud) (by rw [hsame]; exact h)
      · refine ih hstep ?_ ?_
        · rw [hadd, books_addLink, EdgeBooks.there_link]
          exact hbud
        · rw [hadd]
          exact booked_addLink (fun _ => Or.inr hbud) h

/-- `inject_seed_variation` keeps the books in order: its bud is there before anything links to it. -/
theorem booked_injectSeedVariation (visits : Visits F) (shift energy : F) (coin : NodeId → Bool)
    (baseSeed : String) (hplace : InPlace self.replica.cells)
    (hroom : ¬ 64 < self.cells.size → self.HasRoom 1) (h : Booked self) :
    Booked (self.injectSeedVariation platform visits shift energy coin baseSeed) := by
  unfold injectSeedVariation
  split
  · exact h
  · rename_i hfew
    have hnext : self.nextId < self.nextId + 1 := (room_of_hasRoom (hroom hfew)).head
    have hid : (self.bud platform shift energy baseSeed).id = self.nextId := by
      simp [bud, NodeCell.fromSeed]
    have hspawned := @booked_spawn F platform self _ _ hid rfl hnext h
    have hbud : (self.spawn platform (self.bud platform shift energy baseSeed)).books.There self.nextId := by
      have hbooks := @books_attachCell F { self with nextId := self.nextId + 1 } _ platform
        (self.bud platform shift energy baseSeed)
      show EdgeBooks.There (books (attachCell platform _ _)) _
      rw [hbooks, EdgeBooks.there_attach, hid]
      exact Or.inr rfl
    have hplaced : InPlace (self.spawn platform (self.bud platform shift energy baseSeed)).replica.cells :=
      inPlace_chain (@chain_spawn F platform deathless self Set.univ _ _ hid
        ⟨by simp [bud, NodeCell.fromSeed], rfl⟩ trivial) hplace
    dsimp only
    generalize self.spawn platform (self.bud platform shift energy baseSeed) = spawned
      at hspawned hbud hplaced
    have hlinked := @booked_linkBuds F _ platform coin self.nextId (visits.cells.arrange spawned.cells.keys)
      (spawned, []) hplaced hbud hspawned
    generalize (visits.cells.arrange spawned.cells.keys).foldl (linkBud coin self.nextId) (spawned, []) =
      linked at hlinked
    -- The deltas are emitted before the links are registered, and do not mind.
    refine hlinked.of_linking ?_
    have hemit (self' : ClusterField F) (source : NodeId) :
        (self'.emit (.link source self.nextId)).linking = self'.linking := rfl
    have hregister (s s' : ClusterField F) (source : NodeId) (hsame : s.linking = s'.linking) :
        (s.registerLink source self.nextId).linking = (s'.registerLink source self.nextId).linking := by
      obtain ⟨hbooks, hnextId⟩ := Prod.mk.inj hsame
      refine Prod.ext ?_ hnextId
      show (s.registerLink source self.nextId).books = (s'.registerLink source self.nextId).books
      rw [books_registerLink, books_registerLink, hbooks]
    exact list_foldl_part_congr linking hregister linked.2 (list_foldl_keeps linking hemit _ _)

end ClusterField

end LiminalDB
