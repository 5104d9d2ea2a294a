import LiminalDB.Field.LinkDreams
import LiminalDB.Field.LinkTicks
import LiminalDB.Field.TokenIndex

/-! # Link tracking

What a field keeps about links and routes is about cells that live, and every link between two of them has
a score. A death breaks that later on: cells keep their links to a dead neighbour, and when the index is
rebuilt after another death, these links are entered again. In every run in which nothing enters a link
that leads nowhere, the tracking outlives no cell. -/

namespace LiminalDB

variable {F : Type}

namespace ClusterField

variable {platform : Platform F} {self : ClusterField F}

/-- A cell has a link to a cell that is gone. -/
def Dangling (field : ClusterField F) (source target : NodeId) : Prop :=
  field.linked source target = true ∧ target ∉ field.cells

/-- A cell is there for the books if it is a cell of the field. -/
theorem there_iff {id : NodeId} : self.books.There id ↔ id ∈ self.cells := by
  rw [there_books, Std.ExtTreeMap.mem_iff_isSome_getElem?, Option.isSome_iff_exists]

/-- A link dangles for the books if it leads from a cell of the field to a number that has none. -/
theorem dangling_iff {source target : NodeId} :
    self.books.Dangling source target ↔ Dangling self source target :=
  and_congr edge_books (not_congr there_iff)

/-! ## Deltas -/

/-- A cell that comes is alive, and its links lead to cells. If it was there before, it keeps its links
that did, and if it was not, no link has been waiting for it. -/
structure Joins (field : ClusterField F) (snapshot : CellSnapshot F) : Prop where
  alive : snapshot.state ≠ .dead
  counted : snapshot.id < snapshot.id + 1
  leads : ∀ target, snapshot.links.contains target = true → target ∈ field.cells ∨ target = snapshot.id
  kept : ∀ target, field.linked snapshot.id target = true → target ∈ field.cells →
    snapshot.links.contains target = true
  awaited : ∀ source, ¬ Dangling field source snapshot.id

/-- A delta that leaves the tracking in order. -/
def Fits (field : ClusterField F) : EventDelta F → Prop
  | .spawn snapshot => Joins field snapshot
  | .divide parent child =>
      Joins field child ∧ (parent = child.id → parent ∈ field.cells → child.links.contains parent = true)
  | .dead id => ∀ source target, Dangling field source target → source = id ∨ target = id
  | .energy id _ _ state _ => id ∈ field.cells → state ≠ .dead
  | .link source target | .dreamRewire source target =>
      source ∈ field.cells → field.linked source target = true ∨ target ∈ field.cells
  | .dreamStrengthen source target _ _ _ | .dreamWeaken source target _ _ _
  | .syncAlign source target _ => field.linked source target = true ∧ target ∈ field.cells
  | _ => True

variable [FloatLike F]

omit [FloatLike F] in
/-- A number below one of two bounds is below the larger of them. -/
theorem lt_max_left_or_right {n a b : UInt64} (h : n < a ∨ n < b) : n < max a b := by
  show n < if a ≤ b then b else a
  split
  · rename_i hle
    exact h.elim (fun hlt => UInt64.lt_of_lt_of_le hlt hle) id
  · rename_i hgt
    exact h.elim id fun hlt => UInt64.lt_trans hlt (UInt64.not_le.mp hgt)

/-- A snapshot of a cell is attached, and the counter passes its id. -/
theorem booked_attachJoined {snapshot : CellSnapshot F} (hjoins : Joins self snapshot) (h : Booked self) :
    Booked { self.attachCell platform snapshot.toNode with
      nextId := max (self.attachCell platform snapshot.toNode).nextId (snapshot.id + 1) } := by
  have hnextId : (self.attachCell platform snapshot.toNode).nextId = self.nextId :=
    congrArg Replica.nextId (replica_attachCell platform self snapshot.toNode)
  have hbooks : ({ self.attachCell platform snapshot.toNode with
      nextId := max (self.attachCell platform snapshot.toNode).nextId (snapshot.id + 1) } :
        ClusterField F).books = self.books.attach snapshot.id snapshot.toNode.targets :=
    books_attachCell platform snapshot.toNode
  have hleads (target : NodeId) (hmem : target ∈ snapshot.toNode.targets) :
      self.books.There target ∨ target = snapshot.id := (hjoins.leads target hmem).imp_left there_iff.mpr
  constructor
  · rw [hbooks]
    refine h.tidy.attach hleads (fun target hedge hthere => ?_) fun source hdangling => ?_
    · exact hjoins.kept target (edge_books.mp hedge) (there_iff.mp hthere)
    · exact hjoins.awaited source (dangling_iff.mp hdangling)
  · intro id hoccurs
    rw [hbooks] at hoccurs
    refine lt_max_left_or_right ?_
    rcases hoccurs.of_attach hleads with hold | rfl
    · exact Or.inl (hnextId ▸ h.below id hold)
    · exact Or.inr hjoins.counted

/-- A division read from the journal keeps the books in order, if the child joins the field the way a born
cell does. -/
theorem booked_divide {parent : NodeId} {child : CellSnapshot F} (hjoins : Joins self child)
    (hself : parent = child.id → parent ∈ self.cells → child.links.contains parent = true)
    (h : Booked self) : Booked (self.applyDelta platform (.divide parent child)) := by
  have hattached := @booked_attachJoined F platform self _ child hjoins h
  by_cases hparent : parent ∈ self.cells
  · by_cases heq : parent = child.id
    · -- The child takes the place of its parent, which has been linked to it.
      subst heq
      have hlinked : Booked (self.addLink child.id child.id) :=
        booked_addLink (fun hthere => Or.inr hthere) h
      have hbooks := @books_addLink F self _ child.id child.id
      have hcells (id : NodeId) : id ∈ (self.addLink child.id child.id).cells ↔ id ∈ self.cells := by
        rw [← there_iff, ← there_iff, hbooks, EdgeBooks.there_link]
      refine booked_attachJoined ⟨hjoins.alive, hjoins.counted, ?_, ?_, ?_⟩ hlinked
      · exact fun target hmem => (hjoins.leads target hmem).imp_left (hcells target).mpr
      · intro target hedge hthere
        rw [← edge_books, hbooks, EdgeBooks.edge_link] at hedge
        rcases hedge with hold | ⟨-, rfl, -⟩
        · exact hjoins.kept target (edge_books.mp hold) ((hcells target).mp hthere)
        · exact hself rfl hparent
      · exact fun source hdangling => hdangling.2 ((hcells child.id).mpr hparent)
    · -- The parent is another cell: it could as well be linked after the child has joined.
      have hnextId : (self.addLink parent child.id).nextId = self.nextId :=
        congrArg Replica.nextId (replica_addLink self parent child.id)
      have hid (s : ClusterField F) : (s.attachCell platform child.toNode).nextId = s.nextId :=
        congrArg Replica.nextId (replica_attachCell platform s child.toNode)
      refine @Booked.link F _ _ hattached parent child.id ?_ ?_ fun _ => Or.inr ?_
      · show ((self.addLink parent child.id).attachCell platform child.toNode).books =
          (self.attachCell platform child.toNode).books.link parent child.id
        rw [books_attachCell, books_attachCell, books_addLink]
        exact EdgeBooks.attach_link_comm heq
      · show max (attachCell platform _ child.toNode).nextId _ =
          max (attachCell platform self child.toNode).nextId _
        rw [hid, hid, hnextId]
      · show (self.attachCell platform child.toNode).books.There child.id
        rw [books_attachCell, EdgeBooks.there_attach]
        exact Or.inr rfl
  · -- There is no parent, so that nothing is linked.
    have hsame : self.addLink parent child.id = self := by
      unfold addLink
      rw [Std.ExtTreeMap.getElem?_eq_none hparent]
    have happly : self.applyDelta platform (.divide parent child) =
        { (self.addLink parent child.id).attachCell platform child.toNode with
          nextId := max ((self.addLink parent child.id).attachCell platform child.toNode).nextId
            (child.id + 1) } := rfl
    rw [happly, hsame]
    exact hattached

/-- So does a death, if every link that dangles has to do with the dead cell, for what is tracked of that one
is purged. -/
theorem booked_dead {id : NodeId}
    (hsafe : ∀ source target, Dangling self source target → source = id ∨ target = id) (h : Booked self) :
    Booked (self.applyDelta platform (.dead id)) := by
  have hremoved : ({ self with cells := self.cells.erase id } : ClusterField F).books =
      self.books.remove {id} := by
    refine books_remove (fun other hgone => ?_) (fun other hstays => ?_) rfl rfl rfl
    · obtain rfl : other = id := hgone
      exact Std.ExtTreeMap.getElem?_erase_self
    · have hother := congrFun (getElem?_erase_eq self.cells id) other
      exact congrArg (Option.map NodeCell.targets) (hother.trans (Function.update_of_ne hstays ..))
  refine @Booked.bury F self _ h {id} ?_ ?_ fun source target hdangling =>
    hsafe source target (dangling_iff.mp hdangling)
  · show (purgeTrackingFor (rebuildIndex platform _) id).books = _
    rw [books_purgeTrackingFor, books_rebuildIndex, hremoved]
    rfl
  · exact congrArg Replica.nextId (replica_rebuildIndex platform _)

/-- Each delta that fits the field keeps the books in order, by the kinds of deltas. -/
theorem booked_applyDelta {delta : EventDelta F} (hfits : Fits self delta) (h : Booked self) :
    Booked (self.applyDelta platform delta) := by
  have hlink {source target : NodeId} (hfits : source ∈ self.cells →
      self.linked source target = true ∨ target ∈ self.cells) : Booked (self.addLink source target) :=
    booked_addLink (fun hsource => (hfits (there_iff.mp hsource)).imp edge_books.mpr there_iff.mpr) h
  have hcount (source target : NodeId) : (self.alterCell source (·.unlink target)).nextId = self.nextId :=
    congrArg Replica.nextId (replica_alterCell self source _)
  have hscore {source target : NodeId} (hfits : self.linked source target = true ∧ target ∈ self.cells)
      (score : F) := h.of_linking (linking_setScore h (edge_books.mpr hfits.1) (there_iff.mpr hfits.2) score)
  cases delta with
  | spawn snapshot => exact @booked_attachJoined F platform self _ snapshot hfits h
  | divide parent child => exact booked_divide hfits.1 hfits.2 h
  | sleep id => exact h.of_linking (linking_alterCell id fun _ => rfl)
  | dead id => exact booked_dead hfits h
  | link source target => exact hlink hfits
  | dreamRewire source target => exact hlink hfits
  | unlink source target =>
      unfold applyDelta
      dsimp only
      split
      · exact h.unlink (books_unlink source target) (hcount source target)
      · exact h
  | dreamPrune source target => exact h.unlink (books_unlink source target) (hcount source target)
  | affinity id affinity => exact h.of_linking (linking_alterCell id fun _ => rfl)
  | energy id energy metabolism state lastResponseMs =>
      exact h.of_linking (linking_alterCell id fun _ => rfl)
  | dreamStrengthen source target score _ _ => exact hscore hfits score
  | dreamWeaken source target score _ _ => exact hscore hfits score
  | syncAlign source target score => exact hscore hfits score
  | _ => exact h.of_linking rfl

/-- A delta that fits brings no dead cell. The vitals of a cell that is gone change nothing. -/
theorem sound_applyDelta {delta : EventDelta F} (hfits : Fits self delta) (h : Sound self.replica.cells) :
    Sound (self.applyDelta platform delta).replica.cells := by
  rw [replica_applyDelta]
  have hstately {d : EventDelta F} (hstates : ∀ state ∈ d.states, state ≠ .dead) :
      Sound (self.replica.apply platform d).cells :=
    @stately_apply F platform (· ≠ .dead) self.replica h d hstates
  cases delta with
  | spawn snapshot => exact hstately fun state hstate => List.mem_singleton.mp hstate ▸ hfits.alive
  | divide parent child => exact hstately fun state hstate => List.mem_singleton.mp hstate ▸ hfits.1.alive
  | energy id energy metabolism state lastResponseMs =>
      by_cases hthere : id ∈ self.cells
      · exact hstately fun state' hstate => List.mem_singleton.mp hstate ▸ hfits hthere
      · have hsame : self.replica.apply platform (.energy id energy metabolism state lastResponseMs) =
            self.replica := Replica.alter_of_none (Std.ExtTreeMap.getElem?_eq_none hthere) _
        rw [hsame]
        exact h
  | _ => exact hstately (by simp [EventDelta.states])

/-! ## Snapshots -/

/-- The cells of a snapshot are alive, the counter is past their ids, and their links lead to each
other. -/
structure Closed (seed : ClusterFieldSeed F) : Prop where
  alive : ∀ snapshot ∈ seed.cells, snapshot.state ≠ .dead
  below : ∀ snapshot ∈ seed.cells, snapshot.id < seed.nextId
  leads : ∀ snapshot ∈ seed.cells, ∀ target, snapshot.links.contains target = true →
    ∃ other ∈ seed.cells, other.id = target

omit [FloatLike F] in
/-- The cells of a snapshot are those that were there and those that are listed. -/
theorem mem_insertAll (snapshots : List (CellSnapshot F)) (cells : Std.ExtTreeMap NodeId (NodeCell F) compare)
    (id : NodeId) :
    id ∈ snapshots.foldl (fun cells snapshot => cells.insert snapshot.id snapshot.toNode) cells ↔
      id ∈ cells ∨ ∃ snapshot ∈ snapshots, snapshot.id = id := by
  induction snapshots generalizing cells with
  | nil => simp
  | cons snapshot snapshots ih =>
      rw [List.foldl_cons, ih, Std.ExtTreeMap.mem_insert, Std.LawfulEqOrd.compare_eq_iff_eq,
        List.exists_mem_cons_iff]
      tauto

omit [FloatLike F] in
/-- What holds of the cells that were there and of each that is listed holds of all cells afterwards. -/
theorem each_insertAll {P : NodeId → NodeCell F → Prop} (snapshots : List (CellSnapshot F))
    (hnew : ∀ snapshot ∈ snapshots, P snapshot.id snapshot.toNode)
    {cells : Std.ExtTreeMap NodeId (NodeCell F) compare} (h : Each P fun id => cells[id]?) :
    Each P fun id => (snapshots.foldl (fun cells snapshot => cells.insert snapshot.id snapshot.toNode)
      cells)[id]? := by
  induction snapshots generalizing cells with
  | nil => exact h
  | cons snapshot snapshots ih =>
      obtain ⟨hfirst, hrest⟩ := List.forall_mem_cons.mp hnew
      refine ih hrest ?_
      rw [getElem?_insert_eq]
      exact h.update fun cell hcell => by cases hcell; exact hfirst

/-- A field that is built from a snapshot has the cells of the snapshot and nothing tracked, up to the index
that is made for it. -/
theorem linking_intoField (platform : Platform F) (seed : ClusterFieldSeed F) :
    ∃ field : ClusterField F,
      (seed.intoField platform).linking = (field.rebuildIndex platform).linking ∧
      field.cells = seed.cells.foldl (fun cells snapshot => cells.insert snapshot.id snapshot.toNode) ∅ ∧
      field.nextId = seed.nextId ∧
      field.books.usage = ∅ ∧ field.books.scores = ∅ ∧ field.books.routes = ∅ := by
  have hpush (field : ClusterField F) (epoch : Epoch F) :
      (field.pushMirrorEpoch epoch).linking = field.linking := rfl
  have hkeeps (field : ClusterField F) (epochs : List (Epoch F)) :
      ({ epochs.foldl pushMirrorEpoch field with journal := [] } : ClusterField F).linking =
        field.linking := list_foldl_keeps linking hpush epochs field
  unfold ClusterFieldSeed.intoField
  refine ⟨_, hkeeps _ _, rfl, rfl, ?_, ?_, ?_⟩
  · simp [books, setSyncConfig, setDreamConfig, restoreAwakeningState, emit, new]
  · simp [books, setSyncConfig, setDreamConfig, restoreAwakeningState, emit, new]
  · simp [books, setSyncConfig, setDreamConfig, restoreAwakeningState, emit, new]

/-- Its books are in order if the links of the snapshot lead to cells of the snapshot. -/
theorem booked_intoField {seed : ClusterFieldSeed F} (hclosed : Closed seed) :
    Booked (seed.intoField platform) := by
  obtain ⟨field, hlinking, hcells, hnextId, husage, hscores, hroutes⟩ := linking_intoField platform seed
  have hthere (id : NodeId) : field.books.There id ↔ ∃ snapshot ∈ seed.cells, snapshot.id = id := by
    rw [there_iff, hcells, mem_insertAll]
    exact or_iff_right (by simp)
  have hedge (source target : NodeId) (h : field.books.Edge source target) : field.books.There target := by
    have heach := @each_insertAll F (fun _ cell => ∃ snapshot ∈ seed.cells, cell = snapshot.toNode) seed.cells
      (fun snapshot hmem => ⟨snapshot, hmem, rfl⟩) ∅ (fun id cell hcell => by simp at hcell)
    obtain ⟨cell, hcell⟩ := there_books.mp h.there
    rw [← hcells] at heach
    obtain ⟨snapshot, hmem, rfl⟩ := heach source cell hcell
    have hlinked := edge_books.mp h
    unfold linked at hlinked
    rw [hcell] at hlinked
    exact (hthere target).mpr (hclosed.leads snapshot hmem target hlinked)
  have hrebuilt : Booked (field.rebuildIndex platform) := by
    refine ⟨?_, fun id hoccurs => ?_⟩
    · rw [books_rebuildIndex]
      refine EdgeBooks.tidy_rebuild ?_ ?_ ?_ fun x y hdangling => hdangling.2 (hedge x y hdangling.1)
      · simp [husage]
      · simp [hscores]
      · simp [hroutes]
    · have hid : (field.rebuildIndex platform).nextId = seed.nextId :=
        (congrArg Replica.nextId (replica_rebuildIndex platform field)).trans hnextId
      rw [books_rebuildIndex] at hoccurs
      have hold : field.books.There id :=
        hoccurs.elim (fun hthere => hthere) fun ⟨source, hsource⟩ => hedge source id hsource
      obtain ⟨snapshot, hmem, rfl⟩ := (hthere id).mp hold
      exact hid ▸ hclosed.below snapshot hmem
  exact hrebuilt.of_linking hlinking

/-! ## Runs -/

/-- Neither of two cells has a link to the other that leads nowhere. -/
def Firm (field : ClusterField F) (u v : NodeId) : Prop := ¬ Dangling field u v ∧ ¬ Dangling field v u

/-- What a step enters into the tracking leads somewhere, and no counter of ids runs over. -/
def Careful (platform : Platform F) (field : ClusterField F) : FieldStep F → Prop
  | .call (.addRoot _) => field.HasRoom 1
  | .call (.routeImpulse visits imp) =>
      field.HasRoom (spawnsBy platform visits imp field (tokenize platform imp.pattern).eraseDups [])
  | .call (.injectSeedVariation ..) => ¬ 64 < field.cells.size → field.HasRoom 1
  | .call (.tickAll _ variation dtMs) =>
      field.HasRoom (field.dividing dtMs) ∧
        ∀ id, field.falls variation dtMs id = true → ∀ source target, Dangling field source target →
          field.falls variation dtMs source = true
  | .call (.trimLowEnergy _ dozes dies) =>
      (∀ (id : NodeId) (cell : NodeCell F), field.cells[id]? = some cell → Decided cell) ∧
        ∀ id, field.dropped dozes dies id = true → ∀ source target, Dangling field source target →
          field.dropped dozes dies source = true
  | .call (.runDreamCycle visits _) => ∀ pair ∈ field.dreamed visits, Firm field pair.u pair.v
  | .call (.runCollectiveDream groups _ _ _) =>
      ∀ group ∈ groups, group.tokens ≠ [] → ∀ pair ∈ eachPair group.nodes, Firm field pair.1 pair.2
  | .rebuildCaches => ∀ source target, ¬ Dangling field source target
  | .applyDelta delta => Fits field delta
  | .intoField seed => Closed seed
  | _ => True

/-- A cell that is there and alive. -/
def Lives (field : ClusterField F) (id : NodeId) : Prop :=
  ∃ cell, field.cells[id]? = some cell ∧ cell.state ≠ .dead

/-- What is kept about links and routes is about live cells. -/
structure NamesLive (field : ClusterField F) : Prop where
  usage : ∀ source target, (field.linkUsage (source, target)).isSome = true →
    Lives field source ∧ Lives field target
  scores : ∀ source target, (field.linkScores (source, target)).isSome = true →
    Lives field source ∧ Lives field target
  routes : ∀ source target, (source, target) ∈ field.routeUsage.map Prod.fst →
    Lives field source ∧ Lives field target

/-- The scores are those of the links between live cells. -/
def ScoresLinks (field : ClusterField F) : Prop :=
  ∀ source target, (field.linkScores (source, target)).isSome = true ↔
    Lives field source ∧ Lives field target ∧ field.linked source target = true

/-- A careful call keeps the books in order, by the kinds of calls. -/
theorem booked_call {c : FieldCall F} (hc : Careful platform self (.call c))
    (hsound : Sound self.replica.cells) (h : Booked self) : Booked (self.call platform c) := by
  have hsafe {lost : NodeId → Bool} (hlost : ∀ id, lost id = true → ∀ source target,
      Dangling self source target → lost source = true) (id : NodeId) (hid : lost id = true)
      (source target : NodeId) (hdangling : self.books.Dangling source target) : lost source = true :=
    hlost id hid source target (dangling_iff.mp hdangling)
  have hsure {u v : NodeId} (hpair : Firm self u v) :
      ¬ self.books.Dangling u v ∧ ¬ self.books.Dangling v u :=
    hpair.imp (fun h' hd => h' (dangling_iff.mp hd)) fun h' hd => h' (dangling_iff.mp hd)
  cases c with
  | addRoot seed => exact booked_addRoot seed (room_of_hasRoom hc).head h
  | routeImpulse visits imp => exact booked_routeImpulse visits imp hc h
  | tickAll visits variation dtMs => exact booked_tickAll visits variation dtMs hsound hc.1 (hsafe hc.2) h
  | trimLowEnergy visits dozes dies =>
      exact booked_trimLowEnergy visits dozes dies hsound hc.1 (hsafe hc.2) h
  | injectSeedVariation visits shift energy coin baseSeed =>
      exact booked_injectSeedVariation visits shift energy coin baseSeed hsound.inPlace hc h
  | runDreamCycle visits tookMs =>
      exact booked_runDreamCycle visits tookMs (fun pair hpair => hsure (hc pair hpair)) h
  | runCollectiveDream groups cfg nowMs tookMs =>
      exact booked_runCollectiveDream platform tookMs groups cfg nowMs
        (fun group hgroup htokens pair hpair => hsure (hc group hgroup htokens pair hpair)) h
  | removeReflex id =>
      refine h.of_linking ?_
      show (self.removeReflex id).linking = self.linking
      unfold removeReflex
      split <;> rfl
  | awakenNow visits => exact h.of_linking (linking_awakenNow visits self)
  | applyMirrorEpoch visits epoch scale maxOps protectSalience =>
      exact h.of_linking (linking_applyMirrorEpoch visits epoch scale maxOps protectSalience self)
  | _ => exact h.of_linking rfl

/-- So does a careful step, which is a call, a delta that fits or a restart from a closed snapshot. -/
theorem booked_step {s : FieldStep F} (hs : Careful platform self s) (hsound : Sound self.replica.cells)
    (h : Booked self) : Booked (self.step platform s) := by
  cases s with
  | call c => exact booked_call hs hsound h
  | rebuildCaches =>
      have hnextId : (self.rebuildIndex platform).nextId = self.nextId :=
        congrArg Replica.nextId (replica_rebuildIndex platform self)
      have hbooks : (self.rebuildIndex platform).books = self.books.rebuild := books_rebuildIndex platform self
      refine ⟨?_, fun id hoccurs => ?_⟩
      · show (self.rebuildIndex platform).books.Tidy
        rw [hbooks]
        exact EdgeBooks.tidy_rebuild h.tidy.usage (fun x y hmem => ((h.tidy.scores x y).mp hmem).1)
          h.tidy.routes fun x y hdangling => hs x y (dangling_iff.mp hdangling)
      · have hoccurs : (self.rebuildIndex platform).books.Occurs id := hoccurs
        rw [hbooks] at hoccurs
        exact hnextId ▸ h.below id hoccurs
  | restoreAwakeningState cfg model syncLog lastTick => exact h.of_linking rfl
  | setTarget target => exact h.of_linking rfl
  | applyDelta delta => exact booked_applyDelta hs h
  | intoField seed => exact booked_intoField hs

/-- A careful step keeps every cell under its own number. -/
theorem sound_carefulStep {s : FieldStep F} (hs : Careful platform self s) (h : Sound self.replica.cells) :
    Sound (self.step platform s).replica.cells := by
  cases s with
  | applyDelta delta => exact sound_applyDelta hs h
  | intoField seed =>
      refine sound_step h fun hdead => ?_
      obtain ⟨snapshot, hmem, hstate⟩ := List.mem_map.mp hdead
      exact hs.alive snapshot hmem hstate
  | _ => exact sound_step h List.not_mem_nil

omit [FloatLike F] in
/-- A field whose links all lead to cells of its own has no dangling link; this can be evaluated. -/
theorem not_dangling_of_all (h : self.cells.toList.all fun e =>
    e.2.links.toList.all fun target => self.cells.contains target) (source target : NodeId) :
    ¬ Dangling self source target := by
  rintro ⟨hlinked, hgone⟩
  unfold linked at hlinked
  cases hcell : self.cells[source]? with
  | none => simp [hcell] at hlinked
  | some cell =>
      rw [hcell] at hlinked
      have hmem : (source, cell) ∈ self.cells.toList :=
        Std.ExtTreeMap.mem_toList_iff_getElem?_eq_some.mpr hcell
      have htargets := List.all_eq_true.mp h _ hmem
      have htarget := List.all_eq_true.mp htargets target
        (Std.ExtTreeSet.mem_toList.mpr (Std.ExtTreeSet.mem_iff_contains.mpr hlinked))
      exact hgone (Std.ExtTreeMap.mem_iff_contains.mpr htarget)

/-- A new field has no cells, no links and nothing to keep books about. -/
theorem booked_new : Booked (new : ClusterField F) := by
  have hno (id : NodeId) : ¬ (new : ClusterField F).books.There id := fun hthere => by
    rw [there_iff] at hthere
    simp [new] at hthere
  have hunlinked (source target : NodeId) : ¬ (new : ClusterField F).books.Edge source target :=
    fun hedge => hno source hedge.there
  refine ⟨⟨fun x y hmem => ?_, fun x y => iff_of_false ?_ fun h => hno y h.2, fun x y hmem => ?_⟩, ?_⟩
  · simp [books, new] at hmem
  · simp [books, new]
  · simp [books, new] at hmem
  · intro id hoccurs
    rcases hoccurs with hthere | ⟨source, hedge⟩
    · exact absurd hthere (hno id)
    · exact absurd hedge (hunlinked source id)

/-- A careful run keeps the books. -/
theorem booked_reach (platform : Platform F) (steps : List (FieldStep F))
    (h : ∀ before s after, steps = before ++ s :: after → Careful platform (reach platform before) s) :
    Sound (reach platform steps).replica.cells ∧ Booked (reach platform steps) := by
  induction steps using List.reverseRecOn with
  | nil => exact ⟨fun id cell hcell => by simp [reach, new, replica] at hcell, booked_new⟩
  | append_singleton steps s ih =>
      obtain ⟨hsteps, hs⟩ := forall_split_append_singleton.mp h
      obtain ⟨hsound, hbooked⟩ := ih hsteps
      rw [reach_append_singleton]
      exact ⟨sound_carefulStep hs hsound, booked_step hs hsound hbooked⟩

/-- **Link tracking.** In a run that enters no link that leads nowhere, what is kept about links and routes
is about live cells in every state, and the scores are those of the links between them. -/
theorem tracking_reach (platform : Platform F) (steps : List (FieldStep F))
    (h : ∀ before s after, steps = before ++ s :: after → Careful platform (reach platform before) s) :
    NamesLive (reach platform steps) ∧ ScoresLinks (reach platform steps) := by
  obtain ⟨hsound, hbooked⟩ := booked_reach platform steps h
  generalize reach platform steps = field at hsound hbooked
  have hlives (id : NodeId) : field.books.There id ↔ Lives field id := by
    rw [there_books]
    exact exists_congr fun cell => (and_iff_left_of_imp fun hcell => (hsound id cell hcell).2).symm
  have hboth {source target : NodeId} (hends : field.books.There source ∧ field.books.There target) :
      Lives field source ∧ Lives field target := hends.imp (hlives source).mp (hlives target).mp
  refine ⟨⟨fun x y hmem => hboth (hbooked.tidy.usage x y hmem), fun x y hmem => ?_,
    fun x y hmem => hboth (hbooked.tidy.routes x y hmem)⟩, fun x y => ?_⟩
  · obtain ⟨hedge, hthere⟩ := (hbooked.tidy.scores x y).mp hmem
    exact hboth ⟨hedge.there, hthere⟩
  · refine (hbooked.tidy.scores x y).trans ?_
    rw [← hlives, ← hlives, ← edge_books]
    exact ⟨fun ⟨hedge, hthere⟩ => ⟨hedge.there, hthere, hedge⟩, fun ⟨_, hthere, hedge⟩ => ⟨hedge, hthere⟩⟩

/-- Two roots are linked, time passes, and the root with the link dies. -/
theorem tracking_reach_of_roots :
    let steps : List (FieldStep ℚ) :=
      [.call (.addRoot "a"), .call (.addRoot "b"), .applyDelta (.link 1 2),
        .call (.tickAll .listed (fun _ => 0) 1000), .applyDelta (.dead 1)]
    NamesLive (reach (constantPlatform ℚ 0.5) steps) ∧
      ScoresLinks (reach (constantPlatform ℚ 0.5) steps) := by
  refine tracking_reach (constantPlatform ℚ 0.5) ([] ++ [_] ++ [_] ++ [_] ++ [_] ++ [_]) ?_
  iterate 5 rw [forall_split_append_singleton]
  refine ⟨⟨⟨⟨⟨?_, ?_⟩, ?_⟩, ?_⟩, ?_⟩, ?_⟩
  · simp
  · show HasRoom (reach _ []) 1
    decide +kernel
  · show HasRoom (reach _ [_]) 1
    decide +kernel
  · refine fun _ => Or.inr ?_
    show (2 : NodeId) ∈ (reach (constantPlatform ℚ 0.5) [_, _]).cells
    rw [Std.ExtTreeMap.mem_iff_contains]
    decide +kernel
  · refine ⟨?_, fun id _ source target hdangling => absurd hdangling (not_dangling_of_all ?_ source target)⟩
    · show HasRoom (reach (constantPlatform ℚ 0.5) [_, _, _]) (dividing _ 1000)
      decide +kernel
    · decide +kernel
  · intro source target hdangling
    exact absurd hdangling (not_dangling_of_all (by decide +kernel) source target)

/-- A cell with the token `a` and without links. -/
def lonelySnapshot (id : NodeId) : CellSnapshot ℚ :=
  ⟨id, 0.5, 0.5, "a", .active, ∅, 0.5, 0.5, 0, 0.5, 0.5, false, 0⟩

/-- After the second death the score of the link to the first one is back. -/
theorem not_tracking_of_second_death :
    ¬ ∀ steps : List (FieldStep ℚ), NamesLive (reach (constantPlatform ℚ 0.5) steps) := by
  intro h
  have hscore : ((reach (constantPlatform ℚ 0.5)
      [.applyDelta (.spawn (lonelySnapshot 1)), .applyDelta (.spawn (lonelySnapshot 2)),
        .applyDelta (.spawn (lonelySnapshot 3)), .applyDelta (.link 1 2), .applyDelta (.dead 2),
        .applyDelta (.dead 3)]).linkScores (1, 2)).isSome = true := by decide +kernel
  obtain ⟨-, cell, hcell, -⟩ := (h _).scores 1 2 hscore
  have hgone : ((reach (constantPlatform ℚ 0.5)
      [.applyDelta (.spawn (lonelySnapshot 1)), .applyDelta (.spawn (lonelySnapshot 2)),
        .applyDelta (.spawn (lonelySnapshot 3)), .applyDelta (.link 1 2), .applyDelta (.dead 2),
        .applyDelta (.dead 3)]).cells[(2 : NodeId)]?).isSome = false := by decide +kernel
  rw [hcell] at hgone
  cases hgone

end ClusterField

end LiminalDB
