import LiminalDB.Field.Startup

/-! # The population over restarts

What a restart finds is what the deltas make of the latest snapshot, and that is the field that stopped, up
to the root of the last start: it was added before the journal was attached (`Behind`). So a restart
preserves the population exactly when a snapshot has the root, or the root is the whole population still
(`RootKept`), and then no id is handed out again. -/

namespace LiminalDB

variable {F Bytes : Type}

open ClusterField (counted Sturdy)

/-! ## Steps away from the journal -/

section Steps

variable {platform : Platform F} {permit : Permit F} {base : Replica F} {t t' : Trace F}

/-- A replay of what a step emits keeps the cells under their ids and alive. -/
theorem sound_replayedOn_micro (hmicro : Micro platform permit t t') (hsound : Sound t.replica.cells)
    (hpresent : Matches (presence permit).of t.replica.cells (t.replayedOn platform base).cells)
    (h : Sound (t.replayedOn platform base).cells) : Sound (t'.replayedOn platform base).cells := by
  -- A link is added or taken away within one cell, which keeps its id and its energy.
  have hlink (source target : NodeId) := h.map source (·.link target) fun _ hcell => hcell
  cases hmicro with
  | tweak hcell htweaks hpermit => exact h
  | forget hstale => exact h
  | @energy id cell hcell =>
      rw [Trace.replayedOn_append rfl]
      exact h.map id _ fun _ hthere => ⟨hthere.1, (hsound id cell hcell).2⟩
  -- The vitals of a cell that is gone change nothing where it is gone too.
  | @gone id hgone cell =>
      rw [Trace.replayedOn_append rfl]
      show Sound ((t.replayedOn platform base).alter id _).cells
      rw [Replica.alter_of_none (hpresent.none_of_none hgone)]
      exact h
  | sleep hcell hstate =>
      rw [Trace.replayedOn_append rfl]
      exact h.map _ _ fun _ hthere => ⟨hthere.1, by simp⟩
  | affinity hcell hpermit =>
      rw [Trace.replayedOn_append rfl]
      exact h.map _ _ fun _ hthere => hthere
  | inert hinert =>
      rw [Trace.replayedOn_append rfl, Replica.apply_of_inert hinert]
      exact h
  | link source target hd =>
      rw [Trace.replayedOn_append rfl]
      rcases hd with rfl | rfl <;> exact hlink source target
  | unlink source target hd =>
      rw [Trace.replayedOn_append rfl]
      have hunlink := h.map source (·.unlink target) fun _ hcell => hcell
      rcases hd with rfl | rfl <;> exact hunlink
  -- A cell that is born is put under its own id, and lives.
  | spawn hid hnew hpermit =>
      rw [Trace.replayedOn_append rfl]
      refine h.update fun cell hcell => ?_
      cases hcell
      exact ⟨rfl, hnew.alive⟩
  | divide parent hid hnew hpermit =>
      rw [Trace.replayedOn_append rfl]
      refine (hlink parent _).update fun cell hcell => ?_
      cases hcell
      exact ⟨rfl, hnew.alive⟩
  | dead id hpermit =>
      rw [Trace.replayedOn_append rfl]
      exact h.update fun cell hcell => by cases hcell
  | _ =>
      rw [Trace.replayedOn_append rfl]
      exact h

/-- By induction over the steps: what a replay makes of a chain is sound, if it was before. -/
theorem sound_replayedOn_chain (hchain : MicroChain platform permit t t') (hsound : Sound t.replica.cells)
    (hpresent : Matches (presence permit).of t.replica.cells (t.replayedOn platform base).cells)
    (h : Sound (t.replayedOn platform base).cells) : Sound (t'.replayedOn platform base).cells := by
  induction hchain with
  | refl => exact h
  | tail hchain hmicro ih =>
      exact sound_replayedOn_micro hmicro (sound_chain hchain hsound)
        (matches_chain (presence permit) hchain hpresent) ih

/-- Ids are handed out in order: an id below the counter that no cell has gets no cell, and a cell keeps its
pattern. -/
structure Descends (r r' : Replica F) : Prop where
  nextId_le : r.nextId ≤ r'.nextId
  gone : ∀ id < r.nextId, r.cells id = none → r'.cells id = none
  pattern : ∀ id < r.nextId, ∀ cell cell', r.cells id = some cell → r'.cells id = some cell' →
    cell'.seed.corePattern = cell.seed.corePattern

/-- A replica descends from itself. -/
theorem Descends.refl (r : Replica F) : Descends r r :=
  ⟨UInt64.le_refl _, fun _ _ h => h, fun _ _ cell cell' h h' => by rw [Option.some.inj (h.symm.trans h')]⟩

/-- Descent goes on from one replica to the next: the counter only grows, and gone ids stay gone. -/
theorem Descends.trans {r r' r'' : Replica F} (h : Descends r r') (h' : Descends r' r'') :
    Descends r r'' := by
  refine ⟨UInt64.le_trans h.nextId_le h'.nextId_le, fun id hid hgone => ?_,
    fun id hid cell cell'' hcell hcell'' => ?_⟩
  · exact h'.gone id (UInt64.lt_of_lt_of_le hid h.nextId_le) (h.gone id hid hgone)
  · have hid' := UInt64.lt_of_lt_of_le hid h.nextId_le
    cases hcell' : r'.cells id with
    | none => rw [h'.gone id hid' hcell'] at hcell''; cases hcell''
    | some cell' =>
        exact (h'.pattern id hid' cell' cell'' hcell' hcell'').trans (h.pattern id hid cell cell' hcell hcell')

/-- A cell that is there is changed, or removed. -/
theorem descends_update {r : Replica F} {id : NodeId} {entry : Option (NodeCell F)}
    (hentry : ∀ after, entry = some after →
      ∃ cell, r.cells id = some cell ∧ after.seed.corePattern = cell.seed.corePattern) :
    Descends r { r with cells := Function.update r.cells id entry } := by
  refine ⟨UInt64.le_refl _, fun other _ hgone => ?_, fun other _ cell cell' hcell hcell' => ?_⟩
  · show Function.update r.cells id entry other = none
    by_cases heq : other = id
    · subst heq
      rw [Function.update_self]
      refine Option.eq_none_iff_forall_not_mem.mpr fun after hafter => ?_
      obtain ⟨cell, hcell, -⟩ := hentry after hafter
      rw [hgone] at hcell
      cases hcell
    · rw [Function.update_of_ne heq, hgone]
  · have hcell' : Function.update r.cells id entry other = some cell' := hcell'
    by_cases heq : other = id
    · subst heq
      rw [Function.update_self] at hcell'
      obtain ⟨there, hthere, hpattern⟩ := hentry cell' hcell'
      rw [Option.some.inj (hcell.symm.trans hthere), hpattern]
    · rw [Function.update_of_ne heq, hcell] at hcell'
      rw [Option.some.inj hcell']

/-- A change in place that keeps the pattern hands out no id. -/
theorem descends_alter (r : Replica F) (id : NodeId) {change : NodeCell F → NodeCell F}
    (hchange : ∀ cell, (change cell).seed.corePattern = cell.seed.corePattern) :
    Descends r (r.alter id change) := by
  refine descends_update fun after hafter => ?_
  obtain ⟨cell, hcell, rfl⟩ := Option.map_eq_some_iff.mp hafter
  exact ⟨cell, hcell, hchange cell⟩

/-- A cell is born under the next id. -/
theorem descends_birth (r : Replica F) {cell : NodeCell F} (hid : cell.id = r.nextId)
    (hroom : r.nextId < r.nextId + 1) :
    Descends r { r.set cell.id cell with nextId := r.nextId + 1 } := by
  have hother {id : NodeId} (hlt : id < r.nextId) :
      Function.update r.cells cell.id (some cell) id = r.cells id :=
    Function.update_of_ne (by rw [hid]; rintro rfl; exact UInt64.lt_irrefl _ hlt) _ _
  refine ⟨UInt64.le_of_lt hroom, fun id hlt hgone => (hother hlt).trans hgone,
    fun id hlt there after hthere hafter => ?_⟩
  have hafter : Function.update r.cells cell.id (some cell) id = some after := hafter
  rw [hother hlt, hthere] at hafter
  rw [Option.some.inj hafter]

/-- Every step of a field descends: a birth takes the next id, and no other step brings a cell. -/
theorem descends_micro (hcounts : permit.Counts) (hmicro : Micro platform permit t t') :
    Descends t.replica t'.replica := by
  have hstay := Descends.refl t.replica
  cases hmicro with
  | tweak hcell htweaks hpermit =>
      refine descends_update fun after hafter => ?_
      cases hafter
      exact ⟨_, hcell, htweaks.pattern⟩
  | link source target hd => exact descends_alter _ source fun _ => rfl
  | unlink source target hd => exact descends_alter _ source fun _ => rfl
  | spawn hid hnew hpermit => exact descends_birth _ hid (hcounts.spawn _ hpermit)
  | @divide parent cell hid hnew hpermit =>
      have hlinked : Descends t.replica (t.replica.alter parent (·.link cell.id)) :=
        descends_alter _ parent fun _ => rfl
      exact hlinked.trans (descends_birth (t.replica.alter parent (·.link cell.id)) hid
        (hcounts.spawn _ hpermit))
  | dead id hpermit => exact descends_update fun _ hafter => by cases hafter
  | _ => exact ⟨hstay.nextId_le, hstay.gone, hstay.pattern⟩

/-- By induction over the steps, so does a whole chain. -/
theorem descends_chain (hcounts : permit.Counts) (hchain : MicroChain platform permit t t') :
    Descends t.replica t'.replica := by
  induction hchain with
  | refl => exact .refl _
  | tail _ hmicro ih => exact ih.trans (descends_micro hcounts hmicro)

/-- Every cell has an id below the counter. -/
def Below (r : Replica F) : Prop := Each (fun id _ => id < r.nextId) r.cells

/-- A step keeps the ids of all cells below the counter, as long as this does not wrap. -/
theorem below_micro (hcounts : permit.Counts) (hmicro : Micro platform permit t t')
    (h : Below t.replica) : Below t'.replica := by
  have hbirth {cells : NodeId → Option (NodeCell F)} (hcells : Each (fun id _ => id < t.replica.nextId) cells)
      {cell : NodeCell F} (hid : cell.id = t.replica.nextId) (hpermit : permit.spawn t.replica.nextId) :
      Each (fun id _ => id < t.replica.nextId + 1) (Function.update cells cell.id (some cell)) := by
    have hroom := hcounts.spawn _ hpermit
    have hlater : Each (fun id _ => id < t.replica.nextId + 1) cells :=
      fun id there hthere => UInt64.lt_trans (hcells id there hthere) hroom
    exact hlater.update fun _ _ => hid ▸ hroom
  cases hmicro with
  | tweak hcell htweaks hpermit => exact h.update fun _ _ => h _ _ hcell
  | link source target hd => exact h.map source _ fun _ hlt => hlt
  | unlink source target hd => exact h.map source _ fun _ hlt => hlt
  | spawn hid hnew hpermit => exact hbirth h hid hpermit
  | divide parent hid hnew hpermit => exact hbirth (h.map parent _ fun _ hlt => hlt) hid hpermit
  | dead id hpermit => exact h.update fun _ hnone => by cases hnone
  | _ => exact h

/-! ## A replica without the root -/

/-- One set of cells lacks the root of the other, and nothing else. -/
structure LostCells (pattern : String) (root : NodeId) (cells lacking : NodeId → Option (NodeCell F)) :
    Prop where
  same : ∀ id ≠ root, lacking id = cells id
  lost : lacking root = none
  pattern : ∀ cell, cells root = some cell → cell.seed.corePattern = pattern

/-- Two sets of cells that differ by the root do so when one entry of both is changed alike, the root staying
lost. -/
theorem LostCells.update {pattern : String} {root : NodeId} {cells lacking : NodeId → Option (NodeCell F)}
    (h : LostCells pattern root cells lacking) {id : NodeId} {entry entry' : Option (NodeCell F)}
    (hsame : id ≠ root → entry' = entry) (hlost : id = root → entry' = none)
    (hpattern : id = root → ∀ cell, entry = some cell → cell.seed.corePattern = pattern) :
    LostCells pattern root (Function.update cells id entry) (Function.update lacking id entry') := by
  by_cases heq : id = root
  · subst heq
    refine ⟨fun other hne => ?_, by rw [Function.update_self, hlost rfl], fun cell hcell => ?_⟩
    · rw [Function.update_of_ne hne, Function.update_of_ne hne, h.same other hne]
    · rw [Function.update_self] at hcell
      exact hpattern rfl cell hcell
  · refine ⟨fun other hne => ?_, by rw [Function.update_of_ne (Ne.symm heq), h.lost], fun cell hcell => ?_⟩
    · rw [hsame heq]
      by_cases hother : other = id
      · rw [hother, Function.update_self, Function.update_self]
      · rw [Function.update_of_ne hother, Function.update_of_ne hother, h.same other hne]
    · rw [Function.update_of_ne (Ne.symm heq)] at hcell
      exact h.pattern cell hcell

/-- What a replay lacks of a field whose root is not on disk: the root, and until another cell is born the
number of its id. -/
structure Lost (pattern : String) (root : NodeId) (r lacking : Replica F) : Prop where
  cells : LostCells pattern root r.cells lacking.cells
  nextId : root + 1 < r.nextId ∧ lacking.nextId = r.nextId ∨
    r.nextId = root + 1 ∧ lacking.nextId = root ∧ ∀ id, lacking.cells id = none
  below : root < r.nextId

section Lost

variable {pattern : String} {root : NodeId} {r lacking : Replica F}

/-- The same of a change in place, which finds nothing where the root is lost. -/
theorem LostCells.alter (h : LostCells pattern root r.cells lacking.cells) (id : NodeId)
    {change : NodeCell F → NodeCell F}
    (hchange : ∀ cell, (change cell).seed.corePattern = cell.seed.corePattern) :
    LostCells pattern root (r.alter id change).cells (lacking.alter id change).cells := by
  refine h.update (fun hne => by rw [h.same id hne]) (fun heq => ?_) fun heq cell hcell => ?_
  · rw [heq, h.lost, Option.map_none]
  · obtain ⟨there, hthere, rfl⟩ := Option.map_eq_some_iff.mp hcell
    rw [hchange, h.pattern there (heq ▸ hthere)]

/-- A change in place of both replicas leaves what is lost, and the two counters, as they are. -/
theorem Lost.alter (h : Lost pattern root r lacking) (id : NodeId) {change : NodeCell F → NodeCell F}
    (hchange : ∀ cell, (change cell).seed.corePattern = cell.seed.corePattern) :
    Lost pattern root (r.alter id change) (lacking.alter id change) := by
  refine ⟨h.cells.alter id hchange, ?_, h.below⟩
  refine h.nextId.imp_right fun ⟨hr, hlacking, hempty⟩ => ⟨hr, hlacking, fun other => ?_⟩
  have hstay := Replica.alter_of_none (hempty id) change
  exact (congrArg (fun s => s.cells other) hstay).trans (hempty other)

/-- So does a cell that is dropped from both. -/
theorem Lost.drop (h : Lost pattern root r lacking) (id : NodeId) :
    Lost pattern root (r.drop id) (lacking.drop id) := by
  refine ⟨h.cells.update (fun _ => rfl) (fun _ => rfl) (fun _ _ hcell => by cases hcell), ?_, h.below⟩
  refine h.nextId.imp_right fun ⟨hr, hlacking, hempty⟩ => ⟨hr, hlacking, fun other => ?_⟩
  show Function.update lacking.cells id none other = none
  by_cases heq : other = id
  · rw [heq, Function.update_self]
  · rw [Function.update_of_ne heq, hempty]

/-- A cell is born in both, under the next id of the field. -/
theorem Lost.birth (h : Lost pattern root r lacking) {cells cells' : NodeId → Option (NodeCell F)}
    (hcells : LostCells pattern root cells cells') {cell : NodeCell F} (hid : cell.id = r.nextId)
    (hroom : r.nextId < r.nextId + 1) :
    Lost pattern root
      { r with
        cells := Function.update cells cell.id (some cell)
        nextId := max r.nextId (cell.id + 1) }
      { lacking with
        cells := Function.update cells' cell.id (some cell)
        nextId := max lacking.nextId (cell.id + 1) } := by
  have hne : cell.id ≠ root := by
    rw [hid]
    exact (UInt64.ne_of_lt h.below).symm
  have hle : lacking.nextId ≤ r.nextId := by
    rcases h.nextId with ⟨-, hlacking⟩ | ⟨-, hlacking, -⟩
    · exact hlacking ▸ UInt64.le_refl _
    · exact hlacking ▸ UInt64.le_of_lt h.below
  have hmax : max r.nextId (r.nextId + 1) = r.nextId + 1 := max_succ hroom
  -- Where a cell is lost, the next id can only be lower, and catches up.
  have hmax' : max lacking.nextId (r.nextId + 1) = r.nextId + 1 :=
    if_pos (UInt64.le_trans hle (UInt64.le_of_lt hroom))
  have hbelow : root < r.nextId + 1 := UInt64.lt_trans h.below hroom
  refine ⟨hcells.update (fun _ => rfl) (fun heq => absurd heq hne) fun heq => absurd heq hne,
    .inl ⟨?_, ?_⟩, ?_⟩
  · show root + 1 < max r.nextId (cell.id + 1)
    rw [hid, hmax, UInt64.lt_iff_toNat_lt]
    rw [UInt64.lt_iff_toNat_lt] at hroom
    have hroot := UInt64.lt_iff_toNat_lt.mp h.below
    rw [UInt64.toNat_add, UInt64.toNat_one] at hroom ⊢
    rw [UInt64.toNat_add, UInt64.toNat_one]
    omega
  · show max lacking.nextId (cell.id + 1) = max r.nextId (cell.id + 1)
    rw [hid, hmax, hmax']
  · show root < max r.nextId (cell.id + 1)
    rw [hid, hmax]
    exact hbelow

end Lost

/-- A replay of what a step emits lacks no more than before. -/
theorem lost_micro {pattern : String} {root : NodeId} {lacking : Replica F} (hcounts : permit.Counts)
    (hmicro : Micro platform permit t t') (hnext : t.replica.nextId = (t.replayedOn platform base).nextId)
    (h : Lost pattern root (t.replayedOn platform base) (t.replayedOn platform lacking)) :
    Lost pattern root (t'.replayedOn platform base) (t'.replayedOn platform lacking) := by
  -- A delta is applied on both sides.
  have hpush {after : Trace F} {d : EventDelta F} (hd : after.emitted = t.emitted ++ [d])
      (hlost : Lost pattern root ((t.replayedOn platform base).apply platform d)
        ((t.replayedOn platform lacking).apply platform d)) :
      Lost pattern root (after.replayedOn platform base) (after.replayedOn platform lacking) := by
    rw [Trace.replayedOn_append hd, Trace.replayedOn_append hd]
    exact hlost
  cases hmicro with
  | tweak hcell htweaks hpermit => exact h
  | forget hstale => exact h
  | energy hcell => exact hpush rfl (h.alter _ fun _ => rfl)
  | gone hgone cell => exact hpush rfl (h.alter _ fun _ => rfl)
  | sleep hcell hstate => exact hpush rfl (h.alter _ fun _ => rfl)
  | affinity hcell hpermit => exact hpush rfl (h.alter _ fun _ => rfl)
  | inert hinert =>
      refine hpush rfl ?_
      rw [Replica.apply_of_inert hinert, Replica.apply_of_inert hinert]
      exact h
  | link source target hd =>
      refine hpush rfl ?_
      rcases hd with rfl | rfl
      · exact h.alter source fun _ => rfl
      · exact h.alter source fun _ => rfl
  | unlink source target hd =>
      refine hpush rfl ?_
      rcases hd with rfl | rfl
      · exact h.alter source fun _ => rfl
      · exact h.alter source fun _ => rfl
  | @spawn cell hid hnew hpermit =>
      -- The id that is given is the next one where no cell is lost.
      rw [hnext] at hid hpermit
      have hborn : cell.toSnapshot.toNode.id = (t.replayedOn platform base).nextId := hid
      exact hpush rfl (h.birth h.cells hborn (hcounts.spawn _ hpermit))
  | @divide parent cell hid hnew hpermit =>
      rw [hnext] at hid hpermit
      have hborn : cell.toSnapshot.toNode.id = (t.replayedOn platform base).nextId := hid
      -- The parent is linked first, on both sides.
      have hlinked : LostCells pattern root
          ((t.replayedOn platform base).alter parent (·.link cell.id)).cells
          ((t.replayedOn platform lacking).alter parent (·.link cell.id)).cells :=
        h.cells.alter parent fun _ => rfl
      exact hpush rfl (h.birth hlinked hborn (hcounts.spawn _ hpermit))
  | dead id hpermit => exact hpush rfl (h.drop id)
  | _ => exact hpush rfl ⟨h.cells, h.nextId, h.below⟩

/-! ## A twin of the field -/

/-- A replica that agrees with the field on what a restart is to preserve. -/
structure Mirrors (r twin : Replica F) : Prop where
  shape : Matches (ClusterField.shape counted).of r.cells twin.cells
  tallied : Tallied r twin
  sound : Sound twin.cells

/-- A sound replica mirrors itself. -/
theorem Mirrors.refl {r : Replica F} (hsound : Sound r.cells) : Mirrors r r :=
  ⟨fun _ => rfl, .refl r, hsound⟩

/-- A replica that mirrors the field has the cells of the same ids. -/
theorem Mirrors.present {r twin : Replica F} (h : Mirrors r twin) :
    Matches (presence counted).of r.cells twin.cells := fun id => by
  have hid := congrArg (Option.map fun _ => ()) (h.shape id)
  rw [Option.map_map, Option.map_map] at hid
  exact hid

/-- The field has the cells of its twin. -/
theorem Mirrors.exists_cell {r twin : Replica F} (h : Mirrors r twin) {id : NodeId} {cell : NodeCell F}
    (hcell : twin.cells id = some cell) : ∃ live, r.cells id = some live := by
  refine Option.ne_none_iff_exists'.mp fun hgone => ?_
  rw [h.shape.none_of_none hgone] at hcell
  cases hcell

/-- A chain and the replay of what it emits keep the one the mirror of the other. -/
theorem mirrors_chain (hchain : MicroChain platform counted t t') (hsound : Sound t.replica.cells)
    (h : Mirrors t.replica (t.replayedOn platform base)) :
    Mirrors t'.replica (t'.replayedOn platform base) :=
  ⟨matches_chain _ hchain h.shape, tallied_chain ClusterField.counts_counted hchain h.tallied,
    sound_replayedOn_chain hchain hsound h.present h.sound⟩

/-- By induction over the steps of a chain: a replay without the root lacks no more than the root, whatever
the field does. -/
theorem lost_chain {pattern : String} {root : NodeId} {lacking : Replica F}
    (hchain : MicroChain platform counted t t') (hsound : Sound t.replica.cells)
    (hmirrors : Mirrors t.replica (t.replayedOn platform base))
    (h : Lost pattern root (t.replayedOn platform base) (t.replayedOn platform lacking)) :
    Lost pattern root (t'.replayedOn platform base) (t'.replayedOn platform lacking) := by
  induction hchain with
  | refl => exact h
  | tail hchain hmicro ih =>
      exact lost_micro ClusterField.counts_counted hmicro
        (mirrors_chain hchain hsound hmirrors).tallied.nextId ih

/-- Deltas act on the cells and the counter as they find them. -/
theorem apply_cells_congr {r r' : Replica F} (hcells : r'.cells = r.cells) (hnext : r'.nextId = r.nextId)
    (d : EventDelta F) : (r'.apply platform d).cells = (r.apply platform d).cells ∧
      (r'.apply platform d).nextId = (r.apply platform d).nextId := by
  cases d <;> simp [Replica.apply, Replica.set, Replica.alter, Replica.drop, hcells, hnext]

/-- By induction over the deltas: cells and counter of a replay depend on no more than cells and counter. -/
theorem foldl_cells_congr {r r' : Replica F} (hcells : r'.cells = r.cells) (hnext : r'.nextId = r.nextId)
    (deltas : List (EventDelta F)) :
    (deltas.foldl (Replica.apply platform) r').cells = (deltas.foldl (Replica.apply platform) r).cells ∧
      (deltas.foldl (Replica.apply platform) r').nextId =
        (deltas.foldl (Replica.apply platform) r).nextId := by
  induction deltas generalizing r r' with
  | nil => exact ⟨hcells, hnext⟩
  | cons d deltas ih =>
      obtain ⟨hcells', hnext'⟩ := @apply_cells_congr F platform r r' hcells hnext d
      exact ih hcells' hnext'

/-- What a restart finds, next to a twin of the field that stops. -/
def Behind (pattern : String) : Option NodeId → Replica F → Replica F → Prop
  | none, twin, found => found.cells = twin.cells ∧ found.nextId = twin.nextId
  | some root, twin, found => Lost pattern root twin found

/-- What is found has no cell that the twin has not. -/
theorem Behind.of_found {pattern : String} {root : Option NodeId} {twin found : Replica F}
    (h : Behind pattern root twin found) {id : NodeId} {cell : NodeCell F}
    (hcell : found.cells id = some cell) : twin.cells id = some cell ∧ found.nextId = twin.nextId := by
  cases root with
  | none => exact ⟨h.1 ▸ hcell, h.2⟩
  | some root =>
      have hlost : Lost pattern root twin found := h
      have hne : id ≠ root := by
        rintro rfl
        rw [hlost.cells.lost] at hcell
        cases hcell
      refine ⟨hlost.cells.same id hne ▸ hcell, ?_⟩
      rcases hlost.nextId with ⟨-, hnext⟩ | ⟨-, -, hempty⟩
      · exact hnext
      · rw [hempty id] at hcell
        cases hcell

/-- The counter of what is found is not ahead. -/
theorem Behind.nextId_le {pattern : String} {root : Option NodeId} {twin found : Replica F}
    (h : Behind pattern root twin found) : found.nextId ≤ twin.nextId := by
  cases root with
  | none => exact h.2 ▸ UInt64.le_refl _
  | some root =>
      have hlost : Lost pattern root twin found := h
      rcases hlost.nextId with ⟨-, hnext⟩ | ⟨-, hnext, -⟩
      · exact hnext ▸ UInt64.le_refl _
      · exact hnext ▸ UInt64.le_of_lt hlost.below

/-- What a restart finds stays behind the twin of the field as it was, by nothing or by the root. -/
theorem behind_chain {pattern : String} {root : Option NodeId} {found : Replica F}
    (hchain : MicroChain platform counted t t') (hsound : Sound t.replica.cells)
    (hmirrors : Mirrors t.replica (t.replayedOn platform base))
    (h : Behind pattern root (t.replayedOn platform base) (t.replayedOn platform found)) :
    Behind pattern root (t'.replayedOn platform base) (t'.replayedOn platform found) := by
  cases root with
  | some root => exact lost_chain hchain hsound hmirrors h
  | none =>
      obtain ⟨deltas, hdeltas, -⟩ := chain_after hchain
      have hsplit (r : Replica F) : t'.replayedOn platform r =
          deltas.foldl (Replica.apply platform) (t.replayedOn platform r) := by
        unfold Trace.replayedOn
        rw [hdeltas, List.foldl_append]
      unfold Behind
      rw [hsplit, hsplit]
      exact foldl_cells_congr h.1 h.2 deltas

end Steps

/-! ## What every start and every call keep -/

/-- The pattern and the links of a cell. -/
def form (cell : NodeCell F) : String × Std.ExtTreeSet NodeId compare :=
  (cell.seed.corePattern, cell.links)

/-- The cells after a start: those that are found, or a root where there are none. -/
def Restarted (pattern : String) (found : Replica F) (cells : NodeId → Option (NodeCell F)) : Prop :=
  (∃ id cell, found.cells id = some cell) ∧ cells = found.cells ∨
    (∀ id, found.cells id = none) ∧ ∃ root : NodeCell F, form root = (pattern, ∅) ∧
      cells = Function.update found.cells found.nextId (some root)

section Restarted

variable {pattern : String} {twin found : Replica F} {live cells : NodeId → Option (NodeCell F)}

/-- Where pattern and links agree a cell is there on both sides, or on neither. -/
theorem form_none_iff {cell cell' : Option (NodeCell F)} (h : cell.map form = cell'.map form) :
    cell = none ↔ cell' = none := by
  rw [← Option.map_eq_none_iff, h, Option.map_eq_none_iff]

/-- Where all is on disk, a start brings it back unless there is nothing. -/
theorem restarted_iff_of_none (hshape : ∀ id, (live id).map form = (twin.cells id).map form)
    (hfound : found.cells = twin.cells) (hnew : Restarted pattern found cells) :
    (∀ id, (live id).map form = (cells id).map form) ↔ ∃ id cell, live id = some cell := by
  rcases hnew with ⟨⟨id, cell, hcell⟩, rfl⟩ | ⟨hempty, root, -, rfl⟩
  · refine iff_of_true (fun id => by rw [hshape, hfound]) ⟨id, ?_⟩
    refine Option.ne_none_iff_exists'.mp fun hgone => ?_
    rw [hfound, (form_none_iff (hshape id)).mp hgone] at hcell
    cases hcell
  · -- nothing is left, and a root is added
    have hgone (id : NodeId) : live id = none :=
      (form_none_iff (hshape id)).mpr (by rw [← hfound, hempty])
    refine iff_of_false (fun hall => ?_) fun ⟨id, cell, hcell⟩ => ?_
    · have hborn := hall found.nextId
      rw [hgone, Function.update_self] at hborn
      cases hborn
    · rw [hgone] at hcell
      cases hcell

/-- With the same cells beside the root, it is the root that tells them apart. -/
theorem all_form_iff_of_lost {root : NodeId}
    (hother : ∀ id ≠ root, (live id).map form = (found.cells id).map form)
    (hlost : found.cells root = none) :
    (∀ id, (live id).map form = (found.cells id).map form) ↔ live root = none := by
  refine ⟨fun hall => (form_none_iff (hall root)).mpr hlost, fun hroot id => ?_⟩
  by_cases heq : id = root
  · rw [heq, hroot, hlost]
  · exact hother id heq

/-- Where at most the root lives, a cell born in an empty replica has to be that root. -/
theorem all_form_iff_of_born {root : NodeId} {born : NodeCell F} (hgone : ∀ id ≠ root, live id = none)
    (hempty : ∀ id, found.cells id = none) :
    (∀ id, (live id).map form = (Function.update found.cells found.nextId (some born) id).map form) ↔
      found.nextId = root ∧ ∃ cell, live root = some cell ∧ form cell = form born := by
  constructor
  · intro hall
    have hborn := hall found.nextId
    rw [Function.update_self, Option.map_some] at hborn
    obtain ⟨cell, hcell, hsame⟩ := Option.map_eq_some_iff.mp hborn
    have hroot : found.nextId = root := by
      by_contra hne
      rw [hgone _ hne] at hcell
      cases hcell
    exact ⟨hroot, cell, hroot ▸ hcell, hsame⟩
  · rintro ⟨hroot, cell, hcell, hsame⟩ id
    rw [hroot]
    by_cases heq : id = root
    · rw [heq, hcell, Function.update_self, Option.map_some, Option.map_some, hsame]
    · rw [hgone id heq, Function.update_of_ne heq, hempty]

/-- Where the root is not on disk, a start brings back the others, or a root alone. -/
theorem restarted_iff_of_some {root : NodeId} {nextId : NodeId}
    (hshape : ∀ id, (live id).map form = (twin.cells id).map form) (hnext : nextId = twin.nextId)
    (hlost : Lost pattern root twin found) (hnew : Restarted pattern found cells) :
    (∀ id, (live id).map form = (cells id).map form) ↔
      live root = none ∧ (∃ id cell, live id = some cell) ∨
      nextId = root + 1 ∧ (∀ id, (∃ cell, live id = some cell) ↔ id = root) ∧
        ∀ cell, live root = some cell → cell.links = ∅ := by
  have hother : ∀ id ≠ root, (live id).map form = (found.cells id).map form := by
    intro id hne
    rw [hshape, hlost.cells.same id hne]
  rcases hnew with ⟨⟨id, cell, hcell⟩, rfl⟩ | ⟨hempty, born, hform, rfl⟩
  · -- Some cell is found: no root is born, and the lost one must not have lived.
    have hne : id ≠ root := by
      rintro rfl
      rw [hlost.cells.lost] at hcell
      cases hcell
    have hlive : ∃ cell, live id = some cell := by
      refine Option.ne_none_iff_exists'.mp fun hgone => ?_
      rw [(form_none_iff (hother id hne)).mp hgone] at hcell
      cases hcell
    rw [all_form_iff_of_lost hother hlost.cells.lost]
    refine ⟨fun hroot => .inl ⟨hroot, id, hlive⟩, ?_⟩
    rintro (⟨hroot, -⟩ | ⟨-, honly, -⟩)
    · exact hroot
    · exact absurd ((honly id).mp hlive) hne
  · -- No cell is found: the root that is born must be the lost one again.
    have hgone : ∀ id ≠ root, live id = none := fun id hne =>
      (form_none_iff (hother id hne)).mpr (hempty id)
    rw [all_form_iff_of_born hgone hempty]
    constructor
    · rintro ⟨hroot, cell, hcell, hsame⟩
      refine .inr ⟨?_, fun id => ⟨fun ⟨there, hthere⟩ => ?_, ?_⟩, fun there hthere => ?_⟩
      · rcases hlost.nextId with ⟨-, hahead⟩ | ⟨hone, -⟩
        · exact absurd (hahead.symm.trans hroot) (UInt64.ne_of_lt hlost.below).symm
        · exact hnext.trans hone
      · by_contra hne
        rw [hgone id hne] at hthere
        cases hthere
      · rintro rfl
        exact ⟨cell, hcell⟩
      · obtain rfl : cell = there := Option.some.inj (hcell.symm.trans hthere)
        exact congrArg Prod.snd (hsame.trans hform)
    · rintro (⟨hroot, id, cell, hcell⟩ | ⟨hone, honly, hlinks⟩)
      · -- A cell that lives would have been found, or it is the root, which does not live.
        by_cases heq : id = root
        · rw [heq, hroot] at hcell
          cases hcell
        · rw [hgone id heq] at hcell
          cases hcell
      · have hfirst : found.nextId = root := by
          rcases hlost.nextId with ⟨hlater, -⟩ | ⟨-, hfirst, -⟩
          · rw [← hnext, hone] at hlater
            exact absurd hlater (UInt64.lt_irrefl _)
          · exact hfirst
        obtain ⟨cell, hcell⟩ := (honly root).mpr rfl
        obtain ⟨other, hother, hsame⟩ : ∃ other, twin.cells root = some other ∧ form other = form cell := by
          have hroot := hshape root
          rw [hcell, Option.map_some, eq_comm] at hroot
          exact Option.map_eq_some_iff.mp hroot
        have hpattern : cell.seed.corePattern = pattern :=
          (congrArg Prod.fst hsame).symm.trans (hlost.cells.pattern other hother)
        exact ⟨hfirst, cell, hcell, (Prod.ext hpattern (hlinks cell hcell)).trans hform.symm⟩

end Restarted

namespace StoredBridge

variable [FloatLike F]

/-- The pattern of the root that a start adds. -/
def rootPattern (platform : Platform F) : String := (createSeed platform "liminal/root").corePattern

/-- What a restart now would find. -/
def found (platform : Platform F) (self : StoredBridge F) : Replica F :=
  (recovered platform self.snapshot self.field.journal).replica

/-- The field has a twin that what is on disk is behind of by no more than the root. -/
structure Shadowed (platform : Platform F) (bridge : StoredBridge F) : Prop where
  sound : Sound bridge.field.replica.cells
  below : Below bridge.field.replica
  twin : ∃ twin, Mirrors bridge.field.replica twin ∧
    Behind (rootPattern platform) bridge.root twin (bridge.found platform)

variable {platform : Platform F} {self : StoredBridge F}

/-- By induction over the deltas: applying them to a field applies them to its replica. -/
theorem replica_foldl (field : ClusterField F) (deltas : List (EventDelta F)) :
    (deltas.foldl (ClusterField.applyDelta platform) field).replica =
      deltas.foldl (Replica.apply platform) field.replica := by
  induction deltas generalizing field with
  | nil => rfl
  | cons d deltas ih => rw [List.foldl_cons, ih, ClusterField.replica_applyDelta, List.foldl_cons]

/-- **A call.** -/
theorem Shadowed.call (h : Shadowed platform self) {c : FieldCall F}
    (hsturdy : Sturdy platform self.field c) :
    Shadowed platform { self with field := self.field.call platform c } ∧
      Descends self.field.replica (self.field.call platform c).replica := by
  obtain ⟨twin, hmirrors, hbehind⟩ := h.twin
  obtain ⟨stale, stale', index, hchain⟩ :=
    ClusterField.follows_call h.sound (ClusterField.permitted_of_sturdy hsturdy)
  obtain ⟨deltas, hdeltas, hafter⟩ := chain_after hchain
  have hjournal : (self.field.call platform c).journal = self.field.journal ++ deltas := by
    simpa [ClusterField.trace] using hdeltas
  have hfresh := hafter []
  refine ⟨⟨sound_chain hchain h.sound, ?_, deltas.foldl (Replica.apply platform) twin, ?_, ?_⟩,
    descends_chain ClusterField.counts_counted hchain⟩
  · exact hchain.induct (P := fun t => Below t.replica)
      (below_micro ClusterField.counts_counted) h.below
  · exact mirrors_chain hfresh h.sound hmirrors
  · have hfound : ({ self with field := self.field.call platform c } : StoredBridge F).found platform =
        deltas.foldl (Replica.apply platform) (self.found platform) := by
      show (recovered platform self.snapshot (self.field.call platform c).journal).replica = _
      rw [hjournal, recovered, List.foldl_append, replica_foldl]
      rfl
    rw [hfound]
    exact behind_chain hfresh h.sound hmirrors hbehind

/-- **A snapshot.** -/
theorem Shadowed.writeSnapshot (h : Shadowed platform self) (codec : SnapshotCodec F Bytes)
    (visits : Visits F) : Shadowed platform (self.writeSnapshot codec visits) := by
  refine ⟨h.sound, h.below, self.field.replica, .refl h.sound, ?_⟩
  have hcells := ClusterField.restored_cells visits (fun id cell hcell => (h.sound id cell hcell).1)
  have hloaded : ∃ seed, loadSnapshot codec (createSnapshot codec visits self.field) = some seed ∧
      seed.cells.foldl (fun cells snapshot => cells.insert snapshot.id snapshot.toNode) ∅ =
        self.field.cells ∧ seed.nextId = self.field.nextId := by
    unfold loadSnapshot createSnapshot
    rw [codec.fromSlice_toVec]
    exact ⟨_, rfl, hcells, rfl⟩
  obtain ⟨seed, hseed, hseedCells, hnext⟩ := hloaded
  have hfound : (self.writeSnapshot codec visits).found platform = (seed.intoField platform).replica := by
    unfold found recovered StoredBridge.writeSnapshot
    rw [hseed]
    rfl
  obtain ⟨hcells', hnext'⟩ := ClusterField.replica_intoField platform seed
  show Behind _ none _ _
  rw [hfound]
  exact ⟨by rw [hcells', hseedCells]; rfl, hnext'.trans hnext⟩

/-- **A start.** What is found, with a root where there are no cells. -/
theorem new_cases (platform : Platform F) (snapshot : Option (ClusterFieldSeed F))
    (tail : List (EventDelta F)) :
    let found := (recovered platform snapshot tail).replica
    (new platform snapshot tail).snapshot = snapshot ∧
    (new platform snapshot tail).field.journal = tail ∧
    ((∃ id cell, found.cells id = some cell) ∧ (new platform snapshot tail).root = none ∧
        (new platform snapshot tail).field.replica = found ∨
      (∀ id, found.cells id = none) ∧ (new platform snapshot tail).root = some found.nextId ∧
        ∃ root : NodeCell F, root.id = found.nextId ∧ root.state ≠ .dead ∧
          form root = (rootPattern platform, ∅) ∧
          (new platform snapshot tail).field.replica =
            { found.set found.nextId root with nextId := found.nextId + 1 }) := by
  dsimp only
  have hnone : (recovered platform snapshot tail).cells.isEmpty = true ↔
      ∀ id, (recovered platform snapshot tail).replica.cells id = none := by
    rw [Std.ExtTreeMap.isEmpty_iff]
    refine ⟨fun h id => ?_, fun h => Std.ExtTreeMap.ext_getElem? fun id => ?_⟩
    · show (recovered platform snapshot tail).cells[id]? = none
      rw [h, Std.ExtTreeMap.getElem?_empty]
    · rw [Std.ExtTreeMap.getElem?_empty]
      exact h id
  by_cases hempty : (recovered platform snapshot tail).cells.isEmpty = true
  · have hnew : new platform snapshot tail =
        ⟨{ (recovered platform snapshot tail).addRoot platform "liminal/root" with journal := tail },
          snapshot, some (recovered platform snapshot tail).nextId⟩ := if_pos hempty
    rw [hnew]
    refine ⟨rfl, rfl, .inr ⟨hnone.mp hempty, rfl,
      .fromSeed _ (createSeed platform "liminal/root"), rfl, ?_, rfl, ?_⟩⟩
    · simp [NodeCell.fromSeed]
    · exact ClusterField.replica_attachCell platform _ _
  · have hnew : new platform snapshot tail =
        ⟨{ recovered platform snapshot tail with journal := tail }, snapshot, none⟩ := if_neg hempty
    rw [hnew]
    refine ⟨rfl, rfl, .inl ⟨?_, rfl, rfl⟩⟩
    have hsome : ∃ id, (recovered platform snapshot tail).replica.cells id ≠ none := by
      simpa using mt hnone.mpr hempty
    obtain ⟨id, hid⟩ := hsome
    exact ⟨id, Option.ne_none_iff_exists'.mp hid⟩

/-- **A restart.** -/
theorem Shadowed.restart (h : Shadowed platform self) (hroom : self.field.HasRoom 1) :
    Shadowed platform (new platform self.snapshot self.field.journal) := by
  obtain ⟨twin, hmirrors, hbehind⟩ := h.twin
  have hsound : Sound (self.found platform).cells := fun id cell hcell =>
    hmirrors.sound id cell (hbehind.of_found hcell).1
  obtain ⟨hsnapshot, hjournal, hnew⟩ := new_cases platform self.snapshot self.field.journal
  have hfound : (new platform self.snapshot self.field.journal).found platform = self.found platform := by
    unfold found
    rw [hsnapshot, hjournal]
  rcases hnew with ⟨⟨id, cell, hcell⟩, hroot, hfield⟩ | ⟨hempty, hroot, root, hid, halive, hform, hfield⟩
  · -- Some cell is found, and the field is what was found.
    refine ⟨by rw [hfield]; exact hsound, ?_, self.found platform, ?_, ?_⟩
    · rw [hfield]
      intro other there hthere
      obtain ⟨htwin, hnext⟩ := hbehind.of_found hthere
      obtain ⟨live, hlive⟩ := hmirrors.exists_cell htwin
      have hlt : other < self.field.replica.nextId := h.below other live hlive
      rw [hmirrors.tallied.nextId, ← hnext] at hlt
      exact hlt
    · rw [hfield]
      exact .refl hsound
    · rw [hroot, hfound]
      exact ⟨rfl, rfl⟩
  · -- No cell is found, and a root is born.
    have hle : (self.found platform).nextId ≤ self.field.nextId := by
      have hnext : self.field.nextId = twin.nextId := hmirrors.tallied.nextId
      rw [hnext]
      exact hbehind.nextId_le
    have hbirth : (self.found platform).nextId < (self.found platform).nextId + 1 := by
      refine ClusterField.lt_succ_of_toNat ?_
      have hle := UInt64.le_iff_toNat_le.mp hle
      unfold ClusterField.HasRoom at hroom
      omega
    have hborn : Sound (Function.update (self.found platform).cells (self.found platform).nextId
        (some root)) := hsound.update fun cell hcell => by
      cases hcell
      exact ⟨hid, halive⟩
    refine ⟨by rw [hfield]; exact hborn, ?_, _, .refl (by rw [hfield]; exact hborn), ?_⟩
    · -- the root is the only cell
      rw [hfield]
      intro other cell hcell
      have hcell : Function.update (self.found platform).cells (self.found platform).nextId (some root) other =
          some cell := hcell
      by_cases heq : other = (self.found platform).nextId
      · exact heq ▸ hbirth
      · rw [Function.update_of_ne heq] at hcell
        exact absurd ((hempty other).symm.trans hcell) (by simp)
    · rw [hroot, hfound, hfield]
      refine ⟨⟨fun other hne => ?_, hempty _, fun cell hcell => ?_⟩, .inr ⟨rfl, rfl, hempty⟩, hbirth⟩
      · exact (Function.update_of_ne hne _ _).symm
      · have hcell : Function.update (self.found platform).cells (self.found platform).nextId (some root)
            (self.found platform).nextId = some cell := hcell
        rw [Function.update_self] at hcell
        cases hcell
        exact congrArg Prod.fst hform

/-! ## Restarts -/

/-- The same ids, with the same patterns and links. -/
def SamePopulation (live restarted : ClusterField F) : Prop :=
  ∀ id : NodeId, (live.cells[id]?).map form = (restarted.cells[id]?).map form

/-- What a restart brings back is what there is: the root of the last start is on disk and there are cells,
or it is not on disk but has died and left other cells, or it is all there is and no other cell was ever
born. -/
def RootKept (self : StoredBridge F) : Prop :=
  match self.root with
  | none => ∃ id, id ∈ self.field.cells
  | some root =>
      root ∉ self.field.cells ∧ (∃ id, id ∈ self.field.cells) ∨
      self.field.nextId = root + 1 ∧ (∀ id, id ∈ self.field.cells ↔ id = root) ∧
        ∀ cell, self.field.cells[root]? = some cell → cell.links = ∅

omit [FloatLike F] in
/-- An id has a cell in the field exactly if it has one in the replica. -/
theorem mem_cells {id : NodeId} :
    id ∈ self.field.cells ↔ ∃ cell, self.field.replica.cells id = some cell := by
  rw [Std.ExtTreeMap.mem_iff_isSome_getElem?, Option.isSome_iff_exists]
  rfl

omit [FloatLike F] in
/-- It has none in the field exactly if it has none in the replica. -/
theorem not_mem_cells {id : NodeId} : id ∉ self.field.cells ↔ self.field.replica.cells id = none := by
  rw [mem_cells, ← not_iff_not, not_not, ← Option.ne_none_iff_exists']

/-- A restart preserves the population exactly when it brings the root back. -/
theorem Shadowed.samePopulation_iff (h : Shadowed platform self) :
    SamePopulation self.field (new platform self.snapshot self.field.journal).field ↔ self.RootKept := by
  obtain ⟨twin, hmirrors, hbehind⟩ := h.twin
  obtain ⟨-, -, hnew⟩ := new_cases platform self.snapshot self.field.journal
  have hrestarted : Restarted (rootPattern platform) (self.found platform)
      (new platform self.snapshot self.field.journal).field.replica.cells := by
    rcases hnew with ⟨hsome, -, hfield⟩ | ⟨hempty, -, root, -, -, hform, hfield⟩
    · exact .inl ⟨hsome, congrArg Replica.cells hfield⟩
    · exact .inr ⟨hempty, root, hform, congrArg Replica.cells hfield⟩
  cases hroot : self.root with
  | none =>
      rw [hroot] at hbehind
      rw [RootKept, hroot]
      simp only [mem_cells]
      exact restarted_iff_of_none hmirrors.shape hbehind.1 hrestarted
  | some root =>
      rw [hroot] at hbehind
      rw [RootKept, hroot]
      dsimp only
      rw [not_mem_cells]
      simp only [mem_cells]
      exact restarted_iff_of_some hmirrors.shape hmirrors.tallied.nextId hbehind hrestarted

/-- A restart that preserves the population starts no counter again. -/
theorem Shadowed.nextId_le_restart (h : Shadowed platform self)
    (hsame : SamePopulation self.field (new platform self.snapshot self.field.journal).field) :
    self.field.nextId ≤ (new platform self.snapshot self.field.journal).field.nextId := by
  obtain ⟨twin, hmirrors, hbehind⟩ := h.twin
  obtain ⟨-, -, hnew⟩ := new_cases platform self.snapshot self.field.journal
  have hnext : self.field.nextId = twin.nextId := hmirrors.tallied.nextId
  rcases hnew with ⟨⟨id, cell, hcell⟩, -, hfield⟩ | ⟨hempty, -, root, -, -, -, hfield⟩
  · have hfound : (self.found platform).nextId = twin.nextId := (hbehind.of_found hcell).2
    have hrestarted := congrArg Replica.nextId hfield
    exact UInt64.le_of_eq (hnext.trans (hfound.symm.trans hrestarted.symm))
  · -- the root of this start takes the place of the one before
    have hthere : twin.cells (self.found platform).nextId ≠ none := by
      intro hgone
      have hlive := (form_none_iff (hmirrors.shape (self.found platform).nextId)).mpr hgone
      have hborn := (form_none_iff (hsame (self.found platform).nextId)).mp hlive
      have hcells : (new platform self.snapshot self.field.journal).field.replica.cells =
          Function.update (self.found platform).cells (self.found platform).nextId (some root) :=
        congrArg Replica.cells hfield
      have hcell := (congrFun hcells (self.found platform).nextId).symm.trans hborn
      rw [Function.update_self] at hcell
      cases hcell
    have hrestarted : (new platform self.snapshot self.field.journal).field.nextId =
        (self.found platform).nextId + 1 := congrArg Replica.nextId hfield
    rw [hrestarted, hnext]
    cases hroot : self.root with
    | none =>
        rw [hroot] at hbehind
        exact absurd (hbehind.1 ▸ hempty _) hthere
    | some root =>
        rw [hroot] at hbehind
        have hlost : Lost (rootPattern platform) root twin (self.found platform) := hbehind
        have hfirst : (self.found platform).nextId = root := by
          by_contra hne
          exact hthere (hlost.cells.same _ hne ▸ hempty _)
        rcases hlost.nextId with ⟨-, hahead⟩ | ⟨hone, -⟩
        · exact absurd (hahead.symm.trans hfirst) (UInt64.ne_of_lt hlost.below).symm
        · rw [hone, hfirst]
          exact UInt64.le_refl _

/-- A restart that preserves the population hands out no id again. -/
theorem Shadowed.descends_restart (h : Shadowed platform self)
    (hsame : SamePopulation self.field (new platform self.snapshot self.field.journal).field) :
    Descends self.field.replica (new platform self.snapshot self.field.journal).field.replica := by
  refine ⟨h.nextId_le_restart hsame, fun id _ hgone => (form_none_iff (hsame id)).mp hgone,
    fun id _ cell cell' hcell hcell' => ?_⟩
  have hid := hsame id
  have hlive : self.field.cells[id]? = some cell := hcell
  have hrestarted : (new platform self.snapshot self.field.journal).field.cells[id]? = some cell' := hcell'
  rw [hlive, hrestarted] at hid
  exact (congrArg Prod.fst (Option.some.inj hid)).symm

/-! ## Every run -/

end StoredBridge

/-- What happens to a bridge. -/
inductive BridgeStep (F : Type)
  | call (c : FieldCall F)
  | snapshot (visits : Visits F)
  /-- A stop, and a start on the same store. -/
  | restart

namespace StoredBridge

variable [FloatLike F]

/-- One step. -/
def step (codec : SnapshotCodec F Bytes) (platform : Platform F) (self : StoredBridge F) :
    BridgeStep F → StoredBridge F
  | .call c => { self with field := self.field.call platform c }
  | .snapshot visits => self.writeSnapshot codec visits
  | .restart => new platform self.snapshot self.field.journal

/-- The steps on an empty store, in turn. -/
def run (codec : SnapshotCodec F Bytes) (platform : Platform F) (steps : List (BridgeStep F)) :
    StoredBridge F :=
  steps.foldl (step codec platform) (new platform none [])

/-- No counter of ids runs over, and trimming finds every cell above its threshold or below it. -/
def Steady (platform : Platform F) (self : StoredBridge F) : BridgeStep F → Prop
  | .call c => Sturdy platform self.field c
  | .snapshot _ => True
  | .restart => self.field.HasRoom 1

variable {codec : SnapshotCodec F Bytes} {platform : Platform F} {self : StoredBridge F}

/-- A run with one more call is the run and then the call. -/
theorem run_concat (steps : List (BridgeStep F)) (call : BridgeStep F) :
    run codec platform (steps ++ [call]) = (run codec platform steps).step codec platform call := by
  rw [run, List.foldl_append]
  rfl

/-- A bridge that starts on an empty disk has what is found there for its twin, with the root that the start
adds lost. -/
theorem shadowed_new (platform : Platform F) : Shadowed platform (new platform none []) := by
  let empty : StoredBridge F := ⟨.new, none, none⟩
  have hnothing (id : NodeId) : (.new : ClusterField F).replica.cells id = none :=
    Std.ExtTreeMap.getElem?_empty
  have hempty : Shadowed platform empty := by
    refine ⟨fun id cell hcell => ?_, fun id cell hcell => ?_, empty.field.replica, .refl fun id cell hcell => ?_,
      rfl, rfl⟩ <;> exact absurd ((hnothing id).symm.trans hcell) (by simp)
  exact hempty.restart (by show (1 : UInt64).toNat + 1 < 2 ^ 64; decide)

/-- A steady call keeps the twin: whatever the field does is emitted, and what is emitted gets to the disk. -/
theorem Shadowed.step (h : Shadowed platform self) {call : BridgeStep F}
    (hsteady : Steady platform self call) : Shadowed platform (self.step codec platform call) := by
  cases call with
  | call c => exact (h.call hsteady).1
  | snapshot visits => exact h.writeSnapshot codec visits
  | restart => exact h.restart hsteady

/-- No counter runs over in a run, and every trim decides. -/
def SteadyRun (codec : SnapshotCodec F Bytes) (platform : Platform F) (steps : List (BridgeStep F)) :
    Prop :=
  ∀ before call after, steps = before ++ call :: after → Steady platform (run codec platform before) call

/-- The beginning of a steady run is steady. -/
theorem SteadyRun.front {before after : List (BridgeStep F)}
    (h : SteadyRun codec platform (before ++ after)) : SteadyRun codec platform before := by
  rintro first call rest rfl
  exact h first call (rest ++ after) (by simp)

/-- **A run.** -/
theorem shadowed_run {steps : List (BridgeStep F)} (h : SteadyRun codec platform steps) :
    Shadowed platform (run codec platform steps) := by
  induction steps using List.reverseRecOn with
  | nil => exact shadowed_new platform
  | append_singleton steps call ih =>
      rw [run_concat]
      exact (ih h.front).step (h steps call [] rfl)

/-- Every restart of a run preserves the population. -/
def Preserving (codec : SnapshotCodec F Bytes) (platform : Platform F) (steps : List (BridgeStep F)) :
    Prop :=
  ∀ before after, steps = before ++ .restart :: after →
    SamePopulation (run codec platform before).field (run codec platform (before ++ [.restart])).field

/-- Where restarts preserve the population, ids are handed out in order all along. -/
theorem descends_run {before after : List (BridgeStep F)}
    (hsteady : SteadyRun codec platform (before ++ after))
    (hpreserving : Preserving codec platform (before ++ after)) :
    Descends (run codec platform before).field.replica (run codec platform (before ++ after)).field.replica := by
  induction after using List.reverseRecOn with
  | nil => rw [List.append_nil]; exact .refl _
  | append_singleton after call ih =>
      rw [← List.append_assoc] at hsteady hpreserving ⊢
      have hearlier : Preserving codec platform (before ++ after) := by
        intro first rest hsplit
        exact hpreserving first (rest ++ [call]) (by rw [hsplit]; simp)
      refine (ih hsteady.front hearlier).trans ?_
      have hshadowed := shadowed_run hsteady.front
      have hnow := hsteady (before ++ after) call [] rfl
      cases call with
      | call c =>
          rw [run_concat]
          exact (hshadowed.call hnow).2
      | snapshot visits =>
          rw [run_concat]
          exact .refl _
      | restart =>
          have hsame := hpreserving (before ++ after) [] rfl
          rw [run_concat] at hsame ⊢
          exact hshadowed.descends_restart hsame

/-- **When restarts preserve the population.** Over every run without an overflow of ids, each restart
yields the ids, patterns and links of the cells before it, and an id that was ever handed out never comes
to another cell, exactly when at each restart the root of the last start is not lost. -/
theorem restart_preserves_population_iff (codec : SnapshotCodec F Bytes) (platform : Platform F)
    {steps : List (BridgeStep F)} (hsteady : SteadyRun codec platform steps) :
    (Preserving codec platform steps ∧
      ∀ before after rest, steps = before ++ after ++ rest →
        Below (run codec platform before).field.replica ∧
        Descends (run codec platform before).field.replica
          (run codec platform (before ++ after)).field.replica) ↔
      ∀ before after, steps = before ++ .restart :: after → (run codec platform before).RootKept := by
  have hrestart (before after : List (BridgeStep F)) (hsteps : steps = before ++ .restart :: after) :
      SamePopulation (run codec platform before).field (run codec platform (before ++ [.restart])).field ↔
        (run codec platform before).RootKept := by
    subst hsteps
    rw [run_concat]
    exact (shadowed_run hsteady.front).samePopulation_iff
  have hpreserving : Preserving codec platform steps ↔
      ∀ before after, steps = before ++ .restart :: after → (run codec platform before).RootKept :=
    forall_congr' fun before => forall_congr' fun after => forall_congr' fun hsteps =>
      hrestart before after hsteps
  rw [← hpreserving]
  refine and_iff_left_of_imp fun h before after rest hsteps => ?_
  subst hsteps
  refine ⟨(shadowed_run hsteady.front.front).below, descends_run hsteady.front fun first later hsplit => ?_⟩
  exact h first (later ++ rest) (by rw [hsplit]; simp)

/-- A tick, a snapshot and a restart. -/
def snapshotSteps : List (BridgeStep ℚ) :=
  [.call (.tickAll .listed (fun _ => 0) 0), .snapshot .listed, .restart]

/-- The root survives a restart once a snapshot has it. -/
theorem restart_preserves_population_after_snapshot :
    Preserving (ClusterField.plainCodec ℚ) (ClusterField.constantPlatform ℚ 0.5) snapshotSteps := by
  have hsplit {before : List (BridgeStep ℚ)} {call : BridgeStep ℚ} {after : List (BridgeStep ℚ)}
      (h : snapshotSteps = before ++ call :: after) :
      (before = [] ∧ call = .call (.tickAll .listed (fun _ => 0) 0)) ∨
      (before = [.call (.tickAll .listed (fun _ => 0) 0)] ∧ call = .snapshot .listed) ∨
      before = [.call (.tickAll .listed (fun _ => 0) 0), .snapshot .listed] ∧ call = .restart := by
    match before, h with
    | [], h => exact .inl ⟨rfl, (List.cons.inj h).1.symm⟩
    | [_], h =>
        obtain ⟨rfl, h'⟩ := List.cons.inj h
        exact .inr (.inl ⟨rfl, (List.cons.inj h').1.symm⟩)
    | [_, _], h =>
        obtain ⟨rfl, h'⟩ := List.cons.inj h
        obtain ⟨rfl, h''⟩ := List.cons.inj h'
        exact .inr (.inr ⟨rfl, (List.cons.inj h'').1.symm⟩)
    | _ :: _ :: _ :: _, h => simp [snapshotSteps] at h
  refine ((restart_preserves_population_iff _ _ fun before call after h => ?_).mpr
    fun before after h => ?_).1
  · rcases hsplit h with ⟨rfl, rfl⟩ | ⟨rfl, rfl⟩ | ⟨rfl, rfl⟩
    · show ClusterField.HasRoom _ _
      decide +kernel
    · trivial
    · show ClusterField.HasRoom _ _
      decide +kernel
  · rcases hsplit h with ⟨-, h⟩ | ⟨-, h⟩ | ⟨rfl, -⟩
    · cases h
    · cases h
    · exact ⟨1, by decide +kernel⟩

/-- Impulses that feed the root until it divides in a tick. -/
def dividingSteps : List (BridgeStep ℚ) :=
  [.call (.routeImpulse .listed ⟨.write, "liminal", 1, 0, []⟩),
    .call (.routeImpulse .listed ⟨.write, "liminal", 1, 0, []⟩),
    .call (.routeImpulse .listed ⟨.write, "liminal", 1, 0, []⟩),
    .call (.tickAll .listed (fun _ => 0) 0)]

/-- The root has divided, and after the restart only its child is left. -/
theorem not_samePopulation_after_division :
    ¬ SamePopulation
      (run (ClusterField.plainCodec ℚ) (ClusterField.constantPlatform ℚ 0.5) dividingSteps).field
      (run (ClusterField.plainCodec ℚ) (ClusterField.constantPlatform ℚ 0.5)
        (dividingSteps ++ [.restart])).field := by
  intro h
  have hroot := congrArg Option.isSome (h 1)
  rw [Option.isSome_map, Option.isSome_map] at hroot
  revert hroot
  decide +kernel

end StoredBridge

end LiminalDB
