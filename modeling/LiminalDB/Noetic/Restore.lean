import LiminalDB.Noetic.Convergence

/-! # Snapshots of a noetic state: `NoeticSnapshot` and `restore`

A snapshot holds what the state shows. Restored, the sets have lost their removals, the insertions
that were hidden and the clocks under which headers were inserted, and the clock of the state starts
again at zero. `restore_transparent_iff` says when none of this can be seen in any later merge. -/

namespace LiminalDB

/-- The first clock has a smaller time, or the same time and a smaller counter: every context orders
the two clocks alike. -/
def Hlc.Earlier (a b : Hlc) : Prop := a.physMs < b.physMs ∨ a.physMs = b.physMs ∧ a.log < b.log

instance (a b : Hlc) : Decidable (a.Earlier b) := inferInstanceAs (Decidable (_ ∨ _))

namespace MergeContext

variable {F : Type} [LinearOrder F]

/-- The peer has been given the greatest credence of all. -/
def Topped (ctx : MergeContext F) (peer : PeerId) : Prop :=
  ∃ top, ctx.credence[peer]? = some top ∧ IsTop top

/-- No growth of the credences puts the first clock above the second, nor lets another clock come
between: it is earlier, or the two tie and the second is of a peer that, with every peer above it, has
the greatest credence already. -/
def Outranked (ctx : MergeContext F) (r clock : Hlc) : Prop :=
  r.Earlier clock ∨ r.physMs = clock.physMs ∧ r.log = clock.log ∧ r.node < clock.node ∧
    ∀ peer, clock.node ≤ peer → ctx.Topped peer

end MergeContext

namespace Hlc

variable {F : Type} [LinearOrder F] {a b c : Hlc} {ctx ctx' : MergeContext F}

/-- The time and the counter. -/
def level (clock : Hlc) : ℕ ×ₗ ℕ := toLex (clock.physMs.toNat, clock.log.toNat)

/-- The earlier of two clocks is the one of the lower level, levels being compared as pairs of numbers. -/
theorem earlier_iff : a.Earlier b ↔ a.level < b.level := by
  rw [Earlier, level, level, Prod.Lex.toLex_lt_toLex, UInt64.lt_iff_toNat_lt, UInt32.lt_iff_toNat_lt,
    ← UInt64.toNat_inj]

/-- Clocks are of one level exactly when neither their times nor their counters differ. -/
theorem level_eq_iff : a.level = b.level ↔ a.physMs = b.physMs ∧ a.log = b.log := by
  rw [level, level, toLex_inj, Prod.mk.injEq, UInt64.toNat_inj, UInt32.toNat_inj]

/-- A context compares the levels of two clocks first, and where they tie the credences and the ids of their
peers. -/
theorem key_lt_iff : ctx.key a < ctx.key b ↔ a.level < b.level ∨ a.level = b.level ∧
    toLex (ctx.credenceFor a.node, a.node) < toLex (ctx.credenceFor b.node, b.node) := by
  rw [level, level, Prod.Lex.toLex_lt_toLex, toLex_inj, Prod.mk.injEq]
  simp only [MergeContext.key, Prod.Lex.toLex_lt_toLex]
  tauto

/-- An earlier clock has the lower key in every context. -/
theorem Earlier.key_lt (h : a.Earlier b) : ctx.key a < ctx.key b :=
  key_lt_iff.mpr (.inl (earlier_iff.mp h))

/-- Clocks of the order of their keys have the order of their levels. -/
theorem level_le_of_key_le (h : ctx.key a ≤ ctx.key b) : a.level ≤ b.level := by
  by_contra hlt
  exact absurd (earlier_iff.mpr (not_le.mp hlt)).key_lt (not_lt.mpr h)

/-- A tie is decided by credence, then by the node. -/
theorem key_lt_of_tie (hlevel : a.level = b.level) : ctx.key a < ctx.key b ↔
    ctx.credenceFor a.node < ctx.credenceFor b.node ∨
      ctx.credenceFor a.node = ctx.credenceFor b.node ∧ a.node < b.node := by
  rw [key_lt_iff, Prod.Lex.toLex_lt_toLex]
  simp [hlevel]

end Hlc

namespace MergeContext

variable {F : Type} [LinearOrder F] {ctx ctx' : MergeContext F} {r d clock later : Hlc}

/-- A peer that has the greatest credence there is has it in the sense of the order, too. -/
theorem Topped.isTop {peer : PeerId} (h : ctx.Topped peer) : IsTop (ctx.credenceFor peer) := by
  obtain ⟨top, htop, hle⟩ := h
  rwa [credenceFor, htop, Option.getD_some]

/-- A clock is outranked for good by one of a higher level, or by one of its level from a higher peer, when
nothing can raise the credence of a peer between them any more. -/
theorem outranked_iff : ctx.Outranked r clock ↔ r.level < clock.level ∨ r.level = clock.level ∧
    r.node < clock.node ∧ ∀ peer, clock.node ≤ peer → ctx.Topped peer := by
  rw [Outranked, Hlc.earlier_iff, Hlc.level_eq_iff, and_assoc]

/-- A clock that is outranked stays so when peers with the greatest credence keep it. -/
theorem Outranked.grow (h : ctx.Outranked r clock)
    (hgrow : ∀ peer, ctx.Topped peer → ctx'.Topped peer) : ctx'.Outranked r clock :=
  h.imp_right fun ⟨hphys, hlog, hnode, htop⟩ =>
    ⟨hphys, hlog, hnode, fun peer hpeer => hgrow peer (htop peer hpeer)⟩

/-- A clock that is outranked has the lower key now. -/
theorem Outranked.key_lt (h : ctx.Outranked r clock) : ctx.key r < ctx.key clock := by
  rcases outranked_iff.mp h with hlevel | ⟨hlevel, hnode, htop⟩
  · exact (Hlc.earlier_iff.mpr hlevel).key_lt
  · rw [Hlc.key_lt_of_tie hlevel]
    exact ((htop _ le_rfl).isTop _).lt_or_eq.imp_right fun heq => ⟨heq, hnode⟩

/-- A clock that is outranked stays so below a later clock. -/
theorem Outranked.trans_key (h : ctx.Outranked r clock) (hle : ctx.key clock ≤ ctx.key later) :
    ctx.Outranked r later := by
  rw [outranked_iff] at h ⊢
  rcases (Hlc.level_le_of_key_le hle).lt_or_eq with hlt | heq
  · exact .inl (h.elim (fun hlevel => hlevel.trans hlt) fun htie => htie.1.trans_lt hlt)
  · refine h.imp (fun hlevel => hlevel.trans_eq heq) fun ⟨hlevel, hnode, htop⟩ => ?_
    have hnode' : clock.node ≤ later.node := by
      by_contra hlt
      refine absurd ((Hlc.key_lt_of_tie heq.symm).mpr ?_) (not_lt.mpr hle)
      exact ((htop _ le_rfl).isTop _).lt_or_eq.imp_right fun hcred => ⟨hcred, not_le.mp hlt⟩
    exact ⟨hlevel.trans heq, hnode.trans_le hnode', fun peer hpeer => htop peer (hnode'.trans hpeer)⟩

/-- What is not outranked lies above what is. -/
theorem Outranked.key_lt_of_not (h : ctx.Outranked r clock) (hd : ¬ ctx.Outranked d clock) :
    ctx.key r < ctx.key d := by
  rw [outranked_iff] at h hd
  push Not at hd
  obtain ⟨hge, htie⟩ := hd
  rcases h with hlevel | ⟨hlevel, hnode, htop⟩
  · exact (Hlc.earlier_iff.mpr (hlevel.trans_le hge)).key_lt
  · rcases hge.lt_or_eq with hlt | heq
    · exact (Hlc.earlier_iff.mpr (hlevel.trans_lt hlt)).key_lt
    · have hnode' : clock.node ≤ d.node := by
        by_contra hlt
        obtain ⟨peer, hpeer, hnot⟩ := htie heq.symm (not_le.mp hlt)
        exact hnot (htop peer hpeer)
      rw [Hlc.key_lt_of_tie (hlevel.trans heq)]
      exact ((htop _ hnode').isTop _).lt_or_eq.imp_right fun hcred => ⟨hcred, hnode.trans_le hnode'⟩

end MergeContext

/-! ## One set -/

namespace OrSet

variable {F : Type} [LinearOrder F] {T : Type} [LinearOrder T] {ctx : MergeContext F}

/-- The loop of `restore`: insert the headers of a snapshot, each under its version. -/
def ofElements (version : T → Hlc) (ctx : MergeContext F) (elements : List T) : OrSet T :=
  elements.foldl (fun set v => set.insert v (version v) ctx) .default

/-- A set restored from its elements has each of them under the clock of its own version. -/
theorem getElem?_adds_ofElements (version : T → Hlc) (ctx : MergeContext F) (elements : List T)
    (v : T) : (ofElements version ctx elements).adds[v]? =
      if v ∈ elements then some (version v) else none := by
  unfold ofElements
  induction elements using List.reverseRecOn with
  | nil => simp [OrSet.default]
  | append_singleton l w ih =>
      rw [List.foldl_append, List.foldl_cons, List.foldl_nil]
      by_cases hv : v = w
      · subst hv
        have hmem : v ∈ l ++ [v] := by simp
        rw [OrSet.insert, getElem?_stamp_self, ih, if_pos hmem]
        by_cases hl : v ∈ l <;> simp [hl, laterOf]
      · rw [OrSet.insert, getElem?_stamp_of_ne _ ctx hv, ih]
        simp [hv]

/-- A restored set has no removals. -/
theorem removals_ofElements (version : T → Hlc) (ctx : MergeContext F) (elements : List T) :
    (ofElements version ctx elements).removals = ∅ := by
  unfold ofElements
  induction elements using List.reverseRecOn with
  | nil => rfl
  | append_singleton l w ih => rw [List.foldl_append]; exact ih

/-- Everything in the set is shown, under its version, and removed only by outranked clocks. -/
structure Kept (version : T → Hlc) (ctx : MergeContext F) (s : OrSet T) : Prop where
  clocks : ∀ v : T, s.adds[v]? = none ∧ s.removals[v]? = none ∨
    s.adds[v]? = some (version v) ∧ ∀ r, s.removals[v]? = some r → ctx.Outranked r (version v)

/-- Two sets with the same insertions, whose removals differ only where the insertion outranks
both. -/
structure Alike (ctx : MergeContext F) (s t : OrSet T) : Prop where
  adds : s.adds = t.adds
  removals : ∀ v : T, s.removals[v]? = t.removals[v]? ∨
    ∃ clock, s.adds[v]? = some clock ∧ (∀ r, s.removals[v]? = some r → ctx.Outranked r clock) ∧
      ∀ r, t.removals[v]? = some r → ctx.Outranked r clock

variable {s t : OrSet T}

/-- What a set shows depends on its insertions, and on which of these its removals leave standing. -/
theorem elements_congr {s t : OrSet T} (hadds : s.adds = t.adds)
    (hshows : ∀ v clock, s.adds[v]? = some clock → s.shows ctx v clock = t.shows ctx v clock) :
    s.elements ctx = t.elements ctx := by
  unfold elements
  rw [← hadds]
  congr 1
  refine List.filter_congr ?_
  rintro ⟨v, clock⟩ hmem
  exact hshows v clock (Std.ExtTreeMap.mem_toList_iff_getElem?_eq_some.mp hmem)

/-- An outranked removal is no different from none. -/
theorem shows_of_outranked {v : T} {clock : Hlc}
    (h : ∀ r, s.removals[v]? = some r → ctx.Outranked r clock) : s.shows ctx v clock = true := by
  unfold shows
  cases hrem : s.removals[v]? with
  | none => rfl
  | some r => exact decide_eq_true (Hlc.compare_eq_gt.mpr (h r hrem).key_lt)

/-- Such sets show the same. -/
theorem Alike.elements_eq (h : Alike ctx s t) : s.elements ctx = t.elements ctx := by
  refine elements_congr h.adds fun v clock hclock => ?_
  rcases h.removals v with heq | ⟨clock', hclock', hs, ht⟩
  · unfold shows
    rw [heq]
  · obtain rfl : clock = clock' := Option.some.inj (hclock.symm.trans hclock')
    rw [shows_of_outranked hs, shows_of_outranked ht]

/-- **Merging keeps two such sets alike**, whatever is merged and however the credences grow. -/
theorem Alike.merge {ctx' : MergeContext F} (h : Alike ctx s t) (u : OrSet T)
    (hgrow : ∀ peer, ctx.Topped peer → ctx'.Topped peer) :
    Alike ctx' (s.merge u ctx') (t.merge u ctx') := by
  refine ⟨Std.ExtTreeMap.ext_getElem? fun v => ?_, fun v => ?_⟩
  · rw [getElem?_adds_merge, getElem?_adds_merge, h.adds]
  · simp only [getElem?_adds_merge, getElem?_removals_merge]
    rcases h.removals v with heq | ⟨clock, hclock, hs, ht⟩
    · exact .inl (by rw [heq])
    · obtain ⟨later, hlater, hle⟩ : ∃ later, laterOf ctx' (some clock) u.adds[v]? = some later ∧
          ctx'.key clock ≤ ctx'.key later := by
        cases u.adds[v]? with
        | none => exact ⟨clock, rfl, le_rfl⟩
        | some add =>
            exact ⟨_, rfl, (le_max_left _ _).trans_eq (key_keepGreatest ctx'.key clock add).symm⟩
      have hs' : ∀ r, s.removals[v]? = some r → ctx'.Outranked r later :=
        fun r hr => ((hs r hr).grow hgrow).trans_key hle
      have ht' : ∀ r, t.removals[v]? = some r → ctx'.Outranked r later :=
        fun r hr => ((ht r hr).grow hgrow).trans_key hle
      rw [hclock, hlater]
      cases hrem : u.removals[v]? with
      | none =>
          simp only [laterOf, Option.merge_none_right]
          exact .inr ⟨later, rfl, hs', ht'⟩
      | some d =>
          -- the new removal matters for both sets, or for neither
          by_cases hd : ctx'.Outranked d later
          · have hside : ∀ o : Option Hlc, (∀ r, o = some r → ctx'.Outranked r later) →
                ∀ r, laterOf ctx' o (some d) = some r → ctx'.Outranked r later := by
              intro o ho r hr
              rcases Option.merge_eq_or_eq (keepGreatest_eq_or ctx'.key) o (some d) with heq | heq
              · exact ho r (heq.symm.trans hr)
              · rw [← Option.some.inj (heq.symm.trans hr)]
                exact hd
            exact .inr ⟨later, rfl, hside _ hs', hside _ ht'⟩
          · have hside : ∀ o : Option Hlc, (∀ r, o = some r → ctx'.Outranked r later) →
                laterOf ctx' o (some d) = some d := by
              intro o ho
              cases o with
              | none => rfl
              | some r =>
                  rw [laterOf, Option.merge_some_some,
                    keepGreatest_of_lt ((ho r rfl).key_lt_of_not hd)]
            exact .inl ((hside _ hs').trans (hside _ ht').symm)

/-- A kept set is alike to the set restored from what it shows. -/
theorem Kept.alike {version : T → Hlc} (h : Kept version ctx s) :
    Alike ctx s (ofElements version ctx (s.elements ctx)) := by
  have hmem : ∀ v, v ∈ s.elements ctx ↔ s.adds[v]? = some (version v) := by
    intro v
    rw [mem_elements]
    rcases h.clocks v with ⟨hadd, -⟩ | ⟨hadd, hrem⟩
    · simp [hadd]
    · rw [hadd]
      exact iff_of_true ⟨_, rfl, fun r hr => (hrem r hr).key_lt⟩ rfl
  refine ⟨Std.ExtTreeMap.ext_getElem? fun v => ?_, fun v => ?_⟩
  · rw [getElem?_adds_ofElements]
    simp only [hmem]
    rcases h.clocks v with ⟨hadd, -⟩ | ⟨hadd, -⟩
    · simp [hadd]
    · rw [hadd, if_pos rfl]
  · rw [removals_ofElements]
    rcases h.clocks v with ⟨-, hrem⟩ | ⟨hadd, hrem⟩
    · exact .inl (by simp [hrem])
    · exact .inr ⟨version v, hadd, hrem, by simp⟩

/-! ## Telling a set from the restored one -/

/-- The values shown after one more insertion of `v`. -/
theorem mem_elements_merge_insert {v : T} {clock : Hlc} :
    v ∈ (s.merge (OrSet.default.insert v clock ctx) ctx).elements ctx ↔
      ∃ add, laterOf ctx s.adds[v]? (some clock) = some add ∧
        ∀ r, s.removals[v]? = some r → ctx.key r < ctx.key add := by
  have hadds : (OrSet.default.insert v clock ctx).adds[v]? = some clock := by
    rw [OrSet.insert, getElem?_stamp_self]
    simp [OrSet.default, laterOf]
  have hremovals : (OrSet.default.insert v clock ctx).removals[v]? = none := by
    simp [OrSet.insert, OrSet.default]
  rw [mem_elements, getElem?_adds_merge, getElem?_removals_merge, hadds, hremovals]
  simp [laterOf]

/-- The values shown after one more removal of `v`. -/
theorem mem_elements_merge_remove {v : T} {clock : Hlc} :
    v ∈ (s.merge (OrSet.default.remove v clock ctx) ctx).elements ctx ↔
      ∃ add, s.adds[v]? = some add ∧
        ∀ r, laterOf ctx s.removals[v]? (some clock) = some r → ctx.key r < ctx.key add := by
  have hadds : (OrSet.default.remove v clock ctx).adds[v]? = none := by
    simp [OrSet.remove, OrSet.default]
  have hremovals : (OrSet.default.remove v clock ctx).removals[v]? = some clock := by
    rw [OrSet.remove, getElem?_stamp_self]
    simp [OrSet.default, laterOf]
  rw [mem_elements, getElem?_adds_merge, getElem?_removals_merge, hadds, hremovals]
  simp [laterOf]

variable {version : T → Hlc}

variable (version) in
/-- A value that the set hides and that has a removal comes back in the restored set with an insertion
at the clock of the removal. -/
theorem not_removed_of_hidden {v : T} (hidden : v ∉ s.elements ctx)
    (hinsert : ∀ clock, v ∈ (s.merge (OrSet.default.insert v clock ctx) ctx).elements ctx ↔
      v ∈ ((ofElements version ctx (s.elements ctx)).merge
        (OrSet.default.insert v clock ctx) ctx).elements ctx) : s.removals[v]? = none := by
  cases hrem : s.removals[v]? with
  | none => rfl
  | some r =>
      have hshown := (hinsert r).mpr (mem_elements_merge_insert.mpr ⟨r, by
        rw [getElem?_adds_ofElements, if_neg hidden]; rfl, by simp [removals_ofElements]⟩)
      obtain ⟨add, hadd, hlater⟩ := mem_elements_merge_insert.mp hshown
      have hr := hlater r hrem
      cases hold : s.adds[v]? with
      | none =>
          rw [hold] at hadd
          rw [← Option.some.inj hadd] at hr
          exact absurd hr (lt_irrefl _)
      | some old =>
          -- the old insertion is hidden by the removal, so neither of the two is later
          have hle : ctx.key old ≤ ctx.key r := by
            by_contra hlt
            exact hidden (mem_elements.mpr ⟨old, hold, fun r' hr' => by
              rw [← Option.some.inj (hrem.symm.trans hr')]; exact not_le.mp hlt⟩)
          rw [hold, laterOf, Option.merge_some_some] at hadd
          have hkey := key_keepGreatest ctx.key old r
          rw [Option.some.inj hadd, max_eq_right hle] at hkey
          rw [hkey] at hr
          exact absurd hr (lt_irrefl _)

/-- A value that the set shows was inserted under its version: a removal at the smaller of the two
clocks would tell. -/
theorem version_of_shown {v : T} {add : Hlc} (hadd : s.adds[v]? = some add)
    (hshown : v ∈ s.elements ctx)
    (hremove : ∀ clock, v ∈ (s.merge (OrSet.default.remove v clock ctx) ctx).elements ctx ↔
      v ∈ ((ofElements version ctx (s.elements ctx)).merge
        (OrSet.default.remove v clock ctx) ctx).elements ctx) : add = version v := by
  obtain ⟨add', hadd', hlater⟩ := mem_elements.mp hshown
  obtain rfl : add = add' := Option.some.inj (hadd.symm.trans hadd')
  have hrestored : ∀ clock, v ∈ ((ofElements version ctx (s.elements ctx)).merge
      (OrSet.default.remove v clock ctx) ctx).elements ctx ↔ ctx.key clock < ctx.key (version v) := by
    intro clock
    rw [mem_elements_merge_remove, getElem?_adds_ofElements, if_pos hshown, removals_ofElements]
    simp [laterOf]
  have hown : ∀ clock, v ∈ (s.merge (OrSet.default.remove v clock ctx) ctx).elements ctx ↔
      ctx.key clock < ctx.key add := by
    intro clock
    rw [mem_elements_merge_remove, hadd]
    cases hrem : s.removals[v]? with
    | none => simp [laterOf]
    | some r =>
        have hr := hlater r hrem
        have hkey := key_keepGreatest ctx.key r clock
        simp only [laterOf, Option.merge_some_some, Option.some.injEq, exists_eq_left', forall_eq']
        rw [hkey, max_lt_iff]
        exact and_iff_right hr
  rcases lt_trichotomy (ctx.key add) (ctx.key (version v)) with hlt | heq | hgt
  · exact absurd ((hown add).mp ((hremove add).mpr ((hrestored add).mpr hlt))) (lt_irrefl _)
  · exact ctx.key_injective heq
  · exact absurd ((hrestored _).mp ((hremove _).mp ((hown _).mpr hgt))) (lt_irrefl _)

end OrSet

/-! ## Snapshot and restore -/

/-- `NoeticSnapshot`: what is written of a state: the elements that are shown and the values, without
removals. -/
structure NoeticSnapshot (F : Type) where
  peer : PeerId
  credence : Std.ExtTreeMap PeerId F compare
  models : List ResonantModelHeader
  epochs : List EpochHeader
  seeds : List SeedHeader
  modelTopk : ResonantModelTopK
  seedStatus : SeedStatus
  seedStatusClock : Hlc
  policies : PolicyBundle

namespace NoeticState

variable {F : Type} [Credence F]

/-- `NoeticSnapshot::from`: the elements as this state shows them, with the values and their clocks. -/
def snapshot (state : NoeticState F) : NoeticSnapshot F :=
  let ctx := state.mergeContext none
  { peer := state.peer
    credence := state.credence
    models := state.models.elements ctx
    epochs := state.epochs.elements ctx
    seeds := state.seeds.elements ctx
    modelTopk := state.modelTopk.value
    seedStatus := state.seedStatus.value
    seedStatusClock := state.seedStatus.clock
    policies := state.policies.value }

/-- `NoeticState::restore`: a new state in which all that is written is added, each element under its
version. -/
def restore (snapshot : NoeticSnapshot F) : NoeticState F :=
  let state := { (new snapshot.peer : NoeticState F) with credence := snapshot.credence }
  let ctx := state.mergeContext none
  { state with
    models := snapshot.models.foldl (fun set model => set.insert model model.version ctx) state.models
    epochs := snapshot.epochs.foldl (fun set epoch => set.insert epoch epoch.version ctx) state.epochs
    seeds := snapshot.seeds.foldl (fun set seed => set.insert seed seed.version ctx) state.seeds
    modelTopk := ⟨snapshot.modelTopk, snapshot.modelTopk.updated⟩
    seedStatus := ⟨snapshot.seedStatus, snapshot.seedStatusClock⟩
    policies := ⟨snapshot.policies, snapshot.policies.version⟩ }

/-- The state after a restart from its snapshot. -/
def restored (state : NoeticState F) : NoeticState F := restore state.snapshot

/-- The states that the public operations, merges, and insertions and removals on the sets reach. -/
inductive Reachable : NoeticState F → Prop
  | new (peer : PeerId) : Reachable (new peer)
  | setCredence {s} (h : Reachable s) (peer : PeerId) (value : F) :
      Reachable (s.setCredence peer value)
  | merge {s t} (h : Reachable s) (h' : Reachable t) : Reachable (s.merge t)
  | applyModelHeader {s} (h : Reachable s) (header : ResonantModelHeader) :
      Reachable (s.applyModelHeader header)
  | applyEpoch {s} (h : Reachable s) (epoch : EpochHeader) : Reachable (s.applyEpoch epoch)
  | applySeed {s} (h : Reachable s) (seed : SeedHeader) : Reachable (s.applySeed seed)
  | updateSeedStatus {s} (h : Reachable s) (status : SeedStatus) (hlc : Hlc) :
      Reachable (s.updateSeedStatus status hlc)
  | updateModelTopk {s} (h : Reachable s) (entries : List String) (hlc : Hlc) :
      Reachable (s.updateModelTopk entries hlc)
  | updatePolicy {s} (h : Reachable s) (policy : PolicyBundle) : Reachable (s.updatePolicy policy)
  | insertModel {s} (h : Reachable s) (header : ResonantModelHeader) (clock : Hlc)
      (ctx : MergeContext F) : Reachable { s with models := s.models.insert header clock ctx }
  | removeModel {s} (h : Reachable s) (header : ResonantModelHeader) (clock : Hlc)
      (ctx : MergeContext F) : Reachable { s with models := s.models.remove header clock ctx }
  | insertEpoch {s} (h : Reachable s) (epoch : EpochHeader) (clock : Hlc)
      (ctx : MergeContext F) : Reachable { s with epochs := s.epochs.insert epoch clock ctx }
  | removeEpoch {s} (h : Reachable s) (epoch : EpochHeader) (clock : Hlc)
      (ctx : MergeContext F) : Reachable { s with epochs := s.epochs.remove epoch clock ctx }
  | insertSeed {s} (h : Reachable s) (seed : SeedHeader) (clock : Hlc)
      (ctx : MergeContext F) : Reachable { s with seeds := s.seeds.insert seed clock ctx }
  | removeSeed {s} (h : Reachable s) (seed : SeedHeader) (clock : Hlc)
      (ctx : MergeContext F) : Reachable { s with seeds := s.seeds.remove seed clock ctx }

/-- Two states show the same elements and register values. -/
structure SameView (a b : NoeticState F) : Prop where
  models : a.models.elements (a.mergeContext none) = b.models.elements (b.mergeContext none)
  epochs : a.epochs.elements (a.mergeContext none) = b.epochs.elements (b.mergeContext none)
  seeds : a.seeds.elements (a.mergeContext none) = b.seeds.elements (b.mergeContext none)
  modelTopk : a.modelTopk.value = b.modelTopk.value
  seedStatus : a.seedStatus.value = b.seedStatus.value
  policies : a.policies.value = b.policies.value

/-- A restart cannot be seen: the state and the restored one show the same after every sequence of
merges, and the restored clock is not smaller. -/
structure Transparent (s : NoeticState F) : Prop where
  view : ∀ others, (∀ t ∈ others, Reachable t) → SameView (s.mergeAll others) (s.restored.mergeAll others)
  clock : s.restored.clock.compare s.clock (s.mergeContext none) ≠ .lt

/-- What a restart needs: the clock is still at zero, and in each set everything is shown, under its
version, and removed only by outranked clocks. -/
structure Restorable (s : NoeticState F) : Prop where
  models : s.models.Kept ResonantModelHeader.version (contextOf s.credence)
  epochs : s.epochs.Kept EpochHeader.version (contextOf s.credence)
  seeds : s.seeds.Kept SeedHeader.version (contextOf s.credence)
  physMs : s.clock.physMs = 0
  log : s.clock.log = 0

/-! ## What the restored state keeps -/

/-- The registers carry the clock of their value, and the clock of the state is its peer's. -/
structure Stamped (s : NoeticState F) : Prop where
  node : s.clock.node = s.peer
  topk : s.modelTopk.value.updated = s.modelTopk.clock
  policies : s.policies.value.version = s.policies.clock

/-- The clocks of a state that can be reached are those that its steps have stamped. -/
theorem Reachable.stamped {s : NoeticState F} (h : Reachable s) : Stamped s := by
  have hmerge : ∀ {T : Type} {stamp : T → Hlc} {a b : Lww T} (ctx : MergeContext F),
      stamp a.value = a.clock → stamp b.value = b.clock →
      stamp (a.merge b ctx).value = (a.merge b ctx).clock := by
    intro T stamp a b ctx ha hb
    rw [Lww.merge_eq]
    rcases keepGreatest_eq_or (fun r : Lww T => ctx.key r.clock) a b with heq | heq
    · rw [heq]; exact ha
    · rw [heq]; exact hb
  induction h with
  | new peer => exact ⟨rfl, rfl, rfl⟩
  | merge _ _ ih ih' =>
      rw [merge_eq]
      exact ⟨rfl, hmerge _ ih.topk ih'.topk, hmerge _ ih.policies ih'.policies⟩
  | updateModelTopk _ entries hlc ih => exact ⟨ih.node, hmerge _ ih.topk rfl, ih.policies⟩
  | updatePolicy _ policy ih => exact ⟨ih.node, ih.topk, hmerge _ ih.policies rfl⟩
  | setCredence _ _ _ ih => exact ⟨ih.node, ih.topk, ih.policies⟩
  | applyModelHeader _ _ ih => exact ⟨ih.node, ih.topk, ih.policies⟩
  | applyEpoch _ _ ih => exact ⟨ih.node, ih.topk, ih.policies⟩
  | applySeed _ _ ih => exact ⟨ih.node, ih.topk, ih.policies⟩
  | updateSeedStatus _ _ _ ih => exact ⟨ih.node, ih.topk, ih.policies⟩
  | insertModel _ _ _ _ ih => exact ⟨ih.node, ih.topk, ih.policies⟩
  | removeModel _ _ _ _ ih => exact ⟨ih.node, ih.topk, ih.policies⟩
  | insertEpoch _ _ _ _ ih => exact ⟨ih.node, ih.topk, ih.policies⟩
  | removeEpoch _ _ _ _ ih => exact ⟨ih.node, ih.topk, ih.policies⟩
  | insertSeed _ _ _ _ ih => exact ⟨ih.node, ih.topk, ih.policies⟩
  | removeSeed _ _ _ _ ih => exact ⟨ih.node, ih.topk, ih.policies⟩

/-- The restored state, in the terms of the state. -/
theorem restored_eq (s : NoeticState F) :
    s.restored = { peer := s.peer
                   clock := Hlc.new s.peer 0
                   models := .ofElements ResonantModelHeader.version (contextOf s.credence)
                     (s.models.elements (contextOf s.credence))
                   modelTopk := ⟨s.modelTopk.value, s.modelTopk.value.updated⟩
                   epochs := .ofElements EpochHeader.version (contextOf s.credence)
                     (s.epochs.elements (contextOf s.credence))
                   seeds := .ofElements SeedHeader.version (contextOf s.credence)
                     (s.seeds.elements (contextOf s.credence))
                   seedStatus := s.seedStatus
                   policies := ⟨s.policies.value, s.policies.value.version⟩
                   credence := s.credence } := by
  simp only [restored, restore, snapshot, mergeContext_none]
  rfl

/-! ## Merging keeps a restorable state and the restored one alike -/

/-- Joining credences takes none away, so that a peer with the greatest one keeps it. -/
theorem topped_joinCredence {credence : Std.ExtTreeMap PeerId F compare} {peer : PeerId}
    (h : (contextOf credence).Topped peer) (other : Std.ExtTreeMap PeerId F compare) :
    (contextOf (joinCredence credence other)).Topped peer := by
  obtain ⟨top, htop, hle⟩ := h
  refine ⟨top, ?_, hle⟩
  have hentry : credence[peer]? = some top := htop
  show (joinCredence credence other)[peer]? = some top
  rw [getElem?_joinCredence, hentry]
  cases other[peer]? with
  | none => rfl
  | some value => rw [Option.merge_some_some, max_eq_left (hle value)]

/-- Two states with equal credences and registers whose sets are alike. -/
structure Twins (a b : NoeticState F) : Prop where
  credence : a.credence = b.credence
  models : a.models.Alike (contextOf a.credence) b.models
  epochs : a.epochs.Alike (contextOf a.credence) b.epochs
  seeds : a.seeds.Alike (contextOf a.credence) b.seeds
  modelTopk : a.modelTopk = b.modelTopk
  seedStatus : a.seedStatus = b.seedStatus
  policies : a.policies = b.policies

/-- Two states that differ in nothing that any merge can bring to light do not either after both have merged a
third. -/
theorem Twins.merge {a b : NoeticState F} (h : Twins a b) (t : NoeticState F) :
    Twins (a.merge t) (b.merge t) := by
  have hgrow : ∀ peer, (contextOf a.credence).Topped peer →
      (contextOf (joinCredence a.credence t.credence)).Topped peer :=
    fun peer hpeer => topped_joinCredence hpeer t.credence
  rw [merge_eq, merge_eq, ← h.credence, ← h.modelTopk, ← h.seedStatus, ← h.policies]
  exact ⟨rfl, h.models.merge _ hgrow, h.epochs.merge _ hgrow, h.seeds.merge _ hgrow, rfl, rfl, rfl⟩

/-- By induction over the merges, nor after all of them. -/
theorem Twins.mergeAll {a b : NoeticState F} (h : Twins a b) (others : List (NoeticState F)) :
    Twins (a.mergeAll others) (b.mergeAll others) := by
  induction others generalizing a b with
  | nil => exact h
  | cons t others ih => exact ih (h.merge t)

/-- Two such states show the same. -/
theorem Twins.sameView {a b : NoeticState F} (h : Twins a b) : SameView a b where
  models := by rw [mergeContext_none, mergeContext_none, ← h.credence, h.models.elements_eq]
  epochs := by rw [mergeContext_none, mergeContext_none, ← h.credence, h.epochs.elements_eq]
  seeds := by rw [mergeContext_none, mergeContext_none, ← h.credence, h.seeds.elements_eq]
  modelTopk := congrArg Lww.value h.modelTopk
  seedStatus := congrArg Lww.value h.seedStatus
  policies := congrArg Lww.value h.policies

/-- A state that meets the condition and the one that is restored from its snapshot are such states. -/
theorem Restorable.twins {s : NoeticState F} (h : Restorable s) (hs : Stamped s) :
    Twins s s.restored := by
  rw [restored_eq]
  exact ⟨rfl, h.models.alike, h.epochs.alike, h.seeds.alike, by rw [hs.topk], rfl, by rw [hs.policies]⟩

/-- So restoring it cannot be seen after any merges. -/
theorem Restorable.transparent {s : NoeticState F} (h : Restorable s) (hs : Reachable s) :
    Transparent s where
  view others _ := ((h.twins hs.stamped).mergeAll others).sameView
  clock := by
    have hclock : s.restored.clock = s.clock := by
      rw [restored_eq]
      show Hlc.mk 0 0 s.peer = s.clock
      rw [← h.physMs, ← h.log, ← hs.stamped.node]
    rw [hclock, Hlc.compare_ne_lt]

/-! ## What later merges can tell -/

section Raise

variable {credence : Std.ExtTreeMap PeerId F compare} {peer other : PeerId} {value : F}

/-- Raising the credence of one peer leaves that of the others. -/
theorem credenceFor_raise_of_ne (h : other ≠ peer) :
    (contextOf (joinCredence credence ((∅ : Std.ExtTreeMap PeerId F compare).insert peer value))).credenceFor
      other = (contextOf credence).credenceFor other := by
  have hentry : ((∅ : Std.ExtTreeMap PeerId F compare).insert peer value)[other]? = none := by
    rw [Std.ExtTreeMap.getElem?_insert, if_neg (by simpa using h.symm), Std.ExtTreeMap.getElem?_empty]
  simp only [contextOf, MergeContext.credenceFor, getElem?_joinCredence, hentry,
    Option.merge_none_right]

/-- The peer has at least the credence that was raised to. -/
theorem le_credenceFor_raise : value ≤ (contextOf (joinCredence credence
    ((∅ : Std.ExtTreeMap PeerId F compare).insert peer value))).credenceFor peer := by
  simp only [contextOf, MergeContext.credenceFor, getElem?_joinCredence,
    Std.ExtTreeMap.getElem?_insert_self]
  cases credence[peer]? with
  | none => exact le_rfl
  | some old => exact le_max_right old value

/-- Only a recorded credence is the greatest of all. -/
theorem topped_of_isTop (h : IsTop ((contextOf credence).credenceFor peer)) :
    (contextOf credence).Topped peer := by
  cases hentry : credence[peer]? with
  | some top =>
      refine ⟨top, hentry, ?_⟩
      simpa [contextOf, MergeContext.credenceFor, hentry] using h
  | none =>
      obtain ⟨x, hx⟩ := Credence.exists_half_lt (F := F)
      refine absurd (h x) (not_le.mpr ?_)
      simpa [contextOf, MergeContext.credenceFor, hentry] using hx

end Raise

/-- A set of headers that a snapshot lists and `restore` inserts again, and that a peer can change
alone. -/
structure IsRestoredSet {T : Type} [LinearOrder T] (version : T → Hlc)
    (headers : NoeticState F → OrSet T) : Prop extends IsHeaderSet headers where
  restored : ∀ s, headers s.restored = .ofElements version (contextOf s.credence)
    ((headers s).elements (contextOf s.credence))
  new : ∀ peer, headers (new peer) = .default
  setCredence : ∀ s peer value, headers (s.setCredence peer value) = headers s
  insert : ∀ s v clock (ctx : MergeContext F), Reachable s →
    ∃ t, Reachable t ∧ t.credence = s.credence ∧ headers t = (headers s).insert v clock ctx
  remove : ∀ s v clock (ctx : MergeContext F), Reachable s →
    ∃ t, Reachable t ∧ t.credence = s.credence ∧ headers t = (headers s).remove v clock ctx

/-- The models are one of the three sets of headers that a snapshot restores. -/
theorem isRestoredSet_models : IsRestoredSet (F := F) ResonantModelHeader.version models where
  merge s t := by rw [merge_eq]
  restored s := by rw [restored_eq]
  new _ := rfl
  setCredence _ _ _ := rfl
  insert _ v clock ctx h := ⟨_, h.insertModel v clock ctx, rfl, rfl⟩
  remove _ v clock ctx h := ⟨_, h.removeModel v clock ctx, rfl, rfl⟩

/-- The epochs are the second of them. -/
theorem isRestoredSet_epochs : IsRestoredSet (F := F) EpochHeader.version epochs where
  merge s t := by rw [merge_eq]
  restored s := by rw [restored_eq]
  new _ := rfl
  setCredence _ _ _ := rfl
  insert _ v clock ctx h := ⟨_, h.insertEpoch v clock ctx, rfl, rfl⟩
  remove _ v clock ctx h := ⟨_, h.removeEpoch v clock ctx, rfl, rfl⟩

/-- The seeds are the third. -/
theorem isRestoredSet_seeds : IsRestoredSet (F := F) SeedHeader.version seeds where
  merge s t := by rw [merge_eq]
  restored s := by rw [restored_eq]
  new _ := rfl
  setCredence _ _ _ := rfl
  insert _ v clock ctx h := ⟨_, h.insertSeed v clock ctx, rfl, rfl⟩
  remove _ v clock ctx h := ⟨_, h.removeSeed v clock ctx, rfl, rfl⟩

section Telling

variable {T : Type} [LinearOrder T] {version : T → Hlc} {headers : NoeticState F → OrSet T}
  {s : NoeticState F}

/-- Later merges do not tell the set from the restored one. -/
def Untold (headers : NoeticState F → OrSet T) (s : NoeticState F) : Prop :=
  ∀ others, (∀ t ∈ others, Reachable t) → ∀ v,
    v ∈ (headers (s.mergeAll others)).elements (contextOf (s.mergeAll others).credence) ↔
      v ∈ (headers (s.restored.mergeAll others)).elements (contextOf (s.restored.mergeAll others).credence)

/-- The state of a peer that has only set its own credence. -/
def raised (peer : PeerId) (value : F) : NoeticState F := (new peer).setCredence peer value

/-- A state that knows nothing but a credence of one peer can be reached. -/
theorem reachable_raised (peer : PeerId) (value : F) : Reachable (raised peer value) :=
  .setCredence (.new peer) peer value

/-- Merging it does to the credences what raising the credence of the peer does. -/
theorem credence_merge_raised (s : NoeticState F) (peer : PeerId) (value : F) :
    (s.merge (raised peer value)).credence =
      joinCredence s.credence ((∅ : Std.ExtTreeMap PeerId F compare).insert peer value) := by
  rw [merge_eq]
  rfl

/-- Merging it leaves each of the three sets as it is. -/
theorem IsRestoredSet.merge_raised (h : IsRestoredSet version headers) (s : NoeticState F)
    (peer : PeerId) (value : F) : headers (s.merge (raised peer value)) = headers s := by
  have hblank : headers (raised peer value) = .default := (h.setCredence _ _ _).trans (h.new peer)
  rw [h.merge, hblank]
  refine OrSet.ext_getElem? (fun v => ?_) (fun v => ?_)
  · rw [OrSet.getElem?_adds_merge]
    simp [OrSet.default, laterOf]
  · rw [OrSet.getElem?_removals_merge]
    simp [OrSet.default, laterOf]

/-- One merge with a state that knows no credences. -/
theorem IsRestoredSet.untold_merge (h : IsRestoredSet version headers) (huntold : Untold headers s)
    {t : NoeticState F} (ht : Reachable t) (hcredence : t.credence = ∅) (v : T) :
    v ∈ ((headers s).merge (headers t) (contextOf s.credence)).elements (contextOf s.credence) ↔
      v ∈ ((OrSet.ofElements version (contextOf s.credence)
        ((headers s).elements (contextOf s.credence))).merge (headers t)
          (contextOf s.credence)).elements (contextOf s.credence) := by
  have hjoin : joinCredence s.credence t.credence = s.credence := by
    refine Std.ExtTreeMap.ext_getElem? fun peer => ?_
    rw [getElem?_joinCredence, hcredence]
    simp
  have hrestored : s.restored.credence = s.credence := by rw [restored_eq]
  have hone := huntold [t] (by simpa using ht) v
  simp only [mergeAll, List.foldl_cons, List.foldl_nil, h.merge, h.restored, hrestored, hjoin] at hone
  have hc : (s.merge t).credence = s.credence := by rw [merge_eq]; exact hjoin
  have hc' : (s.restored.merge t).credence = s.credence := by
    rw [merge_eq]
    show joinCredence s.restored.credence t.credence = _
    rw [hrestored, hjoin]
  rwa [hc, hc'] at hone

/-- The restored state has the value under its version, and no removal. -/
theorem IsRestoredSet.restored_of_shown (h : IsRestoredSet version headers) {v : T}
    (hshown : v ∈ (headers s).elements (contextOf s.credence)) :
    (headers s.restored).adds[v]? = some (version v) ∧ (headers s.restored).removals[v]? = none := by
  rw [h.restored, OrSet.getElem?_adds_ofElements, if_pos hshown, OrSet.removals_ofElements]
  simp

section Tie

variable {v : T} {r : Hlc} (h : IsRestoredSet version headers) (huntold : Untold headers s)
  (hadd : (headers s).adds[v]? = some (version v)) (hrem : (headers s).removals[v]? = some r)
  (hshown : v ∈ (headers s).elements (contextOf s.credence))

include h huntold hadd hrem hshown

/-- Raising the credence of the node of the removal does not hide the value. -/
theorem IsRestoredSet.key_lt_raised (x : F) :
    let ctx := contextOf (joinCredence s.credence
      ((∅ : Std.ExtTreeMap PeerId F compare).insert r.node x))
    ctx.key r < ctx.key (version v) := by
  intro ctx
  obtain ⟨hadd', hrem'⟩ := h.restored_of_shown hshown
  have hone := (huntold [raised r.node x] (by simpa using reachable_raised r.node x) v).mpr <| by
    show v ∈ (headers (s.restored.merge _)).elements _
    rw [h.merge_raised, OrSet.mem_elements]
    exact ⟨_, hadd', by simp [hrem']⟩
  have hown : v ∈ (headers (s.merge (raised r.node x))).elements
      (contextOf (s.merge (raised r.node x)).credence) := hone
  rw [h.merge_raised, credence_merge_raised, OrSet.mem_elements] at hown
  obtain ⟨add, hadd'', hlater⟩ := hown
  obtain rfl := Option.some.inj (hadd.symm.trans hadd'')
  exact hlater r hrem

/-- So the value is inserted by a peer with the greatest credence, above the node of the removal. -/
theorem IsRestoredSet.topped_of_tie (htie : r.level = (version v).level) :
    IsTop ((contextOf s.credence).credenceFor (version v).node) ∧ r.node < (version v).node := by
  have hne : (version v).node ≠ r.node := by
    intro heq
    have hraise := h.key_lt_raised huntold hadd hrem hshown Credence.half
    rw [Hlc.key_lt_of_tie htie, heq] at hraise
    exact hraise.elim (lt_irrefl _) fun hnode => lt_irrefl _ hnode.2
  have hraise : ∀ x, x < (contextOf s.credence).credenceFor (version v).node ∨
      x ≤ (contextOf s.credence).credenceFor (version v).node ∧ r.node < (version v).node := by
    intro x
    have hlt := h.key_lt_raised huntold hadd hrem hshown x
    rw [Hlc.key_lt_of_tie htie, credenceFor_raise_of_ne hne] at hlt
    exact hlt.imp le_credenceFor_raise.trans_lt
      fun hnode => ⟨le_credenceFor_raise.trans_eq hnode.1, hnode.2⟩
  refine ⟨fun x => (hraise x).elim le_of_lt And.left, ?_⟩
  exact ((hraise _).resolve_left (lt_irrefl _)).2

/-- And every peer above has the greatest credence too: otherwise a removal by such a peer, tied with
the first, is lost in the state and not in the restored one. -/
theorem IsRestoredSet.topped_above (htie : r.level = (version v).level) {peer : PeerId}
    (hpeer : (version v).node < peer) : (contextOf s.credence).Topped peer := by
  obtain ⟨htop, hnode⟩ := h.topped_of_tie huntold hadd hrem hshown htie
  obtain ⟨hadd', hrem'⟩ := h.restored_of_shown hshown
  have hrestored : s.restored.credence = s.credence := by rw [restored_eq]
  refine topped_of_isTop ?_
  by_contra hlow
  set top := (contextOf s.credence).credenceFor (version v).node with htopdef
  have hlow' : (contextOf s.credence).credenceFor peer < top := by
    by_contra hge
    exact hlow fun x => (htop x).trans (not_lt.mp hge)
  set d : Hlc := { version v with node := peer } with hd
  have hdtie : d.level = (version v).level := rfl
  obtain ⟨u, hu, hucredence, huheaders⟩ :=
    h.remove (raised r.node top) v d (contextOf s.credence) (reachable_raised r.node top)
  have hu' : u.credence = (∅ : Std.ExtTreeMap PeerId F compare).insert r.node top := hucredence
  have hublank : headers u = OrSet.default.remove v d (contextOf s.credence) := by
    rw [huheaders]
    congr 1
    exact (h.setCredence _ _ _).trans (h.new _)
  have huadds : (headers u).adds[v]? = none := by simp [hublank, OrSet.remove, OrSet.default]
  have huremovals : (headers u).removals[v]? = some d := by
    rw [hublank, OrSet.remove, getElem?_stamp_self]
    simp [OrSet.default, laterOf]
  -- the credences after the two merges
  set first := joinCredence s.credence ((∅ : Std.ExtTreeMap PeerId F compare).insert r.node top)
    with hfirst
  set second := joinCredence first ((∅ : Std.ExtTreeMap PeerId F compare).insert peer top)
    with hsecond
  have hr : (contextOf first).credenceFor r.node = top := le_antisymm (htop _) le_credenceFor_raise
  have hp : (contextOf first).credenceFor peer < top := by
    rwa [hfirst, credenceFor_raise_of_ne (hnode.trans hpeer).ne']
  have hr2 : (contextOf second).credenceFor r.node = top := by
    rw [hsecond, credenceFor_raise_of_ne (hnode.trans hpeer).ne, hr]
  have hv2 : (contextOf second).credenceFor (version v).node = top := by
    rw [hsecond, credenceFor_raise_of_ne hpeer.ne, hfirst, credenceFor_raise_of_ne hnode.ne']
  have hp2 : (contextOf second).credenceFor peer = top := le_antisymm (htop _) le_credenceFor_raise
  have hcredence : (s.merge u).credence = first := by
    rw [merge_eq]
    show joinCredence s.credence u.credence = first
    rw [hu']
  have hcredence' : (s.restored.merge u).credence = first := by
    rw [merge_eq]
    show joinCredence s.restored.credence u.credence = first
    rw [hrestored, hu']
  have htwo := huntold [u, raised peer top]
    (by simpa using ⟨hu, reachable_raised peer top⟩) v
  have hsplit : ∀ s : NoeticState F, s.mergeAll [u, raised peer top] =
      (s.merge u).merge (raised peer top) := fun _ => rfl
  rw [hsplit, hsplit, h.merge_raised, h.merge_raised, credence_merge_raised, credence_merge_raised,
    hcredence, hcredence', h.merge, h.merge, hrestored, hu', ← hfirst, ← hsecond,
    OrSet.mem_elements, OrSet.mem_elements, OrSet.getElem?_adds_merge, OrSet.getElem?_adds_merge,
    OrSet.getElem?_removals_merge, OrSet.getElem?_removals_merge, huadds, huremovals, hadd, hadd',
    hrem, hrem'] at htwo
  have hkeep : laterOf (contextOf first) (some r) (some d) = some r := by
    rw [laterOf_comm, laterOf, Option.merge_some_some, keepGreatest_of_lt]
    rw [Hlc.key_lt_of_tie (hdtie.trans htie.symm), hr]
    exact .inl hp
  rw [hkeep] at htwo
  obtain ⟨add, hadd'', hlater⟩ := htwo.mp ⟨version v, rfl, fun r' hr' => by
    rw [← Option.some.inj hr', Hlc.key_lt_of_tie htie, hr2, hv2]
    exact .inr ⟨rfl, hnode⟩⟩
  have hlost := hlater d rfl
  rw [← Option.some.inj hadd'', Hlc.key_lt_of_tie hdtie, hv2] at hlost
  rcases hlost with hlt | ⟨-, hlt⟩
  · exact absurd hlt (by rw [hp2]; exact lt_irrefl _)
  · exact absurd hlt hpeer.not_gt

end Tie

/-- **One set of headers.** When later merges do not tell, the set is kept. -/
theorem IsRestoredSet.kept (h : IsRestoredSet version headers) (huntold : Untold headers s) :
    (headers s).Kept version (contextOf s.credence) := by
  refine ⟨fun v => ?_⟩
  by_cases hshown : v ∈ (headers s).elements (contextOf s.credence)
  · obtain ⟨add, hadd, hlater⟩ := OrSet.mem_elements.mp hshown
    have hversion : add = version v := by
      refine OrSet.version_of_shown hadd hshown fun clock => ?_
      obtain ⟨t, ht, hcredence, hheaders⟩ := h.remove (NoeticState.new s.peer) v clock
        (contextOf s.credence) (.new s.peer)
      rw [← h.new s.peer, ← hheaders]
      exact h.untold_merge huntold ht hcredence v
    rw [hversion] at hadd hlater
    refine .inr ⟨hadd, fun r hrem => ?_⟩
    rw [MergeContext.outranked_iff]
    rcases (Hlc.level_le_of_key_le (hlater r hrem).le).lt_or_eq with hlevel | htie
    · exact .inl hlevel
    · obtain ⟨htop, hnode⟩ := h.topped_of_tie huntold hadd hrem hshown htie
      refine .inr ⟨htie, hnode, fun peer hpeer => ?_⟩
      rcases hpeer.eq_or_lt with rfl | hlt
      · exact topped_of_isTop htop
      · exact h.topped_above huntold hadd hrem hshown htie hlt
  · have hremovals : (headers s).removals[v]? = none := by
      refine OrSet.not_removed_of_hidden version hshown fun clock => ?_
      obtain ⟨t, ht, hcredence, hheaders⟩ := h.insert (NoeticState.new s.peer) v clock
        (contextOf s.credence) (.new s.peer)
      rw [← h.new s.peer, ← hheaders]
      exact h.untold_merge huntold ht hcredence v
    refine .inl ⟨?_, hremovals⟩
    cases hadd : (headers s).adds[v]? with
    | none => rfl
    | some add => exact absurd (OrSet.mem_elements.mpr ⟨add, hadd, by simp [hremovals]⟩) hshown

end Telling

/-- Where restoring cannot be seen after any merge the condition holds: a merge that raises a credence would
show what it rules out. -/
theorem Transparent.restorable {s : NoeticState F} (h : Transparent s) : Restorable s := by
  have hview := h.view
  have hclock := h.clock
  rw [Hlc.compare_ne_lt, restored_eq] at hclock
  have hlevel : s.clock.level ≤ (Hlc.new s.peer 0).level := Hlc.level_le_of_key_le hclock
  have hzero : s.clock.level = (Hlc.new s.peer 0).level := by
    refine le_antisymm hlevel ?_
    rw [Hlc.level, Hlc.level, Prod.Lex.toLex_le_toLex]
    exact (Nat.zero_le s.clock.physMs.toNat).lt_or_eq.imp_right fun heq => ⟨heq, Nat.zero_le _⟩
  obtain ⟨hphys, hlog⟩ := Hlc.level_eq_iff.mp hzero
  refine ⟨?_, ?_, ?_, hphys, hlog⟩
  · refine isRestoredSet_models.kept fun others hothers v => ?_
    rw [← mergeContext_none, ← mergeContext_none, (hview others hothers).models]
  · refine isRestoredSet_epochs.kept fun others hothers v => ?_
    rw [← mergeContext_none, ← mergeContext_none, (hview others hothers).epochs]
  · refine isRestoredSet_seeds.kept fun others hothers v => ?_
    rw [← mergeContext_none, ← mergeContext_none, (hview others hothers).seeds]

/-- **When a restart cannot be seen.** For a reachable state, running any sequence of merges on it and
on the state restored from its snapshot shows the same, and the restored clock is not smaller, exactly
when the clock is still at zero and the sets have hidden nothing that a later merge could bring up. -/
theorem restore_transparent_iff {s : NoeticState F} (hs : Reachable s) :
    Transparent s ↔ Restorable s :=
  ⟨Transparent.restorable, fun h => h.transparent hs⟩

/-- The header of a model, stamped at time ten by its creator. -/
def sampleModel : ResonantModelHeader := ⟨"m", ⟨10, 0, samplePeer 1⟩, "h", samplePeer 1⟩

/-- A peer that has inserted one model. -/
def oneModel : NoeticState ℚ := (new (samplePeer 1)).applyModelHeader sampleModel

/-- A state with one model, inserted under the clock of its header, may be restored unseen. -/
theorem restore_transparent_one_model : Reachable oneModel ∧ Restorable oneModel ∧ Transparent oneModel := by
  have hreachable : Reachable oneModel := .applyModelHeader (.new _) _
  have hrestorable : Restorable oneModel := by
    refine ⟨⟨fun v => ?_⟩, ⟨fun v => .inl ?_⟩, ⟨fun v => .inl ?_⟩, rfl, rfl⟩
    · have hadds : oneModel.models.adds[v]? =
          if v = sampleModel then some v.version else none := by
        show (stamp _ sampleModel _ _)[v]? = _
        split_ifs with hv
        · rw [hv, getElem?_stamp_self]
          simp [new, OrSet.default, laterOf]
        · rw [getElem?_stamp_of_ne _ _ hv]
          simp [new, OrSet.default]
      have hremovals : oneModel.models.removals[v]? = none := by
        simp [oneModel, applyModelHeader, OrSet.insert, new, OrSet.default]
      rw [hadds]
      split_ifs
      · exact .inr ⟨rfl, by simp [hremovals]⟩
      · exact .inl ⟨rfl, hremovals⟩
    · simp [oneModel, applyModelHeader, new, OrSet.default]
    · simp [oneModel, applyModelHeader, new, OrSet.default]
  exact ⟨hreachable, hrestorable, (restore_transparent_iff hreachable).mpr hrestorable⟩

/-- A peer that has inserted a model and removed it again. -/
def removedModel : NoeticState ℚ :=
  { oneModel with models := oneModel.models.remove sampleModel ⟨20, 0, samplePeer 1⟩ evenContext }

/-- Merged with a state that still has the old insertion, the restored state shows the removed model
again; and a state that has merged another stamps below its clock after the restart. -/
theorem not_transparent_removed_model : Reachable removedModel ∧ Reachable oneModel ∧
    (removedModel.mergeAll [oneModel]).models.elements
      ((removedModel.mergeAll [oneModel]).mergeContext none) = [] ∧
    (removedModel.restored.mergeAll [oneModel]).models.elements
      ((removedModel.restored.mergeAll [oneModel]).mergeContext none) =
        [sampleModel] ∧
    (oneModel.merge oneModel).restored.clock.compare (oneModel.merge oneModel).clock
      ((oneModel.merge oneModel).mergeContext none) = .lt ∧
    ¬ Transparent removedModel := by
  have hreachable : Reachable oneModel := .applyModelHeader (.new _) _
  have hremoved : Reachable removedModel := .removeModel hreachable _ _ _
  have hhidden : (removedModel.mergeAll [oneModel]).models.elements
      ((removedModel.mergeAll [oneModel]).mergeContext none) = [] := by decide +kernel
  have hback : (removedModel.restored.mergeAll [oneModel]).models.elements
      ((removedModel.restored.mergeAll [oneModel]).mergeContext none) =
        [sampleModel] := by decide +kernel
  refine ⟨hremoved, hreachable, hhidden, hback, by decide +kernel, fun htransparent => ?_⟩
  have hsame := (htransparent.view [oneModel] (by simpa using hreachable)).models
  rw [hhidden, hback] at hsame
  exact absurd hsame (by simp)

end NoeticState

end LiminalDB
