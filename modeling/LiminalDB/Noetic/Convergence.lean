import LiminalDB.Noetic.State
import Mathlib.Order.WithBot

/-! # When the noetic states converge

The credences of two replicas that have merged the same states agree, and so do the header sets, as
long as nobody removes from them. The clock of a register is a `GrowingRegister`: every merge compares
under the credences joined so far, and a tie that was decided under few credences is not decided again
under more. `noetic_converges_iff` says exactly when the three registers agree whatever the order. -/

namespace LiminalDB

namespace NoeticState

variable {F : Type} [Credence F]

/-- The states that peers produce. -/
inductive Produced : NoeticState F → Prop
  | new (peer : PeerId) : Produced (new peer)
  | setCredence {s} (h : Produced s) (peer : PeerId) (value : F) : Produced (s.setCredence peer value)
  | merge {s t} (h : Produced s) (h' : Produced t) : Produced (s.merge t)
  | applyModelHeader {s} (h : Produced s) (header : ResonantModelHeader) :
      Produced (s.applyModelHeader header)
  | applyEpoch {s} (h : Produced s) (epoch : EpochHeader) : Produced (s.applyEpoch epoch)
  | applySeed {s} (h : Produced s) (seed : SeedHeader) : Produced (s.applySeed seed)
  | updateSeedStatus {s} (h : Produced s) (status : SeedStatus) (hlc : Hlc) :
      Produced (s.updateSeedStatus status hlc)
  | updateModelTopk {s} (h : Produced s) (entries : List String) (hlc : Hlc) :
      Produced (s.updateModelTopk entries hlc)
  | updatePolicy {s} (h : Produced s) (policy : PolicyBundle) : Produced (s.updatePolicy policy)

/-- Merge the states of a list one after another. -/
def mergeAll (start : NoeticState F) (states : List (NoeticState F)) : NoeticState F :=
  states.foldl merge start

/-- Two replicas agree: they hold the same credences and show the same. -/
structure Agree (a b : NoeticState F) : Prop extends SameContent a b where
  credence : a.credence = b.credence

/-- Two replicas that start from `start` and merge each of the states at least once, in any order and
any number of times, agree. -/
def Converges (start : NoeticState F) (states : List (NoeticState F)) : Prop :=
  ∀ l l', (∀ s, s ∈ l ↔ s ∈ states) → (∀ s, s ∈ l' ↔ s ∈ states) →
    Agree (start.mergeAll l) (start.mergeAll l')

/-- Equal clocks of a register carry equal values. -/
def EqualClocksEqualValues {T : Type} (register : NoeticState F → Lww T)
    (states : List (NoeticState F)) : Prop :=
  ∀ s ∈ states, ∀ t ∈ states, (register s).clock = (register t).clock →
    (register s).value = (register t).value

/-! ## Credences -/

/-- The credences as a function: a peer without one is below all others. -/
def credences (s : NoeticState F) : PeerId → WithBot F := fun peer => s.credence[peer]?

/-- The credences of a merge are the larger of the two, peer by peer. -/
theorem credences_merge (s t : NoeticState F) :
    (s.merge t).credences = s.credences ⊔ t.credences := by
  funext peer
  have hsup : ∀ a b : WithBot F, Option.merge max a b = a ⊔ b := by
    intro a b
    cases a with
    | bot => exact Option.merge_none_left.trans (bot_sup_eq b).symm
    | coe a =>
        cases b with
        | bot => exact Option.merge_none_right.trans (sup_bot_eq (a : WithBot F)).symm
        | coe b => rfl
  rw [Pi.sup_apply, merge_eq]
  exact (getElem?_joinCredence s.credence t.credence peer).trans (hsup _ _)

/-- After merging some states they are the largest among all of them. -/
theorem credences_mergeAll (start : NoeticState F) (l : List (NoeticState F)) :
    (start.mergeAll l).credences = joined credences start.credences l := by
  induction l generalizing start with
  | nil => rfl
  | cons s l ih => rw [mergeAll, List.foldl_cons, ← mergeAll, ih, credences_merge]; rfl

/-- They do not depend on the order in which states are merged, nor on how often. -/
theorem credence_mergeAll_congr {start : NoeticState F} {l l' : List (NoeticState F)}
    (h : ∀ s, s ∈ l ↔ s ∈ l') : (start.mergeAll l).credence = (start.mergeAll l').credence := by
  have hsame : (start.mergeAll l).credences = (start.mergeAll l').credences := by
    rw [credences_mergeAll, credences_mergeAll, joined_congr h]
  exact Std.ExtTreeMap.ext_getElem? fun peer => congrFun hsame peer

end NoeticState

/-! ## Sets without removals -/

namespace OrSet

variable {F : Type} [LinearOrder F] {T : Type} [LinearOrder T]

/-- A set of headers that nothing was removed from: every header is in it under its own version. -/
structure Grown (version : T → Hlc) (s : OrSet T) : Prop where
  adds : ∀ v clock, s.adds[v]? = some clock → clock = version v
  removals : s.removals = ∅

variable {version : T → Hlc} {s t : OrSet T}

/-- An empty set has grown without an insertion. -/
theorem Grown.default (version : T → Hlc) : Grown version (OrSet.default : OrSet T) := by
  refine ⟨fun v clock h => ?_, rfl⟩
  simp [OrSet.default] at h

/-- A map in which every value is stamped with its own version keeps that. -/
theorem laterOf_version {version c : Hlc} {a b : Option Hlc} {ctx : MergeContext F}
    (ha : ∀ clock, a = some clock → clock = version) (hb : ∀ clock, b = some clock → clock = version)
    (h : laterOf ctx a b = some c) : c = version := by
  have hcases := Option.merge_eq_or_eq (keepGreatest_eq_or ctx.key) a b
  unfold laterOf at h
  rcases hcases with heq | heq
  · exact ha c (heq.symm.trans h)
  · exact hb c (heq.symm.trans h)

/-- An insertion under the clock that belongs to the value lets a set grow. -/
theorem Grown.insert (h : Grown version s) (v : T) (ctx : MergeContext F) :
    Grown version (s.insert v (version v) ctx) := by
  refine ⟨fun w clock hw => ?_, h.removals⟩
  by_cases hv : w = v
  · subst hv
    rw [OrSet.insert, getElem?_stamp_self] at hw
    exact laterOf_version (h.adds w) (fun _ heq => (Option.some.inj heq).symm) hw
  · rw [OrSet.insert, getElem?_stamp_of_ne _ ctx hv] at hw
    exact h.adds w clock hw

/-- A merge of two grown sets has grown from the insertions of both. -/
theorem Grown.merge (hs : Grown version s) (ht : Grown version t) (ctx : MergeContext F) :
    Grown version (s.merge t ctx) := by
  refine ⟨fun v clock h => ?_, ?_⟩
  · rw [getElem?_adds_merge] at h
    exact laterOf_version (hs.adds v) (ht.adds v) h
  · refine Std.ExtTreeMap.ext_getElem? fun v => ?_
    rw [getElem?_removals_merge, hs.removals, ht.removals, laterOf_self]

/-- Two such sets with the same values are the same set. -/
theorem Grown.eq (hs : Grown version s) (ht : Grown version t)
    (h : ∀ v : T, s.adds[v]?.isSome ↔ t.adds[v]?.isSome) : s = t := by
  refine OrSet.ext_getElem? (fun v => ?_) fun v => by rw [hs.removals, ht.removals]
  cases hv : s.adds[v]? with
  | none =>
      have hnone : ¬ t.adds[v]?.isSome := by rw [← h v, hv]; decide
      rw [Option.not_isSome_iff_eq_none.mp hnone]
  | some clock =>
      obtain ⟨clock', hv'⟩ := Option.isSome_iff_exists.mp ((h v).mp (by rw [hv]; rfl))
      rw [hv', hs.adds v clock hv, ht.adds v clock' hv']

end OrSet

/-! ## The registers -/

namespace NoeticState

variable {F : Type} [Credence F] {T : Type}

/-- A register of the state that a merge merges under the joined credences. -/
structure IsRegister (register : NoeticState F → Lww T) : Prop where
  merge : ∀ s t, register (s.merge t) =
    (register s).merge (register t) (contextOf (joinCredence s.credence t.credence))

/-- The best models are such a register. -/
theorem isRegister_modelTopk : IsRegister (F := F) modelTopk :=
  ⟨fun s t => by rw [merge_eq]⟩

/-- The status of the seeds is such a register. -/
theorem isRegister_seedStatus : IsRegister (F := F) seedStatus :=
  ⟨fun s t => by rw [merge_eq]⟩

/-- The policies are such a register. -/
theorem isRegister_policies : IsRegister (F := F) policies :=
  ⟨fun s t => by rw [merge_eq]⟩

/-- The key of a clock under the given credences. -/
def clockKey (credences : PeerId → WithBot F) (clock : Hlc) : ℕ ×ₗ ℕ ×ₗ F ×ₗ PeerId :=
  toLex (clock.physMs.toNat, toLex (clock.log.toNat,
    toLex (Option.getD (credences clock.node) Credence.half, clock.node)))

/-- The order in which a register compares values is given by the credences. -/
theorem key_contextOf (s : NoeticState F) : (contextOf s.credence).key = clockKey s.credences := rfl

/-- The clock of a register under the credences that grow with every merge. -/
def clockRegister (register : NoeticState F → Lww T) :
    GrowingRegister Hlc (ℕ ×ₗ ℕ ×ₗ F ×ₗ PeerId) (PeerId → WithBot F) (NoeticState F) where
  key := clockKey
  key_injective credences := by
    rintro ⟨phys, log, node⟩ ⟨phys', log', node'⟩ h
    simp only [clockKey, toLex_inj, Prod.mk.injEq] at h
    obtain ⟨hphys, hlog, -, hnode⟩ := h
    rw [UInt64.toNat_inj.mp hphys, UInt32.toNat_inj.mp hlog, hnode]
  context := credences
  value s := (register s).clock

variable {register : NoeticState F → Lww T} {start : NoeticState F}

/-- Merging states is delivering them to the register. -/
theorem IsRegister.deliver (h : IsRegister register) (start : NoeticState F)
    (l : List (NoeticState F)) :
    (clockRegister register).deliver (start.credences, (register start).clock) l =
      ((start.mergeAll l).credences, (register (start.mergeAll l)).clock) := by
  induction l generalizing start with
  | nil => rfl
  | cons s l ih =>
      have hstep : (clockRegister register).receive (start.credences, (register start).clock) s =
          ((start.merge s).credences, (register (start.merge s)).clock) := by
        have hcredence : (start.merge s).credence = joinCredence start.credence s.credence := by
          rw [merge_eq]
        rw [h.merge, Lww.clock_merge, ← hcredence, key_contextOf, credences_merge]
        rfl
      rw [GrowingRegister.deliver, List.foldl_cons, hstep]
      exact ih (start.merge s)

/-- A register holds what one of the merged states holds. -/
theorem IsRegister.mergeAll_mem (h : IsRegister register) (start : NoeticState F)
    (l : List (NoeticState F)) :
    ∃ s ∈ start :: l, register (start.mergeAll l) = register s := by
  induction l using List.reverseRecOn with
  | nil => exact ⟨start, List.mem_cons_self, rfl⟩
  | append_singleton l s ih =>
      obtain ⟨t, ht, heq⟩ := ih
      have hlast : start.mergeAll (l ++ [s]) = (start.mergeAll l).merge s := List.foldl_append
      rw [hlast, h.merge, Lww.merge_eq]
      rcases keepGreatest_eq_or (fun r : Lww T =>
        (contextOf (joinCredence (start.mergeAll l).credence s.credence)).key r.clock)
        (register (start.mergeAll l)) (register s) with hkeep | hkeep
      · refine ⟨t, ?_, hkeep.trans heq⟩
        rw [← List.cons_append]
        exact List.mem_append_left _ ht
      · exact ⟨s, by simp, hkeep⟩

/-- **One register.** The replicas agree on a register whatever the order of the merges exactly when
one clock is settled. -/
theorem IsRegister.agree_iff (h : IsRegister register) {states : List (NoeticState F)}
    (hvalues : EqualClocksEqualValues register (start :: states)) :
    (∀ l l', (∀ s, s ∈ l ↔ s ∈ states) → (∀ s, s ∈ l' ↔ s ∈ states) →
        register (start.mergeAll l) = register (start.mergeAll l')) ↔
      ∃ g, (clockRegister register).Settled (start.credences, (register start).clock) states g := by
  rw [← GrowingRegister.deliver_agree_iff]
  simp only [h.deliver]
  constructor
  · intro hagree l l' hl hl'
    rw [hagree l l' hl hl']
  · intro hclocks l l' hl hl'
    have hmem : ∀ {l}, (∀ s, s ∈ l ↔ s ∈ states) → ∃ s ∈ start :: states,
        register (start.mergeAll l) = register s := by
      intro l hl
      obtain ⟨s, hs, heq⟩ := h.mergeAll_mem start l
      refine ⟨s, ?_, heq⟩
      rcases List.mem_cons.mp hs with rfl | hs
      · exact List.mem_cons_self
      · exact List.mem_cons_of_mem _ ((hl s).mp hs)
    obtain ⟨s, hs, heq⟩ := hmem hl
    obtain ⟨t, ht, heq'⟩ := hmem hl'
    have hclock := hclocks l l' hl hl'
    rw [heq, heq'] at hclock ⊢
    have hvalue := hvalues s hs t ht hclock
    cases hsr : register s
    cases htr : register t
    rw [hsr, htr] at hclock hvalue
    exact congrArg₂ Lww.mk hvalue hclock

/-! ## The header sets -/

/-- A set of the state that a merge merges under the joined credences. -/
structure IsHeaderSet [LinearOrder T] (headers : NoeticState F → OrSet T) : Prop where
  merge : ∀ s t, headers (s.merge t) =
    (headers s).merge (headers t) (contextOf (joinCredence s.credence t.credence))

/-- The values of a set are those of the merged states. -/
theorem IsHeaderSet.isSome_mergeAll [LinearOrder T] {headers : NoeticState F → OrSet T}
    (h : IsHeaderSet headers) (start : NoeticState F) (l : List (NoeticState F)) (v : T) :
    (headers (start.mergeAll l)).adds[v]?.isSome ↔ ∃ s ∈ start :: l, (headers s).adds[v]?.isSome := by
  induction l generalizing start with
  | nil => simp [mergeAll]
  | cons s l ih =>
      have hstep : start.mergeAll (s :: l) = (start.merge s).mergeAll l := rfl
      rw [hstep, ih]
      simp only [List.mem_cons, exists_eq_or_imp, h.merge, OrSet.getElem?_adds_merge, laterOf,
        Option.isSome_merge, Bool.or_eq_true, or_assoc]

/-- **One header set.** Sets that only grow converge. -/
theorem IsHeaderSet.mergeAll_congr [LinearOrder T] {headers : NoeticState F → OrSet T}
    {version : T → Hlc} (h : IsHeaderSet headers) {states l l' : List (NoeticState F)}
    (hgrown : ∀ s ∈ start :: states, (headers s).Grown version)
    (hl : ∀ s, s ∈ l ↔ s ∈ states) (hl' : ∀ s, s ∈ l' ↔ s ∈ states) :
    headers (start.mergeAll l) = headers (start.mergeAll l') := by
  have hall : ∀ {l : List (NoeticState F)} {start : NoeticState F}, (headers start).Grown version →
      (∀ s ∈ l, (headers s).Grown version) → (headers (start.mergeAll l)).Grown version := by
    intro l
    induction l with
    | nil => exact fun hstart _ => hstart
    | cons s l ih =>
        intro start hstart hl
        refine ih ?_ fun t ht => hl t (List.mem_cons_of_mem _ ht)
        rw [h.merge]
        exact hstart.merge (hl s List.mem_cons_self) _
  have hstart := hgrown start List.mem_cons_self
  have hmem : ∀ {l : List (NoeticState F)}, (∀ s, s ∈ l ↔ s ∈ states) →
      ∀ s ∈ l, (headers s).Grown version :=
    fun hl s hs => hgrown s (List.mem_cons_of_mem _ ((hl s).mp hs))
  refine (hall hstart (hmem hl)).eq (hall hstart (hmem hl')) fun v => ?_
  simp only [h.isSome_mergeAll, List.mem_cons, exists_eq_or_imp, hl, hl']

/-- The three sets of a produced state only grow. -/
theorem Produced.grown {s : NoeticState F} (h : Produced s) :
    s.models.Grown ResonantModelHeader.version ∧ s.epochs.Grown EpochHeader.version ∧
      s.seeds.Grown SeedHeader.version := by
  induction h with
  | new peer => exact ⟨.default _, .default _, .default _⟩
  | merge _ _ ih ih' =>
      rw [merge_eq]
      exact ⟨ih.1.merge ih'.1 _, ih.2.1.merge ih'.2.1 _, ih.2.2.merge ih'.2.2 _⟩
  | applyModelHeader _ header ih => exact ⟨ih.1.insert header _, ih.2⟩
  | applyEpoch _ epoch ih => exact ⟨ih.1, ih.2.1.insert epoch _, ih.2.2⟩
  | applySeed _ seed ih => exact ⟨ih.1, ih.2.1, ih.2.2.insert seed _⟩
  | setCredence _ _ _ ih => exact ih
  | updateSeedStatus _ _ _ ih => exact ih
  | updateModelTopk _ _ _ ih => exact ih
  | updatePolicy _ _ ih => exact ih

/-! ## Convergence -/

/-- One clock of a register prevails in every order of the merges: `g` beats every clock that arrives
with or after the last state that carries it, under the credences merged by then, and the clock the
replicas start with, if it is another one, is replaced by then. -/
def RegisterSettles (register : NoeticState F → Lww T) (start : NoeticState F)
    (states : List (NoeticState F)) : Prop :=
  ∃ g, (clockRegister register).Settled (start.credences, (register start).clock) states g

/-- **When noetic states converge.** Replicas that merge the same produced states from the same start
agree in every order of the merges exactly when each of the three registers settles. -/
theorem noetic_converges_iff {start : NoeticState F} {states : List (NoeticState F)}
    (hproduced : ∀ s ∈ start :: states, Produced s)
    (htopk : EqualClocksEqualValues modelTopk (start :: states))
    (hstatus : EqualClocksEqualValues seedStatus (start :: states))
    (hpolicies : EqualClocksEqualValues policies (start :: states)) :
    Converges start states ↔ RegisterSettles modelTopk start states ∧
      RegisterSettles seedStatus start states ∧ RegisterSettles policies start states := by
  simp only [RegisterSettles, ← isRegister_modelTopk.agree_iff htopk,
    ← isRegister_seedStatus.agree_iff hstatus, ← isRegister_policies.agree_iff hpolicies]
  constructor
  · intro h
    exact ⟨fun l l' hl hl' => (h l l' hl hl').modelTopk, fun l l' hl hl' => (h l l' hl hl').seedStatus,
      fun l l' hl hl' => (h l l' hl hl').policies⟩
  · rintro ⟨htopk, hstatus, hpolicies⟩ l l' hl hl'
    have hcredence : (start.mergeAll l).credence = (start.mergeAll l').credence :=
      credence_mergeAll_congr fun s => (hl s).trans (hl' s).symm
    have hmodels : IsHeaderSet (F := F) models := ⟨fun s t => by rw [merge_eq]⟩
    have hepochs : IsHeaderSet (F := F) epochs := ⟨fun s t => by rw [merge_eq]⟩
    have hseeds : IsHeaderSet (F := F) seeds := ⟨fun s t => by rw [merge_eq]⟩
    refine ⟨⟨?_, ?_, ?_, htopk l l' hl hl', hstatus l l' hl hl', hpolicies l l' hl hl'⟩, hcredence⟩
    · rw [mergeContext_none, mergeContext_none, hcredence,
        hmodels.mergeAll_congr (fun s hs => (hproduced s hs).grown.1) hl hl']
    · rw [mergeContext_none, mergeContext_none, hcredence,
        hepochs.mergeAll_congr (fun s hs => (hproduced s hs).grown.2.1) hl hl']
    · rw [mergeContext_none, mergeContext_none, hcredence,
        hseeds.mergeAll_congr (fun s hs => (hproduced s hs).grown.2.2) hl hl']

/-- A register settles when no two states carry different clocks of the same time and counter. -/
theorem registerSettles_of_no_ties (register : NoeticState F → Lww T) {start : NoeticState F}
    {states : List (NoeticState F)}
    (h : ∀ s ∈ start :: states, ∀ t ∈ start :: states,
      (register s).clock.physMs = (register t).clock.physMs →
      (register s).clock.log = (register t).clock.log → (register s).clock = (register t).clock) :
    RegisterSettles register start states := by
  let level : Hlc → ℕ ×ₗ ℕ := fun clock => toLex (clock.physMs.toNat, clock.log.toNat)
  refine GrowingRegister.exists_settled_of_level level (fun c a b hlt => ?_) fun a ha b hb heq => ?_
  · rw [Prod.Lex.toLex_lt_toLex] at hlt
    show clockKey c a < clockKey c b
    unfold clockKey
    rw [Prod.Lex.toLex_lt_toLex, Prod.Lex.toLex_lt_toLex]
    exact hlt.imp id fun ⟨hphys, hlog⟩ => ⟨hphys, .inl hlog⟩
  · have hclock : ∀ a ∈ (register start).clock :: states.map (clockRegister register).value,
        ∃ s ∈ start :: states, (register s).clock = a := by
      intro a ha
      rw [List.mem_cons, List.mem_map] at ha
      rcases ha with rfl | ⟨s, hs, rfl⟩
      · exact ⟨start, List.mem_cons_self, rfl⟩
      · exact ⟨s, List.mem_cons_of_mem _ hs, rfl⟩
    obtain ⟨s, hs, rfl⟩ := hclock a ha
    obtain ⟨t, ht, rfl⟩ := hclock b hb
    obtain ⟨hphys, hlog⟩ := Prod.mk.inj (toLex_inj.mp heq)
    exact h s hs t ht (UInt64.toNat_inj.mp hphys) (UInt32.toNat_inj.mp hlog)

/-! ## Two tied writers and a credence that arrives late -/

/-- A seed status written by the peer of the given byte at a time. -/
def statusWriter (byte : UInt8) (physMs : UInt64) : NoeticState ℚ :=
  (new (samplePeer byte)).updateSeedStatus (.active physMs) ⟨physMs, 0, samplePeer byte⟩

/-- A state that only knows the credence of the first writer. -/
def credenceHolder : NoeticState ℚ := (new (samplePeer 3)).setCredence (samplePeer 1) (9 / 10)

/-- A state in which a peer has written a status can be produced. -/
theorem produced_statusWriter (byte : UInt8) (physMs : UInt64) : Produced (statusWriter byte physMs) :=
  (Produced.new _).updateSeedStatus _ _

/-- So can one in which a credence was set. -/
theorem produced_credenceHolder : Produced credenceHolder := (Produced.new _).setCredence _ _

omit [Credence F] in
/-- States of different peers that have not merged anything carry different clocks. -/
theorem equalClocksEqualValues_of_nodup {register : NoeticState F → Lww T}
    {states : List (NoeticState F)} (hnode : ∀ s ∈ states, (register s).clock.node = s.peer)
    (hnodup : (states.map peer).Nodup) : EqualClocksEqualValues register states := by
  intro s hs t ht hclock
  have hpeer : s.peer = t.peer := by rw [← hnode s hs, ← hnode t ht, hclock]
  rw [List.inj_on_of_nodup_map hnodup hs ht hpeer]

/-- Two peers write at the same time. A replica that learns the credence of the first before it merges
the two keeps its write, one that learns it afterwards keeps the other. -/
theorem not_converges_tied_writers :
    ∃ (start : NoeticState ℚ) (states : List (NoeticState ℚ)),
      (∀ s ∈ start :: states, Produced s) ∧ EqualClocksEqualValues modelTopk (start :: states) ∧
      EqualClocksEqualValues seedStatus (start :: states) ∧
      EqualClocksEqualValues policies (start :: states) ∧ ¬ Converges start states := by
  refine ⟨new (samplePeer 0), [statusWriter 1 10, statusWriter 2 10, credenceHolder], ?_,
    equalClocksEqualValues_of_nodup ?_ (by decide), equalClocksEqualValues_of_nodup ?_ (by decide),
    equalClocksEqualValues_of_nodup ?_ (by decide), ?_⟩
  · simp only [List.forall_mem_cons]
    exact ⟨.new _, produced_statusWriter 1 10, produced_statusWriter 2 10, produced_credenceHolder,
      by simp⟩
  · decide
  · decide
  · decide
  · intro h
    have hagree := h [statusWriter 1 10, statusWriter 2 10, credenceHolder]
      [credenceHolder, statusWriter 1 10, statusWriter 2 10] (fun s => Iff.rfl) (fun s => by
        simp only [List.mem_cons, List.not_mem_nil, or_false]; tauto)
    have hclock := congrArg Lww.clock hagree.seedStatus
    revert hclock
    decide +kernel

/-- One peer writes twice: its states converge. -/
theorem noetic_converges_one_writer :
    Converges (new (samplePeer 1)) [statusWriter 1 10, statusWriter 1 20] := by
  have hpolicies : ∀ s ∈ [new (samplePeer 1), statusWriter 1 10, statusWriter 1 20],
      s.policies = (new (samplePeer 1) : NoeticState ℚ).policies := by
    simp only [List.forall_mem_cons]
    exact ⟨trivial, rfl, rfl, by simp⟩
  refine (noetic_converges_iff ?_ (by unfold EqualClocksEqualValues; decide)
    (by unfold EqualClocksEqualValues; decide) fun s hs t ht _ => ?_).mpr
      ⟨registerSettles_of_no_ties _ (by decide), registerSettles_of_no_ties _ (by decide),
        registerSettles_of_no_ties _ (by decide)⟩
  · simp only [List.forall_mem_cons]
    exact ⟨.new _, produced_statusWriter 1 10, produced_statusWriter 1 20, by simp⟩
  · rw [hpolicies s hs, hpolicies t ht]

end NoeticState

end LiminalDB
