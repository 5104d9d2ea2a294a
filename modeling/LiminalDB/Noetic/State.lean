import LiminalDB.Foundations.Cbor
import LiminalDB.Noetic.Crdt

/-! # The replicated state of a peer: `state.rs`

Three sets of headers, three registers and the credences of the peers. A merge joins the credences
first and compares clocks under the joined map (`NoeticState.merge_eq`), so the order of tied clocks
depends on what the peer has merged so far. -/

namespace LiminalDB

/-- `f32` as a credence: without NaN a linear order, with the sum and the literal that the state
uses. -/
class Credence (F : Type) extends LinearOrder F, Add F, Zero F where
  /-- The literal `0.5`. -/
  half : F
  exists_half_lt : ∃ x, half < x

instance : Credence ℚ where
  half := 1 / 2
  exists_half_lt := ⟨1, by norm_num⟩

/-! ## Headers -/

/-- The derived order of clocks: the fields in turn. -/
instance : LinearOrder Hlc :=
  LinearOrder.lift' (fun clock => toLex (clock.physMs.toNat, toLex (clock.log.toNat, clock.node))) <| by
    rintro ⟨phys, log, node⟩ ⟨phys', log', node'⟩ h
    simp only [toLex_inj, Prod.mk.injEq] at h
    rw [UInt64.toNat_inj.mp h.1, UInt32.toNat_inj.mp h.2.1, h.2.2]

/-- `ResonantModelHeader`: a model that a peer has, named by its hash rather than by what is in it. -/
structure ResonantModelHeader where
  id : String
  version : Hlc
  hash : String
  source : PeerId
  deriving DecidableEq

instance : LinearOrder ResonantModelHeader :=
  LinearOrder.lift' (fun h => toLex (h.id, toLex (h.version, toLex (h.hash, h.source)))) <| by
    rintro ⟨⟩ ⟨⟩ h
    simpa [Prod.ext_iff] using h

instance : Std.LawfulEqOrd ResonantModelHeader := lawfulEqOrd ResonantModelHeader

/-- `EpochHeader`: an epoch, with the hash of what was recorded in it. -/
structure EpochHeader where
  id : UInt64
  version : Hlc
  hash : String
  deriving DecidableEq

instance : LinearOrder EpochHeader :=
  LinearOrder.lift' (fun h => toLex (h.id.toNat, toLex (h.version, h.hash))) <| by
    rintro ⟨⟩ ⟨⟩ h
    simpa [Prod.ext_iff, UInt64.toNat_inj] using h

instance : Std.LawfulEqOrd EpochHeader := lawfulEqOrd EpochHeader

/-- `SeedHeader`: a seed of an epoch, with the peer that it comes from. -/
structure SeedHeader where
  id : String
  epoch : UInt64
  version : Hlc
  source : PeerId
  deriving DecidableEq

instance : LinearOrder SeedHeader :=
  LinearOrder.lift' (fun h => toLex (h.id, toLex (h.epoch.toNat, toLex (h.version, h.source)))) <| by
    rintro ⟨⟩ ⟨⟩ h
    simpa [Prod.ext_iff, UInt64.toNat_inj] using h

instance : Std.LawfulEqOrd SeedHeader := lawfulEqOrd SeedHeader

/-- `ResonantModelTopK`: the best entries of a model, and when they were found. -/
structure ResonantModelTopK where
  entries : List String
  updated : Hlc
  deriving DecidableEq

/-- `SeedStatus`: how far a seed has come. -/
inductive SeedStatus
  | pending
  | active (startedMs : UInt64)
  | committed (finishedMs : UInt64)
  | failed (error : String)
  | observed (note : String)
  deriving DecidableEq

/-- `SeedStatus::as_str`: the status as the summary has it, without what it carries. -/
def SeedStatus.asStr : SeedStatus → String
  | pending => "pending"
  | active _ => "active"
  | committed _ => "committed"
  | failed _ => "failed"
  | observed _ => "observed"

/-- `serde_json::Value`, with numbers as they are written. -/
inductive JsonValue
  | null
  | bool (b : Bool)
  | number (text : String)
  | string (text : String)
  | array (items : List JsonValue)
  | object (fields : List (String × JsonValue))

/-- `PolicyBundle`: a policy at a version, which is merged as a whole. -/
structure PolicyBundle where
  version : Hlc
  hash : String
  payload : JsonValue

/-! ## The state -/

/-- `NoeticState`: what a peer holds of models, epochs, seeds and policies, each in a type that
merges. -/
structure NoeticState (F : Type) where
  peer : PeerId
  clock : Hlc
  models : OrSet ResonantModelHeader
  modelTopk : Lww ResonantModelTopK
  epochs : OrSet EpochHeader
  seeds : OrSet SeedHeader
  seedStatus : Lww SeedStatus
  policies : Lww PolicyBundle
  credence : Std.ExtTreeMap PeerId F compare

namespace NoeticState

variable {F : Type} [Credence F]

/-- `NoeticState::new`: a state that holds nothing, with the clock of its peer at zero. -/
def new (peer : PeerId) : NoeticState F :=
  let clock := Hlc.new peer 0
  { peer
    clock
    models := .default
    modelTopk := ⟨⟨[], clock⟩, clock⟩
    epochs := .default
    seeds := .default
    seedStatus := ⟨.pending, clock⟩
    policies := ⟨⟨clock, "", .null⟩, clock⟩
    credence := ∅ }

/-- `set_credence`: how far a peer is trusted, from now on. -/
def setCredence (self : NoeticState F) (peer : PeerId) (value : F) : NoeticState F :=
  { self with credence := self.credence.insert peer value }

/-- `merge_context`: the credences of both sides, by which ties between writers are broken. -/
def mergeContext (self : NoeticState F) (other : Option (NoeticState F)) : MergeContext F :=
  let ctx := self.credence.foldl (fun ctx peer value => ctx.setPeer peer value)
    (MergeContext.new Credence.half)
  match other with
  | none => ctx
  | some other =>
      other.credence.foldl (fun ctx peer value =>
        if value > ctx.credenceFor peer then ctx.setPeer peer value else ctx) ctx

/-- The first loop of `merge`: each credence of the other state is taken over when it is new or
greater. -/
def joinCredence (credence other : Std.ExtTreeMap PeerId F compare) :
    Std.ExtTreeMap PeerId F compare :=
  other.foldl (fun credence peer value =>
    let entry := credence[peer]?.getD value
    credence.insert peer (if value > entry then value else entry)) credence

/-- `NoeticState::merge`: each part is merged by its own rule, after the credences of both sides were
joined. -/
def merge (self other : NoeticState F) : NoeticState F :=
  let self := { self with credence := joinCredence self.credence other.credence }
  let ctx := self.mergeContext (some other)
  let nowMs := max self.clock.physMs other.clock.physMs
  { self with
    models := self.models.merge other.models ctx
    epochs := self.epochs.merge other.epochs ctx
    seeds := self.seeds.merge other.seeds ctx
    modelTopk := self.modelTopk.merge other.modelTopk ctx
    seedStatus := self.seedStatus.merge other.seedStatus ctx
    policies := self.policies.merge other.policies ctx
    clock := self.clock.merged other.clock self.peer nowMs }

/-- `apply_model_header`: a model of this peer is added under the clock of its version. -/
def applyModelHeader (self : NoeticState F) (header : ResonantModelHeader) : NoeticState F :=
  { self with models := self.models.insert header header.version (self.mergeContext none) }

/-- `apply_epoch`: an epoch is added under the clock of its version. -/
def applyEpoch (self : NoeticState F) (epoch : EpochHeader) : NoeticState F :=
  { self with epochs := self.epochs.insert epoch epoch.version (self.mergeContext none) }

/-- `apply_seed`: a seed is added under the clock of its version. -/
def applySeed (self : NoeticState F) (seed : SeedHeader) : NoeticState F :=
  { self with seeds := self.seeds.insert seed seed.version (self.mergeContext none) }

/-- `update_seed_status`: the status with the later clock stays. -/
def updateSeedStatus (self : NoeticState F) (status : SeedStatus) (hlc : Hlc) : NoeticState F :=
  { self with seedStatus := self.seedStatus.merge ⟨status, hlc⟩ (self.mergeContext none) }

/-- `update_model_topk`: the entries with the later clock stay. -/
def updateModelTopk (self : NoeticState F) (entries : List String) (hlc : Hlc) : NoeticState F :=
  { self with modelTopk := self.modelTopk.merge ⟨⟨entries, hlc⟩, hlc⟩ (self.mergeContext none) }

/-- `update_policy`: the policy with the later version stays. -/
def updatePolicy (self : NoeticState F) (policy : PolicyBundle) : NoeticState F :=
  { self with policies := self.policies.merge ⟨policy, policy.version⟩ (self.mergeContext none) }

/-! ## The context of a merge -/

/-- The context with the given credences. -/
def contextOf (credence : Std.ExtTreeMap PeerId F compare) : MergeContext F :=
  ⟨credence, Credence.half⟩

/-- The joined credence of a peer is the larger of the two, or the one there is. -/
theorem getElem?_joinCredence (credence other : Std.ExtTreeMap PeerId F compare) (peer : PeerId) :
    (joinCredence credence other)[peer]? = Option.merge max credence[peer]? other[peer]? := by
  have htouches : TouchesKey (fun (m : Std.ExtTreeMap PeerId F compare) peer => m[peer]?)
      (fun m peer value =>
        let entry := m[peer]?.getD value
        m.insert peer (if value > entry then value else entry))
      (fun o value => Option.merge max o (some value)) := by
    refine ⟨fun m peer value => ?_, fun m k a value h => ?_⟩
    · simp only [Std.ExtTreeMap.getElem?_insert_self]
      cases m[peer]? with
      | none => simp
      | some entry =>
          rw [Option.getD_some, Option.merge_some_some, max_def]
          by_cases hlt : entry < value
          · rw [if_pos hlt, if_pos hlt.le]
          · by_cases hle : entry ≤ value
            · rw [if_neg hlt, if_pos hle, le_antisymm hle (not_lt.mp hlt)]
            · rw [if_neg hlt, if_neg hle]
    · simp only [Std.ExtTreeMap.getElem?_insert]
      rw [if_neg (by simpa using h.symm)]
  refine (look_foldl_entry htouches other credence peer).trans ?_
  cases other[peer]? with
  | none => simp
  | some value => rfl

/-- Without a second state the context has the credences of the first. -/
theorem mergeContext_none (s : NoeticState F) : s.mergeContext none = contextOf s.credence := by
  have htouches : TouchesKey (fun (ctx : MergeContext F) peer => ctx.credence[peer]?)
      (fun ctx peer value => ctx.setPeer peer value) (fun _ value => some value) := by
    refine ⟨fun ctx peer value => ?_, fun ctx k a value h => ?_⟩
    · simp [MergeContext.setPeer]
    · simp only [MergeContext.setPeer, Std.ExtTreeMap.getElem?_insert]
      rw [if_neg (by simpa using h.symm)]
  have hdefault : (s.mergeContext none).default = Credence.half := by
    refine foldl_keeps MergeContext.default ?_ s.credence _
    intro _ _ _
    rfl
  have hcredence : (s.mergeContext none).credence = s.credence := by
    refine Std.ExtTreeMap.ext_getElem? fun peer => ?_
    refine (look_foldl_entry htouches s.credence _ peer).trans ?_
    cases s.credence[peer]? with
    | none => simp [MergeContext.new]
    | some value => rfl
  rw [contextOf, ← hdefault, ← hcredence]

/-- A state that has at least the credences of the other compares by its own. -/
theorem mergeContext_some {s t : NoeticState F}
    (h : ∀ peer value, t.credence[peer]? = some value →
      value ≤ (contextOf s.credence).credenceFor peer) :
    s.mergeContext (some t) = contextOf s.credence := by
  have hentries : ∀ entry ∈ t.credence.toList,
      entry.2 ≤ (contextOf s.credence).credenceFor entry.1 := by
    rintro ⟨peer, value⟩ hentry
    exact h peer value (Std.ExtTreeMap.mem_toList_iff_getElem?_eq_some.mp hentry)
  show t.credence.foldl _ (s.mergeContext none) = _
  rw [mergeContext_none, Std.ExtTreeMap.foldl_eq_foldl_toList]
  generalize t.credence.toList = l at hentries
  induction l with
  | nil => rfl
  | cons entry l ih =>
      obtain ⟨hentry, hrest⟩ := List.forall_mem_cons.mp hentries
      rw [List.foldl_cons, if_neg (not_lt.mpr hentry), ih hrest]

/-- **A merge compares clocks under the joined credences.** -/
theorem merge_eq (s t : NoeticState F) :
    s.merge t =
      let credence := joinCredence s.credence t.credence
      let ctx := contextOf credence
      { peer := s.peer
        clock := s.clock.merged t.clock s.peer (max s.clock.physMs t.clock.physMs)
        models := s.models.merge t.models ctx
        modelTopk := s.modelTopk.merge t.modelTopk ctx
        epochs := s.epochs.merge t.epochs ctx
        seeds := s.seeds.merge t.seeds ctx
        seedStatus := s.seedStatus.merge t.seedStatus ctx
        policies := s.policies.merge t.policies ctx
        credence } := by
  unfold merge
  dsimp only
  rw [mergeContext_some]
  intro peer value hvalue
  have hjoin := getElem?_joinCredence s.credence t.credence peer
  rw [hvalue] at hjoin
  simp only [contextOf, MergeContext.credenceFor, hjoin]
  cases s.credence[peer]? with
  | none => simp
  | some entry => simp

/-- Two states show the same: the elements of the sets, and the values and clocks of the registers. -/
structure SameContent (a b : NoeticState F) : Prop where
  models : a.models.elements (a.mergeContext none) = b.models.elements (b.mergeContext none)
  epochs : a.epochs.elements (a.mergeContext none) = b.epochs.elements (b.mergeContext none)
  seeds : a.seeds.elements (a.mergeContext none) = b.seeds.elements (b.mergeContext none)
  modelTopk : a.modelTopk = b.modelTopk
  seedStatus : a.seedStatus = b.seedStatus
  policies : a.policies = b.policies

end NoeticState

end LiminalDB
