import LiminalDB.Field.Delta
import LiminalDB.Foundations.Clamped
import LiminalDB.Foundations.Words
import LiminalDB.Noetic.Clock
import LiminalDB.Noetic.Restore
import LiminalDB.Noetic.Summary

/-! # Proposals that a host makes: the noetic commands of the bridge

A host has its node propose a model, a seed or a policy, tells it of peers and sets its quorum. No command
brings the vote of another peer, and no quorum is above the credence that the node gives itself. So a
proposal that can be read commits at once, by the vote of the node alone, and the state of the node holds what
its proposals say, the last of a kind winning (`proposals_commit_at_once`). -/

namespace LiminalDB

open FloatLike (clamp)

/-! ## What is proposed -/

namespace JsonValue

/-- `get`: the value under a key of an object, and none of anything else. -/
def get? (data : JsonValue) (key : String) : Option JsonValue :=
  match data with
  | .object fields => fields.lookup key
  | _ => none

/-- `as_str`: the text of a JSON string. -/
def asStr : JsonValue → Option String
  | .string text => some text
  | _ => none

/-- `as_u64`: a number that is written as an integer of 64 bits. -/
def asU64 : JsonValue → Option UInt64
  | .number text => (parseUnsigned 64 text).map UInt64.ofNat
  | _ => none

end JsonValue

/-- What the commands take from `serde_json`, `blake3` and the formatting of numbers. -/
structure NoeticLibrary where
  /-- `serde_json::from_value` of a model, with the text of its error. -/
  parseModel : JsonValue → Except String (ResonantModel ℚ)
  /-- `serde_json::to_vec` -/
  modelToVec : ResonantModel ℚ → Bytes
  jsonToVec : JsonValue → Bytes
  blake3 : Bytes → List.Vector UInt8 32
  /-- `{:.3}` -/
  fixed3 : ℚ → String

/-- `to_hex` of a hash. -/
def NoeticLibrary.hex (lib : NoeticLibrary) (bytes : Bytes) : String := encodeHex (lib.blake3 bytes).toList

/-- `NoeticObjectKind`: what a command proposes. -/
inductive NoeticObjectKind
  | model
  | seed
  | policy
  deriving DecidableEq

section Building

variable (lib : NoeticLibrary) (data : JsonValue) (localPeer : PeerId) (clock : Hlc) (nowMs : UInt64)

/-- `model_entries`: the first eight links and influences of a model, each with its numbers to three
digits. -/
def modelEntries (model : ResonantModel ℚ) : List String :=
  let weighed (weight coherence : ℚ) : String := ":" ++ lib.fixed3 weight ++ ":" ++ lib.fixed3 coherence
  ((model.edges.take 8).map fun edge =>
      "edge:" ++ edge.source.toNat.repr ++ "->" ++ edge.target.toNat.repr ++ weighed edge.weight edge.coherence) ++
    ((model.influences.take 8).map fun influence =>
      "influence:" ++ influence.source.toNat.repr ++ "->" ++ influence.sink.toNat.repr ++
        weighed influence.weight influence.coherence) ++
    ((model.tensions.take 8).map fun tension =>
      "tension:" ++ tension.node.toNat.repr ++ weighed tension.magnitude tension.relief)

/-- `build_model_proposal`: the model that the data holds, under the hash of its encoding. -/
def buildModelProposal : Except String (ResonantModelHeader × ResonantModelTopK) := do
  let model ← lib.parseModel data
  let digest := lib.hex (lib.modelToVec model)
  return (⟨digest, clock, digest, localPeer⟩, ⟨modelEntries lib model, clock⟩)

/-- `parse_seed_status`: the status that the data names, in any case of letters, with a time or text of
its own. -/
def parseSeedStatus : Except String SeedStatus :=
  let text (key default : String) : String := ((data.get? key).bind JsonValue.asStr).getD default
  let number (key : String) : UInt64 := ((data.get? key).bind JsonValue.asU64).getD nowMs
  -- A proposal without a status is that of a seed that waits.
  let status := String.ofList ((text "status" "pending").toList.map Char.toLower)
  if status = "pending" then .ok .pending
  else if status = "active" then .ok (.active (number "started_ms"))
  else if status = "committed" then .ok (.committed (number "finished_ms"))
  else if status = "failed" then .ok (.failed (text "error" "unknown failure"))
  else if status = "observed" then .ok (.observed (text "note" ""))
  else .error ("unsupported seed status: " ++ status)

/-- `build_seed_proposal`: the seed that the data names by a text or a number, with its status. -/
def buildSeedProposal : Except String (SeedHeader × SeedStatus) :=
  let id := (data.get? "id").bind fun value => value.asStr <|> value.asU64.map fun id => id.toNat.repr
  match id with
  | some id => do
      let epoch := ((data.get? "epoch").bind JsonValue.asU64).getD 0
      let status ← parseSeedStatus data nowMs
      return (⟨id, epoch, clock, localPeer⟩, status)
  | none => .error "seed.id missing"

/-- `build_policy_bundle`: all the data as a policy, under the hash of its encoding. -/
def buildPolicyBundle : PolicyBundle := ⟨clock, lib.hex (lib.jsonToVec data), data⟩

/-- What a proposal of a kind is about. -/
def buildObject : NoeticObjectKind → Except String ProposalObject
  | .model => do
      let (header, topk) ← buildModelProposal lib data localPeer clock
      return .model header topk
  | .seed => do
      let (header, status) ← buildSeedProposal data localPeer clock nowMs
      return .seed header status
  | .policy => .ok (.policy (buildPolicyBundle lib data clock))

end Building

/-! ## Commands -/

/-- A proposal that a host asks for, with the id that is drawn for it and the times at which the node looks
at the clock. -/
structure ProposeCall where
  id : ProposalId
  obj : NoeticObjectKind
  data : JsonValue
  proposedMs : UInt64
  builtMs : UInt64
  votedMs : UInt64
  committedMs : UInt64

/-- `PeerSpec`: a peer as a command adds it. -/
structure PeerSpec where
  url : String
  credence : ℚ
  ns : Option String

/-- The noetic commands that change a node. -/
inductive NoeticCommand
  | propose (call : ProposeCall)
  | quorum (q : ℚ)
  | peerAdd (spec : PeerSpec)

/-- What the bridge tells its host. -/
inductive NoeticReply
  | noetic (event : NoeticEvent ℚ)
  | merge (summary : Summary ℚ)

namespace NoeticRuntime

variable (lib : NoeticLibrary)

/-- `NoeticRuntime::new`: a runtime that fully trusts its own peer, with a quorum of 0.6. -/
def new (localPeer : PeerId) : NoeticRuntime ℚ :=
  ⟨localPeer, 1, (NoeticState.new localPeer).setCredence localPeer 1, .new 0.6⟩

/-- `process_event`: a commit is carried out before it is announced, and any other phase is only
announced. -/
def processEvent (self : NoeticRuntime ℚ) (event : NoeticEvent ℚ) (nowMs : UInt64) :
    NoeticRuntime ℚ × List NoeticReply :=
  if event.eventMeta.phase = .commit then
    match self.consensus.proposals[event.eventMeta.id]? with
    | some proposal =>
        let after := self.applyCommit proposal nowMs
        (after, [.noetic event, .merge (after.state.summary lib.hex)])
    | none => (self, [.noetic event])
  else (self, [.noetic event])

/-- `handle_noetic_propose`: the clock moves on, the object is built, proposed, and voted for by the peer
itself. -/
def handleNoeticPropose (self : NoeticRuntime ℚ) (call : ProposeCall) :
    NoeticRuntime ℚ × Except String (List NoeticReply) :=
  let self := self.tickClock call.proposedMs
  let clock := self.state.clock
  match buildObject lib call.data self.localPeer clock call.builtMs call.obj with
  | .error reason => (self, .error reason)
  | .ok object =>
      let (consensus, event) := self.consensus.propose call.id self.localPeer object clock
      -- The proposal is not committed yet, so that this only passes its event on.
      let (self, told) := { self with consensus }.processEvent lib event call.proposedMs
      let self := self.tickClock call.votedMs
      let (consensus, vote) :=
        self.consensus.vote call.id ⟨self.localPeer, .approve, self.localCredence, self.state.clock⟩
      match vote with
      | some event =>
          let (self, decided) := { self with consensus }.processEvent lib event call.committedMs
          (self, .ok (told ++ decided))
      -- The vote is not taken.
      | none => ({ self with consensus }, .ok told)

/-- `handle_noetic_quorum`, which sets the quorum between nothing and certainty. -/
def handleNoeticQuorum (self : NoeticRuntime ℚ) (q : ℚ) : NoeticRuntime ℚ :=
  { self with consensus := self.consensus.setQuorum (clamp q 0.0 1.0) }

/-- `derive_peer_id`: the hash of the address and the name space. -/
def derivePeerId (url ns : String) : PeerId := ⟨lib.blake3 (asBytes url ++ asBytes ns)⟩

/-- `handle_peer_add`, as far as the node is concerned. -/
def handlePeerAdd (self : NoeticRuntime ℚ) (spec : PeerSpec) : NoeticRuntime ℚ :=
  let peer := derivePeerId lib spec.url (spec.ns.getD "liminal")
  { self with state := self.state.setCredence peer (clamp spec.credence 0.0 1.0) }

end NoeticRuntime

/-- A node with what its host proposed, as far as it could be read, and what the host was told, oldest first. -/
structure NoeticSession where
  node : NoeticRuntime ℚ
  made : List ProposalObject
  replies : List (Except String (List NoeticReply))

namespace NoeticSession

variable (lib : NoeticLibrary)

/-- A new node. -/
def new (localPeer : PeerId) : NoeticSession := ⟨.new localPeer, [], []⟩

/-- What a proposal is about, if it can be read. -/
def objectOf (self : NoeticRuntime ℚ) (call : ProposeCall) : Option ProposalObject :=
  (buildObject lib call.data self.localPeer (self.state.clock.tick call.proposedMs) call.builtMs call.obj).toOption

/-- One command. -/
def command (self : NoeticSession) : NoeticCommand → NoeticSession
  | .propose call =>
      let (node, reply) := self.node.handleNoeticPropose lib call
      ⟨node, self.made ++ (objectOf lib self.node call).toList, self.replies ++ [reply]⟩
  | .quorum q => { self with node := self.node.handleNoeticQuorum q }
  | .peerAdd spec => { self with node := self.node.handlePeerAdd lib spec }

/-- Commands in turn. -/
def run (self : NoeticSession) (commands : List NoeticCommand) : NoeticSession :=
  commands.foldl (command lib) self

/-- Every proposal finds room in the counter of the clock for its three stamps. -/
def Roomy : NoeticSession → List NoeticCommand → Prop
  | _, [] => True
  | self, c :: commands =>
      ((∃ call, c = .propose call) → self.node.state.clock.log.toNat + 3 < 2 ^ 32) ∧
        Roomy (self.command lib c) commands

end NoeticSession

/-! ## Registers and sets that only grow -/

/-- A clock that is later by its time and counter is later in every context. -/
theorem Hlc.key_lt_of_stamp_lt {F : Type} [LinearOrder F] {a b : Hlc} (h : a.stamp < b.stamp)
    (ctx : MergeContext F) : ctx.key a < ctx.key b := (Hlc.earlier_iff.mpr h).key_lt

/-- A register takes what is written with a later stamp. -/
theorem Lww.merge_of_later {F T : Type} [LinearOrder F] {register : Lww T} {clock : Hlc}
    (h : register.clock.stamp < clock.stamp) (value : T) (ctx : MergeContext F) :
    register.merge ⟨value, clock⟩ ctx = ⟨value, clock⟩ :=
  if_pos (Hlc.compare_eq_lt.mpr (Hlc.key_lt_of_stamp_lt h ctx))

/-- A register holds a value that is no later than a clock. -/
def Lww.Holds {T : Type} (register : Lww T) (value : T) (clock : Hlc) : Prop :=
  register.value = value ∧ register.clock.stamp ≤ clock.stamp

/-- What a register holds up to a stamp it holds up to every later one. -/
theorem Lww.Holds.later {T : Type} {register : Lww T} {value : T} {clock clock' : Hlc}
    (h : register.Holds value clock) (hle : clock.stamp ≤ clock'.stamp) : register.Holds value clock' :=
  ⟨h.1, h.2.trans hle⟩

/-- Nothing has been removed from a set, and these have been inserted. -/
structure OrSet.Holds {T : Type} [LinearOrder T] (s : OrSet T) (P : T → Prop) : Prop where
  removals : s.removals = ∅
  adds : ∀ v : T, (∃ clock, s.adds[v]? = some clock) ↔ P v

namespace OrSet.Holds

variable {F T : Type} [LinearOrder F] [LinearOrder T] {s : OrSet T} {P : T → Prop}

/-- The elements of a set that holds some values are these. -/
theorem mem_elements (h : s.Holds P) (ctx : MergeContext F) (v : T) : v ∈ s.elements ctx ↔ P v := by
  rw [OrSet.mem_elements, ← h.adds v, h.removals]
  simp

/-- An inserted value is held next to those from before. -/
theorem insert (h : s.Holds P) (value : T) (clock : Hlc) (ctx : MergeContext F) :
    (s.insert value clock ctx).Holds fun v => P v ∨ v = value := by
  refine ⟨h.removals, fun v => ?_⟩
  rw [← h.adds v]
  by_cases hv : v = value
  · subst hv
    have hstamped : ∃ stamped, (s.insert v clock ctx).adds[v]? = some stamped := by
      refine Option.isSome_iff_exists.mp ?_
      rw [OrSet.insert, getElem?_stamp_self]
      cases s.adds[v]? <;> rfl
    simp [hstamped]
  · rw [OrSet.insert, getElem?_stamp_of_ne clock ctx hv]
    simp [hv]

/-- What a set holds may be said in other words. -/
theorem congr {Q : T → Prop} (h : s.Holds P) (hiff : ∀ v, P v ↔ Q v) : s.Holds Q :=
  ⟨h.removals, fun v => (h.adds v).trans (hiff v)⟩

end OrSet.Holds

/-! ## What the proposals of a node come to -/

namespace ProposalObject

/-- The list of a model. -/
def topk? : ProposalObject → Option ResonantModelTopK
  | .model _ topk => some topk
  | _ => none

/-- The status of a seed. -/
def status? : ProposalObject → Option SeedStatus
  | .seed _ status => some status
  | _ => none

/-- The bundle of a policy. -/
def bundle? : ProposalObject → Option PolicyBundle
  | .policy bundle => some bundle
  | _ => none

end ProposalObject

/-- The last thing of a kind that is proposed, or the first one of all. -/
def lastProposed {T : Type} (first : T) (select : ProposalObject → Option T) (made : List ProposalObject) : T :=
  (made.filterMap select).getLast?.getD first

/-- The last object of a kind is the one just proposed, if it is of this kind, and otherwise the last one
before it. -/
theorem lastProposed_concat {T : Type} (first : T) (select : ProposalObject → Option T)
    (made : List ProposalObject) (object : ProposalObject) :
    lastProposed first select (made ++ [object]) = (select object).getD (lastProposed first select made) := by
  unfold lastProposed
  cases hselect : select object <;> simp [hselect]

/-- What is proposed carries the clock of its proposal. -/
def ProposalObject.Stamped (clock : Hlc) : ProposalObject → Prop
  | .model _ topk => topk.updated = clock
  | .seed _ _ => True
  | .policy bundle => bundle.version = clock

/-- The object that is built for a proposal carries the clock of the proposal. -/
theorem stamped_of_buildObject {lib : NoeticLibrary} {data : JsonValue} {localPeer : PeerId} {clock : Hlc}
    {nowMs : UInt64} {obj : NoeticObjectKind} {object : ProposalObject}
    (h : buildObject lib data localPeer clock nowMs obj = .ok object) : object.Stamped clock := by
  cases obj with
  | model =>
      unfold buildObject buildModelProposal at h
      cases hmodel : lib.parseModel data with
      | error reason => simp [hmodel] at h
      | ok model =>
          rw [hmodel] at h
          cases h
          rfl
  | seed =>
      unfold buildObject at h
      cases hseed : buildSeedProposal data localPeer clock nowMs with
      | error reason => simp [hseed] at h
      | ok seed =>
          rw [hseed] at h
          cases h
          trivial
  | policy =>
      cases h
      rfl

/-- A state holds what its proposals say, and no register is later than a clock. -/
structure NoeticState.Reflects (state : NoeticState ℚ) (clock : Hlc) (made : List ProposalObject) : Prop where
  models : state.models.Holds fun header => ∃ topk, .model header topk ∈ made
  epochs : state.epochs = .default
  seeds : state.seeds.Holds fun header => ∃ status, .seed header status ∈ made
  modelTopk : state.modelTopk.Holds (lastProposed ⟨[], .new state.peer 0⟩ ProposalObject.topk? made) clock
  seedStatus : state.seedStatus.Holds (lastProposed .pending ProposalObject.status? made) clock
  policies : state.policies.Holds (lastProposed ⟨.new state.peer 0, "", .null⟩ ProposalObject.bundle? made) clock

namespace NoeticState.Reflects

variable {state : NoeticState ℚ} {clock clock' : Hlc} {made : List ProposalObject}

/-- A new state shows nothing, as nothing was proposed. -/
theorem new (localPeer : PeerId) : (NoeticState.new localPeer).Reflects (.new localPeer 0) [] where
  models := ⟨rfl, fun header => by simp [NoeticState.new, OrSet.default]⟩
  epochs := rfl
  seeds := ⟨rfl, fun header => by simp [NoeticState.new, OrSet.default]⟩
  modelTopk := ⟨rfl, le_rfl⟩
  seedStatus := ⟨rfl, le_rfl⟩
  policies := ⟨rfl, le_rfl⟩

/-- A state that reflects what was proposed does so when the clock has moved on. -/
theorem later (h : state.Reflects clock made) (hle : clock.stamp ≤ clock'.stamp) : state.Reflects clock' made where
  models := h.models
  epochs := h.epochs
  seeds := h.seeds
  modelTopk := h.modelTopk.later hle
  seedStatus := h.seedStatus.later hle
  policies := h.policies.later hle

/-- Credences are no part of what was proposed. -/
theorem setCredence (h : state.Reflects clock made) (peer : PeerId) (value : ℚ) :
    (state.setCredence peer value).Reflects clock made where
  models := h.models
  epochs := h.epochs
  seeds := h.seeds
  modelTopk := h.modelTopk
  seedStatus := h.seedStatus
  policies := h.policies

/-- A commit of what is proposed later than all the registers. -/
theorem applyCommit {self : NoeticRuntime ℚ} {proposal : Proposal ℚ} (h : self.state.Reflects clock made)
    (hlater : clock.stamp < proposal.clock.stamp) (hstamped : proposal.object.Stamped proposal.clock)
    (nowMs : UInt64) :
    (self.applyCommit proposal nowMs).state.Reflects proposal.clock (made ++ [proposal.object]) := by
  obtain ⟨hmodels, hepochs, hseeds, htopk, hstatus, hpolicies⟩ := h.later hlater.le
  -- A register that the proposal says nothing about keeps its value.
  have hregister {T : Type} {register : Lww T} {first : T} {select : ProposalObject → Option T}
      (hholds : register.Holds (lastProposed first select made) proposal.clock)
      (hnone : select proposal.object = none) :
      register.Holds (lastProposed first select (made ++ [proposal.object])) proposal.clock := by
    rw [lastProposed_concat, hnone]
    exact hholds
  -- A register that it is about takes the new value, since its clock is later.
  have hwritten {T : Type} {register : Lww T} {first value : T} {select : ProposalObject → Option T}
      (hclock : register.clock.stamp ≤ clock.stamp) (hsome : select proposal.object = some value)
      (ctx : MergeContext ℚ) : (register.merge ⟨value, proposal.clock⟩ ctx).Holds
        (lastProposed first select (made ++ [proposal.object])) proposal.clock := by
    rw [Lww.merge_of_later (hclock.trans_lt hlater), lastProposed_concat, hsome]
    exact ⟨rfl, le_rfl⟩
  unfold NoeticRuntime.applyCommit
  cases hobject : proposal.object with
  | model header topk =>
      rw [hobject] at hstamped hregister hwritten
      have hupdated : topk.updated = proposal.clock := hstamped
      exact
        { models := (hmodels.insert header _ _).congr fun v => by simp [exists_or]
          epochs := hepochs
          seeds := hseeds.congr fun v => by simp
          modelTopk := by
            dsimp only [NoeticState.updateModelTopk]
            rw [hupdated]
            exact hwritten h.modelTopk.2 (by rw [← hupdated]; rfl) _
          seedStatus := hregister hstatus rfl
          policies := hregister hpolicies rfl }
  | seed header status =>
      rw [hobject] at hstamped hregister hwritten
      exact
        { models := hmodels.congr fun v => by simp
          epochs := hepochs
          seeds := (hseeds.insert header _ _).congr fun v => by simp [exists_or]
          modelTopk := hregister htopk rfl
          seedStatus := hwritten h.seedStatus.2 rfl _
          policies := hregister hpolicies rfl }
  | policy bundle =>
      rw [hobject] at hstamped hregister hwritten
      have hversion : bundle.version = proposal.clock := hstamped
      exact
        { models := hmodels.congr fun v => by simp
          epochs := hepochs
          seeds := hseeds.congr fun v => by simp
          modelTopk := hregister htopk rfl
          seedStatus := hregister hstatus rfl
          policies := by
            dsimp only [NoeticState.updatePolicy]
            rw [hversion]
            exact hwritten h.policies.2 rfl _ }

end NoeticState.Reflects

/-! ## Proposals commit at once -/

namespace NoeticRuntime

variable (lib : NoeticLibrary) {self : NoeticRuntime ℚ}

/-- Applying a commit does not change whose state it is. -/
theorem peer_applyCommit (self : NoeticRuntime ℚ) (proposal : Proposal ℚ) (nowMs : UInt64) :
    (self.applyCommit proposal nowMs).state.peer = self.state.peer := by
  unfold applyCommit
  cases proposal.object <;> rfl

/-- The vote of a node for a proposal of its own. -/
def ownVote (self : NoeticRuntime ℚ) (clock : Hlc) : VoteRecord ℚ :=
  ⟨self.localPeer, .approve, self.localCredence, clock⟩

/-- A proposal of a node that its own vote has committed. -/
def carried (self : NoeticRuntime ℚ) (id : ProposalId) (object : ProposalObject) (clock voted : Hlc) : Proposal ℚ :=
  ⟨id, self.localPeer, object, clock, [self.ownVote voted], true, self.localCredence⟩

/-- The node when the commit of its proposal is applied. -/
def settling (self : NoeticRuntime ℚ) (id : ProposalId) (object : ProposalObject) (clock voted : Hlc) :
    NoeticRuntime ℚ :=
  { self with
    state := { self.state with clock := voted }
    consensus :=
      { self.consensus with
        proposals := (self.consensus.proposals.insert id (.new id self.localPeer object clock)).insert id
          (self.carried id object clock voted) } }

/-- What a proposal that can be read comes to, where the node outweighs the quorum. -/
theorem handleNoeticPropose_of_ok {call : ProposeCall} {object : ProposalObject}
    (hquorum : self.consensus.quorum ≤ self.localCredence)
    (hobject : buildObject lib call.data self.localPeer (self.state.clock.tick call.proposedMs) call.builtMs
      call.obj = .ok object) :
    let clock := self.state.clock.tick call.proposedMs
    let voted := clock.tick call.votedMs
    let after := (self.settling call.id object clock voted).applyCommit
      (self.carried call.id object clock voted) call.committedMs
    self.handleNoeticPropose lib call = (after, .ok [
      .noetic (ConsensusEngine.eventFor self.consensus.quorum (.new call.id self.localPeer object clock) .propose),
      .noetic (ConsensusEngine.eventFor self.consensus.quorum (self.carried call.id object clock voted) .commit),
      .merge (after.state.summary lib.hex)]) := by
  simp [handleNoeticPropose, tickClock, hobject, ConsensusEngine.propose, processEvent, ConsensusEngine.eventFor,
    ConsensusEngine.vote, Proposal.record, Proposal.new, Proposal.reaches, hquorum, settling, carried, ownVote]

/-- What cannot be read is not proposed. -/
theorem handleNoeticPropose_of_error {call : ProposeCall} {reason : String}
    (hobject : buildObject lib call.data self.localPeer (self.state.clock.tick call.proposedMs) call.builtMs
      call.obj = .error reason) :
    self.handleNoeticPropose lib call = (self.tickClock call.proposedMs, .error reason) := by
  simp [handleNoeticPropose, tickClock, hobject]

end NoeticRuntime

namespace Hlc

/-- One tick of the clock takes one count at most. -/
theorem log_tick_le (clock : Hlc) (nowMs : UInt64) : (clock.tick nowMs).log.toNat ≤ clock.log.toNat + 1 := by
  unfold tick
  split
  · exact Nat.zero_le _
  · dsimp only
    split
    · rename_i hcount
      have hone : (1 : UInt32).toNat = 1 := rfl
      rw [UInt32.toNat_add, hone]
      exact Nat.mod_le _ _
    · exact Nat.le_succ _

/-- A tick moves the stamp of the clock forward, as long as there is a count left. -/
theorem stamp_lt_tick {clock : Hlc} (h : clock.HasCount) (nowMs : UInt64) :
    clock.stamp < (clock.tick nowMs).stamp :=
  (stamp_lt_tick_iff clock nowMs).mpr (Or.inr h)

/-- Room for three counts is room for one. -/
theorem hasCount_of_room {clock : Hlc} (hroom : clock.log.toNat + 3 < 2 ^ 32) : clock.HasCount := by
  unfold HasCount
  omega

/-- With room for three counts, the clock of a vote can be merged with that of its proposal. -/
theorem clear_tick_tick {clock : Hlc} (hroom : clock.log.toNat + 3 < 2 ^ 32) (proposedMs votedMs nowMs : UInt64) :
    ((clock.tick proposedMs).tick votedMs).Clear (clock.tick proposedMs) nowMs := by
  have hproposed := clock.log_tick_le proposedMs
  have hvoted := (clock.tick proposedMs).log_tick_le votedMs
  constructor
  · intro _
    unfold HasCount
    omega
  · intro _
    unfold HasCount
    omega

end Hlc

/-- A proposal that was made is told of twice, and of its commit with all the credence there is. -/
def Decided (reply : Except String (List NoeticReply)) : Prop :=
  ∀ told, reply = .ok told → ∃ proposed committed summary,
    told = [.noetic proposed, .noetic committed, .merge summary] ∧ proposed.eventMeta.phase = .propose ∧
      committed.eventMeta.phase = .commit ∧ committed.eventMeta.id = proposed.eventMeta.id ∧
      committed.eventMeta.credenceSum = 1

namespace NoeticSession

variable {lib : NoeticLibrary} {localPeer : PeerId} {self : NoeticSession}

/-- What a session keeps. -/
structure Settled (localPeer : PeerId) (session : NoeticSession) : Prop where
  node : session.node.localPeer = localPeer
  peer : session.node.state.peer = localPeer
  credence : session.node.localCredence = 1
  quorum : session.node.consensus.quorum ≤ 1
  proposals : ∀ (id : ProposalId) (proposal : Proposal ℚ), session.node.consensus.proposals[id]? = some proposal →
    proposal.object ∈ session.made ∧ proposal.committed = true ∧
      ∃ clock, proposal.votes = [⟨localPeer, .approve, 1, clock⟩]
  reflects : session.node.state.Reflects session.node.state.clock session.made
  decided : ∀ reply ∈ session.replies, Decided reply

/-- A new runtime is settled: its state reflects the proposals so far, of which there are none. -/
theorem settled_new (localPeer : PeerId) : (new localPeer).Settled localPeer where
  node := rfl
  peer := rfl
  credence := rfl
  quorum := by norm_num [new, NoeticRuntime.new, ConsensusEngine.new]
  proposals id proposal h := by simp [new, NoeticRuntime.new, ConsensusEngine.new] at h
  reflects := (NoeticState.Reflects.new localPeer).setCredence localPeer 1
  decided reply h := by cases h

/-- A proposal that can be read. -/
theorem Settled.propose (h : self.Settled localPeer) {call : ProposeCall} {object : ProposalObject}
    (hroom : self.node.state.clock.log.toNat + 3 < 2 ^ 32)
    (hobject : buildObject lib call.data self.node.localPeer (self.node.state.clock.tick call.proposedMs)
      call.builtMs call.obj = .ok object) :
    (self.command lib (.propose call)).Settled localPeer := by
  have hhandled := self.node.handleNoeticPropose_of_ok lib (h.quorum.trans_eq h.credence.symm) hobject
  have hmade : objectOf lib self.node call = some object := by
    rw [objectOf, hobject]
    rfl
  -- The clock of the proposal, that of the vote, and the one that is merged of them.
  have hproposed := Hlc.stamp_lt_tick (Hlc.hasCount_of_room hroom) call.proposedMs
  have hclear := Hlc.clear_tick_tick hroom call.proposedMs call.votedMs call.committedMs
  dsimp only at hhandled
  generalize self.node.state.clock.tick call.proposedMs = clock at hhandled hobject hproposed hclear
  generalize clock.tick call.votedMs = voted at hhandled hclear
  have hmerged := (Hlc.stamp_lt_merged hclear self.node.localPeer).2.le
  have hreflects : (self.node.settling call.id object clock voted).state.Reflects self.node.state.clock self.made :=
    ⟨h.reflects.models, h.reflects.epochs, h.reflects.seeds, h.reflects.modelTopk, h.reflects.seedStatus,
      h.reflects.policies⟩
  have hcarried : self.node.state.clock.stamp < (self.node.carried call.id object clock voted).clock.stamp :=
    hproposed
  have happlied := hreflects.applyCommit hcarried (stamped_of_buildObject hobject) call.committedMs
  have hcommand : self.command lib (.propose call) =
      ⟨(self.node.handleNoeticPropose lib call).1, self.made ++ [object],
        self.replies ++ [(self.node.handleNoeticPropose lib call).2]⟩ := by
    simp [command, hmade]
  rw [hcommand, hhandled]
  refine ⟨h.node, ?_, h.credence, h.quorum, ?_, ?_, ?_⟩
  · exact (NoeticRuntime.peer_applyCommit _ _ _).trans h.peer
  · intro id proposal hproposal
    by_cases hid : id = call.id
    · subst hid
      obtain rfl : self.node.carried call.id object clock voted = proposal := by
        simpa [NoeticRuntime.applyCommit, NoeticRuntime.settling] using hproposal
      refine ⟨List.mem_append_right _ List.mem_cons_self, rfl, voted, ?_⟩
      simp [NoeticRuntime.carried, NoeticRuntime.ownVote, h.node, h.credence]
    · have hbefore : self.node.consensus.proposals[id]? = some proposal := by
        simpa [NoeticRuntime.applyCommit, NoeticRuntime.settling, Std.ExtTreeMap.getElem?_insert, Ne.symm hid]
          using hproposal
      obtain ⟨hmem, hcommitted, hvotes⟩ := h.proposals id proposal hbefore
      exact ⟨List.mem_append_left _ hmem, hcommitted, hvotes⟩
  · rw [NoeticRuntime.clock_applyCommit]
    exact happlied.later hmerged
  · intro reply hreply
    rcases List.mem_append.mp hreply with hold | hnew
    · exact h.decided reply hold
    · intro told htold
      rw [List.mem_singleton.mp hnew] at htold
      cases htold
      exact ⟨_, _, _, rfl, rfl, rfl, rfl, h.credence⟩

/-- A proposal that cannot be read moves the clock, and nothing else. -/
theorem Settled.refuse (h : self.Settled localPeer) {call : ProposeCall} {reason : String}
    (hroom : self.node.state.clock.log.toNat + 3 < 2 ^ 32)
    (hobject : buildObject lib call.data self.node.localPeer (self.node.state.clock.tick call.proposedMs)
      call.builtMs call.obj = .error reason) :
    (self.command lib (.propose call)).Settled localPeer := by
  have hcommand : self.command lib (.propose call) =
      ⟨self.node.tickClock call.proposedMs, self.made, self.replies ++ [.error reason]⟩ := by
    have hmade : objectOf lib self.node call = none := by
      rw [objectOf, hobject]
      rfl
    simp [command, hmade, self.node.handleNoeticPropose_of_error lib hobject]
  have hlater := Hlc.stamp_lt_tick (Hlc.hasCount_of_room hroom) call.proposedMs
  have hreflects := h.reflects.later hlater.le
  rw [hcommand]
  refine ⟨h.node, h.peer, h.credence, h.quorum, h.proposals, ?_, ?_⟩
  · exact ⟨hreflects.models, hreflects.epochs, hreflects.seeds, hreflects.modelTopk, hreflects.seedStatus,
      hreflects.policies⟩
  · intro reply hreply
    rcases List.mem_append.mp hreply with hold | hnew
    · exact h.decided reply hold
    · intro told htold
      rw [List.mem_singleton.mp hnew] at htold
      cases htold

/-- A command leaves it settled: a proposal commits at once by the vote of the peer itself, and everything
else proposes nothing. -/
theorem Settled.command (h : self.Settled localPeer) {c : NoeticCommand}
    (hroom : (∃ call, c = .propose call) → self.node.state.clock.log.toNat + 3 < 2 ^ 32) :
    (self.command lib c).Settled localPeer := by
  cases c with
  | propose call =>
      cases hobject : buildObject lib call.data self.node.localPeer (self.node.state.clock.tick call.proposedMs)
          call.builtMs call.obj with
      | error reason => exact h.refuse (hroom ⟨call, rfl⟩) hobject
      | ok object => exact h.propose (hroom ⟨call, rfl⟩) hobject
  | quorum q =>
      have hquorum : max (clamp q 0.0 1.0) 0 ≤ (1 : ℚ) := max_le (clamp_le_one (by norm_num) q) (by norm_num)
      exact ⟨h.node, h.peer, h.credence, hquorum, h.proposals, h.reflects, h.decided⟩
  | peerAdd spec =>
      exact ⟨h.node, h.peer, h.credence, h.quorum, h.proposals, h.reflects.setCredence _ _, h.decided⟩

/-- By induction over the commands, so does a run with room for the clock. -/
theorem Settled.run (h : self.Settled localPeer) {commands : List NoeticCommand}
    (hroom : self.Roomy lib commands) : (self.run lib commands).Settled localPeer := by
  induction commands generalizing self with
  | nil => exact h
  | cons c commands ih => exact ih (h.command hroom.1) hroom.2

/-- Whatever a host commands, as long as the counter of the clock has room, every proposal that can be read
commits at once, by the vote of the node alone; and the state of the node is what its proposals say: all the
models and seeds, and the last of the lists, of the statuses and of the policies. -/
theorem proposals_commit_at_once (lib : NoeticLibrary) (localPeer : PeerId) (commands : List NoeticCommand)
    (h : (new localPeer).Roomy lib commands) :
    let session := (new localPeer).run lib commands
    let state := session.node.state
    (∀ reply ∈ session.replies, Decided reply) ∧
      (∀ (id : ProposalId) (proposal : Proposal ℚ), session.node.consensus.proposals[id]? = some proposal →
        proposal.object ∈ session.made ∧ proposal.committed = true ∧
          ∃ clock, proposal.votes = [⟨localPeer, .approve, 1, clock⟩]) ∧
      (∀ header, header ∈ state.models.elements (state.mergeContext none) ↔
        ∃ topk, .model header topk ∈ session.made) ∧
      (∀ header, header ∈ state.seeds.elements (state.mergeContext none) ↔
        ∃ status, .seed header status ∈ session.made) ∧
      state.modelTopk.value = lastProposed ⟨[], .new localPeer 0⟩ ProposalObject.topk? session.made ∧
      state.seedStatus.value = lastProposed .pending ProposalObject.status? session.made ∧
      state.policies.value = lastProposed ⟨.new localPeer 0, "", .null⟩ ProposalObject.bundle? session.made := by
  have hsettled := (settled_new localPeer).run h
  have hreflects := hsettled.reflects
  refine ⟨hsettled.decided, hsettled.proposals, fun header => hreflects.models.mem_elements _ header,
    fun header => hreflects.seeds.mem_elements _ header, ?_, hreflects.seedStatus.1, ?_⟩
  · have hvalue := hreflects.modelTopk.1
    rwa [hsettled.peer] at hvalue
  · have hvalue := hreflects.policies.1
    rwa [hsettled.peer] at hvalue

/-- A library for seeds: no model can be read. -/
def sampleNoeticLibrary : NoeticLibrary where
  parseModel _ := .error "missing field"
  modelToVec _ := []
  jsonToVec _ := []
  blake3 bytes := ⟨(bytes ++ List.replicate 32 0).take 32, by simp⟩
  fixed3 _ := "0.000"

/-- A quorum of certainty, a peer, a model that cannot be read, and a seed that has started. -/
def sampleCommands (modelId seedId : ProposalId) : List NoeticCommand :=
  let seed := JsonValue.object [("id", .string "s"), ("started_ms", .number "5"), ("status", .string "Active")]
  [.quorum 1, .peerAdd ⟨"ws://b", 1, none⟩, .propose ⟨modelId, .model, .null, 9, 9, 9, 9⟩,
    .propose ⟨seedId, .seed, seed, 10, 10, 11, 12⟩]

/-- In the sample the status of the seed is the one that was proposed last. -/
theorem proposals_commit_at_once_sampleCommands :
    ((new (samplePeer 1)).run sampleNoeticLibrary (sampleCommands ⟨0⟩ ⟨1⟩)).node.state.seedStatus.value =
      .active 5 := by
  have hroom : (new (samplePeer 1)).Roomy sampleNoeticLibrary (sampleCommands ⟨0⟩ ⟨1⟩) :=
    ⟨fun _ => by decide, fun _ => by decide, fun _ => by decide, fun _ => by decide, trivial⟩
  obtain ⟨-, -, -, -, -, hstatus, -⟩ :=
    proposals_commit_at_once sampleNoeticLibrary (samplePeer 1) (sampleCommands ⟨0⟩ ⟨1⟩) hroom
  exact hstatus.trans (by decide)

end NoeticSession

end LiminalDB
