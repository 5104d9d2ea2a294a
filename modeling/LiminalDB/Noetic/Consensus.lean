import LiminalDB.Noetic.State
import Mathlib.Tactic.Abel

/-! # The soft quorum: `consensus.rs`

An engine keeps the newest vote of each peer and commits a proposal as soon as all of them approve and
their credences reach the quorum. A commit is never taken back, so an engine decides on the votes it has
received so far (`isCommitted_deliver_iff`), and two engines that receive the same votes in different
orders may differ. `consensus_agreement_iff` says for which sets of votes they cannot. -/

namespace LiminalDB

/-- `ProposalId`: the bits of a UUID. -/
structure ProposalId where
  bits : Fin (2 ^ 128)
  deriving DecidableEq

instance : LinearOrder ProposalId :=
  LinearOrder.lift' ProposalId.bits fun a b h => by cases a; cases b; exact congrArg _ h

instance : Std.LawfulEqOrd ProposalId := lawfulEqOrd ProposalId

instance : Std.TransOrd ProposalId := transOrd ProposalId

/-- `ProposalKind`: what a proposal is about, without the object itself. -/
inductive ProposalKind
  | model
  | seed
  | policy
  deriving DecidableEq

/-- `ProposalObject`: what is proposed: a model, the status of a seed, or a policy. -/
inductive ProposalObject
  | model (header : ResonantModelHeader) (topk : ResonantModelTopK)
  | seed (header : SeedHeader) (status : SeedStatus)
  | policy (bundle : PolicyBundle)

/-- `ProposalObject::kind`: the kind of what is proposed. -/
def ProposalObject.kind : ProposalObject → ProposalKind
  | model _ _ => .model
  | seed _ _ => .seed
  | policy _ => .policy

/-- `VoteDecision`: a vote is for a proposal or against it. -/
inductive VoteDecision
  | approve
  | reject
  deriving DecidableEq

/-- `VoteRecord`: what a peer decided, how much its vote weighs, and when it voted. -/
structure VoteRecord (F : Type) where
  peer : PeerId
  decision : VoteDecision
  credence : F
  clock : Hlc
  deriving DecidableEq

/-- `Proposal`: what a peer proposed, with the votes that it got and whether it is committed. -/
structure Proposal (F : Type) where
  id : ProposalId
  proposer : PeerId
  object : ProposalObject
  clock : Hlc
  votes : List (VoteRecord F)
  committed : Bool
  credenceSum : F

/-- `Phase`: the phase that an event announces. -/
inductive Phase
  | propose
  | vote
  | commit
  deriving DecidableEq

/-- `EventMeta`: what an event says about its proposal: the phase, the approval so far, and the
quorum. -/
structure EventMeta (F : Type) where
  phase : Phase
  obj : ProposalKind
  id : ProposalId
  credenceSum : F
  quorum : F
  deriving DecidableEq

/-- `NoeticEvent`: what the engine announces to the other peers. -/
structure NoeticEvent (F : Type) where
  ev : String
  eventMeta : EventMeta F
  deriving DecidableEq

/-- `ConsensusEngine`: the proposals under their ids, and the approval which commits one. -/
structure ConsensusEngine (F : Type) where
  quorum : F
  proposals : Std.ExtTreeMap ProposalId (Proposal F) compare

/-- `is_newer`: later by physical time, then by the logical counter, then by the node. -/
def isNewer (a b : Hlc) : Bool :=
  if a.physMs > b.physMs then true
  else if a.physMs < b.physMs then false
  else if a.log > b.log then true
  else if a.log < b.log then false
  else decide (a.node > b.node)

/-- A clock is newer than another one if it is later in the order of the clocks. -/
theorem isNewer_iff {a b : Hlc} : isNewer a b = true ↔ b < a := by
  show _ ↔ toLex (b.physMs.toNat, toLex (b.log.toNat, b.node)) <
    toLex (a.physMs.toNat, toLex (a.log.toNat, a.node))
  simp only [isNewer, Prod.Lex.toLex_lt_toLex, gt_iff_lt, UInt64.lt_iff_toNat_lt,
    UInt32.lt_iff_toNat_lt]
  split_ifs with h1 h2 h3 h4
  · exact iff_of_true rfl (.inl h1)
  · exact iff_of_false id (by omega)
  · exact iff_of_true rfl (.inr ⟨by omega, .inl h3⟩)
  · exact iff_of_false id (by omega)
  · have hphys : b.physMs.toNat = a.physMs.toNat := by omega
    have hlog : b.log.toNat = a.log.toNat := by omega
    simp [hphys, hlog]

/-! ## Votes on one proposal -/

namespace Proposal

variable {F : Type} [AddCommGroup F] [LinearOrder F]

/-- The record of a peer is overwritten in place. -/
def replaceVote (peer : PeerId) (vote : VoteRecord F) : List (VoteRecord F) → List (VoteRecord F)
  | [] => []
  | record :: records =>
      if record.peer = peer then vote :: records else record :: replaceVote peer vote records

/-- What a vote adds to `credence_sum`. -/
def approved (vote : VoteRecord F) : F := if vote.decision = .approve then vote.credence else 0

/-- The first part of `vote`: the record of the peer, when the vote is its first or newer than the one
recorded; `none` when nothing was updated. -/
def record (self : Proposal F) (vote : VoteRecord F) : Option (Proposal F) :=
  match self.votes.find? (fun record => record.peer = vote.peer) with
  | some old =>
      if isNewer vote.clock old.clock then
        let credenceSum := if old.decision = .approve then self.credenceSum - old.credence
          else self.credenceSum
        some { self with
          votes := replaceVote vote.peer vote self.votes
          credenceSum := if vote.decision = .approve then credenceSum + vote.credence else credenceSum }
      else none
  | none =>
      some { self with
        votes := self.votes ++ [vote]
        credenceSum := if vote.decision = .approve then self.credenceSum + vote.credence
          else self.credenceSum }

/-- The test for a commit. -/
def reaches (self : Proposal F) (quorum : F) : Bool :=
  !self.committed && (decide (self.credenceSum ≥ quorum) &&
    self.votes.all fun vote => vote.decision = .approve)

/-- A proposal as `propose_model`, `propose_seed` and `propose_policy` make it. -/
def new (id : ProposalId) (proposer : PeerId) (object : ProposalObject) (clock : Hlc) : Proposal F :=
  { id, proposer, object, clock, votes := [], committed := false, credenceSum := 0 }

end Proposal

namespace ConsensusEngine

variable {F : Type} [AddCommGroup F] [LinearOrder F]

/-- `ConsensusEngine::new`: an engine without any proposals. -/
def new (quorum : F) : ConsensusEngine F := ⟨quorum, ∅⟩

/-- `set_quorum`: the quorum is changed, and a negative one becomes zero. -/
def setQuorum (self : ConsensusEngine F) (quorum : F) : ConsensusEngine F :=
  { self with quorum := max quorum 0 }

/-- `event_for`: the event which announces a phase of a proposal. -/
def eventFor (quorum : F) (proposal : Proposal F) (phase : Phase) : NoeticEvent F :=
  ⟨"noetic", phase, proposal.object.kind, proposal.id, proposal.credenceSum, quorum⟩

/-- `propose_model`, `propose_seed` and `propose_policy`, with the fresh id. -/
def propose (self : ConsensusEngine F) (id : ProposalId) (proposer : PeerId) (object : ProposalObject)
    (clock : Hlc) : ConsensusEngine F × NoeticEvent F :=
  let proposal := Proposal.new id proposer object clock
  ({ self with proposals := self.proposals.insert id proposal },
    eventFor self.quorum proposal .propose)

/-- `propose_model`: a model is proposed, under its header and its best entries. -/
def proposeModel (self : ConsensusEngine F) (id : ProposalId) (proposer : PeerId)
    (header : ResonantModelHeader) (topk : ResonantModelTopK) (clock : Hlc) :
    ConsensusEngine F × NoeticEvent F :=
  self.propose id proposer (.model header topk) clock

/-- `propose_seed`: the status of a seed is proposed. -/
def proposeSeed (self : ConsensusEngine F) (id : ProposalId) (proposer : PeerId)
    (header : SeedHeader) (status : SeedStatus) (clock : Hlc) : ConsensusEngine F × NoeticEvent F :=
  self.propose id proposer (.seed header status) clock

/-- `propose_policy`: a bundle of policy is proposed. -/
def proposePolicy (self : ConsensusEngine F) (id : ProposalId) (proposer : PeerId)
    (bundle : PolicyBundle) (clock : Hlc) : ConsensusEngine F × NoeticEvent F :=
  self.propose id proposer (.policy bundle) clock

/-- `vote`: a vote is recorded on a proposal that is there, and announced if it changed anything. -/
def vote (self : ConsensusEngine F) (proposalId : ProposalId) (vote : VoteRecord F) :
    ConsensusEngine F × Option (NoeticEvent F) :=
  match self.proposals[proposalId]? with
  | none => (self, none)
  | some proposal =>
      match proposal.record vote with
      | none => (self, none)
      | some proposal =>
          if proposal.reaches self.quorum then
            let proposal := { proposal with committed := true }
            ({ self with proposals := self.proposals.insert proposalId proposal },
              some (eventFor self.quorum proposal .commit))
          else
            ({ self with proposals := self.proposals.insert proposalId proposal },
              some (eventFor self.quorum proposal .vote))

/-- `commit`: a proposal is committed if it reaches the quorum and was not committed before. -/
def commit (self : ConsensusEngine F) (proposalId : ProposalId) :
    ConsensusEngine F × Option (NoeticEvent F) :=
  match self.proposals[proposalId]? with
  | none => (self, none)
  | some proposal =>
      if proposal.committed then (self, none)
      else
        let proposal := { proposal with committed := true }
        ({ self with proposals := self.proposals.insert proposalId proposal },
          some (eventFor self.quorum proposal .commit))

/-- The engine after it has received the votes in turn. -/
def deliver (self : ConsensusEngine F) (proposalId : ProposalId) (votes : List (VoteRecord F)) :
    ConsensusEngine F :=
  votes.foldl (fun engine v => (engine.vote proposalId v).1) self

/-- The proposal is known to the engine and committed. -/
def isCommitted (self : ConsensusEngine F) (proposalId : ProposalId) : Bool :=
  self.proposals[proposalId]?.any Proposal.committed

end ConsensusEngine

/-! ## What the votes say -/

section Newest

variable {F : Type} {votes : Finset (VoteRecord F)} {u v w : VoteRecord F}

/-- The newest vote of each peer. -/
def newestVotes (votes : Finset (VoteRecord F)) : Finset (VoteRecord F) :=
  votes.filter fun v => ∀ w ∈ votes, w.peer = v.peer → w.clock ≤ v.clock

/-- The newest votes are all for the proposal, and their credences reach the quorum. -/
def Carried [AddCommGroup F] [LinearOrder F] (quorum : F) (votes : Finset (VoteRecord F)) : Prop :=
  (∀ v ∈ newestVotes votes, v.decision = .approve) ∧ quorum ≤ ∑ v ∈ newestVotes votes, v.credence

instance [AddCommGroup F] [LinearOrder F] (quorum : F) (votes : Finset (VoteRecord F)) :
    Decidable (Carried quorum votes) := inferInstanceAs (Decidable (_ ∧ _))

/-- No peer has cast two votes under one clock. -/
def DistinctClocks (votes : Finset (VoteRecord F)) : Prop :=
  ∀ v ∈ votes, ∀ w ∈ votes, v.peer = w.peer → v.clock = w.clock → v = w

/-- A vote is among the newest if no vote of its peer has a later clock. -/
theorem mem_newestVotes : v ∈ newestVotes votes ↔
    v ∈ votes ∧ ∀ w ∈ votes, w.peer = v.peer → w.clock ≤ v.clock := Finset.mem_filter

/-- Each peer that has voted has a newest vote. -/
theorem exists_newestVote (h : w ∈ votes) : ∃ v ∈ newestVotes votes, v.peer = w.peer := by
  obtain ⟨v, hv, hmax⟩ := (votes.filter fun u => u.peer = w.peer).exists_max_image VoteRecord.clock
    ⟨w, Finset.mem_filter.mpr ⟨h, rfl⟩⟩
  obtain ⟨hmem, hpeer⟩ := Finset.mem_filter.mp hv
  refine ⟨v, mem_newestVotes.mpr ⟨hmem, fun u hu hup => ?_⟩, hpeer⟩
  exact hmax u (Finset.mem_filter.mpr ⟨hu, hup.trans hpeer⟩)

/-- A vote that is the first of its peer, or newer than the newest, takes its place. -/
theorem mem_newestVotes_insert_newer [DecidableEq F]
    (h : ∀ w ∈ newestVotes votes, w.peer = v.peer → w.clock < v.clock) :
    u ∈ newestVotes (insert v votes) ↔ u = v ∨ u ∈ newestVotes votes ∧ u.peer ≠ v.peer := by
  have hnewer : ∀ w ∈ votes, w.peer = v.peer → w.clock < v.clock := by
    intro w hw hpeer
    obtain ⟨best, hbest, hpeer'⟩ := exists_newestVote hw
    exact ((mem_newestVotes.mp hbest).2 w hw hpeer'.symm).trans_lt (h best hbest (hpeer'.trans hpeer))
  simp only [mem_newestVotes, Finset.mem_insert, forall_eq_or_imp]
  constructor
  · rintro ⟨rfl | hu, hv, hrest⟩
    · exact .inl rfl
    · by_cases hpeer : u.peer = v.peer
      · exact absurd (hv hpeer.symm) (not_le.mpr (hnewer u hu hpeer))
      · exact .inr ⟨⟨hu, hrest⟩, hpeer⟩
  · rintro (rfl | ⟨⟨hu, hrest⟩, hpeer⟩)
    · exact ⟨.inl rfl, fun _ => le_rfl, fun w hw hpeer => (hnewer w hw hpeer).le⟩
    · exact ⟨.inr hu, fun hv => absurd hv.symm hpeer, hrest⟩

/-- A vote that is not newer than the newest of its peer changes nothing. -/
theorem newestVotes_insert_older [DecidableEq F] (hdistinct : DistinctClocks (insert v votes))
    (hw : w ∈ newestVotes votes) (hpeer : w.peer = v.peer) (hold : v.clock ≤ w.clock) :
    newestVotes (insert v votes) = newestVotes votes := by
  obtain ⟨hwmem, hwmax⟩ := mem_newestVotes.mp hw
  ext u
  simp only [mem_newestVotes, Finset.mem_insert, forall_eq_or_imp]
  constructor
  · rintro ⟨rfl | hu, hv, hrest⟩
    · have heq : u = w := hdistinct u (by simp) w (by simp [hwmem]) hpeer.symm
        (le_antisymm hold (hrest w hwmem hpeer))
      exact ⟨heq ▸ hwmem, hrest⟩
    · exact ⟨hu, hrest⟩
  · rintro ⟨hu, hrest⟩
    refine ⟨.inr hu, fun hv => ?_, hrest⟩
    exact hold.trans (hrest w hwmem (hpeer.trans hv))

/-- Votes of different peers are all newest. -/
theorem newestVotes_of_injOn (h : Set.InjOn VoteRecord.peer (votes : Set (VoteRecord F))) :
    newestVotes votes = votes := by
  refine Finset.filter_true_of_mem fun v hv w hw hpeer => ?_
  rw [h hw hv hpeer]

/-- Each peer has one newest vote at most, if no two votes of a peer share a clock. -/
theorem newestVotes_injOn (hdistinct : DistinctClocks votes) :
    Set.InjOn VoteRecord.peer (newestVotes votes : Set (VoteRecord F)) := by
  intro v hv w hw hpeer
  obtain ⟨hvmem, hvmax⟩ := mem_newestVotes.mp hv
  obtain ⟨hwmem, hwmax⟩ := mem_newestVotes.mp hw
  exact hdistinct v hvmem w hwmem hpeer
    (le_antisymm (hwmax v hvmem hpeer) (hvmax w hwmem hpeer.symm))

end Newest

/-! ## The records of a proposal -/

namespace Proposal

variable {F : Type} [AddCommGroup F] [LinearOrder F] {records : List (VoteRecord F)}
  {peer : PeerId} {vote : VoteRecord F}

section Replace

omit [AddCommGroup F] [LinearOrder F]

/-- Replacing the vote of a peer leaves the peers that have voted. -/
theorem replaceVote_peers (h : vote.peer = peer) :
    (replaceVote peer vote records).map VoteRecord.peer = records.map VoteRecord.peer := by
  induction records with
  | nil => rfl
  | cons record records ih =>
      rw [replaceVote]
      split_ifs with hpeer
      · rw [List.map_cons, List.map_cons, hpeer, h]
      · rw [List.map_cons, List.map_cons, ih]

/-- Afterwards there are the new vote, and the old ones of the other peers. -/
theorem mem_replaceVote (hnodup : (records.map VoteRecord.peer).Nodup)
    (hpeer : ∃ old ∈ records, old.peer = peer) {u : VoteRecord F} :
    u ∈ replaceVote peer vote records ↔ u = vote ∨ u ∈ records ∧ u.peer ≠ peer := by
  induction records with
  | nil => simp at hpeer
  | cons record records ih =>
      obtain ⟨hnot, hnodup⟩ := List.nodup_cons.mp hnodup
      rw [replaceVote]
      split_ifs with hfirst
      · -- the first record is the one of the peer, and the others are of other peers
        have hothers : ∀ u ∈ records, u.peer ≠ peer := fun u hu heq =>
          hnot (hfirst ▸ heq ▸ List.mem_map_of_mem hu)
        simp only [List.mem_cons]
        refine or_congr_right ⟨fun hu => ⟨.inr hu, hothers u hu⟩, ?_⟩
        rintro ⟨rfl | hu, hne⟩
        · exact absurd hfirst hne
        · exact hu
      · obtain ⟨old, hold, heq⟩ := hpeer
        have hrest : ∃ old ∈ records, old.peer = peer :=
          ⟨old, (List.mem_cons.mp hold).resolve_left (by rintro rfl; exact hfirst heq), heq⟩
        simp only [List.mem_cons, ih hnodup hrest]
        constructor
        · rintro (rfl | rfl | ⟨hu, hne⟩)
          · exact .inr ⟨.inl rfl, hfirst⟩
          · exact .inl rfl
          · exact .inr ⟨.inr hu, hne⟩
        · rintro (rfl | ⟨rfl | hu, hne⟩)
          · exact .inr (.inl rfl)
          · exact .inl rfl
          · exact .inr (.inr ⟨hu, hne⟩)

end Replace

omit [LinearOrder F] in
/-- The sum of the credences that approve loses that of the replaced vote and wins that of the new one. -/
theorem sum_replaceVote {old : VoteRecord F}
    (hold : records.find? (fun record => record.peer = peer) = some old) :
    ((replaceVote peer vote records).map approved).sum =
      (records.map approved).sum - approved old + approved vote := by
  induction records with
  | nil => simp at hold
  | cons record records ih =>
      rw [replaceVote]
      split_ifs with hfirst
      · rw [List.find?_cons_of_pos (by simpa using hfirst)] at hold
        rw [← Option.some.inj hold, List.map_cons, List.sum_cons, List.map_cons, List.sum_cons]
        abel
      · rw [List.find?_cons_of_neg (by simpa using hfirst)] at hold
        rw [List.map_cons, List.sum_cons, ih hold, List.map_cons, List.sum_cons]
        abel

/-- The records of a proposal that has received the votes: the newest of each peer, and the credence of
those that approve. -/
structure Tally (proposal : Proposal F) (votes : Finset (VoteRecord F)) : Prop where
  nodup : (proposal.votes.map VoteRecord.peer).Nodup
  mem_votes : ∀ v, v ∈ proposal.votes ↔ v ∈ newestVotes votes
  credenceSum : proposal.credenceSum = (proposal.votes.map approved).sum

variable {self next : Proposal F} {votes : Finset (VoteRecord F)}

omit [LinearOrder F] in
/-- A new proposal has tallied no votes. -/
theorem tally_new (id : ProposalId) (proposer : PeerId) (object : ProposalObject) (clock : Hlc) :
    Tally (new id proposer object clock : Proposal F) ∅ :=
  ⟨List.nodup_nil, fun v => by simp [new, newestVotes], rfl⟩

/-- A vote that updates the records. -/
theorem Tally.record (h : Tally self votes) (hnext : self.record vote = some next) :
    Tally next (insert vote votes) ∧ next.committed = self.committed := by
  rw [Proposal.record] at hnext
  cases hfind : self.votes.find? (fun record => record.peer = vote.peer) with
  | none =>
      rw [hfind] at hnext
      obtain rfl := Option.some.inj hnext
      have hnone : ∀ w ∈ self.votes, w.peer ≠ vote.peer := by simpa using hfind
      refine ⟨⟨?_, fun v => ?_, ?_⟩, rfl⟩
      · rw [List.map_append, List.nodup_append']
        refine ⟨h.nodup, List.nodup_singleton _, ?_⟩
        simpa using hnone
      · rw [mem_newestVotes_insert_newer fun w hw hpeer =>
          absurd hpeer (hnone w ((h.mem_votes w).mpr hw)), ← h.mem_votes]
        simp only [List.mem_append, List.mem_singleton]
        refine or_comm.trans (or_congr_right ⟨fun hv => ⟨hv, hnone v hv⟩, And.left⟩)
      · simp only [List.map_append, List.sum_append, List.map_singleton, List.sum_singleton, approved,
          ← h.credenceSum]
        split_ifs <;> simp
  | some old =>
      rw [hfind] at hnext
      dsimp only at hnext
      by_cases hnewer : isNewer vote.clock old.clock = true
      case neg => rw [if_neg hnewer] at hnext; cases hnext
      rw [if_pos hnewer] at hnext
      obtain rfl := Option.some.inj hnext
      have hpeer : old.peer = vote.peer := by simpa using List.find?_some hfind
      have hold : old ∈ self.votes := List.mem_of_find?_eq_some hfind
      refine ⟨⟨?_, fun v => ?_, ?_⟩, rfl⟩
      · rw [replaceVote_peers rfl]
        exact h.nodup
      · rw [mem_replaceVote h.nodup ⟨old, hold, hpeer⟩, h.mem_votes, mem_newestVotes_insert_newer]
        intro w hw hwpeer
        have heq : w = old := List.inj_on_of_nodup_map h.nodup ((h.mem_votes w).mpr hw) hold
          (hwpeer.trans hpeer.symm)
        rw [heq]
        exact isNewer_iff.mp hnewer
      · rw [sum_replaceVote hfind, ← h.credenceSum]
        simp only [approved]
        split_ifs <;> abel

/-- A vote that updates nothing. -/
theorem Tally.newestVotes_of_record_none (h : Tally self votes) (hnone : self.record vote = none)
    (hdistinct : DistinctClocks (insert vote votes)) :
    newestVotes (insert vote votes) = newestVotes votes ∧ votes ≠ ∅ := by
  rw [Proposal.record] at hnone
  cases hfind : self.votes.find? (fun record => record.peer = vote.peer) with
  | none => rw [hfind] at hnone; cases hnone
  | some old =>
      rw [hfind] at hnone
      dsimp only at hnone
      split_ifs at hnone with hnewer
      have hmem := (h.mem_votes old).mp (List.mem_of_find?_eq_some hfind)
      refine ⟨newestVotes_insert_older hdistinct hmem (by simpa using List.find?_some hfind) ?_, ?_⟩
      · exact not_lt.mp fun hlt => hnewer (isNewer_iff.mpr hlt)
      · rintro rfl
        simp [newestVotes] at hmem

/-- The test for a commit asks whether the votes received so far carry the proposal. -/
theorem Tally.reaches_iff (h : Tally self votes) (quorum : F) :
    self.reaches quorum = true ↔ self.committed = false ∧ Carried quorum votes := by
  have hall : (self.votes.all fun vote => vote.decision = .approve) = true ↔
      ∀ v ∈ newestVotes votes, v.decision = .approve := by
    simp only [List.all_eq_true, decide_eq_true_eq, h.mem_votes]
  have hsum : (∀ v ∈ newestVotes votes, v.decision = .approve) →
      self.credenceSum = ∑ v ∈ newestVotes votes, v.credence := by
    intro happrove
    have hset : newestVotes votes = self.votes.toFinset := by
      ext v
      rw [List.mem_toFinset, h.mem_votes]
    rw [h.credenceSum, hset, List.sum_toFinset _ h.nodup.of_map]
    refine congrArg List.sum (List.map_congr_left fun v hv => ?_)
    rw [approved, if_pos (happrove v ((h.mem_votes v).mp hv))]
  simp only [reaches, Bool.and_eq_true, Bool.not_eq_true', decide_eq_true_eq, hall, Carried, ge_iff_le]
  refine and_congr_right fun _ => ⟨fun ⟨hle, happrove⟩ => ⟨happrove, ?_⟩, fun ⟨happrove, hle⟩ => ⟨?_, happrove⟩⟩
  · rwa [← hsum happrove]
  · rwa [hsum happrove]

end Proposal

/-! ## What an engine decides -/

namespace ConsensusEngine

variable {F : Type} [AddCommGroup F] [LinearOrder F] {engine : ConsensusEngine F} {id : ProposalId}
  {votes : List (VoteRecord F)} {v : VoteRecord F}

/-- The engine holds the proposal, has counted the votes, and has committed it if the votes carried it
at some time after the first. -/
structure Counted (engine : ConsensusEngine F) (id : ProposalId) (votes : List (VoteRecord F)) : Prop where
  tally : ∃ proposal, engine.proposals[id]? = some proposal ∧ proposal.Tally votes.toFinset
  committed : engine.isCommitted id = true ↔
    ∃ received, received <+: votes ∧ received ≠ [] ∧ Carried engine.quorum received.toFinset

/-- Voting does not change the quorum. -/
theorem quorum_vote (engine : ConsensusEngine F) (id : ProposalId) (v : VoteRecord F) :
    (engine.vote id v).1.quorum = engine.quorum := by
  unfold ConsensusEngine.vote
  split
  · rfl
  · split
    · rfl
    · split <;> rfl

/-- The prefixes of a longer delivery. -/
theorem exists_prefix_concat {α : Type} {l : List α} {a : α} {P : List α → Prop} :
    (∃ received, received <+: l ++ [a] ∧ P received) ↔
      (∃ received, received <+: l ∧ P received) ∨ P (l ++ [a]) := by
  simp only [List.prefix_concat_iff, or_and_right, exists_or, exists_eq_left]
  exact or_comm

/-- **One vote.** -/
theorem Counted.vote (h : Counted engine id votes)
    (hdistinct : DistinctClocks (votes ++ [v]).toFinset) :
    Counted (engine.vote id v).1 id (votes ++ [v]) := by
  obtain ⟨proposal, hproposal, htally⟩ := h.tally
  have hset : (votes ++ [v]).toFinset = insert v votes.toFinset := by
    ext w
    simp
  have hcommitted := h.committed
  simp only [isCommitted, hproposal, Option.any_some] at hcommitted
  rw [hset] at hdistinct
  cases hrecord : proposal.record v with
  | none =>
      -- The vote is not recorded: it is no newer than that of its peer, and changes nothing that counts.
      have hstay : (engine.vote id v).1 = engine := by
        simp only [ConsensusEngine.vote, hproposal, hrecord]
      obtain ⟨hnewest, hne⟩ := htally.newestVotes_of_record_none hrecord hdistinct
      rw [hstay]
      refine ⟨⟨proposal, hproposal, ?_⟩, ?_⟩
      · rw [hset]
        exact ⟨htally.nodup, fun w => by rw [hnewest, htally.mem_votes], htally.credenceSum⟩
      · rw [h.committed, exists_prefix_concat, hset, or_iff_left_of_imp]
        rintro ⟨-, hcarried⟩
        refine ⟨votes, List.prefix_rfl, by rintro rfl; exact hne rfl, ?_⟩
        rwa [Carried, hnewest] at hcarried
  | some next =>
      obtain ⟨htally', hsame⟩ := htally.record hrecord
      rw [← hset] at htally'
      have hreaches := htally'.reaches_iff engine.quorum
      -- It is recorded, and carries the proposal or not.
      by_cases hnow : next.reaches engine.quorum = true
      · have hstep : (engine.vote id v).1 =
            { engine with proposals := engine.proposals.insert id { next with committed := true } } := by
          simp only [ConsensusEngine.vote, hproposal, hrecord, hnow, if_true]
        rw [hstep]
        refine ⟨⟨_, Std.ExtTreeMap.getElem?_insert_self,
          ⟨htally'.nodup, htally'.mem_votes, htally'.credenceSum⟩⟩, ?_⟩
        rw [exists_prefix_concat]
        simp only [isCommitted, Std.ExtTreeMap.getElem?_insert_self, Option.any_some, true_iff]
        exact .inr ⟨by simp, (hreaches.mp hnow).2⟩
      · have hstep : (engine.vote id v).1 =
            { engine with proposals := engine.proposals.insert id next } := by
          simp only [ConsensusEngine.vote, hproposal, hrecord, hnow]
          rfl
        rw [hstep]
        refine ⟨⟨_, Std.ExtTreeMap.getElem?_insert_self, htally'⟩, ?_⟩
        rw [exists_prefix_concat, ← hcommitted]
        simp only [isCommitted, Std.ExtTreeMap.getElem?_insert_self, Option.any_some, hsame]
        refine (or_iff_left_of_imp fun ⟨_, hcarried⟩ => ?_).symm
        by_contra hnot
        exact hnow (hreaches.mpr ⟨by rw [hsame]; simpa using hnot, hcarried⟩)

/-- The engine holds the proposal as it was proposed. -/
def Holds (engine : ConsensusEngine F) (id : ProposalId) (proposer : PeerId) (object : ProposalObject)
    (clock : Hlc) : Prop :=
  engine.proposals[id]? = some (Proposal.new id proposer object clock)

variable {proposer : PeerId} {object : ProposalObject} {clock : Hlc}

/-- After a delivery an engine has counted the votes of it, under the quorum it had. -/
theorem Holds.counted (h : Holds engine id proposer object clock)
    (hdistinct : DistinctClocks votes.toFinset) :
    Counted (engine.deliver id votes) id votes ∧ (engine.deliver id votes).quorum = engine.quorum := by
  induction votes using List.reverseRecOn with
  | nil =>
      refine ⟨⟨⟨_, h, Proposal.tally_new id proposer object clock⟩, ?_⟩, rfl⟩
      rw [Holds] at h
      simp [deliver, isCommitted, h, Proposal.new]
  | append_singleton votes v ih =>
      have hdistinct' : DistinctClocks votes.toFinset := fun u hu w hw =>
        hdistinct u (by simp_all) w (by simp_all)
      obtain ⟨hcounted, hquorum⟩ := ih hdistinct'
      rw [deliver, List.foldl_append, ← deliver]
      exact ⟨hcounted.vote hdistinct, (quorum_vote _ _ _).trans hquorum⟩

/-- **The decision of one engine.** It has committed the proposal exactly when the votes received up to
some vote carried it. -/
theorem isCommitted_deliver_iff (h : Holds engine id proposer object clock)
    (hdistinct : DistinctClocks votes.toFinset) :
    (engine.deliver id votes).isCommitted id = true ↔
      ∃ received, received <+: votes ∧ received ≠ [] ∧ Carried engine.quorum received.toFinset := by
  obtain ⟨hcounted, hquorum⟩ := h.counted hdistinct
  rw [hcounted.committed, hquorum]

/-- A nonempty choice of votes for the proposal, at most one of each peer, whose credences reach the
quorum. -/
structure Coalition (quorum : F) (votes : Finset (VoteRecord F)) : Prop where
  nonempty : votes.Nonempty
  peers : Set.InjOn VoteRecord.peer (votes : Set (VoteRecord F))
  approve : ∀ v ∈ votes, v.decision = .approve
  quorum_le : quorum ≤ ∑ v ∈ votes, v.credence

/-- Votes that a coalition has cast carry the proposal. -/
theorem Coalition.carried {quorum : F} {chosen : Finset (VoteRecord F)} (h : Coalition quorum chosen) :
    Carried quorum chosen := by
  rw [Carried, newestVotes_of_injOn h.peers]
  exact ⟨h.approve, h.quorum_le⟩

/-- The newest votes that carry a proposal are such a choice. -/
theorem coalition_of_carried {quorum : F} {received : Finset (VoteRecord F)}
    (hne : received.Nonempty) (hdistinct : DistinctClocks received)
    (h : Carried quorum received) : Coalition quorum (newestVotes received) := by
  obtain ⟨w, hw⟩ := hne
  obtain ⟨v, hv, -⟩ := exists_newestVote hw
  exact ⟨⟨v, hv⟩, newestVotes_injOn hdistinct, h.1, h.2⟩

/-- **When consensus agrees.** An engine commits a proposal exactly when the votes it has received up to
some vote carry it. So two engines that receive the same votes, each in its own order and any number of
times, always agree with each other and with the whole set of votes exactly when the quorum is positive
or there is a vote, and the whole set carries the proposal or no choice of votes in it does. -/
theorem consensus_agreement_iff {engine engine' : ConsensusEngine F}
    (h : Holds engine id proposer object clock) (h' : Holds engine' id proposer object clock)
    (hquorum : engine'.quorum = engine.quorum) {all : Finset (VoteRecord F)}
    (hdistinct : DistinctClocks all) :
    (∀ l : List (VoteRecord F), l.toFinset = all →
      ((engine.deliver id l).isCommitted id = true ↔
        ∃ received, received <+: l ∧ received ≠ [] ∧ Carried engine.quorum received.toFinset)) ∧
    ((∀ l l' : List (VoteRecord F), l.toFinset = all → l'.toFinset = all →
        (engine.deliver id l).isCommitted id = (engine'.deliver id l').isCommitted id ∧
          ((engine.deliver id l).isCommitted id = true ↔ Carried engine.quorum all)) ↔
      (all = ∅ → 0 < engine.quorum) ∧
        (Carried engine.quorum all ∨ ∀ chosen ⊆ all, ¬ Coalition engine.quorum chosen)) := by
  have hone : ∀ {e : ConsensusEngine F}, Holds e id proposer object clock →
      ∀ l : List (VoteRecord F), l.toFinset = all → ((e.deliver id l).isCommitted id = true ↔
        ∃ received, received <+: l ∧ received ≠ [] ∧ Carried e.quorum received.toFinset) :=
    fun he l hl => isCommitted_deliver_iff he (by rwa [hl])
  refine ⟨hone h, ⟨fun hagree => ⟨fun hempty => ?_, ?_⟩, fun ⟨hpos, hall⟩ l l' hl hl' => ?_⟩⟩
  · subst hempty
    have hnone := (hagree [] [] rfl rfl).2
    rw [hone h [] rfl] at hnone
    refine not_le.mp fun hle => ?_
    obtain ⟨received, hfront, hne, -⟩ := hnone.mpr ⟨by simp [newestVotes], by simpa [newestVotes]⟩
    exact hne (List.prefix_nil.mp hfront)
  · by_contra! hnot
    obtain ⟨hcarried, chosen, hsub, hchosen⟩ := hnot
    -- deliver the choice first
    have hl : (chosen.toList ++ all.toList).toFinset = all := by
      rw [List.toFinset_append, Finset.toList_toFinset, Finset.toList_toFinset,
        Finset.union_eq_right.mpr hsub]
    refine hcarried ((hagree _ _ hl hl).2.mp ((hone h _ hl).mpr
      ⟨chosen.toList, List.prefix_append _ _, ?_, ?_⟩))
    · simpa using hchosen.nonempty.ne_empty
    · rw [Finset.toList_toFinset]
      exact hchosen.carried
  · have hdecided : ∀ {e : ConsensusEngine F}, Holds e id proposer object clock →
        e.quorum = engine.quorum → ∀ l : List (VoteRecord F), l.toFinset = all →
          ((e.deliver id l).isCommitted id = true ↔ Carried engine.quorum all) := by
      intro e he hq l hl
      rw [hone he l hl, hq]
      constructor
      · rintro ⟨received, hfront, hne, hcarried⟩
        refine hall.resolve_right fun hnone => ?_
        have hsub : received.toFinset ⊆ all := fun v hv => by
          rw [← hl]
          exact List.mem_toFinset.mpr (hfront.subset (List.mem_toFinset.mp hv))
        refine hnone _ ((Finset.filter_subset _ _).trans hsub) (coalition_of_carried ?_ ?_ hcarried)
        · exact List.toFinset_nonempty_iff _ |>.mpr hne
        · exact fun v hv w hw => hdistinct v (hsub hv) w (hsub hw)
      · intro hcarried
        refine ⟨l, List.prefix_rfl, ?_, by rwa [hl]⟩
        rintro rfl
        have hempty : all = ∅ := hl.symm
        rw [hempty] at hcarried
        exact absurd (hpos hempty) (not_lt.mpr (by simpa [newestVotes] using hcarried.2))
    refine ⟨?_, hdecided h rfl l hl⟩
    rw [Bool.eq_iff_iff, hdecided h rfl l hl, hdecided h' hquorum l' hl']

/-- An engine with a quorum of one that has proposed a model. -/
def proposed : ConsensusEngine ℚ :=
  ((new 1).proposeModel ⟨0⟩ (samplePeer 0) ⟨"model/a", ⟨10, 0, samplePeer 0⟩, "deadbeef", samplePeer 0⟩
    ⟨["model/a"], ⟨10, 0, samplePeer 0⟩⟩ ⟨10, 0, samplePeer 0⟩).1

/-- A peer with full credence approves. -/
def approval : VoteRecord ℚ := ⟨samplePeer 1, .approve, 1, ⟨11, 0, samplePeer 1⟩⟩

/-- Another peer with full credence rejects. -/
def rejection : VoteRecord ℚ := ⟨samplePeer 2, .reject, 1, ⟨12, 0, samplePeer 2⟩⟩

/-- The first vote of a peer that later changes its mind. -/
def doubt : VoteRecord ℚ := ⟨samplePeer 1, .reject, 1 / 2, ⟨11, 0, samplePeer 1⟩⟩

/-- Another peer's support, in between. -/
def support : VoteRecord ℚ := ⟨samplePeer 2, .approve, 1 / 2, ⟨12, 0, samplePeer 2⟩⟩

/-- The later vote of the peer that doubted. With the support it reaches the quorum. -/
def consent : VoteRecord ℚ := ⟨samplePeer 1, .approve, 1 / 2, ⟨13, 0, samplePeer 1⟩⟩

/-- Three votes of two peers, in the order they were cast and, with a repetition, in another one: both
engines have committed, since the doubt is out of date and the other two reach the quorum together. -/
theorem consensus_agreement_change_of_mind :
    (proposed.deliver ⟨0⟩ [doubt, support, consent]).isCommitted ⟨0⟩ =
        (proposed.deliver ⟨0⟩ [consent, doubt, support, doubt]).isCommitted ⟨0⟩ ∧
      ((proposed.deliver ⟨0⟩ [doubt, support, consent]).isCommitted ⟨0⟩ = true ↔
        Carried proposed.quorum {doubt, support, consent}) ∧
      Carried proposed.quorum {doubt, support, consent} := by
  have hcarried : Carried proposed.quorum {doubt, support, consent} := by decide +kernel
  have hholds : Holds proposed ⟨0⟩ (samplePeer 0)
      (.model ⟨"model/a", ⟨10, 0, samplePeer 0⟩, "deadbeef", samplePeer 0⟩
        ⟨["model/a"], ⟨10, 0, samplePeer 0⟩⟩) ⟨10, 0, samplePeer 0⟩ :=
    Std.ExtTreeMap.getElem?_insert_self
  have hdistinct : DistinctClocks {doubt, support, consent} := by
    intro v hv w hw
    simp only [Finset.mem_insert, Finset.mem_singleton] at hv hw
    rcases hv with rfl | rfl | rfl <;> rcases hw with rfl | rfl | rfl <;> decide +kernel
  have hempty : ({doubt, support, consent} : Finset (VoteRecord ℚ)) ≠ ∅ := Finset.insert_ne_empty _ _
  have hagree := (consensus_agreement_iff hholds hholds rfl hdistinct).2.mpr
    ⟨fun h => absurd h hempty, .inl hcarried⟩ [doubt, support, consent]
    [consent, doubt, support, doubt] (by decide +kernel) (by decide +kernel)
  exact ⟨hagree.1, hagree.2, hcarried⟩

/-- The same two votes in two orders: the engine that hears the approval first has committed, the other
has not. -/
theorem not_agree_rejection_after_quorum :
    DistinctClocks {approval, rejection} ∧
      (proposed.deliver ⟨0⟩ [approval, rejection]).isCommitted ⟨0⟩ = true ∧
      (proposed.deliver ⟨0⟩ [rejection, approval]).isCommitted ⟨0⟩ = false ∧
      ¬ Carried proposed.quorum {approval, rejection} := by
  refine ⟨?_, by decide +kernel, by decide +kernel, by decide +kernel⟩
  intro v hv w hw
  simp only [Finset.mem_insert, Finset.mem_singleton] at hv hw
  rcases hv with rfl | rfl <;> rcases hw with rfl | rfl <;> decide +kernel

end ConsensusEngine

end LiminalDB
