import LiminalDB.Noetic.Consensus

/-! # The tally over a whole run

`ConsensusEngine` through proposals, votes, commits, changes of the quorum and restarts from snapshots.
The records of a proposal are the newest votes of its peers, the first of those under one clock, and
`credence_sum` is what the approving ones add up to (`Proposal.Records`, kept by every vote). A proposal
is committed once, by `vote` or by `commit`, and `vote` only commits what all records approve and the
quorum of the moment allows. `vote_tally_invariant` puts this together for every run. -/

namespace LiminalDB

/-! ## The newest vote -/

section Newest

variable {F : Type} {votes : List (VoteRecord F)} {u v w : VoteRecord F}

/-- The vote is the newest of the list, and the first of those with its clock. -/
def IsNewest (votes : List (VoteRecord F)) (vote : VoteRecord F) : Prop :=
  ∃ before after, votes = before ++ vote :: after ∧
    (∀ w ∈ before, isNewer vote.clock w.clock = true) ∧
    ∀ w ∈ after, isNewer w.clock vote.clock = false

/-- Keep the newer of two votes, the first one under equal clocks. -/
def newerVote (best : Option (VoteRecord F)) (vote : VoteRecord F) : Option (VoteRecord F) :=
  match best with
  | none => some vote
  | some old => if isNewer vote.clock old.clock then some vote else some old

/-- The newest vote of a list. -/
def newestVote (votes : List (VoteRecord F)) : Option (VoteRecord F) := votes.foldl newerVote none

/-- The newest of some votes and one more is the newer of the newest and this one. -/
theorem newestVote_concat : newestVote (votes ++ [v]) = newerVote (newestVote votes) v := by
  rw [newestVote, List.foldl_append]
  rfl

/-- Every list with a vote in it has a newest one. -/
theorem newestVote_eq_none : newestVote votes = none ↔ votes = [] := by
  refine ⟨fun h => ?_, fun h => by rw [h]; rfl⟩
  cases votes using List.reverseRecOn with
  | nil => rfl
  | append_singleton votes v =>
      rw [newestVote_concat] at h
      cases hold : newestVote votes with
      | none => rw [hold] at h; cases h
      | some old =>
          rw [hold, newerVote] at h
          split at h <;> cases h

/-- A clock that is not newer is no later than the other. -/
theorem isNewer_eq_false {a b : Hlc} : isNewer a b = false ↔ a ≤ b := by
  rw [← Bool.not_eq_true, isNewer_iff, not_lt]

/-- `newestVote` finds the newest vote. -/
theorem newestVote_eq_some : newestVote votes = some v ↔ IsNewest votes v := by
  induction votes using List.reverseRecOn generalizing v with
  | nil =>
      refine iff_of_false (by simp [newestVote]) ?_
      rintro ⟨before, after, hvotes, -⟩
      simp at hvotes
  | append_singleton votes w ih =>
      rw [newestVote_concat]
      constructor
      · intro h
        cases hbest : newestVote votes with
        | none =>
            rw [hbest] at h
            obtain rfl := Option.some.inj h
            exact ⟨[], [], by rw [newestVote_eq_none.mp hbest], by simp, by simp⟩
        | some old =>
            obtain ⟨before, after, rfl, hbefore, hafter⟩ := ih.mp hbest
            rw [hbest, newerVote] at h
            split at h
            · rename_i hnewer
              obtain rfl := Option.some.inj h
              -- The last vote is newer than the newest before it, and so than all.
              refine ⟨before ++ old :: after, [], rfl, fun u hu => ?_, by simp⟩
              have hlt : old.clock < w.clock := isNewer_iff.mp hnewer
              rcases List.mem_append.mp hu with hu | hu
              · exact isNewer_iff.mpr ((isNewer_iff.mp (hbefore u hu)).trans hlt)
              · rcases List.mem_cons.mp hu with rfl | hu
                · exact hnewer
                · exact isNewer_iff.mpr ((isNewer_eq_false.mp (hafter u hu)).trans_lt hlt)
            · rename_i hnewer
              obtain rfl := Option.some.inj h
              -- It is not newer, and the newest stays.
              refine ⟨before, after ++ [w], by simp, hbefore, fun u hu => ?_⟩
              rcases List.mem_append.mp hu with hu | hu
              · exact hafter u hu
              · rw [List.mem_singleton.mp hu]
                simpa using hnewer
      · rintro ⟨before, after, hvotes, hbefore, hafter⟩
        cases after using List.reverseRecOn with
        | nil =>
            -- The newest vote is the last.
            obtain ⟨rfl, hw⟩ := List.append_inj' hvotes rfl
            obtain rfl : w = v := by simpa using hw
            cases hbest : newestVote votes with
            | none => rfl
            | some old =>
                obtain ⟨before, after, rfl, -⟩ := ih.mp hbest
                rw [newerVote, if_pos (hbefore old (by simp))]
        | append_singleton after u =>
            -- The newest vote came before the last.
            have hsplit : votes ++ [w] = (before ++ v :: after) ++ [u] := by simpa using hvotes
            obtain ⟨rfl, hw⟩ := List.append_inj' hsplit rfl
            obtain rfl : w = u := by simpa using hw
            have hbest : newestVote (before ++ v :: after) = some v :=
              ih.mpr ⟨before, after, rfl, hbefore, fun u hu => hafter u (List.mem_append_left _ hu)⟩
            rw [hbest, newerVote, if_neg (by simpa using hafter w (by simp))]

end Newest

namespace Proposal

variable {F : Type} [AddCommGroup F] [LinearOrder F]

/-- The votes of one peer. -/
def votesOf (peer : PeerId) (votes : List (VoteRecord F)) : List (VoteRecord F) :=
  votes.filter fun vote => vote.peer = peer

/-- The records of a proposal that has received the votes. -/
structure Records (proposal : Proposal F) (received : List (VoteRecord F)) : Prop where
  /-- At most one record per peer. -/
  nodup : (proposal.votes.map VoteRecord.peer).Nodup
  /-- The record of a peer is its newest vote. -/
  newest : ∀ peer, proposal.votes.find? (fun record => record.peer = peer) =
    newestVote (votesOf peer received)
  /-- The sum of what the approving records bring. -/
  credenceSum : proposal.credenceSum = (proposal.votes.map approved).sum

section Records

variable {self next : Proposal F} {received : List (VoteRecord F)} {vote : VoteRecord F}

omit [AddCommGroup F] [LinearOrder F] in
/-- One more vote is among those of its peer, and not among those of another. -/
theorem votesOf_concat (peer : PeerId) : votesOf peer (received ++ [vote]) =
    if vote.peer = peer then votesOf peer received ++ [vote] else votesOf peer received := by
  rw [votesOf, List.filter_append]
  split
  · rename_i h
    simp [h, votesOf]
  · rename_i h
    simp [h, votesOf]

omit [AddCommGroup F] [LinearOrder F] in
/-- Replacing the vote of a peer changes what is found of this peer, and of no other. -/
theorem find?_replaceVote {records : List (VoteRecord F)} {old : VoteRecord F}
    (hold : records.find? (fun record => record.peer = vote.peer) = some old) (peer : PeerId) :
    (replaceVote vote.peer vote records).find? (fun record => record.peer = peer) =
      if vote.peer = peer then some vote else records.find? fun record => record.peer = peer := by
  induction records with
  | nil => cases hold
  | cons record records ih =>
      rw [replaceVote]
      by_cases hfirst : record.peer = vote.peer
      · rw [if_pos hfirst]
        by_cases hpeer : vote.peer = peer
        · simp [hpeer]
        · have hother : record.peer ≠ peer := fun heq => hpeer (hfirst.symm.trans heq)
          simp [hpeer, hother]
      · rw [if_neg hfirst]
        have hrest : records.find? (fun record => record.peer = vote.peer) = some old := by
          simpa [List.find?_cons, hfirst] using hold
        by_cases hpeer : record.peer = peer
        · have hother : vote.peer ≠ peer := fun heq => hfirst (hpeer.trans heq.symm)
          simp [hpeer, hother]
        · simpa [List.find?_cons, hpeer] using ih hrest

omit [LinearOrder F] in
/-- A new proposal has the records of no votes. -/
theorem records_new (id : ProposalId) (proposer : PeerId) (object : ProposalObject) (clock : Hlc) :
    Records (new id proposer object clock : Proposal F) [] :=
  ⟨List.nodup_nil, fun _ => rfl, rfl⟩

omit [LinearOrder F] in
/-- A vote that updates the records. -/
theorem Records.record (h : Records self received) (hnext : self.record vote = some next) :
    Records next (received ++ [vote]) ∧ next.committed = self.committed ∧ next.id = self.id := by
  rw [Proposal.record] at hnext
  cases hfind : self.votes.find? (fun record => record.peer = vote.peer) with
  | none =>
      rw [hfind] at hnext
      obtain rfl := Option.some.inj hnext
      have hnone : ∀ w ∈ self.votes, w.peer ≠ vote.peer := by simpa using hfind
      refine ⟨⟨?_, fun peer => ?_, ?_⟩, rfl, rfl⟩
      · rw [List.map_append, List.nodup_append']
        exact ⟨h.nodup, List.nodup_singleton _, by simpa using hnone⟩
      · rw [votesOf_concat, List.find?_append, h.newest]
        split
        · rename_i heq
          rw [newestVote_concat, ← h.newest, ← heq, hfind]
          simp [newerVote]
        · rename_i hne
          simp [hne]
      · rw [List.map_append, List.sum_append, List.map_singleton, List.sum_singleton, ← h.credenceSum,
          approved]
        split_ifs <;> simp
  | some old =>
      rw [hfind] at hnext
      dsimp only at hnext
      by_cases hnewer : isNewer vote.clock old.clock = true
      case neg => rw [if_neg hnewer] at hnext; cases hnext
      rw [if_pos hnewer] at hnext
      obtain rfl := Option.some.inj hnext
      refine ⟨⟨?_, fun peer => ?_, ?_⟩, rfl, rfl⟩
      · rw [replaceVote_peers rfl]
        exact h.nodup
      · rw [find?_replaceVote hfind, votesOf_concat]
        split
        · rename_i heq
          rw [newestVote_concat, ← h.newest, ← heq, hfind, newerVote, if_pos hnewer]
        · exact h.newest peer
      · -- four combinations of the old decision with the new one
        rw [sum_replaceVote hfind, ← h.credenceSum]
        simp only [approved]
        split_ifs <;> abel

omit [LinearOrder F] in
/-- A vote that is not newer than the record of its peer changes nothing, and nothing was to change. -/
theorem Records.record_none (h : Records self received) (hnone : self.record vote = none) :
    Records self (received ++ [vote]) := by
  rw [Proposal.record] at hnone
  cases hfind : self.votes.find? (fun record => record.peer = vote.peer) with
  | none => rw [hfind] at hnone; cases hnone
  | some old =>
      rw [hfind] at hnone
      dsimp only at hnone
      split_ifs at hnone with hnewer
      refine ⟨h.nodup, fun peer => ?_, h.credenceSum⟩
      rw [votesOf_concat, h.newest]
      split
      · rename_i heq
        rw [newestVote_concat, ← h.newest, ← heq, hfind, newerVote, if_neg hnewer]
      · rfl

omit [LinearOrder F] in
/-- The records are the newest votes of their peers. -/
theorem Records.mem_votes (h : Records self received) :
    vote ∈ self.votes ↔ IsNewest (votesOf vote.peer received) vote := by
  rw [← newestVote_eq_some, ← h.newest]
  constructor
  · intro hmem
    cases hfind : self.votes.find? (fun record => record.peer = vote.peer) with
    | none => exact absurd (decide_eq_true rfl) (List.find?_eq_none.mp hfind vote hmem)
    | some found =>
        have hpeer : found.peer = vote.peer := by simpa using List.find?_some hfind
        rw [List.inj_on_of_nodup_map h.nodup (List.mem_of_find?_eq_some hfind) hmem hpeer]
  · exact fun hfind => List.mem_of_find?_eq_some hfind

omit [LinearOrder F] in
/-- The credences that count are those of the records that approve. -/
theorem sum_approved (records : List (VoteRecord F)) : (records.map approved).sum =
    ((records.filter fun record => record.decision = .approve).map VoteRecord.credence).sum := by
  induction records with
  | nil => rfl
  | cons record records ih =>
      rw [List.map_cons, List.sum_cons, ih, approved]
      by_cases happrove : record.decision = .approve
      · simp [happrove]
      · simp [happrove]

end Records

end Proposal

/-! ## Runs of an engine -/

/-- `ConsensusSnapshot`: the quorum with the proposals and their votes. -/
structure ConsensusSnapshot (F : Type) where
  quorum : F
  proposals : List (Proposal F)

/-- A call on the engine. -/
inductive EngineStep (F : Type)
  /-- `propose_model`, `propose_seed` or `propose_policy`, with the id they draw. -/
  | propose (id : ProposalId) (proposer : PeerId) (object : ProposalObject) (clock : Hlc)
  | vote (id : ProposalId) (vote : VoteRecord F)
  | commit (id : ProposalId)
  | setQuorum (quorum : F)
  /-- A restart from the snapshot just taken. -/
  | restart

namespace ConsensusEngine

variable {F : Type} [AddCommGroup F] [LinearOrder F]

/-- `ConsensusEngine::snapshot`: what the engine holds, written out. -/
def snapshot (self : ConsensusEngine F) : ConsensusSnapshot F :=
  ⟨self.quorum, self.proposals.toList.map Prod.snd⟩

/-- `ConsensusEngine::restore`: the engine that holds what is written, each proposal under its id. -/
def restore (snapshot : ConsensusSnapshot F) : ConsensusEngine F :=
  { quorum := snapshot.quorum
    proposals := snapshot.proposals.foldl
      (fun proposals proposal => proposals.insert proposal.id proposal) ∅ }

/-- One call and the event it returns. -/
def step (self : ConsensusEngine F) : EngineStep F → ConsensusEngine F × Option (NoeticEvent F)
  | .propose id proposer object clock =>
      let (self, event) := self.propose id proposer object clock
      (self, some event)
  | .vote id vote => self.vote id vote
  | .commit id => self.commit id
  | .setQuorum quorum => (self.setQuorum quorum, none)
  | .restart => (restore self.snapshot, none)

/-- The engine after the calls, in turn. -/
def run (self : ConsensusEngine F) (steps : List (EngineStep F)) : ConsensusEngine F :=
  steps.foldl (fun self call => (self.step call).1) self

/-- The events the calls return, in turn. -/
def events (self : ConsensusEngine F) : List (EngineStep F) → List (NoeticEvent F)
  | [] => []
  | call :: steps => (self.step call).2.toList ++ (self.step call).1.events steps

/-- A proposal gets an id that no proposal has. -/
def Fresh (self : ConsensusEngine F) : EngineStep F → Prop
  | .propose id _ _ _ => id ∉ self.proposals
  | .vote _ _ | .commit _ | .setQuorum _ | .restart => True

/-- The votes on a proposal since it was proposed. -/
def received (id : ProposalId) (steps : List (EngineStep F)) : List (VoteRecord F) :=
  steps.foldl (fun votes call => match call with
    | .propose id' _ _ _ => if id' = id then [] else votes
    | .vote id' vote => if id' = id then votes ++ [vote] else votes
    | .commit _ | .setQuorum _ | .restart => votes) []

/-- An event that says the proposal was committed. -/
def isCommitOf (id : ProposalId) (event : NoeticEvent F) : Bool :=
  event.eventMeta.phase = .commit && event.eventMeta.id = id

section Runs

variable {self : ConsensusEngine F} {steps : List (EngineStep F)} {id : ProposalId}

/-- A run with one more step is the run and then the step. -/
theorem run_concat (call : EngineStep F) :
    self.run (steps ++ [call]) = ((self.run steps).step call).1 := by
  rw [run, List.foldl_append]
  rfl

/-- The events of a run are those of its first part and then those of the rest. -/
theorem events_append (later : List (EngineStep F)) :
    self.events (steps ++ later) = self.events steps ++ (self.run steps).events later := by
  induction steps generalizing self with
  | nil => rfl
  | cons first steps ih =>
      rw [List.cons_append, events, ih, events, List.append_assoc]
      rfl

/-- One more step adds its event, if it has one. -/
theorem events_concat (call : EngineStep F) :
    self.events (steps ++ [call]) = self.events steps ++ ((self.run steps).step call).2.toList := by
  rw [events_append, events, events, List.append_nil]

/-- What `vote` can do: nothing, or a new record with or without a commit. -/
theorem vote_cases (self : ConsensusEngine F) (id : ProposalId) (vote : VoteRecord F) :
    (self.vote id vote = (self, none) ∧ ∀ proposal, self.proposals[id]? = some proposal →
      proposal.record vote = none) ∨
    ∃ proposal next, self.proposals[id]? = some proposal ∧ proposal.record vote = some next ∧
      (next.reaches self.quorum = true ∧ self.vote id vote =
          ({ self with proposals := self.proposals.insert id { next with committed := true } },
            some (eventFor self.quorum { next with committed := true } .commit)) ∨
        next.reaches self.quorum = false ∧ self.vote id vote =
          ({ self with proposals := self.proposals.insert id next },
            some (eventFor self.quorum next .vote))) := by
  cases hproposal : self.proposals[id]? with
  | none =>
      left
      simp [ConsensusEngine.vote, hproposal]
  | some proposal =>
      cases hrecord : proposal.record vote with
      | none =>
          left
          simp [ConsensusEngine.vote, hproposal, hrecord]
      | some next =>
          refine .inr ⟨proposal, next, rfl, hrecord, ?_⟩
          by_cases hreaches : next.reaches self.quorum = true
          · exact .inl ⟨hreaches, by simp [ConsensusEngine.vote, hproposal, hrecord, hreaches]⟩
          · exact .inr ⟨by simpa using hreaches, by
              simp [ConsensusEngine.vote, hproposal, hrecord, hreaches]⟩

omit [AddCommGroup F] [LinearOrder F] in
/-- What `commit` can do. -/
theorem commit_cases (self : ConsensusEngine F) (id : ProposalId) :
    (self.commit id = (self, none)) ∨
    ∃ proposal, self.proposals[id]? = some proposal ∧ proposal.committed = false ∧
      self.commit id =
        ({ self with proposals := self.proposals.insert id { proposal with committed := true } },
          some (eventFor self.quorum { proposal with committed := true } .commit)) := by
  cases hproposal : self.proposals[id]? with
  | none =>
      left
      simp [ConsensusEngine.commit, hproposal]
  | some proposal =>
      by_cases hcommitted : proposal.committed = true
      · left
        simp [ConsensusEngine.commit, hproposal, hcommitted]
      · exact .inr ⟨proposal, rfl, by simpa using hcommitted, by
          simp [ConsensusEngine.commit, hproposal, hcommitted]⟩

/-- Proposals are kept under their own ids. -/
def Keyed (self : ConsensusEngine F) : Prop :=
  ∀ (id : ProposalId) (proposal : Proposal F), self.proposals[id]? = some proposal → proposal.id = id

omit [AddCommGroup F] [LinearOrder F] in
/-- A restart from the snapshot just taken changes nothing. -/
theorem restore_snapshot (h : self.Keyed) : restore self.snapshot = self := by
  have hproposals : (self.proposals.toList.map Prod.snd).foldl
      (fun proposals proposal => proposals.insert proposal.id proposal) ∅ = self.proposals := by
    refine foldl_insert_eq Proposal.id id (fun proposal hmem => ?_) fun other => ?_
    · obtain ⟨⟨id, found⟩, hentry, rfl⟩ := List.mem_map.mp hmem
      have hfound := Std.ExtTreeMap.mem_toList_iff_getElem?_eq_some.mp hentry
      rw [h id found hfound]
      exact hfound
    · cases hother : self.proposals[other]? with
      | none => exact .inl Std.ExtTreeMap.getElem?_empty
      | some proposal =>
          refine .inr ⟨proposal, List.mem_map.mpr ⟨(other, proposal), ?_, rfl⟩, h other proposal hother⟩
          exact Std.ExtTreeMap.mem_toList_iff_getElem?_eq_some.mpr hother
  rw [restore, snapshot, hproposals]

/-- What holds behind the calls: every proposal has the records of the votes it has received, and the
events tell of its commit once, or not at all while it is not committed. -/
structure Tallied (engine : ConsensusEngine F) (steps : List (EngineStep F))
    (events : List (NoeticEvent F)) : Prop where
  keyed : engine.Keyed
  records : ∀ (id : ProposalId) (proposal : Proposal F), engine.proposals[id]? = some proposal →
    proposal.Records (received id steps)
  commits : ∀ id, events.countP (isCommitOf id) = if engine.isCommitted id then 1 else 0

omit [AddCommGroup F] [LinearOrder F] in
/-- Of the votes received for a proposal a new proposal under the id takes all away, a vote for it adds
itself, and every other step leaves them. -/
theorem received_concat (call : EngineStep F) : received id (steps ++ [call]) =
    match call with
    | .propose id' _ _ _ => if id' = id then [] else received id steps
    | .vote id' vote => if id' = id then received id steps ++ [vote] else received id steps
    | .commit _ | .setQuorum _ | .restart => received id steps := by
  rw [received, List.foldl_append]
  rfl

omit [AddCommGroup F] [LinearOrder F] in
/-- The event of a proposal counts as a commit of an id exactly if the phase is one and the id is that of the
proposal. -/
theorem countP_commit_eventFor (events : List (NoeticEvent F)) (quorum : F) (proposal : Proposal F)
    (phase : Phase) (id : ProposalId) :
    (events ++ [eventFor quorum proposal phase]).countP (isCommitOf id) =
      events.countP (isCommitOf id) + if phase = .commit ∧ proposal.id = id then 1 else 0 := by
  rw [List.countP_append, List.countP_singleton]
  refine congrArg _ (if_congr ?_ rfl rfl)
  rw [isCommitOf, Bool.and_eq_true]
  exact and_congr decide_eq_true_iff decide_eq_true_iff

omit [AddCommGroup F] [LinearOrder F] in
/-- Whether an id is committed is up to the proposal that stands under it. -/
theorem isCommitted_of_some {proposal : Proposal F} (h : self.proposals[id]? = some proposal) :
    self.isCommitted id = proposal.committed := by
  rw [isCommitted, h]
  rfl

omit [LinearOrder F] in
/-- A call that writes one proposal and tells of it, of a commit when it sets `committed`. -/
theorem Tallied.insert {steps' : List (EngineStep F)} {events : List (NoeticEvent F)}
    (h : Tallied self steps events) (next : Proposal F) (hid : next.id = id)
    (hrecords : next.Records (received id steps'))
    (hother : ∀ id' ≠ id, received id' steps' = received id' steps) {phase : Phase}
    (hcommit : ((if self.isCommitted id then 1 else 0) + if phase = .commit then 1 else 0) =
      if next.committed then 1 else 0) :
    Tallied ⟨self.quorum, self.proposals.insert id next⟩ steps'
      (events ++ [eventFor self.quorum next phase]) := by
  have hlook : ∀ id', (self.proposals.insert id next)[id']? =
      if id = id' then some next else self.proposals[id']? := by
    intro id'
    rw [Std.ExtTreeMap.getElem?_insert]
    by_cases heq : id = id'
    · simp [heq]
    · rw [if_neg heq, if_neg fun h => heq (Std.LawfulEqCmp.eq_of_compare h)]
  refine ⟨fun id' proposal hproposal => ?_, fun id' proposal hproposal => ?_, fun id' => ?_⟩
  · rw [hlook] at hproposal
    split at hproposal
    · rename_i heq
      rw [← Option.some.inj hproposal, hid, heq]
    · exact h.keyed id' proposal hproposal
  · rw [hlook] at hproposal
    split at hproposal
    · rename_i heq
      rw [← Option.some.inj hproposal, ← heq]
      exact hrecords
    · rename_i hne
      rw [hother id' (Ne.symm hne)]
      exact h.records id' proposal hproposal
  · rw [countP_commit_eventFor, h.commits, hid]
    by_cases heq : id = id'
    · have hflag : isCommitted ⟨self.quorum, self.proposals.insert id next⟩ id' = next.committed :=
        isCommitted_of_some ((hlook id').trans (if_pos heq))
      rw [hflag, ← hcommit, heq]
      simp only [and_true]
    · have hsame : isCommitted ⟨self.quorum, self.proposals.insert id next⟩ id' =
          self.isCommitted id' := by
        rw [isCommitted, hlook, if_neg heq]
        rfl
      rw [hsame, if_neg fun hboth : phase = .commit ∧ id = id' => heq hboth.2, Nat.add_zero]

omit [AddCommGroup F] [LinearOrder F] in
/-- A vote is received for its own proposal and for no other. -/
theorem received_vote (vote : VoteRecord F) (id' : ProposalId) :
    received id' (steps ++ [.vote id vote]) =
      if id = id' then received id' steps ++ [vote] else received id' steps :=
  received_concat _

omit [LinearOrder F] in
/-- A proposal under a fresh id starts without votes and uncommitted, and its event is no commit. -/
theorem Tallied.propose {events : List (NoeticEvent F)} (h : Tallied self steps events)
    (hfresh : id ∉ self.proposals) (proposer : PeerId) (object : ProposalObject) (clock : Hlc) :
    Tallied (self.propose id proposer object clock).1 (steps ++ [.propose id proposer object clock])
      (events ++ [(self.propose id proposer object clock).2]) := by
  have hid : (Proposal.new id proposer object clock : Proposal F).id = id := rfl
  refine h.insert _ hid ?_ (fun id' hne => ?_) ?_
  · have hreceived : received id (steps ++ [.propose id proposer object clock]) = [] := by
      rw [received_concat]
      exact if_pos rfl
    rw [hreceived]
    exact Proposal.records_new id proposer object clock
  · rw [received_concat]
    exact if_neg (Ne.symm hne)
  · rw [isCommitted, Std.ExtTreeMap.getElem?_eq_none hfresh]
    rfl

/-- A vote is tallied among the newest of its proposal, and commits this once and no more. -/
theorem Tallied.vote {events : List (NoeticEvent F)} (h : Tallied self steps events)
    (vote : VoteRecord F) : Tallied (self.vote id vote).1 (steps ++ [.vote id vote])
      (events ++ (self.vote id vote).2.toList) := by
  rcases vote_cases self id vote with ⟨hstay, hnone⟩ | ⟨proposal, next, hproposal, hrecord, hnext⟩
  · -- the records stay, and a vote that changes nothing is not the newest of its peer
    rw [hstay, Option.toList_none, List.append_nil]
    refine ⟨h.keyed, fun id' proposal hproposal => ?_, h.commits⟩
    rw [received_vote]
    split
    · rename_i heq
      subst heq
      exact (h.records id proposal hproposal).record_none (hnone proposal hproposal)
    · exact h.records id' proposal hproposal
  · obtain ⟨hrecords, hcommitted, hid⟩ := (h.records id proposal hproposal).record hrecord
    have hkey : next.id = id := hid.trans (h.keyed id proposal hproposal)
    -- The vote is received by this proposal, and by no other.
    have hother : ∀ id' ≠ id, received id' (steps ++ [.vote id vote]) = received id' steps := by
      intro id' hne
      rw [received_vote, if_neg (Ne.symm hne)]
    have hflag : self.isCommitted id = next.committed :=
      (isCommitted_of_some hproposal).trans hcommitted.symm
    rcases hnext with ⟨hreaches, hvote⟩ | ⟨-, hvote⟩
    · -- The quorum is reached only where the proposal is still open.
      have hopen : next.committed = false := by
        simp only [Proposal.reaches, Bool.and_eq_true, Bool.not_eq_true'] at hreaches
        exact hreaches.1
      rw [hvote]
      refine h.insert { next with committed := true } hkey ?_ hother ?_
      · rw [received_vote, if_pos rfl]
        exact ⟨hrecords.nodup, hrecords.newest, hrecords.credenceSum⟩
      · rw [hflag, hopen]
        rfl
    · rw [hvote]
      refine h.insert next hkey ?_ hother ?_
      · rw [received_vote, if_pos rfl]
        exact hrecords
      · rw [hflag]
        rfl

omit [LinearOrder F] in
/-- A commit that was asked for finds the proposal committed already, or commits it once. -/
theorem Tallied.commit {events : List (NoeticEvent F)} (h : Tallied self steps events) :
    Tallied (self.commit id).1 (steps ++ [.commit id])
      (events ++ (self.commit id).2.toList) := by
  have hreceived : ∀ id', received id' (steps ++ [.commit id]) = received id' steps :=
    fun id' => received_concat _
  rcases commit_cases self id with hstay | ⟨proposal, hproposal, hopen, hcommit⟩
  · rw [hstay, Option.toList_none, List.append_nil]
    exact ⟨h.keyed, fun id' proposal hproposal => hreceived id' ▸ h.records id' proposal hproposal,
      h.commits⟩
  · have hrecords := h.records id proposal hproposal
    rw [hcommit]
    refine h.insert { proposal with committed := true } (h.keyed id proposal hproposal) ?_
      (fun id' _ => hreceived id') ?_
    · rw [hreceived]
      exact ⟨hrecords.nodup, hrecords.newest, hrecords.credenceSum⟩
    · rw [isCommitted_of_some hproposal, hopen]
      rfl

/-- **One call.** -/
theorem Tallied.step {events : List (NoeticEvent F)} (h : Tallied self steps events)
    {call : EngineStep F} (hfresh : self.Fresh call) :
    Tallied (self.step call).1 (steps ++ [call]) (events ++ (self.step call).2.toList) := by
  cases call with
  | propose id proposer object clock => exact h.propose hfresh proposer object clock
  | vote id vote => exact h.vote vote
  | commit id => exact h.commit
  | setQuorum quorum =>
      simp only [ConsensusEngine.step, Option.toList_none, List.append_nil]
      refine ⟨h.keyed, fun id' proposal hproposal => ?_, h.commits⟩
      rw [received_concat]
      exact h.records id' proposal hproposal
  | restart =>
      simp only [ConsensusEngine.step, Option.toList_none, List.append_nil, restore_snapshot h.keyed]
      refine ⟨h.keyed, fun id' proposal hproposal => ?_, h.commits⟩
      rw [received_concat]
      exact h.records id' proposal hproposal

/-- Proposals are made under new ids. -/
def FreshRun (self : ConsensusEngine F) (steps : List (EngineStep F)) : Prop :=
  ∀ before call after, steps = before ++ call :: after → (self.run before).Fresh call

/-- The beginning of a run whose proposals have fresh ids is such a run. -/
theorem FreshRun.front {later : List (EngineStep F)} (h : self.FreshRun (steps ++ later)) :
    self.FreshRun steps := by
  rintro before call after rfl
  exact h before call (after ++ later) (by simp)

/-- **A run.** -/
theorem tallied_run (quorum : F) (hfresh : (new quorum).FreshRun steps) :
    Tallied ((new quorum).run steps) steps ((new quorum).events steps) := by
  induction steps using List.reverseRecOn with
  | nil =>
      refine ⟨fun id proposal hproposal => ?_, fun id proposal hproposal => ?_, fun id => ?_⟩
      · simp [run, new] at hproposal
      · simp [run, new] at hproposal
      · simp [events, run, new, isCommitted]
  | append_singleton steps call ih =>
      rw [run_concat, events_concat]
      exact (ih hfresh.front).step (hfresh steps call [] rfl)

/-- A committed proposal stays so: its commit event is among those of the longer run. -/
theorem isCommitted_run_append {quorum : F} {later : List (EngineStep F)}
    (hfresh : (new quorum).FreshRun (steps ++ later))
    (hcommitted : ((new quorum).run steps).isCommitted id = true) :
    ((new quorum).run (steps ++ later)).isCommitted id = true := by
  have hbefore := (tallied_run quorum hfresh.front).commits id
  have hafter := (tallied_run quorum hfresh).commits id
  rw [if_pos hcommitted] at hbefore
  rw [events_append, List.countP_append, hbefore] at hafter
  by_contra hopen
  rw [if_neg hopen] at hafter
  omega

/-- A commit that `vote` returns. -/
theorem vote_commit {vote : VoteRecord F} {event : NoeticEvent F}
    (hevent : (self.vote id vote).2 = some event) (hphase : event.eventMeta.phase = .commit) :
    event.eventMeta.quorum = self.quorum ∧
      ∃ proposal, (self.vote id vote).1.proposals[id]? = some proposal ∧
        (∀ record ∈ proposal.votes, record.decision = .approve) ∧
        self.quorum ≤ proposal.credenceSum := by
  rcases vote_cases self id vote with ⟨hstay, -⟩ | ⟨proposal, next, -, -, ⟨hreaches, hvote⟩ | ⟨-, hvote⟩⟩
  · rw [hstay] at hevent
    cases hevent
  · rw [hvote] at hevent ⊢
    obtain rfl := Option.some.inj hevent
    simp only [Proposal.reaches, Bool.and_eq_true, decide_eq_true_eq, List.all_eq_true] at hreaches
    exact ⟨rfl, _, Std.ExtTreeMap.getElem?_insert_self, hreaches.2.2, hreaches.2.1⟩
  · rw [hvote] at hevent
    obtain rfl := Option.some.inj hevent
    cases hphase

/-- **The tally of every run.** The records of a proposal are the newest votes of its peers, one for each,
and `credence_sum` is the sum over those that approve. A committed proposal stays committed, at most one
event tells of its commit, and `vote` tells of one only where all records approve and reach the quorum
then in force. -/
theorem vote_tally_invariant (quorum : F) {steps : List (EngineStep F)}
    (hfresh : (new quorum).FreshRun steps) :
    (∀ (id : ProposalId) (proposal : Proposal F),
      ((new quorum).run steps).proposals[id]? = some proposal →
        (proposal.votes.map VoteRecord.peer).Nodup ∧
        (∀ v, v ∈ proposal.votes ↔ IsNewest (Proposal.votesOf v.peer (received id steps)) v) ∧
        proposal.credenceSum =
          ((proposal.votes.filter fun v => v.decision = .approve).map VoteRecord.credence).sum) ∧
    (∀ before after id, steps = before ++ after → ((new quorum).run before).isCommitted id = true →
      ((new quorum).run steps).isCommitted id = true) ∧
    (∀ id, ((new quorum).events steps).countP (isCommitOf id) ≤ 1) ∧
    ∀ before id v after event, steps = before ++ .vote id v :: after →
      (((new quorum).run before).vote id v).2 = some event → event.eventMeta.phase = .commit →
        event.eventMeta.quorum = ((new quorum).run before).quorum ∧
        ∃ proposal, ((new quorum).run (before ++ [.vote id v])).proposals[id]? = some proposal ∧
          (∀ record ∈ proposal.votes, record.decision = .approve) ∧
          ((new quorum).run before).quorum ≤ proposal.credenceSum := by
  have htallied := tallied_run quorum hfresh
  refine ⟨fun id proposal hproposal => ?_, ?_, fun id => ?_, ?_⟩
  · have hrecords := htallied.records id proposal hproposal
    exact ⟨hrecords.nodup, fun v => hrecords.mem_votes,
      hrecords.credenceSum.trans (Proposal.sum_approved _)⟩
  · rintro before after id rfl hcommitted
    exact isCommitted_run_append hfresh hcommitted
  · rw [htallied.commits id]
    split <;> omega
  · rintro before id v after event rfl hevent hphase
    rw [run_concat]
    exact vote_commit hevent hphase

/-- The id of the first proposal. -/
def firstProposal : ProposalId := ⟨⟨0, by decide⟩⟩

/-- A proposal, its approval and a restart. -/
def approvedSteps : List (EngineStep ℚ) :=
  [.propose firstProposal (samplePeer 0) (.model ⟨"model/a", ⟨10, 0, samplePeer 0⟩, "deadbeef", samplePeer 0⟩
    ⟨["model/a"], ⟨10, 0, samplePeer 0⟩⟩) ⟨10, 0, samplePeer 0⟩, .vote firstProposal approval, .restart]

/-- A proposal that one vote approves: it commits exactly once. -/
theorem vote_tally_invariant_approved :
    (new 1).FreshRun approvedSteps ∧
      ((new 1).events approvedSteps).countP (isCommitOf firstProposal) = 1 ∧
      ((new 1).events approvedSteps).countP (isCommitOf firstProposal) ≤ 1 := by
  have hfresh : (new (1 : ℚ)).FreshRun approvedSteps := by
    intro before call after hsteps
    match before, hsteps with
    | [], hsteps =>
        obtain ⟨rfl, -⟩ := List.cons.inj hsteps
        exact Std.ExtTreeMap.not_mem_empty
    | [_], hsteps =>
        obtain ⟨rfl, -⟩ := List.cons.inj (List.cons.inj hsteps).2
        trivial
    | [_, _], hsteps =>
        obtain ⟨rfl, -⟩ := List.cons.inj (List.cons.inj (List.cons.inj hsteps).2).2
        trivial
    | _ :: _ :: _ :: before, hsteps => simp [approvedSteps] at hsteps
  exact ⟨hfresh, by decide +kernel, (vote_tally_invariant 1 hfresh).2.2.1 firstProposal⟩

end Runs

end ConsensusEngine

end LiminalDB
