import LiminalDB.Checkpoint.AntiRollback
import LiminalDB.Checkpoint.Material
import LiminalDB.Ledger.Unfailing

/-! # Completeness of the chain verifier

A caller runs a ledger and takes a checkpoint now and then: `write_snapshot`, `checkpoint_material`,
`sign` with the reference of the checkpoint before. Where nothing fails and something was recorded
since the last checkpoint, the material is always there, and `verify_checkpoint_chain` accepts the
manifests. What the verifier asks of neighbours, `Attests` gives: a manifest tells the end of the log,
the number of events and the head of a live ledger, and from one checkpoint to the next all three have
moved on. -/

namespace LiminalDB

/-! ## Taking checkpoints -/

/-- The steps of a caller up to a checkpoint, and the checkpoint. -/
structure CheckpointRound where
  /-- The steps since the checkpoint before. -/
  ops : List LedgerOp
  /-- For `write_snapshot`. -/
  createdAtMs : UInt64
  /-- Who signs. -/
  signer : CheckpointSigner
  /-- For `sign`. -/
  issuedAtMs : UInt64
  /-- For `sign`. -/
  expiresAtMs : Option UInt64

/-- Which call of a round failed. -/
inductive RoundError
  /-- An opening of the root. -/
  | opening (error : TransitionLedgerError)
  /-- `write_snapshot` -/
  | snapshot (error : TransitionLedgerError)
  /-- `checkpoint_material` -/
  | material (error : CheckpointError)
  /-- `sign` -/
  | signing (error : CheckpointError)

section Rounds

variable (env : CheckpointCrates) (path storageRootIdentity : String)

/-- One round, on a ledger with the given `snapshot_path`. -/
def CheckpointRound.take (round : CheckpointRound) (previous : Option String) (ledger : Ledger) :
    Except RoundError (SignedCheckpointManifest × Ledger) := do
  let ledger ← (ledger.run env.toCrates round.ops).mapError .opening
  let (written, ledger) := ledger.writeSnapshot env.toCrates round.createdAtMs
  let info ← written.mapError .snapshot
  let material ← (ledger.checkpointMaterial env.toCrates path storageRootIdentity
    ⟨info, path⟩).mapError .material
  let manifest ← (round.signer.sign env material round.issuedAtMs round.expiresAtMs
    previous).mapError .signing
  return (manifest, ledger)

/-- Round after round, each with the reference of the manifest before. -/
def takeCheckpoints : List CheckpointRound → Option String → Ledger →
    Except RoundError (List SignedCheckpointManifest)
  | [], _, _ => .ok []
  | round :: rounds, previous, ledger => do
      let (manifest, ledger) ← round.take env path storageRootIdentity previous ledger
      let manifests ← takeCheckpoints rounds (some manifest.manifestRef) ledger
      return manifest :: manifests

/-- The events recorded in each round that gets to its checkpoint. -/
def recordedInRounds (env : Crates) : List CheckpointRound → Ledger → List (List TransitionEvent)
  | [], _ => []
  | round :: rounds, ledger =>
      match ledger.run env round.ops with
      | .ok ledger' => ledger.recordedAlong env round.ops ::
          recordedInRounds env rounds (ledger'.writeSnapshot env round.createdAtMs).2
      | .error _ => []

/-- A round that runs to its checkpoint, and those behind it. -/
theorem recordedInRounds_cons {env : Crates} {round : CheckpointRound} {ledger last : Ledger}
    (hrun : ledger.run env round.ops = .ok last) (rounds : List CheckpointRound) :
    recordedInRounds env (round :: rounds) ledger = ledger.recordedAlong env round.ops ::
      recordedInRounds env rounds (last.writeSnapshot env round.createdAtMs).2 := by
  rw [recordedInRounds, hrun]

/-- Every event of the rounds fits its frame, and no rotation size is zero. -/
def FitsInRounds (env : Crates) : List CheckpointRound → Ledger → Prop
  | [], _ => True
  | round :: rounds, ledger => ledger.FitsAlong env round.ops ∧
      ∀ last, ledger.run env round.ops = .ok last →
        FitsInRounds env rounds (last.writeSnapshot env round.createdAtMs).2

end Rounds

/-! ## What a manifest tells of a ledger -/

/-- The manifest tells the end of the log, the number of the events and the head. -/
structure Attests (manifest : SignedCheckpointManifest) (ledger : Ledger)
    (events : List TransitionEvent) : Prop where
  /-- The profile. -/
  ledgerProfile : manifest.body.ledgerProfile = LiminalDB.ledgerProfile
  /-- The end of the log. -/
  offset : Offset.mk manifest.body.walSegment manifest.body.walOffset = ledger.store.endOffset
  /-- The number of the events. -/
  lastSequence : manifest.body.lastSequence = events.length
  /-- The head. -/
  eventChainHead : ledger.state.headEventHash = some manifest.body.eventChainHead

variable {env : CheckpointCrates} {path storageRootIdentity : String}

/-- **Two checkpoints** of a ledger that recorded something between them. -/
theorem Attests.advances {previous current : SignedCheckpointManifest} {ledger ledger' : Ledger}
    {events added : List TransitionEvent} (h : Attests previous ledger events)
    (h' : Attests current ledger' (events ++ added)) (hhistory : History env.toCrates events ledger.state)
    (hhistory' : History env.toCrates (events ++ added) ledger'.state) (hadded : added ≠ [])
    (hgrows : ledger.Grows ledger' added)
    (hfree : CollisionFree env.toCrates {body | ∃ e ∈ events ++ added, e.body = body}) :
    previous.body.lastSequence < current.body.lastSequence ∧
      previous.body.position < current.body.position ∧
      current.body.eventChainHead ≠ previous.body.eventChainHead := by
  have hlength : 0 < added.length := List.length_pos_iff.mpr hadded
  refine ⟨?_, ?_, fun hhead => ?_⟩
  · rw [h.lastSequence, h'.lastSequence, List.length_append]
    omega
  · have hlt := hgrows.2 hadded
    rw [← h.offset, ← h'.offset] at hlt
    exact hlt
  · -- one head would be that of one history
    have hheads : ledger.state.headEventHash = ledger'.state.headEventHash := by
      rw [h.eventChainHead, h'.eventChainHead, hhead]
    have hsame := head_commits_to_history hhistory hhistory' ?_ hheads
    · have hlen := congrArg List.length hsame
      rw [List.length_append] at hlen
      omega
    · refine hfree.mono ?_
      rintro _ ⟨e, he, rfl⟩
      refine ⟨e, ?_, rfl⟩
      rcases List.mem_append.mp he with he | he
      · exact List.mem_append_left _ he
      · exact he

/-- What a round leaves: a manifest of the ledger as it is now, signed for the round. -/
structure Taken (env : CheckpointCrates) (storageRootIdentity : String) (round : CheckpointRound)
    (previous : Option String) (manifest : SignedCheckpointManifest) (ledger : Ledger)
    (events : List TransitionEvent) : Prop where
  /-- What it tells. -/
  attests : Attests manifest ledger events
  /-- The identity of the root. -/
  storageRootIdentity : manifest.body.storageRootIdentity = storageRootIdentity
  /-- The signature. -/
  signed : ∃ material, round.signer.sign env material round.issuedAtMs round.expiresAtMs previous =
    .ok manifest

/-- What `sign` puts into the manifest. -/
theorem Taken.body_eq {round : CheckpointRound} {previous : Option String}
    {manifest : SignedCheckpointManifest} {ledger : Ledger} {events : List TransitionEvent}
    (h : Taken env storageRootIdentity round previous manifest ledger events) :
    manifest.body.signerId = round.signer.signerId ∧ manifest.body.issuedAtMs = round.issuedAtMs ∧
      manifest.body.previousCheckpointRef = previous ∧ IsRef manifest.manifestRef := by
  obtain ⟨material, hsign⟩ := h.signed
  obtain ⟨-, -, -, message, -, rfl⟩ := CheckpointSigner.sign_eq_ok.mp hsign
  exact ⟨rfl, rfl, rfl, isRef_sha256Ref _ message⟩

/-- **Two rounds** of one signer, one after the other. -/
theorem Taken.succeeds {round round' : CheckpointRound} {reference : Option String}
    {previous current : SignedCheckpointManifest} {ledger ledger' : Ledger}
    {events added : List TransitionEvent}
    (h : Taken env storageRootIdentity round reference previous ledger events)
    (h' : Taken env storageRootIdentity round' (some previous.manifestRef) current ledger'
      (events ++ added))
    (hsigner : round'.signer.signerId = round.signer.signerId)
    (hissued : round.issuedAtMs ≤ round'.issuedAtMs) (hlive : Live env.toCrates ledger events)
    (hlive' : Live env.toCrates ledger' (events ++ added)) (hadded : added ≠ [])
    (hgrows : ledger.Grows ledger' added)
    (hfree : CollisionFree env.toCrates {body | ∃ e ∈ events ++ added, e.body = body}) :
    Succeeds previous current := by
  obtain ⟨hid, hat, -, -⟩ := h.body_eq
  obtain ⟨hid', hat', href, -⟩ := h'.body_eq
  obtain ⟨hsequence, hposition, hhead⟩ := h.attests.advances h'.attests hlive.history hlive'.history
    hadded hgrows hfree
  refine ⟨?_, ?_, ?_, href, hsequence, hposition, ?_, hhead⟩
  · rw [h'.attests.ledgerProfile, h.attests.ledgerProfile]
  · rw [h'.storageRootIdentity, h.storageRootIdentity]
  · rw [hid', hid, hsigner]
  · rw [hat, hat']
    exact hissued

section Taking

variable (henv : env.toCrates.Lossless) (hcut : env.event.RejectsTruncated)
  (hbody : ∀ body, ∃ bytes, env.manifestBody body = .ok bytes) (hroot : IsRef storageRootIdentity)

include henv hcut hbody hroot

/-- **One round.** An opening fails, or the ledger gets to the checkpoint; and then, if something was
recorded, only an expiry before the issuance keeps the manifest from being signed. -/
theorem CheckpointRound.take_cases (round : CheckpointRound) (path : String)
    {previous : Option String} (hprevious : ∀ reference ∈ previous, IsRef reference) (hops : ∀ op ∈ round.ops, op.Unfailing)
    {ledger : Ledger} {events : List TransitionEvent} (h : Live env.toCrates ledger events) :
    (∃ e, ledger.run env.toCrates round.ops = .error e ∧
      round.take env path storageRootIdentity previous ledger = .error (.opening e)) ∨
    ∃ last taken, ledger.run env.toCrates round.ops = .ok last ∧
      (last.writeSnapshot env.toCrates round.createdAtMs).2 = taken ∧
      Live env.toCrates taken (events ++ ledger.recordedAlong env.toCrates round.ops) ∧
      ledger.Grows taken (ledger.recordedAlong env.toCrates round.ops) ∧
      (ledger.recordedAlong env.toCrates round.ops ≠ [] →
        (∃ expires ∈ round.expiresAtMs, expires ≤ round.issuedAtMs) ∧
          round.take env path storageRootIdentity previous ledger = .error (.signing .invalidExpiry) ∨
        ∃ manifest, round.take env path storageRootIdentity previous ledger = .ok (manifest, taken) ∧
          Taken env storageRootIdentity round previous manifest taken
            (events ++ ledger.recordedAlong env.toCrates round.ops)) := by
  unfold CheckpointRound.take
  cases hrun : ledger.run env.toCrates round.ops with
  | error e => exact .inl ⟨e, rfl, rfl⟩
  | ok last =>
      right
      obtain ⟨hlast, hgrows⟩ := h.run henv hcut hops hrun
      obtain ⟨bytes, info, hwrite, hver⟩ := last.writeSnapshot_eq henv round.createdAtMs
      have hreports := Ledger.writeSnapshot_reports hwrite
      refine ⟨last, _, rfl, by rw [hwrite], hlast.withSnapshot hver, hgrows, fun hrecorded => ?_⟩
      generalize hevents : events ++ ledger.recordedAlong env.toCrates round.ops = now at *
      -- there is an event, so there is a head
      have hpos : 0 < now.length := by
        rw [← hevents, List.length_append]
        exact Nat.add_pos_right _ (List.length_pos_iff.mpr hrecorded)
      have hcount : last.state.nextSequence - 1 = now.length := by
        rw [hlast.history.nextSequence_eq, Nat.add_sub_cancel]
      obtain ⟨head, hhead⟩ : ∃ head, last.state.headEventHash = some head := by
        cases hhead : last.state.headEventHash with
        | some head => exact ⟨head, rfl⟩
        | none =>
            have hone := hlast.history.invariant.head_none_iff.mp hhead
            omega
      have hheadRef := hlast.history.isRef_head head hhead
      have hmaterial : Ledger.checkpointMaterial env.toCrates path storageRootIdentity ⟨info, path⟩
          { last with snap := { file := some bytes } } =
          .ok (info.material storageRootIdentity head) :=
        hreports.checkpointMaterial rfl hhead hheadRef hroot path
      have hwell := hreports.wellFormed_material hroot hheadRef (by omega)
      by_cases hexpiry : ∀ expires ∈ round.expiresAtMs, round.issuedAtMs < expires
      · obtain ⟨manifest, hsign, -, hmanifest⟩ :=
          round.signer.sign_isOk hbody hwell hexpiry hprevious
        refine .inr ⟨manifest, ?_, ⟨?_, ?_, ?_, ?_⟩, ?_, _, hsign⟩
        · refine result_bind_eq_ok.mpr ⟨last, rfl, ?_⟩
          rw [hwrite]
          exact result_bind_eq_ok.mpr ⟨info, rfl, result_bind_eq_ok.mpr ⟨_, by rw [hmaterial]; rfl,
            result_bind_eq_ok.mpr ⟨manifest, by rw [hsign]; rfl, rfl⟩⟩⟩
        · rw [hmanifest]
          rfl
        · rw [hmanifest]
          exact hreports.offset
        · rw [hmanifest]
          exact hreports.eventCount.trans hcount
        · rw [hmanifest]
          exact hhead
        · rw [hmanifest]
          rfl
      · have hsign : round.signer.sign env (info.material storageRootIdentity head) round.issuedAtMs
            round.expiresAtMs previous = .error .invalidExpiry :=
          round.signer.sign_of_expired hwell hexpiry
        refine .inl ⟨by simpa using hexpiry, ?_⟩
        simp only [bind, Except.bind, Except.mapError, hwrite, hmaterial, hsign]

omit henv hcut hbody hroot in
/-- The rounds behind one that gives a manifest. -/
theorem takeCheckpoints_cons_of_ok {path : String} {round : CheckpointRound}
    {previous : Option String} {ledger taken : Ledger} {manifest : SignedCheckpointManifest}
    (hmanifest : round.take env path storageRootIdentity previous ledger = .ok (manifest, taken))
    (rounds : List CheckpointRound) :
    takeCheckpoints env path storageRootIdentity (round :: rounds) previous ledger =
      (takeCheckpoints env path storageRootIdentity rounds
        ((some manifest).map (·.manifestRef)) taken).map (manifest :: ·) := by
  rw [takeCheckpoints, hmanifest, Option.map_some]
  show (do
    let manifests ← takeCheckpoints env path storageRootIdentity rounds
      (some manifest.manifestRef) taken
    return manifest :: manifests) = _
  cases takeCheckpoints env path storageRootIdentity rounds (some manifest.manifestRef) taken <;> rfl

/-- **Round after round.** An opening fails or an expiry is refused; or else the manifests are a chain,
behind the manifest of the ledger at the start if there is one. -/
theorem takeCheckpoints_cases (path : String) {signerId : String} {rounds : List CheckpointRound}
    (hops : ∀ round ∈ rounds, ∀ op ∈ round.ops, op.Unfailing)
    (hsigner : ∀ round ∈ rounds, round.signer.signerId = signerId)
    (hissued : rounds.Pairwise fun round round' => round.issuedAtMs ≤ round'.issuedAtMs)
    {ledger : Ledger} {events : List TransitionEvent} (h : Live env.toCrates ledger events)
    (hrecorded : ∀ recorded ∈ recordedInRounds env.toCrates rounds ledger, recorded ≠ [])
    (hfree : CollisionFree env.toCrates
      {body | ∃ e ∈ events ++ (recordedInRounds env.toCrates rounds ledger).flatten, e.body = body})
    (previous : Option SignedCheckpointManifest)
    (hprevious : ∀ manifest ∈ previous, ∃ round reference,
      Taken env storageRootIdentity round reference manifest ledger events ∧
      round.signer.signerId = signerId ∧ ∀ round' ∈ rounds, round.issuedAtMs ≤ round'.issuedAtMs) :
    (∃ e, takeCheckpoints env path storageRootIdentity rounds (previous.map (·.manifestRef)) ledger =
      .error (.opening e)) ∨
    (∃ round ∈ rounds, ∃ expires ∈ round.expiresAtMs, expires ≤ round.issuedAtMs) ∧
      takeCheckpoints env path storageRootIdentity rounds (previous.map (·.manifestRef)) ledger =
        .error (.signing .invalidExpiry) ∨
    ∃ manifests, takeCheckpoints env path storageRootIdentity rounds (previous.map (·.manifestRef))
        ledger = .ok manifests ∧ (previous.toList ++ manifests).IsChain Succeeds ∧
      manifests.length = rounds.length ∧ ∀ manifest ∈ manifests, ∃ round ∈ rounds,
        ∃ material reference, round.signer.sign env material round.issuedAtMs round.expiresAtMs
          reference = .ok manifest := by
  induction rounds generalizing ledger events previous with
  | nil =>
      -- No round is left: the chain is what is behind it, if anything is.
      refine .inr (.inr ⟨[], rfl, ?_, rfl, nofun⟩)
      rw [List.append_nil]
      cases previous with
      | none => exact .nil
      | some manifest => exact .singleton manifest
  | cons round rounds ih =>
      rw [List.forall_mem_cons] at hops hsigner
      rw [List.pairwise_cons] at hissued
      have hreference : ∀ reference ∈ previous.map (·.manifestRef), IsRef reference := by
        intro reference hmem
        obtain ⟨manifest, hmanifest, rfl⟩ := Option.map_eq_some_iff.mp hmem
        obtain ⟨before, reference, htaken, -⟩ := hprevious manifest hmanifest
        exact htaken.body_eq.2.2.2
      rcases round.take_cases henv hcut hbody hroot path hreference hops.1 h with
        ⟨e, -, htake⟩ | ⟨last, taken, hrun, rfl, hlive, hgrows, htake⟩
      · -- The ledger does not open for this round.
        left
        exact ⟨e, by rw [takeCheckpoints, htake]; rfl⟩
      · have hrounds := recordedInRounds_cons hrun rounds
        generalize (last.writeSnapshot env.toCrates round.createdAtMs).2 = taken at *
        rw [hrounds] at hrecorded hfree
        rw [List.forall_mem_cons] at hrecorded
        rw [List.flatten_cons, ← List.append_assoc] at hfree
        rcases htake hrecorded.1 with ⟨hexpired, hsigning⟩ | ⟨manifest, hmanifest, htaken⟩
        · -- The checkpoint of this round has expired by the time it is issued.
          refine .inr (.inl ⟨⟨round, List.mem_cons_self, hexpired⟩, ?_⟩)
          rw [takeCheckpoints, hsigning]
          rfl
        · have hcons := takeCheckpoints_cons_of_ok hmanifest rounds
          -- What the next rounds have behind them is the checkpoint of this one.
          have hbehind : ∀ m ∈ some manifest, ∃ before reference,
              Taken env storageRootIdentity before reference m taken
                (events ++ ledger.recordedAlong env.toCrates round.ops) ∧
              before.signer.signerId = signerId ∧
              ∀ round' ∈ rounds, before.issuedAtMs ≤ round'.issuedAtMs := by
            rintro _ ⟨⟩
            exact ⟨round, _, htaken, hsigner.1, hissued.1⟩
          rw [hcons]
          rcases ih hops.2 hsigner.2 hissued.2 hlive hrecorded.2 hfree (some manifest) hbehind with
            ⟨e, he⟩ | ⟨⟨round', hmem, hexpired⟩, he⟩ | ⟨manifests, hmanifests, hchain, hlength, hsigned⟩
          · rw [he]
            exact .inl ⟨e, rfl⟩
          · rw [he]
            exact .inr (.inl ⟨⟨round', List.mem_cons_of_mem _ hmem, hexpired⟩, rfl⟩)
          · rw [hmanifests]
            obtain ⟨material, hsign⟩ := htaken.signed
            refine .inr (.inr ⟨manifest :: manifests, rfl, ?_, congrArg (· + 1) hlength,
              List.forall_mem_cons.mpr ⟨⟨round, List.mem_cons_self, material, _, hsign⟩, ?_⟩⟩)
            · cases previous with
              | none => exact hchain
              | some before =>
                  obtain ⟨round₀, reference, hbefore, hid, hat⟩ := hprevious before rfl
                  refine List.isChain_cons_cons.mpr ⟨?_, hchain⟩
                  -- It succeeds the one before it: no event that both know of has another body.
                  refine hbefore.succeeds htaken (hsigner.1.trans hid.symm)
                    (hat round List.mem_cons_self) h hlive hrecorded.1 hgrows (hfree.mono ?_)
                  rintro _ ⟨e, he, rfl⟩
                  exact ⟨e, List.mem_append_left _ he, rfl⟩
            · intro manifest hmanifest
              obtain ⟨round', hround', hsign'⟩ := hsigned manifest hmanifest
              exact ⟨round', List.mem_cons_of_mem _ hround', hsign'⟩

end Taking

/-! ## Openings -/

/-- Behind the steps of a round nothing is opened. -/
theorem CheckpointRound.take_of_run (path storageRootIdentity : String) (previous : Option String)
    {round : CheckpointRound} {ledger last : Ledger} (hrun : ledger.run env.toCrates round.ops = .ok last) :
    (∃ manifest, round.take env path storageRootIdentity previous ledger =
      .ok (manifest, (last.writeSnapshot env.toCrates round.createdAtMs).2)) ∨
    ∃ e, round.take env path storageRootIdentity previous ledger = .error e ∧
      ∀ cause, e ≠ .opening cause := by
  unfold CheckpointRound.take
  rw [hrun]
  simp only [bind, Except.bind, Except.mapError]
  generalize last.writeSnapshot env.toCrates round.createdAtMs = written
  obtain ⟨result, taken⟩ := written
  cases result with
  | error e => exact .inr ⟨_, rfl, nofun⟩
  | ok info =>
      dsimp only
      cases taken.checkpointMaterial env.toCrates path storageRootIdentity ⟨info, path⟩ with
      | error e => exact .inr ⟨_, rfl, nofun⟩
      | ok material =>
          dsimp only
          cases round.signer.sign env material round.issuedAtMs round.expiresAtMs previous with
          | error e => exact .inr ⟨_, rfl, nofun⟩
          | ok manifest => exact .inl ⟨manifest, rfl⟩

/-- **No opening fails** where every event fits. -/
theorem takeCheckpoints_ne_opening (henv : env.toCrates.Lossless) {rounds : List CheckpointRound}
    (hops : ∀ round ∈ rounds, ∀ op ∈ round.ops, op.Unfailing) {ledger : Ledger} {img : WalImage}
    {events : List TransitionEvent} (h : Recovers env.toCrates ledger img events none)
    (hp : ledger.poisoned = false) (hfits : FitsInRounds env.toCrates rounds ledger)
    (previous : Option String) {cause : TransitionLedgerError} :
    takeCheckpoints env path storageRootIdentity rounds previous ledger ≠ .error (.opening cause) := by
  induction rounds generalizing ledger img events previous with
  | nil => exact nofun
  | cons round rounds ih =>
      rw [List.forall_mem_cons] at hops
      obtain ⟨last, img', events', hrun, hplast, hlast⟩ := h.run_unfailing henv hops.1 hp hfits.1
      have hrest := hfits.2 last hrun
      obtain ⟨bytes, info, hwrite, hver⟩ := last.writeSnapshot_eq henv round.createdAtMs
      have htake := CheckpointRound.take_of_run path storageRootIdentity previous hrun
      rw [hwrite] at hrest htake
      rw [takeCheckpoints]
      rcases htake with ⟨manifest, hmanifest⟩ | ⟨e, he, hne⟩
      · rw [hmanifest]
        show (do
          let manifests ← takeCheckpoints env path storageRootIdentity rounds
            (some manifest.manifestRef) _
          return manifest :: manifests) ≠ _
        have hnext := ih hops.2 (hlast.withSnapshot hver) hplast hrest (some manifest.manifestRef)
        cases htakes : takeCheckpoints env path storageRootIdentity rounds (some manifest.manifestRef)
          { last with snap := { file := some bytes } } with
        | ok manifests => exact nofun
        | error e =>
            rw [htakes] at hnext
            exact fun heq => hnext (congrArg Except.error (Except.error.inj heq))
      · rw [he]
        exact fun heq => hne cause (Except.error.inj heq)

/-! ## Anchors from the chain -/

/-- The anchor was built from one of the manifests. -/
def AnchorFrom (manifests : List SignedCheckpointManifest) (anchor : ExternalAnchor) : Prop :=
  ∃ manifest ∈ manifests, ∃ providerProfile anchorId anchoredAtMs, NotBlank providerProfile ∧
    NotBlank anchorId ∧ anchor = manifest.anchor providerProfile anchorId anchoredAtMs

/-- A chain that is accepted is accepted with an anchor from any of its manifests. -/
theorem ChainAccepted.withAnchor {manifests : List SignedCheckpointManifest}
    {registry : TrustedKeyRegistry} {nowMs : UInt64}
    (h : ChainAccepted env manifests registry none nowMs) (hcommitting : env.Committing manifests)
    {latestAnchor : Option ExternalAnchor}
    (hanchor : ∀ anchor ∈ latestAnchor, AnchorFrom manifests anchor) :
    ChainAccepted env manifests registry latestAnchor nowMs := by
  have hsound := h.antiRollback hcommitting
  refine ⟨h.nonempty, h.verified, h.follows, fun anchor hmem => ?_⟩
  obtain ⟨manifest, hmanifest, provider, id, at_, hprovider, hid, rfl⟩ := hanchor anchor hmem
  refine ⟨(h.verified manifest hmanifest).wellFormed_anchor hprovider hid, ?_, manifest, ?_,
    SignedCheckpointManifest.pins_anchor⟩
  · -- the latest manifest is this one or comes behind it
    intro latest hlatest
    obtain ⟨earlier, rfl⟩ := List.getLast?_eq_some_iff.mp hlatest
    rcases List.mem_append.mp hmanifest with hearlier | hlast
    · exact ((List.pairwise_append.mp hsound.lastSequence).2.2 manifest hearlier latest
        (List.mem_singleton_self _)).le
    · rw [List.mem_singleton.mp hlast]
      exact le_rfl
  · -- the reference is found at its own manifest only
    have hfound : (manifests.find? fun m => m.manifestRef = manifest.manifestRef).isSome := by
      rw [List.find?_isSome]
      exact ⟨manifest, hmanifest, by simp⟩
    obtain ⟨found, hfound⟩ := Option.isSome_iff_exists.mp hfound
    have href : found.manifestRef = manifest.manifestRef := by simpa using List.find?_some hfound
    have hsame := List.inj_on_of_nodup_map hsound.manifestRef (List.mem_of_find?_eq_some hfound)
      hmanifest href
    rw [← hsame] at hfound ⊢
    exact hfound

/-! ## The theorem -/

/-- At the time, the key of the round is registered and active and its manifest has not expired. -/
structure CheckpointRound.Current (env : CheckpointCrates) (registry : TrustedKeyRegistry)
    (nowMs : UInt64) (round : CheckpointRound) : Prop where
  /-- It was issued. -/
  issued : round.issuedAtMs ≤ nowMs
  /-- It has not expired. -/
  unexpired : ∀ expires ∈ round.expiresAtMs, nowMs ≤ expires
  /-- Its key. -/
  registered : ∃ key, registry.get round.signer.signerId round.signer.keyId = some key ∧
    key.publicKeyHex = encodeHex (env.ed25519.verifyingKey round.signer.seed).toList ∧
    key.ActiveAt nowMs

/-- What the signer of a current round has signed in it is verified. -/
theorem CheckpointRound.Current.verified {round : CheckpointRound} {registry : TrustedKeyRegistry}
    {nowMs : UInt64} (hcurrent : round.Current env registry nowMs) (hhonest : env.ed25519.Honest)
    (husable : round.signer.Usable) {material : CheckpointMaterial} {reference : Option String}
    {manifest : SignedCheckpointManifest} (hsign : round.signer.sign env material round.issuedAtMs
      round.expiresAtMs reference = .ok manifest) : Verified env registry nowMs manifest := by
  obtain ⟨hnow, hunexpired, key, hkey, hpublic, hactive⟩ := hcurrent
  exact CheckpointSigner.verified_of_sign hhonest hsign husable.signerId husable.keyId hkey hpublic
    hactive hnow hunexpired

/-- **Honest checkpoints verify.** A new ledger is run without failures and checkpoints are taken on the
way, by one signer with whatever keys, each behind at least one accepted append. Then no snapshot and no
`checkpoint_material` fails, and no `sign` with an expiry behind its issuance. The manifests are accepted
as a chain at every time at which their keys are active and none has expired, without an anchor and with
an anchor from any of them. -/
theorem honest_checkpoints_verify (henv : env.toCrates.Lossless) (hcut : env.event.RejectsTruncated)
    (hbody : ∀ body, ∃ bytes, env.manifestBody body = .ok bytes) (hhonest : env.ed25519.Honest)
    (path : String) (hroot : IsRef storageRootIdentity) {rotation : UInt64} {fresh : Ledger}
    (hopen : Ledger.openWithRotation env.toCrates Root.empty rotation = .ok fresh)
    {rounds : List CheckpointRound} (hops : ∀ round ∈ rounds, ∀ op ∈ round.ops, op.Unfailing)
    (hrecorded : ∀ recorded ∈ recordedInRounds env.toCrates rounds fresh, recorded ≠ [])
    (hfree : CollisionFree env.toCrates
      {body | ∃ e ∈ (recordedInRounds env.toCrates rounds fresh).flatten, e.body = body})
    (hseed : ∀ round ∈ rounds, ∃ signerId keyId,
      CheckpointSigner.fromSeed signerId keyId round.signer.seed = .ok round.signer)
    {signerId : String} (hsigner : ∀ round ∈ rounds, round.signer.signerId = signerId)
    (hissued : rounds.Pairwise fun round round' => round.issuedAtMs ≤ round'.issuedAtMs) :
    (∀ e, takeCheckpoints env path storageRootIdentity rounds none fresh = .error e →
      (∃ cause, e = .opening cause) ∧ ¬ FitsInRounds env.toCrates rounds fresh ∨
      e = .signing .invalidExpiry ∧
        ∃ round ∈ rounds, ∃ expires ∈ round.expiresAtMs, expires ≤ round.issuedAtMs) ∧
    ∀ manifests, takeCheckpoints env path storageRootIdentity rounds none fresh = .ok manifests →
      rounds ≠ [] → env.Committing manifests → ∀ registry nowMs,
      (∀ round ∈ rounds, round.Current env registry nowMs) →
      ∀ latestAnchor : Option ExternalAnchor, (∀ anchor ∈ latestAnchor, AnchorFrom manifests anchor) →
        ∃ verified, verifyCheckpointChain env manifests registry latestAnchor nowMs = .ok verified := by
  have hcases := takeCheckpoints_cases henv hcut hbody hroot path hops hsigner hissued
    (live_fresh henv hopen) hrecorded (by simpa using hfree) none nofun
  rw [Option.map_none] at hcases
  refine ⟨fun e he => ?_, fun manifests hmanifests hne hcommitting registry nowMs hcurrent latestAnchor
    hanchor => ?_⟩
  · rcases hcases with ⟨cause, hcause⟩ | ⟨hexpired, hsigning⟩ | ⟨manifests, hok, -⟩
    · refine .inl ⟨⟨cause, Except.error.inj (he.symm.trans hcause)⟩, fun hfits => ?_⟩
      obtain ⟨hp, img, hfresh⟩ := recovers_of_open_empty henv hopen
      exact takeCheckpoints_ne_opening henv hops hfresh hp hfits none hcause
    · exact .inr ⟨Except.error.inj (he.symm.trans hsigning), hexpired⟩
    · exact absurd (he.symm.trans hok) nofun
  · rcases hcases with ⟨cause, hcause⟩ | ⟨-, hsigning⟩ | ⟨manifests', hok, hchain, hlength, hsigned⟩
    · exact absurd (hmanifests.symm.trans hcause) nofun
    · exact absurd (hmanifests.symm.trans hsigning) nofun
    · obtain rfl := Except.ok.inj (hok.symm.trans hmanifests)
      rw [verifyCheckpointChain_isOk]
      refine ChainAccepted.withAnchor ⟨?_, fun manifest hmanifest => ?_, hchain, nofun⟩ hcommitting
        hanchor
      · rintro rfl
        exact hne (List.eq_nil_of_length_eq_zero hlength.symm)
      · obtain ⟨round, hround, material, reference, hsign⟩ := hsigned manifest hmanifest
        obtain ⟨id, keyId, hfrom⟩ := hseed round hround
        exact (hcurrent round hround).verified hhonest (CheckpointSigner.usable_of_fromSeed hfrom) hsign

/-! ### Two checkpoints -/

/-- What a round that gives a manifest went through. -/
theorem CheckpointRound.take_eq_ok {round : CheckpointRound} {previous : Option String}
    {ledger taken : Ledger} {manifest : SignedCheckpointManifest}
    (h : round.take env path storageRootIdentity previous ledger = .ok (manifest, taken)) :
    ∃ last info head, ledger.run env.toCrates round.ops = .ok last ∧
      last.writeSnapshot env.toCrates round.createdAtMs = (.ok info, taken) ∧
      info.Matches env.toCrates taken.state head ∧
      round.signer.sign env (info.material storageRootIdentity head) round.issuedAtMs
        round.expiresAtMs previous = .ok manifest := by
  unfold CheckpointRound.take at h
  obtain ⟨last, hrun, h⟩ := result_bind_eq_ok.mp h
  generalize hwritten : last.writeSnapshot env.toCrates round.createdAtMs = written at h
  obtain ⟨result, taken'⟩ := written
  obtain ⟨info, hinfo, h⟩ := result_bind_eq_ok.mp h
  obtain ⟨material, hmaterial, h⟩ := result_bind_eq_ok.mp h
  obtain ⟨manifest', hsign, h⟩ := result_bind_eq_ok.mp h
  obtain ⟨rfl, rfl⟩ := Prod.mk.inj (Except.ok.inj h)
  obtain rfl := mapError_eq_ok.mp hinfo
  obtain ⟨-, -, head, -, hmatches, rfl⟩ :=
    Ledger.checkpointMaterial_eq_ok.mp (mapError_eq_ok.mp hmaterial)
  exact ⟨last, info, head, mapError_eq_ok.mp hrun, hwritten, hmatches, mapError_eq_ok.mp hsign⟩

/-- The reference of a checkpoint, where the digests that go into it are known. -/
theorem CheckpointRound.manifestRef_linked {round : CheckpointRound} {previous : Option String}
    {ledger last taken : Ledger} {manifest : SignedCheckpointManifest}
    (h : round.take linkedCheckpointCrates path storageRootIdentity previous ledger =
      .ok (manifest, taken)) (hrun : ledger.run linkedCrates round.ops = .ok last)
    {head projection snapshot : String} (hhead : last.state.headEventHash = some head)
    (hprojection : digestText (Sha256.digest (Codec.projectionDigestMaterial.enc last.state)) = projection)
    (hsnapshot : digestText (Sha256.digest (Codec.snapshotBody.enc (last.state.snapshotBody
      last.store.endOffset round.createdAtMs projection))) = snapshot) :
    (last.writeSnapshot linkedCrates round.createdAtMs).2 = taken ∧
    manifest.manifestRef = digestText (Sha256.digest (Codec.manifestBody.enc (round.signer.manifestBody
      ⟨ledgerProfile, storageRootIdentity, head, last.state.nextSequence - 1,
        last.store.endOffset.segment, last.store.endOffset.position, projection, snapshot⟩
      round.issuedAtMs round.expiresAtMs previous))) := by
  obtain ⟨last', info, head', hrun', hwrite, hmatches, hsign⟩ := CheckpointRound.take_eq_ok h
  obtain rfl := Except.ok.inj (hrun.symm.trans hrun')
  have hreports := Ledger.writeSnapshot_reports hwrite
  have hdigest := Ledger.writeSnapshot_digest hwrite
  have hstate : taken.state = last.state := by
    obtain ⟨bytes, info', hwrite', -⟩ := last.writeSnapshot_eq lossless_linkedCrates round.createdAtMs
    obtain ⟨-, rfl⟩ := Prod.mk.inj (hwrite'.symm.trans hwrite)
    rfl
  rw [hstate] at hmatches
  obtain rfl : head = head' := Option.some.inj (hhead.symm.trans hmatches.stateHead)
  obtain ⟨_, hencoded, hproj⟩ := digestCbor_eq_ok.mp hreports.projectionDigest
  obtain rfl := Except.ok.inj hencoded
  obtain rfl : info.projectionDigest = projection := hproj.trans hprojection
  obtain ⟨_, hencoded, hsnap⟩ := digestCbor_eq_ok.mp hdigest
  obtain rfl := Except.ok.inj hencoded
  obtain rfl : info.snapshotDigest = snapshot := hsnap.trans hsnapshot
  obtain ⟨-, -, -, message, hmessage, rfl⟩ := CheckpointSigner.sign_eq_ok.mp hsign
  obtain rfl := Except.ok.inj hmessage
  refine ⟨congrArg Prod.snd hwrite, ?_⟩
  rw [← hreports.offset, ← hreports.eventCount]
  rfl

/-- An admitted record is appended, as the event with the given hash. -/
theorem exists_append_linked {ledger : Ledger} {img : WalImage} {events : List TransitionEvent}
    (h : Recovers linkedCrates ledger img events none) (hp : ledger.poisoned = false)
    {input : TransitionEventInput} {hash : String} (hadm : Admits ledger.state input)
    (hhash : digestCbor linkedCrates linkedCrates.eventBody (nextBody ledger.state input) = .ok hash)
    (hlen : (Codec.event.enc ⟨nextBody ledger.state input, hash⟩).length < 2 ^ 32) :
    (LedgerOp.append input .disabled).Fits linkedCrates ledger ∧
    ∃ last, ledger.append linkedCrates input .disabled = (.ok ⟨nextBody ledger.state input, hash⟩, last) ∧
      last.poisoned = false ∧ last.state = ledger.state.advance ⟨nextBody ledger.state input, hash⟩ ∧
      last.store.writer.rotation = ledger.store.writer.rotation ∧
      Recovers linkedCrates last (img.append linkedCrates.crc32 ledger.store.writer.rotation
        (Codec.event.enc ⟨nextBody ledger.state input, hash⟩) .disabled)
        (events ++ [⟨nextBody ledger.state input, hash⟩]) none := by
  obtain ⟨⟨body, hash'⟩, hinput, hacc, hprep⟩ :=
    h.history.prepareEvent_of_admits lossless_linkedCrates hadm
  obtain rfl : body = nextBody ledger.state input := by
    rw [← hinput]
    exact hacc.body_eq
  obtain rfl : hash' = hash := Except.ok.inj (hacc.hash.symm.trans hhash)
  refine ⟨fun _ event candidate bytes hprep' hbytes => ?_, ?_⟩
  · obtain ⟨rfl, -⟩ := Prod.mk.inj (Except.ok.inj (hprep'.symm.trans hprep))
    obtain rfl := Except.ok.inj hbytes
    exact hlen
  · obtain ⟨last, happend, hp', hstate, hlast⟩ := h.append_ok hp hprep rfl hlen
    obtain ⟨hres, -, hrotation⟩ := h.represents.append (h.usable hp).1 hlen .disabled
    have hstored := Ledger.append_of_stored hp hprep rfl (hres.trans (if_pos rfl))
    obtain ⟨-, rfl⟩ := Prod.mk.inj (happend.symm.trans hstored)
    exact ⟨_, happend, hp', hstate, hrotation, hlast⟩

/-- The first event of `transition-001`. -/
def openedEvent : TransitionEvent :=
  ⟨nextBody .default openingInput, "sha256:9cb375ab191496b619e15e0d81ce4242812a31c405f6a151cbafe281a90fc92c"⟩

/-- The state after it. -/
def openedState : LedgerState := LedgerState.default.advance openedEvent

/-- The record behind it. -/
def observedInput : TransitionEventInput :=
  evidenceInput .observation 0xb1 { authorizationRef := sampleRef 0xa1 }

/-- The second event. -/
def observedEvent : TransitionEvent :=
  ⟨nextBody openedState observedInput, "sha256:150ec0146b01d76b5f08e9444abd7b30c70fc730a0b92f0007b4b2ffc57aef8a"⟩

/-- The state after both. -/
def observedState : LedgerState := openedState.advance observedEvent

/-- Both are events of the sample history. -/
theorem mem_evidenceEvents : openedEvent ∈ evidenceEvents ∧ observedEvent ∈ evidenceEvents := by
  -- a body takes no more of a state than the count and the head
  have hbody : nextBody openedState observedInput = nextBody { LedgerState.default with
      nextSequence := 2, headEventHash := some openedEvent.eventHash } observedInput := by
    unfold nextBody
    rfl
  refine ⟨.head _, ?_⟩
  rw [observedEvent, hbody]
  exact .tail _ (.head _)

/-- The encoded event that opens the sample, in bytes. -/
theorem length_openedEvent : (Codec.event.enc openedEvent).length = 638 := by decide +kernel

/-- The encoded observation after it, in bytes. -/
theorem length_observedEvent : (Codec.event.enc observedEvent).length = 914 := by decide +kernel

/-- The projection, the snapshot and the manifest of the first checkpoint. -/
def openedDigests : String × String × String :=
  ("sha256:549ab46124652f1f8332b7b8e52f213e8baf51988741eb0f4fc0b1ead4e6cf27",
    "sha256:6bf3f9a9a92ff239c9f41c7b870cecad1f2cbc444243212825bdd69f29bac93b",
    "sha256:f82dfcd3d919cfc95230c4531f9ed02a3fd859614741e29a7f6758d6191d681c")

/-- Those of the second. -/
def observedDigests : String × String × String :=
  ("sha256:0a4802122d0954aa03fb66e3e0ab6d3dca9fd27036229bbbb86f525c310e5fec",
    "sha256:2807af6e413083f4bae61faf2f7b3d4a1441c960c8a1e75bdcd102f8042dafa9",
    "sha256:630983d58296929afea6bbdb96264e6e7a406c30b6140a244513196368c26535")

/-- The digests of the first checkpoint are the SHA-256 of what they name. -/
theorem digest_openedState :
    digestText (Sha256.digest (Codec.projectionDigestMaterial.enc openedState)) = openedDigests.1 ∧
      digestText (Sha256.digest (Codec.snapshotBody.enc
        (openedState.snapshotBody ⟨1, 646⟩ 7 openedDigests.1))) = openedDigests.2.1 ∧
      digestText (Sha256.digest (Codec.manifestBody.enc (sampleSigner.manifestBody
        ⟨ledgerProfile, sampleRef 0x01, openedEvent.eventHash, 1, 1, 646, openedDigests.1,
          openedDigests.2.1⟩ 8 (some 20) none))) = openedDigests.2.2 := by
  refine ⟨?_, ?_, ?_⟩
  all_goals rw [digestText_digest]; decide +kernel

/-- So are those of the second, which names the first. -/
theorem digest_observedState :
    digestText (Sha256.digest (Codec.projectionDigestMaterial.enc observedState)) = observedDigests.1 ∧
      digestText (Sha256.digest (Codec.snapshotBody.enc
        (observedState.snapshotBody ⟨1, 1568⟩ 9 observedDigests.1))) = observedDigests.2.1 ∧
      digestText (Sha256.digest (Codec.manifestBody.enc (sampleSigner.manifestBody
        ⟨ledgerProfile, sampleRef 0x01, observedEvent.eventHash, 2, 1, 1568, observedDigests.1,
          observedDigests.2.1⟩ 10 (some 20) (some openedDigests.2.2)))) = observedDigests.2.2 := by
  refine ⟨?_, ?_, ?_⟩
  all_goals rw [digestText_digest]; decide +kernel

/-- The opening of a transition, and a checkpoint. -/
def openingRound : CheckpointRound where
  ops := [.append openingInput .disabled]
  createdAtMs := 7
  signer := sampleSigner
  issuedAtMs := 8
  expiresAtMs := some 20

/-- An observation, a reopening with a smaller rotation size, and a checkpoint. -/
def observingRound : CheckpointRound where
  ops := [.append observedInput .disabled, .reopen 16]
  createdAtMs := 9
  signer := sampleSigner
  issuedAtMs := 10
  expiresAtMs := some 20

/-- A round of the sample signer is current from its issuance to its expiry. -/
theorem CheckpointRound.Current.of_sampleSigner {round : CheckpointRound} {nowMs : UInt64}
    (hsigner : round.signer = sampleSigner) (hissued : round.issuedAtMs ≤ nowMs)
    (hexpires : ∀ expires ∈ round.expiresAtMs, nowMs ≤ expires) :
    round.Current linkedCheckpointCrates sampleRegistry nowMs := by
  refine ⟨hissued, hexpires, sampleKey, ?_, ?_, activeAt_sampleKey nowMs⟩
  · rw [hsigner]
    exact get_sampleRegistry
  · rw [hsigner]
    rfl

/-- The observation is admitted behind the opening. -/
theorem admits_observedInput {events : List TransitionEvent}
    (h : History linkedCrates events openedState) (hevents : events = [openedEvent]) :
    Admits openedState observedInput := by
  refine ⟨canonical_of_mem_evidenceInputs _ (.head _), h.fresh_iff.mpr ?_, ?_⟩
  · rw [hevents, List.forall_mem_singleton]
    exact fun heq => absurd (sampleRef_inj.mp heq) (by decide)
  · have hp : openedState.projections["transition-001"]? = some (newProjection openedEvent) :=
      LedgerState.advance_projection_self .default openedEvent
    show NextOf openedState.projections["transition-001"]? observedInput
    rw [hp]
    exact ⟨rfl, rfl, rfl, ⟨rfl, rfl, rfl, rfl⟩, by rintro _ - - _ ⟨⟩; rfl, by rintro _ ⟨⟩⟩

/-- The ledger of the two rounds. -/
theorem exists_observed : ∃ fresh opened taken observed : Ledger,
    Ledger.openWithRotation linkedCrates Root.empty 4096 = .ok fresh ∧
    fresh.run linkedCrates openingRound.ops = .ok opened ∧ opened.state = openedState ∧
    opened.store.endOffset = ⟨1, 646⟩ ∧ (opened.writeSnapshot linkedCrates 7).2 = taken ∧
    taken.run linkedCrates observingRound.ops = .ok observed ∧ observed.state = observedState ∧
    observed.store.endOffset = ⟨1, 1568⟩ ∧
    FitsInRounds linkedCrates [openingRound, observingRound] fresh ∧
    recordedInRounds linkedCrates [openingRound, observingRound] fresh =
      [[openedEvent], [observedEvent]] ∧
    History linkedCrates [openedEvent, observedEvent] observedState := by
  obtain ⟨store, hstore, hrotation, hopen⟩ :=
    Ledger.openWithRotation_empty lossless_linkedCrates (by decide : (4096 : UInt64) ≠ 0)
  obtain ⟨fresh, hopen', hp, hfresh⟩ :=
    recovers_fresh lossless_linkedCrates (by decide : (4096 : UInt64) ≠ 0)
  obtain rfl := Except.ok.inj (hopen.symm.trans hopen')
  -- the opening, at the front of the only segment
  obtain ⟨hfits, opened, happend, hp₁, hstate₁, hrotation₁, hopened⟩ := exists_append_linked hfresh hp
    ⟨canonical_openingInput, rfl, rfl, rfl⟩ (digestCbor_evidenceEvents openedEvent mem_evidenceEvents.1)
    (by show (Codec.event.enc openedEvent).length < 2 ^ 32; rw [length_openedEvent]; decide)
  change opened.state = openedState at hstate₁
  have hend₁ : opened.store.endOffset = ⟨1, 646⟩ := by
    rw [hopened.represents.endOffset_eq, hrotation]
    show WalImage.endOffset _ (WalImage.append _ _ _ (Codec.event.enc openedEvent) _) = _
    simp [WalImage.append, WalImage.makeRoom, WalImage.push, WalImage.endOffset, WalImage.segment,
      WalImage.size, WalImage.empty, recordSize, length_openedEvent]
  obtain ⟨store₁, snap₁, state₁, poisoned₁⟩ := opened
  obtain rfl : state₁ = openedState := hstate₁
  obtain rfl : poisoned₁ = false := hp₁
  -- the observation behind its snapshot, in the same segment
  obtain ⟨bytes, info, hwrite, hver⟩ := Ledger.writeSnapshot_eq lossless_linkedCrates
    ⟨store₁, snap₁, openedState, false⟩ 7
  have htaken := hopened.withSnapshot hver
  obtain ⟨hfits', observed, happend', hp₂, hstate₂, -, hobserved⟩ := exists_append_linked htaken rfl
    (admits_observedInput hopened.history rfl)
    (digestCbor_evidenceEvents observedEvent mem_evidenceEvents.2)
    (by show (Codec.event.enc observedEvent).length < 2 ^ 32; rw [length_observedEvent]; decide)
  change observed.state = observedState at hstate₂
  obtain ⟨store₂, hreopen, hstore₂, -⟩ := hobserved.reopen_of_synced lossless_linkedCrates
    hobserved.synced (by decide : (16 : UInt64) ≠ 0)
  have hend₂ : store₂.endOffset = ⟨1, 1568⟩ := by
    rw [hstore₂.endOffset_eq]
    show WalImage.endOffset _ (WalImage.tear (WalImage.append _ _ store₁.writer.rotation
      (Codec.event.enc observedEvent) _) _) = _
    rw [hrotation₁, hrotation]
    show WalImage.endOffset _ (WalImage.tear (WalImage.append _ (WalImage.append _ _ _
      (Codec.event.enc openedEvent) _) _ _ _) _) = _
    simp [WalImage.append, WalImage.makeRoom, WalImage.push, WalImage.endOffset, WalImage.segment,
      WalImage.size, WalImage.empty, WalImage.tear, recordSize, length_openedEvent, length_observedEvent]
  have hstep : Ledger.step linkedCrates (.append openingInput .disabled) ⟨store, {}, .default, false⟩ =
      .ok ⟨store₁, snap₁, openedState, false⟩ := by
    rw [Ledger.step, happend]
  have hstep' : Ledger.step linkedCrates (.append observedInput .disabled)
      ⟨store₁, { file := some bytes }, openedState, false⟩ = .ok observed := by
    rw [Ledger.step, happend']
  have hrun : Ledger.run linkedCrates openingRound.ops ⟨store, {}, .default, false⟩ =
      .ok ⟨store₁, snap₁, openedState, false⟩ := result_bind_eq_ok.mpr ⟨_, hstep, rfl⟩
  have hrun' : Ledger.run linkedCrates observingRound.ops
      ⟨store₁, { file := some bytes }, openedState, false⟩ =
        .ok ⟨store₂, observed.snap, observed.state.withPending none, false⟩ :=
    result_bind_eq_ok.mpr ⟨_, hstep', result_bind_eq_ok.mpr ⟨_, hreopen, rfl⟩⟩
  refine ⟨_, _, _, _, hopen, hrun, rfl, hend₁, congrArg Prod.snd hwrite, hrun', hstate₂, hend₂, ?_, ?_,
    ?_⟩
  · refine ⟨⟨hfits, fun _ _ => trivial⟩, fun last hlast => ?_⟩
    obtain rfl := Except.ok.inj (hrun.symm.trans hlast)
    rw [show (Ledger.writeSnapshot linkedCrates openingRound.createdAtMs
      ⟨store₁, snap₁, openedState, false⟩).2 = _ from congrArg Prod.snd hwrite]
    exact ⟨⟨hfits', fun _ _ => ⟨(by decide : (16 : UInt64) ≠ 0), fun _ _ => trivial⟩⟩,
      fun _ _ => trivial⟩
  · have halong : Ledger.recordedAlong linkedCrates openingRound.ops ⟨store, {}, .default, false⟩ =
        [openedEvent] := by
      simp only [openingRound, Ledger.recordedAlong, hstep, LedgerOp.recorded, happend]
      rfl
    have halong' : Ledger.recordedAlong linkedCrates observingRound.ops
        ⟨store₁, { file := some bytes }, openedState, false⟩ = [observedEvent] := by
      simp only [observingRound, Ledger.recordedAlong, hstep', LedgerOp.recorded, happend']
      simp only [Ledger.step, hreopen]
      rfl
    have hsnapshot : (Ledger.writeSnapshot linkedCrates openingRound.createdAtMs
        ⟨store₁, snap₁, openedState, false⟩).2 = _ := congrArg Prod.snd hwrite
    rw [recordedInRounds_cons hrun, halong, hsnapshot, recordedInRounds_cons hrun', halong',
      recordedInRounds]
  · have hhistory := hobserved.history
    rw [hstate₂] at hhistory
    exact hhistory

/-- Two checkpoints, an event and a reopening between them, and an anchor from the first. -/
theorem honest_checkpoints_verify_observed :
    ∃ fresh first second verified,
      Ledger.openWithRotation linkedCrates Root.empty 4096 = .ok fresh ∧
      takeCheckpoints linkedCheckpointCrates "snapshot.cbor" (sampleRef 0x01)
        [openingRound, observingRound] none fresh = .ok [first, second] ∧
      second.body.previousCheckpointRef = some first.manifestRef ∧
      verifyCheckpointChain linkedCheckpointCrates [first, second] sampleRegistry
        (some (first.anchor "provider" "anchor-1" 9)) 12 = .ok verified := by
  obtain ⟨fresh, opened, taken, observed, hopen, hrun, hstate, hend, htaken, hrun', hstate', hend', hfits,
    hrecorded, hhistory⟩ := exists_observed
  have hroot : IsRef (sampleRef 0x01) := isRef_digestText _
  have hunfailing : ∀ round ∈ [openingRound, observingRound], ∀ op ∈ round.ops, op.Unfailing := by
    simp [openingRound, observingRound, LedgerOp.Unfailing]
  have hfree : CollisionFree linkedCrates {body | ∃ e ∈ (recordedInRounds linkedCrates
      [openingRound, observingRound] fresh).flatten, e.body = body} := by
    rw [hrecorded]
    exact hhistory.collisionFree (by decide)
  have hseed : ∀ round ∈ [openingRound, observingRound], ∃ signerId keyId,
      CheckpointSigner.fromSeed signerId keyId round.signer.seed = .ok round.signer := by
    simp only [List.forall_mem_cons, List.not_mem_nil, false_implies, implies_true, and_true]
    exact ⟨⟨_, _, fromSeed_sampleSigner⟩, ⟨_, _, fromSeed_sampleSigner⟩⟩
  have hsigner : ∀ round ∈ [openingRound, observingRound], round.signer.signerId = "governance" := by
    simp [openingRound, observingRound, sampleSigner]
  have hissued : [openingRound, observingRound].Pairwise fun round round' =>
      round.issuedAtMs ≤ round'.issuedAtMs := by
    simp [openingRound, observingRound]
  obtain ⟨hfails, hverifies⟩ := @honest_checkpoints_verify linkedCheckpointCrates (sampleRef 0x01)
    lossless_linkedCrates rejectsTruncated_linkedCrates (fun _ => ⟨_, rfl⟩) honest_digestScheme
    "snapshot.cbor" hroot 4096 fresh hopen [openingRound, observingRound] hunfailing
    (hrecorded ▸ by simp) hfree hseed "governance" hsigner hissued
  cases htake : takeCheckpoints linkedCheckpointCrates "snapshot.cbor" (sampleRef 0x01)
    [openingRound, observingRound] none fresh with
  | error e =>
      rcases hfails e htake with ⟨-, hunfit⟩ | ⟨-, round, hround, expires, hexpires, hle⟩
      · exact absurd hfits hunfit
      · rcases List.mem_pair.mp hround with rfl | rfl <;> obtain rfl := Option.some.inj hexpires
        · exact absurd hle (by decide)
        · exact absurd hle (by decide)
  | ok manifests =>
      obtain ⟨⟨first, taken₁⟩, hfirst, hrest⟩ := result_bind_eq_ok.mp htake
      obtain ⟨later, hlater, hlist⟩ := result_bind_eq_ok.mp hrest
      obtain ⟨⟨second, taken₂⟩, hsecond, hlast⟩ := result_bind_eq_ok.mp hlater
      obtain rfl : [second] = later := Except.ok.inj hlast
      obtain rfl : [first, second] = manifests := Except.ok.inj hlist
      -- the references are those of the digests
      obtain ⟨hprojection, hsnapshot, hmanifest⟩ := digest_openedState
      obtain ⟨hprojection', hsnapshot', hmanifest'⟩ := digest_observedState
      have hhead : opened.state.headEventHash = some openedEvent.eventHash := congrArg _ hstate
      have hhead' : observed.state.headEventHash = some observedEvent.eventHash := congrArg _ hstate'
      rw [← hstate] at hprojection
      rw [← hstate, ← hend] at hsnapshot
      rw [← hstate'] at hprojection'
      rw [← hstate', ← hend'] at hsnapshot'
      obtain ⟨htaken', href⟩ :=
        CheckpointRound.manifestRef_linked hfirst hrun hhead hprojection hsnapshot
      rw [hstate, hend, show openedState.nextSequence - 1 = 1 from rfl] at href
      replace href : first.manifestRef = openedDigests.2.2 := href.trans hmanifest
      obtain rfl : taken₁ = taken := htaken'.symm.trans htaken
      obtain ⟨-, href'⟩ :=
        CheckpointRound.manifestRef_linked hsecond hrun' hhead' hprojection' hsnapshot'
      rw [hstate', hend', href, show observedState.nextSequence - 1 = 2 from rfl] at href'
      replace href' : second.manifestRef = observedDigests.2.2 := href'.trans hmanifest'
      have hunexpired : ∀ expires ∈ some (20 : UInt64), 12 ≤ expires := by
        rintro _ ⟨⟩
        decide
      have hopening : openingRound.Current linkedCheckpointCrates sampleRegistry 12 :=
        .of_sampleSigner rfl (by decide) hunexpired
      have hobserving : observingRound.Current linkedCheckpointCrates sampleRegistry 12 :=
        .of_sampleSigner rfl (by decide) hunexpired
      obtain ⟨_, _, _, -, -, -, hsign⟩ := CheckpointRound.take_eq_ok hfirst
      obtain ⟨_, _, _, -, -, -, hsign'⟩ := CheckpointRound.take_eq_ok hsecond
      have hcommitting : linkedCheckpointCrates.Committing [first, second] := by
        have husable := CheckpointSigner.usable_of_fromSeed fromSeed_sampleSigner
        refine committing_of_nodup (List.forall_mem_cons.mpr ⟨hopening.verified honest_digestScheme husable hsign,
          List.forall_mem_singleton.mpr (hobserving.verified honest_digestScheme husable hsign')⟩) ?_
        rw [List.map_cons, List.map_cons, List.map_nil, href, href']
        decide
      have hcurrent : ∀ round ∈ [openingRound, observingRound],
          round.Current linkedCheckpointCrates sampleRegistry 12 := by
        rw [List.forall_mem_cons, List.forall_mem_singleton]
        exact ⟨hopening, hobserving⟩
      have hprevious : second.body.previousCheckpointRef = some first.manifestRef := by
        obtain ⟨-, -, -, _, -, rfl⟩ := CheckpointSigner.sign_eq_ok.mp hsign'
        rfl
      obtain ⟨verified, haccepted⟩ := hverifies [first, second] htake (List.cons_ne_nil _ _) hcommitting
        sampleRegistry 12 hcurrent (some (first.anchor "provider" "anchor-1" 9)) (by
          rintro _ ⟨⟩
          exact ⟨first, List.mem_cons_self, _, _, _, by decide, by decide, rfl⟩)
      exact ⟨fresh, first, second, verified, hopen, htake, hprevious, haccepted⟩

end LiminalDB
