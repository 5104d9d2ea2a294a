import LiminalDB.Governance.Bridge

/-! # The checkpoints of successive calls

`verify_checkpoint_chain` asks every manifest but the first for the reference of the one before it. The
bridge signs each checkpoint without a previous reference, so the checkpoints of two or more calls are
never a chain (`governance_chain_verifies_iff`). -/

namespace LiminalDB.Governance

/-- The arguments of a call that change from one to the next. -/
structure Call where
  envelope : GovernanceTransitionEnvelope
  issuedAtMs : UInt64

/-- Calls one after the other on the same root with the same signer, up to the first that fails. -/
def appendAll (env : GovernanceCrates) (signer : CheckpointSigner) :
    List Call → Root →
      Except GovernanceCheckpointBridgeError (List GovernanceCheckpointBundle × Root)
  | [], root => .ok ([], root)
  | call :: calls, root =>
      match appendGovernanceCheckpoint env call.envelope signer call.issuedAtMs .disabled root with
      | (.error e, _) => .error e
      | (.ok bundle, root') => do
          let (bundles, last) ← appendAll env signer calls root'
          return (bundle :: bundles, last)

variable {env : GovernanceCrates} {signer : CheckpointSigner}

/-- Calls succeed if the first does, and the others do after it. -/
theorem appendAll_cons_eq_ok {call : Call} {calls : List Call} {root last : Root}
    {bundles : List GovernanceCheckpointBundle} :
    appendAll env signer (call :: calls) root = .ok (bundles, last) ↔
      ∃ bundle root' rest, appendGovernanceCheckpoint env call.envelope signer call.issuedAtMs
          .disabled root = (.ok bundle, root') ∧
        appendAll env signer calls root' = .ok (rest, last) ∧ bundles = bundle :: rest := by
  rw [appendAll]
  cases appendGovernanceCheckpoint env call.envelope signer call.issuedAtMs .disabled root with
  | mk result root' =>
      cases result with
      | error e => simp
      | ok bundle =>
          simp only [result_bind_eq_ok, Prod.mk.injEq, Except.ok.injEq]
          constructor
          · rintro ⟨⟨rest, last'⟩, hrest, hpair⟩
            obtain ⟨rfl, rfl⟩ := Prod.mk.inj (Except.ok.inj hpair)
            exact ⟨bundle, root', rest, ⟨rfl, rfl⟩, hrest, rfl⟩
          · rintro ⟨_, _, rest, ⟨rfl, rfl⟩, hrest, rfl⟩
            exact ⟨(rest, last), hrest, rfl⟩

/-- Every call issued its bundle. -/
theorem issued_of_appendAll {calls : List Call} {root last : Root}
    {bundles : List GovernanceCheckpointBundle}
    (h : appendAll env signer calls root = .ok (bundles, last)) :
    List.Forall₂ (fun call bundle => Issued env signer call.issuedAtMs bundle) calls bundles := by
  induction calls generalizing root bundles with
  | nil =>
      obtain ⟨rfl, -⟩ := Prod.mk.inj (Except.ok.inj h)
      exact .nil
  | cons call calls ih =>
      obtain ⟨bundle, root', rest, hcall, hrest, rfl⟩ := appendAll_cons_eq_ok.mp h
      exact .cons (issued_of_append (congrArg Prod.fst hcall)) (ih hrest)

/-! ## One bundle -/

section Issued

variable {issuedAtMs : UInt64} {bundle : GovernanceCheckpointBundle}

/-- The checkpoint of an issued bundle names its signer and no predecessor. -/
theorem Issued.body_eq (h : Issued env signer issuedAtMs bundle) :
    bundle.checkpoint.body.signerId = signer.signerId ∧
      bundle.checkpoint.body.keyId = signer.keyId ∧
      bundle.checkpoint.body.previousCheckpointRef = none := by
  obtain ⟨material, hsign⟩ := h.signed
  obtain ⟨-, -, -, message, -, hcheckpoint⟩ := CheckpointSigner.sign_eq_ok.mp hsign
  rw [hcheckpoint]
  exact ⟨rfl, rfl, rfl⟩

/-- The checkpoint verifies with every registry that holds its key. -/
theorem Issued.verified_of_get (h : Issued env signer issuedAtMs bundle)
    {registry : TrustedKeyRegistry}
    (hget : registry.get bundle.trustedKey.signerId bundle.trustedKey.keyId =
      some bundle.trustedKey) :
    Verified env.toCheckpointCrates registry issuedAtMs bundle.checkpoint := by
  obtain ⟨hsignerId, hkeyId, -⟩ := h.body_eq
  obtain ⟨own, hwith, hverified⟩ := h.verified
  obtain ⟨-, -, hown⟩ := result_bind_eq_ok.mp hwith
  obtain rfl := Except.ok.inj hown
  obtain ⟨message, key, hmessage, href, hkey, hactive, hsignature⟩ := hverified.signed
  rw [h.trustedKey] at hget hkey
  rw [hsignerId, hkeyId] at hkey
  obtain rfl : signer.trustedKey env.toCheckpointCrates 0 none none = key :=
    Option.some.inj (Std.ExtTreeMap.getElem?_insert_self.symm.trans hkey)
  refine ⟨hverified.wellFormed, hverified.algorithm, hverified.issuedAtMs, hverified.expiresAtMs,
    message, _, hmessage, href, ?_, hactive, hsignature⟩
  rw [hsignerId, hkeyId]
  exact hget

end Issued

/-! ## The chain -/

/-- A checkpoint of the bridge follows no other one: it names no previous one. -/
theorem not_chainAccepted {issuedAtMs nowMs : UInt64} {first : SignedCheckpointManifest}
    {bundle : GovernanceCheckpointBundle} {rest : List SignedCheckpointManifest}
    {registry : TrustedKeyRegistry} {latestAnchor : Option ExternalAnchor}
    (h : Issued env signer issuedAtMs bundle) :
    ¬ ChainAccepted env.toCheckpointCrates (first :: bundle.checkpoint :: rest) registry latestAnchor
      nowMs := by
  intro haccepted
  have hlinked := (List.isChain_cons_cons.mp haccepted.follows).1.previousRef
  rw [h.body_eq.2.2] at hlinked
  cases hlinked

/-- The anchor pins one of the bundles. -/
def AnchorOf (bundles : List GovernanceCheckpointBundle) (anchor : ExternalAnchor) : Prop :=
  ∃ bundle ∈ bundles, ∃ providerProfile anchorId anchoredAtMs, NotBlank providerProfile ∧
    NotBlank anchorId ∧ anchor = bundle.checkpoint.anchor providerProfile anchorId anchoredAtMs

/-- **The checkpoints of successive calls verify as a chain exactly if there is one call**, without an
anchor and with an anchor from any of the bundles alike. -/
theorem governance_chain_verifies_iff {calls : List Call} {root after : Root}
    {bundles : List GovernanceCheckpointBundle} {last : Call} {registry : TrustedKeyRegistry}
    {latestAnchor : Option ExternalAnchor}
    (hcalls : appendAll env signer calls root = .ok (bundles, after))
    (hlast : calls.getLast? = some last)
    (hregistry : ∀ bundle ∈ bundles,
      registry.get bundle.trustedKey.signerId bundle.trustedKey.keyId = some bundle.trustedKey)
    (hanchor : ∀ anchor ∈ latestAnchor, AnchorOf bundles anchor) :
    (∃ verified, verifyCheckpointChain env.toCheckpointCrates (bundles.map (·.checkpoint)) registry
        latestAnchor last.issuedAtMs = .ok verified) ↔ calls.length = 1 := by
  rw [verifyCheckpointChain_isOk]
  cases issued_of_appendAll hcalls with
  | nil => cases hlast
  | @cons first bundle rest bundles hfirst hrest =>
      cases hrest with
      | nil =>
          obtain rfl : first = last := Option.some.inj hlast
          refine iff_of_true ?_ rfl
          have hverified := hfirst.verified_of_get (hregistry bundle (List.mem_singleton_self _))
          refine chainAccepted_singleton hverified fun anchor hmem => ?_
          obtain ⟨_, hbundle, provider, id, at_, hprovider, hid, rfl⟩ := hanchor anchor hmem
          obtain rfl := List.mem_singleton.mp hbundle
          exact ⟨hverified.wellFormed_anchor hprovider hid, SignedCheckpointManifest.pins_anchor⟩
      | @cons second next _ _ hsecond _ =>
          exact iff_of_false (not_chainAccepted hsecond) (by simp)

/-! ### A reservation and its commit -/

/-- A digest of one digit. -/
def sampleSha (digit : Char) : String := String.ofList (List.replicate 64 digit)

/-- A reservation. -/
def reserveBody : GovernanceTransitionEnvelopeBody where
  schema := governanceEnvelopeSchema
  rootIdSha256 := sampleSha '1'
  transitionKind := "reserve"
  generationBefore := 0
  generationAfter := 0
  worldBeforeSha256 := sampleSha '2'
  worldAfterSha256 := sampleSha '2'
  reservationSha256 := sampleSha '4'
  operationSha256 := sampleSha '5'
  upstreamReceiptSha256 := sampleSha '6'
  capturedAtMs := 10

/-- The commit of the same operation. -/
def commitBody : GovernanceTransitionEnvelopeBody :=
  { reserveBody with
    transitionKind := "commit"
    generationAfter := 1
    worldAfterSha256 := sampleSha '3' }

/-- The envelope of a body. -/
def envelopeOf (body : GovernanceTransitionEnvelopeBody) : GovernanceTransitionEnvelope :=
  ⟨body, sha256Ref linkedCrates (Codec.envelopeBody.enc body)⟩

/-- An envelope that was made for a valid body may be presented from its capture on. -/
theorem presentable_envelopeOf {body : GovernanceTransitionEnvelopeBody} {issuedAtMs : UInt64}
    (hvalid : validateBody body = .ok ()) (hcaptured : body.capturedAtMs ≤ issuedAtMs) :
    Presentable linkedGovernanceCrates (envelopeOf body) issuedAtMs :=
  ⟨hvalid, digestCbor_eq_ok.mpr ⟨_, rfl, rfl⟩, hcaptured⟩

/-- The body that reserves a budget is valid. -/
theorem validateBody_reserveBody : validateBody reserveBody = .ok () := by decide +kernel

/-- So is the one that commits it. -/
theorem validateBody_commitBody : validateBody commitBody = .ok () := by decide +kernel

/-- The record of an envelope fits its frame. -/
theorem fits_eventInput {ledger : Ledger} (hseq : ledger.state.nextSequence < 2 ^ 64)
    (body : GovernanceTransitionEnvelopeBody) (failpoint : AppendFailpoint) :
    (LedgerOp.append (eventInput (envelopeOf body)) failpoint).Fits linkedCrates ledger := by
  have href : (envelopeOf body).envelopeRef =
      digestText (linkedCrates.sha256 (Codec.envelopeBody.enc body)) := rfl
  refine fits_of_opens (canonical_eventInput href) ⟨rfl, rfl⟩ rfl rfl hseq ?_ failpoint
  rw [eventInput_transitionId href]
  generalize linkedCrates.sha256 (Codec.envelopeBody.enc body) = digest
  have htid : (asBytes ("liminalosai-governance-" ++ encodeHex digest.toList)).length = 87 := by
    rw [asBytes_append, List.length_append, length_asBytes_encodeHex, digest.toList_length]
    decide +kernel
  have hsubject : (Codec.text.enc governanceSubjectId).length = 32 := by decide +kernel
  have hhead := length_encHead_le (by decide : 87 < 2 ^ 64) 3
  show (encHead 3 (asBytes _).length ++ asBytes _).length
    + (Codec.text.enc governanceSubjectId).length < 2 ^ 31
  rw [List.length_append, htid, hsubject]
  omega

/-- The sample signer has ids that manifests may carry. -/
theorem usable_sampleSigner : sampleSigner.Usable := ⟨by decide, by decide⟩

/-- A call with a new envelope on a root that opens. -/
theorem exists_bundle {root : Root} {ledger : Ledger} {img : WalImage} {events : List TransitionEvent}
    (hopen : Ledger.open linkedCrates root = .ok ledger) (hp : ledger.poisoned = false)
    (hledger : Recovers linkedCrates ledger img events none)
    {body : GovernanceTransitionEnvelopeBody} {issuedAtMs : UInt64}
    (hvalid : validateBody body = .ok ()) (hcaptured : body.capturedAtMs ≤ issuedAtMs)
    (hfresh : ledger.state.recordOwners[(envelopeOf body).envelopeRef]? = none)
    (hnew : ledger.state.projections[(eventInput (envelopeOf body)).transitionId]? = none)
    (hseq : ledger.state.nextSequence < 2 ^ 64) :
    ∃ bundle last img' event, appendGovernanceCheckpoint linkedGovernanceCrates (envelopeOf body)
        sampleSigner issuedAtMs .disabled root = (.ok bundle, last.root) ∧
      event.body.input = eventInput (envelopeOf body) ∧ last.state = ledger.state.advance event ∧
      Recovers linkedCrates last img' (events ++ [event]) none := by
  have hadm : Admits ledger.state (eventInput (envelopeOf body)) := by
    refine ⟨canonical_eventInput rfl, hfresh, ?_⟩
    rw [hnew]
    exact ⟨rfl, rfl⟩
  obtain ⟨event, hinput, -, hprep⟩ :=
    hledger.history.prepareEvent_of_admits lossless_linkedCrates hadm
  have hlen := fits_eventInput hseq body .disabled hp event _ _ hprep rfl
  obtain ⟨bundle, last, img', hcall, -, hstate, hlast⟩ := appendGovernanceCheckpoint_eq
    sound_linkedGovernanceCrates usable_sampleSigner (presentable_envelopeOf hvalid hcaptured) hopen hp
    hledger hprep rfl hlen
  exact ⟨bundle, last, img', event, hcall, hinput, hstate, hlast⟩

/-- The two envelopes are different. -/
theorem sha256_reserveBody_ne_commitBody : linkedCrates.sha256 (Codec.envelopeBody.enc reserveBody) ≠
    linkedCrates.sha256 (Codec.envelopeBody.enc commitBody) :=
  Sha256.digest_ne (by decide +kernel)

/-- The reservation is the first call on a new root. -/
theorem exists_reservation : ∃ bundle last img event,
    appendGovernanceCheckpoint linkedGovernanceCrates (envelopeOf reserveBody) sampleSigner 11 .disabled
        Root.empty = (.ok bundle, last.root) ∧
      event.body.input = eventInput (envelopeOf reserveBody) ∧
      last.state = LedgerState.default.advance event ∧ Recovers linkedCrates last img [event] none := by
  obtain ⟨store, -, -, hopen⟩ :=
    Ledger.openWithRotation_empty lossless_linkedCrates (by decide : defaultSegmentSize ≠ 0)
  obtain ⟨fresh, hopen', hp, hfresh⟩ :=
    recovers_fresh lossless_linkedCrates (by decide : defaultSegmentSize ≠ 0)
  obtain rfl := Except.ok.inj (hopen.symm.trans hopen')
  exact exists_bundle hopen hp hfresh validateBody_reserveBody (by decide) rfl rfl
    (by decide : 1 < 2 ^ 64)

/-- The registry holds the key of the bundle. -/
theorem get_trustedKey {issuedAtMs : UInt64} {bundle : GovernanceCheckpointBundle}
    (h : Issued linkedGovernanceCrates sampleSigner issuedAtMs bundle) :
    sampleRegistry.get bundle.trustedKey.signerId bundle.trustedKey.keyId =
      some bundle.trustedKey := by
  rw [h.trustedKey]
  exact get_sampleRegistry

/-- The chain of one reservation. -/
theorem governance_chain_verifies_reservation :
    ∃ bundle after verified,
      appendAll linkedGovernanceCrates sampleSigner [⟨envelopeOf reserveBody, 11⟩] Root.empty =
        .ok ([bundle], after) ∧
      verifyCheckpointChain linkedCheckpointCrates [bundle.checkpoint] sampleRegistry none 11 =
        .ok verified := by
  obtain ⟨bundle, last, -, -, hcall, -⟩ := exists_reservation
  have hcalls : appendAll linkedGovernanceCrates sampleSigner [⟨envelopeOf reserveBody, 11⟩]
      Root.empty = .ok ([bundle], last.root) :=
    appendAll_cons_eq_ok.mpr ⟨bundle, last.root, [], hcall, rfl, rfl⟩
  obtain ⟨verified, hverified⟩ := (governance_chain_verifies_iff hcalls
    (rfl : [(⟨envelopeOf reserveBody, 11⟩ : Call)].getLast? = some ⟨envelopeOf reserveBody, 11⟩)
    (List.forall_mem_singleton.mpr (get_trustedKey (issued_of_append (congrArg Prod.fst hcall))))
    (nofun : ∀ anchor ∈ (none : Option ExternalAnchor), AnchorOf [bundle] anchor)).mpr rfl
  exact ⟨bundle, last.root, verified, hcalls, hverified⟩

/-- A reservation and its commit: both calls succeed, and the two checkpoints are not a chain. -/
theorem governance_chain_rejected :
    ∃ reserved committed after,
      appendAll linkedGovernanceCrates sampleSigner
        [⟨envelopeOf reserveBody, 11⟩, ⟨envelopeOf commitBody, 12⟩] Root.empty =
        .ok ([reserved, committed], after) ∧
      ∀ verified, verifyCheckpointChain linkedCheckpointCrates
        [reserved.checkpoint, committed.checkpoint] sampleRegistry none 12 ≠ .ok verified := by
  obtain ⟨reserved, first, img, event, hreserve, hinput, hstate, hfirst⟩ := exists_reservation
  have hrecord : event.body.recordRef = (envelopeOf reserveBody).envelopeRef :=
    congrArg (·.recordRef) hinput
  -- the ledger is opened again for the commit
  obtain ⟨store, hopen, -⟩ := hfirst.reopen_of_synced lossless_linkedCrates hfirst.synced
    (by decide : defaultSegmentSize ≠ 0)
  have hledger := hfirst.reopen lossless_linkedCrates (by decide) hopen
  have hfresh : first.state.recordOwners[(envelopeOf commitBody).envelopeRef]? = none := by
    rw [hfirst.history.fresh_iff, List.forall_mem_singleton, hrecord]
    exact fun heq => sha256_reserveBody_ne_commitBody (digestText_injective heq)
  have hnew : first.state.projections[(eventInput (envelopeOf commitBody)).transitionId]? = none := by
    have htid : event.body.transitionId = (eventInput (envelopeOf reserveBody)).transitionId :=
      congrArg (·.transitionId) hinput
    have hne : (eventInput (envelopeOf commitBody)).transitionId ≠ event.body.transitionId := by
      rw [htid]
      exact fun heq => sha256_reserveBody_ne_commitBody (digest_eq_of_transitionId_eq rfl rfl heq.symm)
    rw [hstate, LedgerState.advance_projection_of_ne _ _ hne]
    rfl
  have hseq : first.state.nextSequence < 2 ^ 64 := by
    rw [hstate]
    exact (by decide : 2 < 2 ^ 64)
  obtain ⟨committed, last, -, -, hcommit, -⟩ := exists_bundle hopen rfl hledger
    validateBody_commitBody (by decide : commitBody.capturedAtMs ≤ 12) hfresh hnew hseq
  refine ⟨reserved, committed, last.root, appendAll_cons_eq_ok.mpr ⟨reserved, first.root, [committed],
    hreserve, appendAll_cons_eq_ok.mpr ⟨committed, last.root, [], hcommit, rfl, rfl⟩, rfl⟩,
    fun verified hverified => ?_⟩
  exact not_chainAccepted (issued_of_append (congrArg Prod.fst hcommit))
    (verifyCheckpointChain_isOk.mp ⟨verified, hverified⟩)

end LiminalDB.Governance
