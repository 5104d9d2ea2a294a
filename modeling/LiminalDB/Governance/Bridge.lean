import LiminalDB.Governance.Types
import LiminalDB.Ledger.FailedAppend

/-! # `append_governance_checkpoint`

One call opens the ledger, appends the envelope, takes a snapshot, signs a checkpoint of it and makes
out a receipt. There is no transaction around this: each part leaves on disk what it has done. Here is
what a call does, what the bundle of a successful one holds (`issueBundle_eq_ok`), and that a call on a
root whose ledger accepts the envelope succeeds (`appendGovernanceCheckpoint_eq`). -/

namespace LiminalDB.Governance

/-! ## Validation -/

/-- `validate_raw_sha`: 64 lower-case hexadecimal digits, which are all zero only where that is
allowed. -/
def validateRawSha (value label : String) (allowZero : Bool) :
    Except GovernanceCheckpointBridgeError Unit :=
  let valid := (asBytes value).length == 64 && (asBytes value).all isLowerHex
  failIf (¬ valid ∨ (allowZero = false ∧ value = zeroSha256)) (.invalidField label)

/-- `validate_ref` of the bridge -/
def validateRef (value label : String) : Except GovernanceCheckpointBridgeError Unit :=
  checkRef value (.invalidField label)

/-- `u64::saturating_add(1)`: the next number, and the last one again after it. -/
def saturatingSucc (n : UInt64) : UInt64 := if n.toNat + 1 < 2 ^ 64 then n + 1 else n

/-- What each kind of transition may do, as the `match` of `validate_body` has it. -/
def validateSemantics (body : GovernanceTransitionEnvelopeBody) :
    Except GovernanceCheckpointBridgeError Unit :=
  match body.transitionKind with
  | "initialize" =>
      failIf (body.generationBefore ≠ 0 ∨ body.generationAfter ≠ 0
        ∨ body.worldBeforeSha256 ≠ zeroSha256 ∨ body.reservationSha256 ≠ zeroSha256
        ∨ body.operationSha256 ≠ zeroSha256) (.invalidField "initialize_semantics")
  | "reserve" =>
      failIf (body.generationAfter ≠ body.generationBefore
        ∨ body.worldAfterSha256 ≠ body.worldBeforeSha256 ∨ body.reservationSha256 = zeroSha256
        ∨ body.operationSha256 = zeroSha256) (.invalidField "reserve_semantics")
  | "commit" =>
      failIf (body.generationAfter ≠ saturatingSucc body.generationBefore
        ∨ body.reservationSha256 = zeroSha256 ∨ body.operationSha256 = zeroSha256)
        (.invalidField "commit_semantics")
  | "mutate" =>
      failIf (body.generationAfter ≠ saturatingSucc body.generationBefore
        ∨ body.reservationSha256 ≠ zeroSha256 ∨ body.operationSha256 ≠ zeroSha256)
        (.invalidField "mutate_semantics")
  | "reconcile" =>
      failIf (body.generationAfter ≠ saturatingSucc body.generationBefore
        ∨ body.reservationSha256 = zeroSha256 ∨ body.operationSha256 ≠ zeroSha256)
        (.invalidField "reconcile_semantics")
  | _ => .error (.invalidField "transition_kind")

/-- `validate_body`: a body is of this schema, with its hashes in their shape and its generations in
their order. -/
def validateBody (body : GovernanceTransitionEnvelopeBody) :
    Except GovernanceCheckpointBridgeError Unit := do
  failIf (body.schema ≠ governanceEnvelopeSchema) (.invalidField "schema")
  validateRawSha body.rootIdSha256 "root_id_sha256" false
  validateRawSha body.worldBeforeSha256 "world_before_sha256" true
  validateRawSha body.worldAfterSha256 "world_after_sha256" false
  validateRawSha body.reservationSha256 "reservation_sha256" true
  validateRawSha body.operationSha256 "operation_sha256" true
  validateRawSha body.upstreamReceiptSha256 "upstream_receipt_sha256" false
  validateSemantics body

variable (env : GovernanceCrates)

/-- `digest_cbor` of the bridge -/
def digestCbor {α : Type} (toVec : α → Except String Bytes) (value : α) :
    Except GovernanceCheckpointBridgeError String := do
  let bytes ← (toVec value).mapError .encoding
  return sha256Ref env.toCrates bytes

/-- `GovernanceTransitionEnvelope::build`: a valid body gets the digest that names it. -/
def buildEnvelope (body : GovernanceTransitionEnvelopeBody) :
    Except GovernanceCheckpointBridgeError GovernanceTransitionEnvelope := do
  validateBody body
  let envelopeRef ← digestCbor env env.envelopeBody body
  return ⟨body, envelopeRef⟩

/-- `GovernanceTransitionEnvelope::verify`: the body is valid, and the digest is its own. -/
def verifyEnvelope (envelope : GovernanceTransitionEnvelope) :
    Except GovernanceCheckpointBridgeError Unit := do
  validateBody envelope.body
  let digest ← digestCbor env env.envelopeBody envelope.body
  failIf (digest ≠ envelope.envelopeRef) .envelopeDigestMismatch

/-- `GovernanceCheckpointReceipt::verify`: a receipt is of this schema and status, its references have
their shape, and the digest is its own. -/
def verifyReceipt (receipt : GovernanceCheckpointReceipt) :
    Except GovernanceCheckpointBridgeError Unit := do
  failIf (receipt.body.schema ≠ governanceReceiptSchema
    ∨ receipt.body.verificationStatus ≠ verifiedStatus) (.invalidField "receipt_schema_or_status")
  validateRef receipt.body.envelopeRef "envelope_ref"
  validateRef receipt.body.eventHash "event_hash"
  validateRef receipt.body.checkpointRef "checkpoint_ref"
  validateRef receipt.body.eventChainHead "event_chain_head"
  validateRef receipt.body.projectionDigest "projection_digest"
  validateRef receipt.body.snapshotDigest "snapshot_digest"
  validateRawSha receipt.body.rootIdSha256 "root_id_sha256" false
  validateRawSha receipt.body.worldBeforeSha256 "world_before_sha256" true
  validateRawSha receipt.body.worldAfterSha256 "world_after_sha256" false
  validateRawSha receipt.body.reservationSha256 "reservation_sha256" true
  validateRawSha receipt.body.operationSha256 "operation_sha256" true
  validateRawSha receipt.body.upstreamReceiptSha256 "upstream_receipt_sha256" false
  let digest ← digestCbor env env.receiptBody receipt.body
  failIf (digest ≠ receipt.receiptRef) (.invalidField "receipt_ref")

/-! ## One call -/

/-- The record of an envelope in the ledger. -/
def eventInput (envelope : GovernanceTransitionEnvelope) : TransitionEventInput where
  transitionId := "liminalosai-governance-" ++ trimStartMatches envelope.envelopeRef "sha256:"
  subjectId := governanceSubjectId
  kind := .authorization
  recordRef := envelope.envelopeRef
  payloadDigest := envelope.envelopeRef
  links := {}
  dimensions := none
  sideEffectCommitted := none
  capturedAtMs := envelope.body.capturedAtMs

/-- The body of the receipt. -/
def receiptBody (envelope : GovernanceTransitionEnvelope) (event : TransitionEvent)
    (checkpoint : SignedCheckpointManifest) : GovernanceCheckpointReceiptBody where
  schema := governanceReceiptSchema
  envelopeRef := envelope.envelopeRef
  rootIdSha256 := envelope.body.rootIdSha256
  transitionKind := envelope.body.transitionKind
  generationBefore := envelope.body.generationBefore
  generationAfter := envelope.body.generationAfter
  worldBeforeSha256 := envelope.body.worldBeforeSha256
  worldAfterSha256 := envelope.body.worldAfterSha256
  reservationSha256 := envelope.body.reservationSha256
  operationSha256 := envelope.body.operationSha256
  upstreamReceiptSha256 := envelope.body.upstreamReceiptSha256
  eventHash := event.eventHash
  checkpointRef := checkpoint.manifestRef
  eventChainHead := checkpoint.body.eventChainHead
  lastSequence := checkpoint.body.lastSequence
  projectionDigest := checkpoint.body.projectionDigest
  snapshotDigest := checkpoint.body.snapshotDigest
  signerId := checkpoint.body.signerId
  keyId := checkpoint.body.keyId
  verificationStatus := verifiedStatus

/-- What the call checks before it opens the ledger. -/
def precheck (envelope : GovernanceTransitionEnvelope) (issuedAtMs : UInt64) :
    Except GovernanceCheckpointBridgeError Unit := do
  verifyEnvelope env envelope
  failIf (issuedAtMs < envelope.body.capturedAtMs) (.invalidField "issued_at_ms")

/-- What the call does once the snapshot is taken; nothing of it touches the disk. The checkpoint is
signed without an expiry and without a previous checkpoint. -/
def issueBundle (envelope : GovernanceTransitionEnvelope) (signer : CheckpointSigner)
    (issuedAtMs : UInt64) (event : TransitionEvent) (info : SnapshotInfo) (ledger : Ledger) :
    Except GovernanceCheckpointBridgeError GovernanceCheckpointBundle := do
  let storageRootIdentity := "sha256:" ++ envelope.body.rootIdSha256
  let material ← (ledger.checkpointMaterial env.toCrates snapshotFile storageRootIdentity
    ⟨info, snapshotFile⟩).mapError .checkpoint
  let checkpoint ← (signer.sign env.toCheckpointCrates material issuedAtMs none none).mapError
    .checkpoint
  let trustedKey := signer.trustedKey env.toCheckpointCrates 0 none none
  let registry ← (TrustedKeyRegistry.default.withKey trustedKey).mapError .checkpoint
  (verifySignedCheckpoint env.toCheckpointCrates registry issuedAtMs checkpoint).mapError .checkpoint
  let body := receiptBody envelope event checkpoint
  let receiptRef ← digestCbor env env.receiptBody body
  verifyReceipt env ⟨body, receiptRef⟩
  return ⟨envelope, ⟨body, receiptRef⟩, checkpoint, trustedKey⟩

/-- `append_governance_checkpoint`, with the stage at which the append is made to fail, and what the
call leaves on disk. A root that does not open is left as it is. -/
def appendGovernanceCheckpoint (envelope : GovernanceTransitionEnvelope) (signer : CheckpointSigner)
    (issuedAtMs : UInt64) (failpoint : AppendFailpoint) (root : Root) :
    Except GovernanceCheckpointBridgeError GovernanceCheckpointBundle × Root :=
  match precheck env envelope issuedAtMs with
  | .error e => (.error e, root)
  | .ok _ =>
      match Ledger.open env.toCrates root with
      | .error e => (.error (.ledger e), root)
      | .ok ledger =>
          match ledger.append env.toCrates (eventInput envelope) failpoint with
          | (.error e, ledger) => (.error (.ledger e), ledger.root)
          | (.ok event, ledger) =>
              match ledger.writeSnapshot env.toCrates issuedAtMs with
              | (.error e, ledger) => (.error (.ledger e), ledger.root)
              | (.ok info, ledger) =>
                  (issueBundle env envelope signer issuedAtMs event info ledger, ledger.root)

variable {env}

/-! ## What is accepted -/

/-- A raw digest, which may be all zeros only where that is allowed. -/
structure RawSha (allowZero : Bool) (value : String) : Prop where
  length : (asBytes value).length = 64
  digits : (asBytes value).all isLowerHex = true
  nonzero : allowZero = false → value ≠ zeroSha256

/-- A raw digest is accepted if it is 40 or 64 small hex digits, and not zeros only unless these are
allowed. -/
@[simp] theorem validateRawSha_eq_ok {value label : String} {allowZero : Bool} {u : Unit} :
    validateRawSha value label allowZero = .ok u ↔ RawSha allowZero value := by
  unfold validateRawSha
  rw [failIf_eq_ok, not_or, not_not, not_and]
  simp only [Bool.and_eq_true, beq_iff_eq]
  exact ⟨fun ⟨⟨hlength, hdigits⟩, hnonzero⟩ => ⟨hlength, hdigits, hnonzero⟩,
    fun h => ⟨⟨h.length, h.digits⟩, h.nonzero⟩⟩

/-- A reference is accepted exactly if it is one. -/
@[simp] theorem validateRef_eq_ok {value label : String} {u : Unit} :
    validateRef value label = .ok u ↔ IsRef value :=
  checkRef_eq_ok

/-- A raw digest behind `sha256:` is a reference. -/
theorem RawSha.isRef {allowZero : Bool} {value : String} (h : RawSha allowZero value) :
    IsRef ("sha256:" ++ value) := by
  have hbytes := asBytes_append "sha256:" value
  have hlength : (asBytes "sha256:").length = 7 := by decide +kernel
  refine ⟨?_, ?_, ?_⟩
  · rw [hbytes, List.length_append, hlength, h.length]
  · rw [String.toList_append]
    exact List.prefix_append _ _
  · rw [hbytes, List.drop_left' hlength]
    exact h.digits

/-- The digests of an envelope, as both the envelope and the receipt carry them. -/
structure Digests (body : GovernanceTransitionEnvelopeBody) : Prop where
  rootIdSha256 : RawSha false body.rootIdSha256
  worldBeforeSha256 : RawSha true body.worldBeforeSha256
  worldAfterSha256 : RawSha false body.worldAfterSha256
  reservationSha256 : RawSha true body.reservationSha256
  operationSha256 : RawSha true body.operationSha256
  upstreamReceiptSha256 : RawSha false body.upstreamReceiptSha256

/-- A body is accepted if it has the schema, its digests are digests and its meaning is one of those
allowed. -/
theorem validateBody_eq_ok {body : GovernanceTransitionEnvelopeBody} {u : Unit} :
    validateBody body = .ok u ↔
      body.schema = governanceEnvelopeSchema ∧ Digests body ∧ validateSemantics body = .ok u := by
  unfold validateBody
  simp only [result_bind_eq_ok, failIf_eq_ok, validateRawSha_eq_ok, not_not]
  constructor
  · rintro ⟨-, hschema, -, hroot, -, hbefore, -, hafter, -, hreservation, -, hoperation, -, hupstream,
      hsemantics⟩
    exact ⟨hschema, ⟨hroot, hbefore, hafter, hreservation, hoperation, hupstream⟩, hsemantics⟩
  · rintro ⟨hschema, h, hsemantics⟩
    exact ⟨(), hschema, (), h.rootIdSha256, (), h.worldBeforeSha256, (), h.worldAfterSha256, (),
      h.reservationSha256, (), h.operationSha256, (), h.upstreamReceiptSha256, hsemantics⟩

/-- A digest is that of the encoded bytes, where there are any. -/
theorem digestCbor_eq_ok {α : Type} {toVec : α → Except String Bytes} {value : α} {digest : String} :
    digestCbor env toVec value = .ok digest ↔
      ∃ bytes, toVec value = .ok bytes ∧ digest = sha256Ref env.toCrates bytes := by
  unfold digestCbor
  simp only [result_bind_eq_ok, mapError_eq_ok]
  exact exists_congr fun bytes => and_congr_right fun _ =>
    ⟨fun h => (Except.ok.inj h).symm, fun h => by rw [h]; rfl⟩

/-- What the call asks of an envelope and of the time. -/
structure Presentable (env : GovernanceCrates) (envelope : GovernanceTransitionEnvelope)
    (issuedAtMs : UInt64) : Prop where
  valid : validateBody envelope.body = .ok ()
  digest : digestCbor env env.envelopeBody envelope.body = .ok envelope.envelopeRef
  captured : envelope.body.capturedAtMs ≤ issuedAtMs

/-- The check before an append succeeds exactly if the envelope is presentable at the time. -/
theorem precheck_eq_ok {envelope : GovernanceTransitionEnvelope} {issuedAtMs : UInt64} {u : Unit} :
    precheck env envelope issuedAtMs = .ok u ↔ Presentable env envelope issuedAtMs := by
  unfold precheck verifyEnvelope
  simp only [result_bind_eq_ok, failIf_eq_ok, not_not, UInt64.not_lt]
  constructor
  · rintro ⟨⟨⟩, ⟨⟨⟩, hvalid, digest, hdigest, rfl⟩, hcaptured⟩
    exact ⟨hvalid, hdigest, hcaptured⟩
  · rintro ⟨hvalid, hdigest, hcaptured⟩
    exact ⟨(), ⟨(), hvalid, _, hdigest, rfl⟩, hcaptured⟩

/-- The receipt that is issued for an envelope, an event and a checkpoint passes its own check. -/
theorem verifyReceipt_receiptBody {envelope : GovernanceTransitionEnvelope} {event : TransitionEvent}
    {checkpoint : SignedCheckpointManifest} (henvelope : IsRef envelope.envelopeRef)
    (hdigests : Digests envelope.body) (hevent : IsRef event.eventHash)
    (hcheckpoint : IsRef checkpoint.manifestRef) (hmaterial : checkpoint.body.material.WellFormed)
    {receiptRef : String}
    (hdigest : digestCbor env env.receiptBody (receiptBody envelope event checkpoint) =
      .ok receiptRef) :
    verifyReceipt env ⟨receiptBody envelope event checkpoint, receiptRef⟩ = .ok () := by
  unfold verifyReceipt
  simp only [result_bind_eq_ok, failIf_eq_ok, validateRawSha_eq_ok, validateRef_eq_ok, not_not]
  exact ⟨(), by simp [receiptBody], (), henvelope, (), hevent, (), hcheckpoint, (),
    hmaterial.eventChainHead, (), hmaterial.projectionDigest, (), hmaterial.snapshotDigest, (),
    hdigests.rootIdSha256, (), hdigests.worldBeforeSha256, (), hdigests.worldAfterSha256, (),
    hdigests.reservationSha256, (), hdigests.operationSha256, (), hdigests.upstreamReceiptSha256,
    _, hdigest, rfl⟩

/-! ## The record of an envelope -/

/-- A hexadecimal digit does not start `sha256:` and is no blank. -/
theorem hexDigit_ne {n : Nat} (h : n < 16) : hexDigit n ≠ 's' ∧ isWhitespace (hexDigit n) = false := by
  interval_cases n <;> decide

/-- The digits of a digest, with the last one apart. -/
theorem exists_snoc_hex (digest : List.Vector UInt8 32) :
    ∃ digits n, n < 16 ∧ digest.toList.flatMap hexByte = digits ++ [hexDigit n] := by
  obtain ⟨front, b, hsnoc⟩ := List.eq_nil_or_concat' digest.toList |>.resolve_left (by
    intro hnil
    have hlength := digest.toList_length
    rw [hnil] at hlength
    cases hlength)
  have hb := b.toNat_lt
  refine ⟨front.flatMap hexByte ++ [hexDigit (b.toNat / 16)], b.toNat % 16, by omega, ?_⟩
  rw [hsnoc, List.flatMap_append]
  simp [hexByte]

/-- Without `sha256:` a reference is the digits of the digest. -/
theorem trimStartMatches_digestText (digest : List.Vector UInt8 32) :
    trimStartMatches (digestText digest) "sha256:" = encodeHex digest.toList := by
  have hchars : (digestText digest).toList =
      "sha256:".toList ++ digest.toList.flatMap hexByte := by
    rw [digestText, String.toList_append]
    exact congrArg _ String.toList_ofList
  -- the digits do not start with the pattern again
  have hdigits : "sha256:".toList.isPrefixOf (digest.toList.flatMap hexByte) = false := by
    obtain ⟨b, rest, hb⟩ := List.exists_cons_of_length_pos (l := digest.toList) (by simp)
    have hlt := b.toNat_lt
    have hne := (hexDigit_ne (n := b.toNat / 16) (by omega)).1
    have hhead : ('s' == hexDigit (b.toNat / 16)) = false := by simpa using hne.symm
    have hpattern : "sha256:".toList = 's' :: "ha256:".toList := by decide
    rw [hb, List.flatMap_cons, hexByte, List.cons_append, hpattern, List.isPrefixOf_cons_cons, hhead,
      Bool.false_and]
  have hdrop : ∀ n, dropPrefixes "sha256:".toList n (digest.toList.flatMap hexByte) =
      digest.toList.flatMap hexByte := by
    rintro (_ | n)
    · rfl
    · rw [dropPrefixes, hdigits]
      rfl
  unfold trimStartMatches encodeHex
  rw [hchars, List.length_append, show "sha256:".toList.length = 6 + 1 from rfl, Nat.add_right_comm,
    dropPrefixes, if_pos (List.isPrefixOf_iff_prefix.mpr (List.prefix_append _ _)), List.drop_left,
    hdrop]

section EventInput

variable {envelope : GovernanceTransitionEnvelope} {digest : List.Vector UInt8 32}

/-- The transition of an envelope is named after the digest of the envelope. -/
theorem eventInput_transitionId (h : envelope.envelopeRef = digestText digest) :
    (eventInput envelope).transitionId = "liminalosai-governance-" ++ encodeHex digest.toList := by
  have htid : (eventInput envelope).transitionId =
      "liminalosai-governance-" ++ trimStartMatches envelope.envelopeRef "sha256:" := rfl
  rw [htid, h, trimStartMatches_digestText]

/-- Different envelopes open different transitions. -/
theorem digest_eq_of_transitionId_eq {other : GovernanceTransitionEnvelope}
    {digest' : List.Vector UInt8 32} (h : envelope.envelopeRef = digestText digest)
    (h' : other.envelopeRef = digestText digest')
    (heq : (eventInput envelope).transitionId = (eventInput other).transitionId) :
    digest = digest' := by
  rw [eventInput_transitionId h, eventInput_transitionId h'] at heq
  have hchars := congrArg String.toList heq
  rw [String.toList_append, String.toList_append] at hchars
  have hhex : encodeHex digest.toList = encodeHex digest'.toList :=
    String.toList_injective (List.append_cancel_left hchars)
  have hbytes := congrArg decodeHexBytes hhex
  rw [decodeHexBytes_encodeHex, decodeHexBytes_encodeHex] at hbytes
  exact List.Vector.toList_injective (Option.some.inj hbytes)

/-- The transition of an envelope has no blanks at its ends. -/
theorem isIdentifier_transitionId (h : envelope.envelopeRef = digestText digest) :
    IsIdentifier (eventInput envelope).transitionId := by
  obtain ⟨digits, n, hn, hsnoc⟩ := exists_snoc_hex digest
  have hfront : "liminalosai-governance-".toList = 'l' :: "iminalosai-governance-".toList := by decide
  have hchars : (eventInput envelope).transitionId.toList =
      'l' :: ("iminalosai-governance-".toList ++ digits) ++ [hexDigit n] := by
    have hhex : (encodeHex digest.toList).toList = digits ++ [hexDigit n] :=
      String.toList_ofList.trans hsnoc
    rw [eventInput_transitionId h, String.toList_append, hhex, hfront, List.cons_append,
      List.cons_append, List.append_assoc]
  generalize (eventInput envelope).transitionId = tid at hchars ⊢
  constructor
  · rintro rfl
    cases hchars
  · rw [trim, hchars, List.cons_append, List.dropWhile_cons_of_neg (by decide), ← List.cons_append,
      List.rdropWhile_concat_neg _ _ _ (by simp [(hexDigit_ne hn).2]), ← hchars, String.ofList_toList]

/-- The record of an envelope is canonical. -/
theorem canonical_eventInput (h : envelope.envelopeRef = digestText digest) :
    Canonical (eventInput envelope) where
  transitionId := isIdentifier_transitionId h
  subjectId := by
    show IsIdentifier governanceSubjectId
    exact ⟨by decide, by decide +kernel⟩
  recordRef := by
    show IsRef envelope.envelopeRef
    rw [h]
    exact isRef_digestText digest
  payloadDigest := by
    show IsRef envelope.envelopeRef
    rw [h]
    exact isRef_digestText digest
  refs := nofun
  observationRefs := rfl
  dimensions := nofun

end EventInput

/-! ## The bundle -/

section Bundle

variable {envelope : GovernanceTransitionEnvelope} {signer : CheckpointSigner} {issuedAtMs : UInt64}
  {event : TransitionEvent} {info : SnapshotInfo} {ledger : Ledger}

/-- The checkpoint of a bundle is signed by the signer, names no previous one, and verifies with the
key of the bundle. -/
structure Issued (env : GovernanceCrates) (signer : CheckpointSigner) (issuedAtMs : UInt64)
    (bundle : GovernanceCheckpointBundle) : Prop where
  trustedKey : bundle.trustedKey = signer.trustedKey env.toCheckpointCrates 0 none none
  signed : ∃ material, signer.sign env.toCheckpointCrates material issuedAtMs none none =
    .ok bundle.checkpoint
  verified : ∃ registry, TrustedKeyRegistry.default.withKey bundle.trustedKey = .ok registry ∧
    Verified env.toCheckpointCrates registry issuedAtMs bundle.checkpoint

/-- A bundle that was issued has the parts that an issued bundle has. -/
theorem issued_of_issueBundle {bundle : GovernanceCheckpointBundle}
    (h : issueBundle env envelope signer issuedAtMs event info ledger = .ok bundle) :
    Issued env signer issuedAtMs bundle := by
  unfold issueBundle at h
  simp only [result_bind_eq_ok, mapError_eq_ok, verifySignedCheckpoint_eq_ok] at h
  obtain ⟨material, -, checkpoint, hsign, registry, hregistry, -, hverified, receiptRef, -, -, -,
    hbundle⟩ := h
  obtain rfl := Except.ok.inj hbundle
  exact ⟨rfl, ⟨material, hsign⟩, registry, hregistry, hverified⟩

/-- The key of a usable signer can be registered. -/
theorem withKey_trustedKey (hsigner : signer.Usable) :
    ∃ registry, TrustedKeyRegistry.default.withKey
        (signer.trustedKey env.toCheckpointCrates 0 none none) = .ok registry ∧
      registry.get signer.signerId signer.keyId =
        some (signer.trustedKey env.toCheckpointCrates 0 none none) := by
  refine ⟨_, result_bind_eq_ok.mpr ⟨(), ?_, rfl⟩, Std.ExtTreeMap.getElem?_insert_self⟩
  unfold validateTrustedKey
  simp only [result_bind_eq_ok, normalized_eq_ok, failIf_eq_ok]
  exact ⟨_, ⟨hsigner.signerId, rfl⟩, _, ⟨hsigner.keyId, rfl⟩, _, decodeFixed_encodeHex _ _,
    by simp [CheckpointSigner.trustedKey]⟩

/-- **A bundle is issued** for every envelope whose event is the head of the ledger that the snapshot
reported. -/
theorem issueBundle_isOk (henv : env.Sound) (hsigner : signer.Usable)
    (henvelope : Presentable env envelope issuedAtMs) {reported : Ledger}
    (hreports : info.Reports env.toCrates reported) (hstate : ledger.state = reported.state)
    (hhead : reported.state.headEventHash = some event.eventHash) (hheadRef : IsRef event.eventHash)
    (hcount : reported.state.nextSequence - 1 ≠ 0) :
    ∃ bundle, issueBundle env envelope signer issuedAtMs event info ledger = .ok bundle ∧
      bundle.envelope = envelope := by
  obtain ⟨-, hdigests, -⟩ := validateBody_eq_ok.mp henvelope.valid
  have hmaterial := hreports.checkpointMaterial hstate hhead hheadRef hdigests.rootIdSha256.isRef
    snapshotFile
  have hwell := hreports.wellFormed_material hdigests.rootIdSha256.isRef hheadRef hcount
  obtain ⟨checkpoint, hsign, hmanifestRef, hbody⟩ := signer.sign_isOk henv.manifestBody hwell
    (by simp : ∀ expires ∈ (none : Option UInt64), issuedAtMs < expires)
    (by simp : ∀ reference ∈ (none : Option String), IsRef reference)
  obtain ⟨registry, hregistry, hget⟩ := withKey_trustedKey hsigner
  have hverified := CheckpointSigner.verified_of_sign henv.honest hsign hsigner.signerId hsigner.keyId
    hget rfl (signer.activeAt_trustedKey issuedAtMs) (UInt64.le_refl _) (by simp)
  obtain ⟨receipt, hreceipt⟩ := henv.receiptBody (receiptBody envelope event checkpoint)
  have hdigest : digestCbor env env.receiptBody (receiptBody envelope event checkpoint) =
      .ok (sha256Ref env.toCrates receipt) := digestCbor_eq_ok.mpr ⟨receipt, hreceipt, rfl⟩
  obtain ⟨_, -, henvelopeRef⟩ := digestCbor_eq_ok.mp henvelope.digest
  have hverify := verifyReceipt_receiptBody (henvelopeRef ▸ isRef_sha256Ref _ _) hdigests hheadRef
    hmanifestRef (by rw [hbody]; exact hwell) hdigest
  refine ⟨⟨envelope, ⟨receiptBody envelope event checkpoint, sha256Ref env.toCrates receipt⟩,
    checkpoint, signer.trustedKey env.toCheckpointCrates 0 none none⟩, ?_, rfl⟩
  unfold issueBundle
  simp only [result_bind_eq_ok, mapError_eq_ok, verifySignedCheckpoint_eq_ok]
  exact ⟨_, hmaterial, _, hsign, registry, hregistry, (), hverified, _, hdigest, (), hverify, rfl⟩

end Bundle

/-! ## The call -/

section Call

variable {envelope : GovernanceTransitionEnvelope} {signer : CheckpointSigner} {issuedAtMs : UInt64}
  {failpoint : AppendFailpoint} {root : Root}

/-- A bundle that is returned was issued. -/
theorem issued_of_append {bundle : GovernanceCheckpointBundle}
    (h : (appendGovernanceCheckpoint env envelope signer issuedAtMs failpoint root).1 = .ok bundle) :
    Issued env signer issuedAtMs bundle := by
  unfold appendGovernanceCheckpoint at h
  split at h
  · cases h
  split at h
  · cases h
  split at h
  · cases h
  split at h
  · cases h
  exact issued_of_issueBundle h

/-- Only an envelope that its ledger accepts gets a bundle. -/
theorem prepared_of_append {bundle : GovernanceCheckpointBundle}
    (h : (appendGovernanceCheckpoint env envelope signer issuedAtMs failpoint root).1 = .ok bundle) :
    ∃ ledger event candidate, Ledger.open env.toCrates root = .ok ledger ∧
      prepareEvent env.toCrates (eventInput envelope) ledger.state = .ok (event, candidate) := by
  unfold appendGovernanceCheckpoint at h
  split at h
  · cases h
  split at h
  · cases h
  rename_i ledger hopen
  split at h
  · cases h
  rename_i event ledger' happend
  obtain ⟨candidate, hprep, -⟩ := Ledger.prepared_of_append (congrArg Prod.fst happend)
  exact ⟨ledger, event, candidate, hopen, hprep⟩

/-- **One call.** On a root that opens as a ledger which accepts the envelope, the call returns a bundle,
and the root then holds the event. -/
theorem appendGovernanceCheckpoint_eq (henv : env.Sound) (hsigner : signer.Usable)
    (henvelope : Presentable env envelope issuedAtMs) {ledger : Ledger}
    (hopen : Ledger.open env.toCrates root = .ok ledger) (hp : ledger.poisoned = false)
    {img : WalImage} {events : List TransitionEvent}
    (hledger : Recovers env.toCrates ledger img events none) {event : TransitionEvent}
    {candidate : LedgerState}
    (hprep : prepareEvent env.toCrates (eventInput envelope) ledger.state = .ok (event, candidate))
    {bytes : Bytes} (hbytes : env.event.toVec event = .ok bytes) (hlen : bytes.length < 2 ^ 32) :
    ∃ bundle last img', appendGovernanceCheckpoint env envelope signer issuedAtMs .disabled root =
        (.ok bundle, last.root) ∧ bundle.envelope = envelope ∧ last.state = candidate ∧
      Recovers env.toCrates last img' (events ++ [event]) none := by
  obtain ⟨-, hacc, rfl⟩ := prepareEvent_eq_ok.mp hprep
  obtain ⟨after, happend, -, hstate, hafter⟩ := hledger.append_ok hp hprep hbytes hlen
  obtain ⟨file, info, hwrite, hver⟩ := after.writeSnapshot_eq henv.lossless issuedAtMs
  have hhead : after.state.headEventHash = some event.eventHash := by
    rw [hstate]
    rfl
  have hcount : after.state.nextSequence - 1 ≠ 0 := by
    have hpos := hledger.history.invariant.sequence_owners
    rw [hstate, LedgerState.advance_nextSequence]
    omega
  obtain ⟨bundle, hbundle, hof⟩ := issueBundle_isOk henv hsigner henvelope
    (Ledger.writeSnapshot_reports hwrite)
    (rfl : { after with snap := { file := some file } : Ledger }.state = after.state) hhead
    (isRef_of_digestCbor hacc.hash) hcount
  refine ⟨bundle, { after with snap := { file := some file } }, _, ?_, hof, hstate,
    hafter.withSnapshot hver⟩
  have hprecheck : precheck env envelope issuedAtMs = .ok () := precheck_eq_ok.mpr henvelope
  unfold appendGovernanceCheckpoint
  simp only [hprecheck, hopen, happend, hwrite, hbundle]

end Call

end LiminalDB.Governance
