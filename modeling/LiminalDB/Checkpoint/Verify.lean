import LiminalDB.Checkpoint.Types
import LiminalDB.Foundations.HashChain
import Mathlib.Data.Prod.Lex

/-! # Signing and verifying checkpoints

`CheckpointSigner::sign`, `verify_signed_checkpoint` and `verify_checkpoint_chain`. Each validation
of the source has its `_eq_ok` lemma; `Verified` is what one manifest must satisfy to be accepted,
`Succeeds` what two neighbours must, and `verifyCheckpointChain_eq_ok` puts them together. -/

namespace LiminalDB

/-! ## Validation -/

/-- `normalized`: a field without the blanks around it, which must not be empty then. -/
def normalized (value : String) (label : String) : Except CheckpointError String :=
  let normalized := trim value
  if normalized.isEmpty then .error (.invalidField label) else .ok normalized

/-- `validate_ref` of `checkpoint.rs` -/
def validateCheckpointRef (reference : String) (label : String) : Except CheckpointError Unit :=
  checkRef reference (.invalidReference label)

/-- `validate_material`: what a checkpoint says of a ledger has the shape that its fields ask for. -/
def validateMaterial (material : CheckpointMaterial) : Except CheckpointError Unit := do
  let _ ← normalized material.ledgerProfile "ledger_profile"
  validateCheckpointRef material.storageRootIdentity "storage_root_identity"
  validateCheckpointRef material.eventChainHead "event_chain_head"
  validateCheckpointRef material.projectionDigest "projection_digest"
  validateCheckpointRef material.snapshotDigest "snapshot_digest"
  failIf (material.lastSequence = 0) (.invalidField "last_sequence")

/-- The test both `sign` and `validate_manifest_body` make of an expiry. -/
def validateExpiry (issuedAtMs : UInt64) (expiresAtMs : Option UInt64) :
    Except CheckpointError Unit :=
  failIf (∃ expires ∈ expiresAtMs, expires ≤ issuedAtMs) .invalidExpiry

/-- The test both `sign` and `validate_manifest_body` make of a previous reference. -/
def validatePreviousRef (previousCheckpointRef : Option String) : Except CheckpointError Unit :=
  match previousCheckpointRef with
  | some reference => validateCheckpointRef reference "previous_checkpoint_ref"
  | none => .ok ()

/-- `validate_manifest_body`: a body is of this schema, with material, signer, key and times in their
shape. -/
def validateManifestBody (body : CheckpointManifestBody) : Except CheckpointError Unit := do
  failIf (body.schema ≠ checkpointSchema ∨ body.checkpointProfile ≠ checkpointProfile)
    (.invalidField "schema_or_profile")
  validateMaterial body.material
  let _ ← normalized body.signerId "signer_id"
  let _ ← normalized body.keyId "key_id"
  validateExpiry body.issuedAtMs body.expiresAtMs
  validatePreviousRef body.previousCheckpointRef

/-- `decode_hex`: the bytes of a hexadecimal text, or an error that names the field. -/
def decodeHex (value : String) (label : String) : Except CheckpointError Bytes :=
  okOr (decodeHexBytes value) (.invalidHex label)

/-- `try_into` of a byte string to an array. -/
def toArray (n : Nat) (bytes : Bytes) : Option (List.Vector UInt8 n) :=
  if h : bytes.length = n then some ⟨bytes, h⟩ else none

/-- `decode_fixed`: as many bytes as the field has to have. -/
def decodeFixed (n : Nat) (value : String) (label : String) :
    Except CheckpointError (List.Vector UInt8 n) := do
  let bytes ← decodeHex value label
  okOr (toArray n bytes) (.invalidHex label)

/-- `validate_trusted_key`: a key has its names, a public key of 32 bytes, and a validity that does not
end before it begins. -/
def validateTrustedKey (key : TrustedCheckpointKey) : Except CheckpointError Unit := do
  let _ ← normalized key.signerId "signer_id"
  let _ ← normalized key.keyId "key_id"
  let _ ← decodeFixed 32 key.publicKeyHex "public_key_hex"
  failIf (∃ until_ ∈ key.validUntilMs, until_ < key.validFromMs) (.invalidField "valid_until_ms")

/-- `validate_anchor`: an anchor has its names, and three references in their shape. -/
def validateAnchor (anchor : ExternalAnchor) : Except CheckpointError Unit := do
  let _ ← normalized anchor.providerProfile "provider_profile"
  let _ ← normalized anchor.anchorId "anchor_id"
  validateCheckpointRef anchor.checkpointRef "checkpoint_ref"
  validateCheckpointRef anchor.storageRootIdentity "storage_root_identity"
  validateCheckpointRef anchor.eventChainHead "event_chain_head"
  failIf (anchor.lastSequence = 0) (.invalidField "last_sequence")

/-! ## Keys -/

/-- `key_slot`: the text under which the registry keeps a key, the two ids on both sides of a NUL. -/
def keySlot (signerId keyId : String) : String := signerId ++ "\x00" ++ keyId

/-- `TrustedKeyRegistry::insert`, which `with_key` calls. -/
def TrustedKeyRegistry.withKey (registry : TrustedKeyRegistry) (key : TrustedCheckpointKey) :
    Except CheckpointError TrustedKeyRegistry := do
  validateTrustedKey key
  return ⟨registry.keys.insert (keySlot key.signerId key.keyId) key⟩

/-- `TrustedKeyRegistry::get`: the key in the slot of these two ids, whichever ids it was registered
with. -/
def TrustedKeyRegistry.get (registry : TrustedKeyRegistry) (signerId keyId : String) :
    Option TrustedCheckpointKey :=
  registry.keys[keySlot signerId keyId]?

section Crates

variable (env : CheckpointCrates)

/-! ## Signing -/

/-- `CheckpointSigner::from_seed`: the signer of a seed, under ids without blanks around them. -/
def CheckpointSigner.fromSeed (signerId keyId : String) (seed : List.Vector UInt8 32) :
    Except CheckpointError CheckpointSigner := do
  let signerId ← normalized signerId "signer_id"
  let keyId ← normalized keyId "key_id"
  return ⟨signerId, keyId, seed⟩

/-- `CheckpointSigner::trusted_key`: the public half of a signer, with the time for which it is
trusted. -/
def CheckpointSigner.trustedKey (signer : CheckpointSigner) (validFromMs : UInt64)
    (validUntilMs revokedAtMs : Option UInt64) : TrustedCheckpointKey :=
  { signerId := signer.signerId
    keyId := signer.keyId
    publicKeyHex := encodeHex (env.ed25519.verifyingKey signer.seed).toList
    validFromMs := validFromMs
    validUntilMs := validUntilMs
    revokedAtMs := revokedAtMs }

/-- `canonical_bytes`, on a manifest body. -/
def canonicalBytes (body : CheckpointManifestBody) : Except CheckpointError Bytes :=
  (env.manifestBody body).mapError .encoding

/-- `CheckpointSigner::sign`: the manifest that a signer issues for the material, once everything in it
is checked. -/
def CheckpointSigner.sign (signer : CheckpointSigner) (material : CheckpointMaterial)
    (issuedAtMs : UInt64) (expiresAtMs : Option UInt64) (previousCheckpointRef : Option String) :
    Except CheckpointError SignedCheckpointManifest := do
  validateMaterial material
  validateExpiry issuedAtMs expiresAtMs
  validatePreviousRef previousCheckpointRef
  let body : CheckpointManifestBody :=
    { schema := checkpointSchema
      checkpointProfile := checkpointProfile
      ledgerProfile := material.ledgerProfile
      storageRootIdentity := material.storageRootIdentity
      eventChainHead := material.eventChainHead
      lastSequence := material.lastSequence
      walSegment := material.walSegment
      walOffset := material.walOffset
      projectionDigest := material.projectionDigest
      snapshotDigest := material.snapshotDigest
      signerId := signer.signerId
      keyId := signer.keyId
      issuedAtMs := issuedAtMs
      expiresAtMs := expiresAtMs
      previousCheckpointRef := previousCheckpointRef }
  let message ← canonicalBytes env body
  return {
    body := body
    manifestRef := sha256Ref env.toCrates message
    signatureAlgorithm := signatureAlgorithm
    signatureHex := encodeHex (env.ed25519.sign signer.seed message).toList }

/-! ## Verifying -/

/-- `verify_signed_checkpoint`: the first check that one manifest fails, if it fails any. -/
def verifySignedCheckpoint (registry : TrustedKeyRegistry) (nowMs : UInt64)
    (manifest : SignedCheckpointManifest) : Except CheckpointError Unit := do
  validateManifestBody manifest.body
  failIf (manifest.signatureAlgorithm ≠ signatureAlgorithm) .unsupportedSignatureAlgorithm
  let message ← canonicalBytes env manifest.body
  failIf (manifest.manifestRef ≠ sha256Ref env.toCrates message) .manifestReferenceMismatch
  let trustedKey ← okOr (registry.get manifest.body.signerId manifest.body.keyId) .unknownKey
  failIf (manifest.body.issuedAtMs > nowMs) .checkpointFromFuture
  failIf (nowMs < trustedKey.validFromMs) .keyNotYetValid
  failIf (∃ until_ ∈ trustedKey.validUntilMs, nowMs > until_) .keyExpired
  failIf (∃ revoked ∈ trustedKey.revokedAtMs, nowMs ≥ revoked) .keyRevoked
  failIf (∃ expires ∈ manifest.body.expiresAtMs, nowMs > expires) .checkpointExpired
  let publicKey ← decodeFixed 32 trustedKey.publicKeyHex "public_key_hex"
  failIf (env.ed25519.isKey publicKey = false) (.invalidHex "public_key_hex")
  let signatureBytes ← decodeHex manifest.signatureHex "signature_hex"
  let signature ← okOr (toArray 64 signatureBytes) (.invalidHex "signature_hex")
  failIf (env.ed25519.verify publicKey message signature = false) .signatureVerificationFailed

/-- The position in the log, ordered as the source's pair. -/
def CheckpointManifestBody.position (body : CheckpointManifestBody) : Nat ×ₗ Nat :=
  toLex (body.walSegment, body.walOffset)

/-- The body of the loop over `windows(2)`. -/
def verifyNeighbours (previous current : SignedCheckpointManifest) :
    Except CheckpointError Unit := do
  failIf (current.body.ledgerProfile ≠ previous.body.ledgerProfile ∨
    current.body.storageRootIdentity ≠ previous.body.storageRootIdentity ∨
    current.body.signerId ≠ previous.body.signerId) .chainIdentityMismatch
  failIf (current.body.previousCheckpointRef ≠ some previous.manifestRef)
    .previousCheckpointMismatch
  failIf (current.body.lastSequence ≤ previous.body.lastSequence ∨
    current.body.position ≤ previous.body.position ∨
    current.body.issuedAtMs < previous.body.issuedAtMs) .nonMonotonicCheckpoint
  failIf (current.body.eventChainHead = previous.body.eventChainHead) .ledgerHeadNotAdvanced

/-- The manifest an anchor names, and that it is what the anchor says. -/
def verifyAnchor (manifests : List SignedCheckpointManifest) (latest : SignedCheckpointManifest)
    (anchor : ExternalAnchor) : Except CheckpointError Unit := do
  validateAnchor anchor
  failIf (latest.body.lastSequence < anchor.lastSequence) .externalAnchorRollback
  match manifests.find? fun manifest => manifest.manifestRef = anchor.checkpointRef with
  | none =>
      failIf (∃ manifest ∈ manifests, manifest.body.lastSequence = anchor.lastSequence ∧
        (manifest.body.eventChainHead ≠ anchor.eventChainHead ∨
          manifest.body.storageRootIdentity ≠ anchor.storageRootIdentity)) .externalAnchorFork
      .error .externalAnchorNotInChain
  | some anchored =>
      failIf (anchored.body.storageRootIdentity ≠ anchor.storageRootIdentity ∨
        anchored.body.eventChainHead ≠ anchor.eventChainHead ∨
        anchored.body.lastSequence ≠ anchor.lastSequence) .externalAnchorFork

/-- The status of a chain and the anchor that gives it. -/
def verifyLatestAnchor (manifests : List SignedCheckpointManifest)
    (latest : SignedCheckpointManifest) :
    Option ExternalAnchor → Except CheckpointError (AntiRollbackStatus × Option String)
  | some anchor => do
      verifyAnchor manifests latest anchor
      return (.externalAnchorVerified, some anchor.anchorId)
  | none => return (.localSignatureOnly, none)

/-- `verify_checkpoint_chain`: every manifest by itself, each one against the one before it, and the
chain against its anchor. -/
def verifyCheckpointChain (manifests : List SignedCheckpointManifest)
    (registry : TrustedKeyRegistry) (latestAnchor : Option ExternalAnchor) (nowMs : UInt64) :
    Except CheckpointError VerifiedCheckpointChain :=
  match manifests with
  | [] => .error .emptyChain
  | first :: rest => do
      manifests.forM (verifySignedCheckpoint env registry nowMs)
      (manifests.zip rest).forM fun (previous, current) => verifyNeighbours previous current
      let latest := rest.getLast?.getD first
      let (status, externalAnchorId) ← verifyLatestAnchor manifests latest latestAnchor
      return {
        status := status
        storageRootIdentity := latest.body.storageRootIdentity
        firstCheckpointRef := first.manifestRef
        latestCheckpointRef := latest.manifestRef
        latestEventChainHead := latest.body.eventChainHead
        latestSequence := latest.body.lastSequence
        checkpointCount := manifests.length
        externalAnchorId := externalAnchorId }

end Crates

/-! ## What is accepted -/

/-- `value.trim()` is not empty. -/
def NotBlank (value : String) : Prop := trim value ≠ ""

instance (value : String) : Decidable (NotBlank value) := inferInstanceAs (Decidable (_ ≠ _))

/-- What the material of a manifest must satisfy. -/
structure CheckpointMaterial.WellFormed (material : CheckpointMaterial) : Prop where
  ledgerProfile : NotBlank material.ledgerProfile
  storageRootIdentity : IsRef material.storageRootIdentity
  eventChainHead : IsRef material.eventChainHead
  projectionDigest : IsRef material.projectionDigest
  snapshotDigest : IsRef material.snapshotDigest
  lastSequence : material.lastSequence ≠ 0

/-- What the body of a manifest must satisfy. -/
structure CheckpointManifestBody.WellFormed (body : CheckpointManifestBody) : Prop where
  schema : body.schema = checkpointSchema
  checkpointProfile : body.checkpointProfile = LiminalDB.checkpointProfile
  material : body.material.WellFormed
  signerId : NotBlank body.signerId
  keyId : NotBlank body.keyId
  expiresAtMs : ∀ expires ∈ body.expiresAtMs, body.issuedAtMs < expires
  previousCheckpointRef : ∀ reference ∈ body.previousCheckpointRef, IsRef reference

/-- A key can be used at the time. -/
structure TrustedCheckpointKey.ActiveAt (key : TrustedCheckpointKey) (nowMs : UInt64) : Prop where
  validFromMs : key.validFromMs ≤ nowMs
  validUntilMs : ∀ until_ ∈ key.validUntilMs, nowMs ≤ until_
  revokedAtMs : ∀ revoked ∈ key.revokedAtMs, nowMs < revoked

/-- The signature of a manifest is one of `message` under the key. -/
def SignatureAccepted (scheme : Ed25519) (key : TrustedCheckpointKey) (message : Bytes)
    (signatureHex : String) : Prop :=
  ∃ publicKey signature, decodeFixed 32 key.publicKeyHex "public_key_hex" = .ok publicKey ∧
    scheme.isKey publicKey = true ∧ (decodeHexBytes signatureHex).bind (toArray 64) = some signature
    ∧ scheme.verify publicKey message signature = true

/-- What `verify_signed_checkpoint` accepts. -/
structure Verified (env : CheckpointCrates) (registry : TrustedKeyRegistry) (nowMs : UInt64)
    (manifest : SignedCheckpointManifest) : Prop where
  wellFormed : manifest.body.WellFormed
  algorithm : manifest.signatureAlgorithm = signatureAlgorithm
  issuedAtMs : manifest.body.issuedAtMs ≤ nowMs
  expiresAtMs : ∀ expires ∈ manifest.body.expiresAtMs, nowMs ≤ expires
  /-- The reference is the digest of the body, and a registered, active key signed it. -/
  signed : ∃ message key, env.manifestBody manifest.body = .ok message ∧
    manifest.manifestRef = sha256Ref env.toCrates message ∧
    registry.get manifest.body.signerId manifest.body.keyId = some key ∧ key.ActiveAt nowMs ∧
    SignatureAccepted env.ed25519 key message manifest.signatureHex

/-- What the chain verifier accepts of two neighbours. -/
structure Succeeds (previous current : SignedCheckpointManifest) : Prop where
  ledgerProfile : current.body.ledgerProfile = previous.body.ledgerProfile
  storageRootIdentity : current.body.storageRootIdentity = previous.body.storageRootIdentity
  signerId : current.body.signerId = previous.body.signerId
  previousRef : current.body.previousCheckpointRef = some previous.manifestRef
  lastSequence : previous.body.lastSequence < current.body.lastSequence
  position : previous.body.position < current.body.position
  issuedAtMs : previous.body.issuedAtMs ≤ current.body.issuedAtMs
  eventChainHead : current.body.eventChainHead ≠ previous.body.eventChainHead

/-- What an anchor must satisfy. -/
structure ExternalAnchor.WellFormed (anchor : ExternalAnchor) : Prop where
  providerProfile : NotBlank anchor.providerProfile
  anchorId : NotBlank anchor.anchorId
  checkpointRef : IsRef anchor.checkpointRef
  storageRootIdentity : IsRef anchor.storageRootIdentity
  eventChainHead : IsRef anchor.eventChainHead
  lastSequence : anchor.lastSequence ≠ 0

/-- The anchor is about this manifest. -/
structure ExternalAnchor.Pins (anchor : ExternalAnchor) (manifest : SignedCheckpointManifest) :
    Prop where
  checkpointRef : manifest.manifestRef = anchor.checkpointRef
  storageRootIdentity : manifest.body.storageRootIdentity = anchor.storageRootIdentity
  eventChainHead : manifest.body.eventChainHead = anchor.eventChainHead
  lastSequence : manifest.body.lastSequence = anchor.lastSequence

/-! ## One lemma per check -/

/-- An identifier is normalized if it is not blank, to what is left after trimming. -/
@[simp] theorem normalized_eq_ok {value label result : String} :
    normalized value label = .ok result ↔ NotBlank value ∧ result = trim value := by
  unfold normalized NotBlank
  by_cases h : trim value = ""
  · rw [if_pos (String.isEmpty_iff.mpr h)]
    simp [h]
  · rw [if_neg (by simpa using h)]
    simp [h, eq_comm]

/-- A checkpoint reference is accepted exactly if it is one: `sha256:` and 64 small hex digits. -/
@[simp] theorem validateCheckpointRef_eq_ok {reference label : String} {u : Unit} :
    validateCheckpointRef reference label = .ok u ↔ IsRef reference :=
  checkRef_eq_ok

/-- Material is accepted exactly if it is well formed. -/
theorem validateMaterial_eq_ok {material : CheckpointMaterial} {u : Unit} :
    validateMaterial material = .ok u ↔ material.WellFormed := by
  unfold validateMaterial
  simp only [result_bind_eq_ok, normalized_eq_ok, validateCheckpointRef_eq_ok, failIf_eq_ok]
  constructor
  · rintro ⟨-, ⟨hprofile, -⟩, -, hroot, -, hhead, -, hprojection, -, hsnapshot, hsequence⟩
    exact ⟨hprofile, hroot, hhead, hprojection, hsnapshot, hsequence⟩
  · rintro ⟨hprofile, hroot, hhead, hprojection, hsnapshot, hsequence⟩
    exact ⟨_, ⟨hprofile, rfl⟩, (), hroot, (), hhead, (), hprojection, (), hsnapshot, hsequence⟩

/-- An expiry is accepted if it is missing or after the time of issue. -/
@[simp] theorem validateExpiry_eq_ok {issuedAtMs : UInt64} {expiresAtMs : Option UInt64} {u : Unit} :
    validateExpiry issuedAtMs expiresAtMs = .ok u ↔
      ∀ expires ∈ expiresAtMs, issuedAtMs < expires := by
  unfold validateExpiry
  rw [failIf_eq_ok]
  simp

/-- The reference to a predecessor is checked only if it is given. -/
@[simp] theorem validatePreviousRef_eq_ok {previousCheckpointRef : Option String} {u : Unit} :
    validatePreviousRef previousCheckpointRef = .ok u ↔
      ∀ reference ∈ previousCheckpointRef, IsRef reference := by
  cases previousCheckpointRef <;> simp [validatePreviousRef]

/-- The body of a manifest is accepted exactly if it is well formed, each of its fields with its own check. -/
theorem validateManifestBody_eq_ok {body : CheckpointManifestBody} {u : Unit} :
    validateManifestBody body = .ok u ↔ body.WellFormed := by
  unfold validateManifestBody
  simp only [result_bind_eq_ok, failIf_eq_ok, validateMaterial_eq_ok, normalized_eq_ok,
    validateExpiry_eq_ok, validatePreviousRef_eq_ok, not_or, not_not]
  constructor
  · rintro ⟨-, ⟨hschema, hprofile⟩, -, hmaterial, -, ⟨hsigner, -⟩, -, ⟨hkey, -⟩, -, hexpiry, hprev⟩
    exact ⟨hschema, hprofile, hmaterial, hsigner, hkey, hexpiry, hprev⟩
  · rintro ⟨hschema, hprofile, hmaterial, hsigner, hkey, hexpiry, hprev⟩
    exact ⟨(), ⟨hschema, hprofile⟩, (), hmaterial, _, ⟨hsigner, rfl⟩, _, ⟨hkey, rfl⟩, (), hexpiry,
      hprev⟩

/-- The bytes that are signed are the encoding of the body, where it has one. -/
@[simp] theorem canonicalBytes_eq_ok {env : CheckpointCrates} {body : CheckpointManifestBody}
    {bytes : Bytes} : canonicalBytes env body = .ok bytes ↔ env.manifestBody body = .ok bytes :=
  mapError_eq_ok

/-- An anchor is accepted exactly if it is well formed. -/
theorem validateAnchor_eq_ok {anchor : ExternalAnchor} {u : Unit} :
    validateAnchor anchor = .ok u ↔ anchor.WellFormed := by
  unfold validateAnchor
  simp only [result_bind_eq_ok, normalized_eq_ok, validateCheckpointRef_eq_ok, failIf_eq_ok]
  constructor
  · rintro ⟨-, ⟨hprovider, -⟩, -, ⟨hid, -⟩, -, href, -, hroot, -, hhead, hsequence⟩
    exact ⟨hprovider, hid, href, hroot, hhead, hsequence⟩
  · rintro ⟨hprovider, hid, href, hroot, hhead, hsequence⟩
    exact ⟨_, ⟨hprovider, rfl⟩, _, ⟨hid, rfl⟩, (), href, (), hroot, (), hhead, hsequence⟩

/-- **One manifest.** -/
theorem verifySignedCheckpoint_eq_ok {env : CheckpointCrates} {registry : TrustedKeyRegistry}
    {nowMs : UInt64} {manifest : SignedCheckpointManifest} {u : Unit} :
    verifySignedCheckpoint env registry nowMs manifest = .ok u ↔
      Verified env registry nowMs manifest := by
  unfold verifySignedCheckpoint
  simp only [result_bind_eq_ok, failIf_eq_ok, validateManifestBody_eq_ok, canonicalBytes_eq_ok,
    okOr_eq_ok, decodeHex, not_not, not_exists, not_and, gt_iff_lt, ge_iff_le, UInt64.not_lt,
    UInt64.not_le, Bool.not_eq_false]
  constructor
  · rintro ⟨-, hbody, -, halgorithm, message, hmessage, -, href, key, hkey, -, hissued, -, hfrom, -,
      huntil, -, hrevoked, -, hexpires, publicKey, hpublic, -, hisKey, signatureBytes, hsigHex,
      signature, hsignature, hverify⟩
    exact ⟨hbody, halgorithm, hissued, hexpires, message, key, hmessage, href, hkey,
      ⟨hfrom, huntil, hrevoked⟩, publicKey, signature, hpublic, hisKey,
      by rw [hsigHex, Option.bind_some, hsignature], hverify⟩
  · rintro ⟨hbody, halgorithm, hissued, hexpires, message, key, hmessage, href, hkey,
      ⟨hfrom, huntil, hrevoked⟩, publicKey, signature, hpublic, hisKey, hsig, hverify⟩
    obtain ⟨signatureBytes, hsigHex, hsignature⟩ := Option.bind_eq_some_iff.mp hsig
    exact ⟨(), hbody, (), halgorithm, message, hmessage, (), href, key, hkey, (), hissued, (), hfrom,
      (), huntil, (), hrevoked, (), hexpires, publicKey, hpublic, (), hisKey, signatureBytes,
      hsigHex, signature, hsignature, hverify⟩

/-- Two manifests are accepted as neighbours exactly if the second succeeds the first. -/
theorem verifyNeighbours_eq_ok {previous current : SignedCheckpointManifest} {u : Unit} :
    verifyNeighbours previous current = .ok u ↔ Succeeds previous current := by
  unfold verifyNeighbours
  simp only [result_bind_eq_ok, failIf_eq_ok, not_or, not_not, not_le, UInt64.not_lt]
  constructor
  · rintro ⟨-, ⟨hprofile, hroot, hsigner⟩, -, hprev, -, ⟨hsequence, hposition, hissued⟩, hhead⟩
    exact ⟨hprofile, hroot, hsigner, hprev, hsequence, hposition, hissued, hhead⟩
  · rintro ⟨hprofile, hroot, hsigner, hprev, hsequence, hposition, hissued, hhead⟩
    exact ⟨(), ⟨hprofile, hroot, hsigner⟩, (), hprev, (), ⟨hsequence, hposition, hissued⟩, hhead⟩

/-- An anchor is accepted when the first manifest with its reference is the one it describes. -/
theorem verifyAnchor_eq_ok {manifests : List SignedCheckpointManifest}
    {latest : SignedCheckpointManifest} {anchor : ExternalAnchor} {u : Unit} :
    verifyAnchor manifests latest anchor = .ok u ↔ anchor.WellFormed ∧
      anchor.lastSequence ≤ latest.body.lastSequence ∧
      ∃ anchored, (manifests.find? fun m => m.manifestRef = anchor.checkpointRef) = some anchored ∧
        anchor.Pins anchored := by
  unfold verifyAnchor
  simp only [result_bind_eq_ok, validateAnchor_eq_ok, failIf_eq_ok, not_lt]
  cases hfind : manifests.find? fun m => m.manifestRef = anchor.checkpointRef with
  | none => simp [result_bind_eq_ok]
  | some anchored =>
      have href : anchored.manifestRef = anchor.checkpointRef := by
        simpa using List.find?_some hfind
      simp only [failIf_eq_ok, not_or, not_not, Option.some.injEq, exists_eq_left']
      constructor
      · rintro ⟨-, hanchor, -, hle, hroot, hhead, hsequence⟩
        exact ⟨hanchor, hle, href, hroot, hhead, hsequence⟩
      · rintro ⟨hanchor, hle, -, hroot, hhead, hsequence⟩
        exact ⟨(), hanchor, (), hle, hroot, hhead, hsequence⟩

/-- The checks of all neighbours, as a chain. -/
theorem forM_neighbours_eq_ok {first : SignedCheckpointManifest}
    {rest : List SignedCheckpointManifest} {u : Unit} :
    ((first :: rest).zip rest).forM (fun (previous, current) => verifyNeighbours previous current)
      = .ok u ↔ (first :: rest).IsChain Succeeds := by
  rw [forM_eq_ok]
  induction rest generalizing first with
  | nil => simp
  | cons second rest ih =>
      rw [List.zip_cons_cons, List.forall_mem_cons, List.isChain_cons_cons, ← ih]
      exact and_congr_left fun _ => verifyNeighbours_eq_ok

/-- What `verify_checkpoint_chain` accepts. -/
structure ChainAccepted (env : CheckpointCrates) (manifests : List SignedCheckpointManifest)
    (registry : TrustedKeyRegistry) (latestAnchor : Option ExternalAnchor) (nowMs : UInt64) :
    Prop where
  nonempty : manifests ≠ []
  verified : ∀ manifest ∈ manifests, Verified env registry nowMs manifest
  follows : manifests.IsChain Succeeds
  /-- The anchored manifest is there and the latest one is not behind it. -/
  anchored : ∀ anchor ∈ latestAnchor, anchor.WellFormed ∧
    (∀ latest ∈ manifests.getLast?, anchor.lastSequence ≤ latest.body.lastSequence) ∧
    ∃ anchored, (manifests.find? fun m => m.manifestRef = anchor.checkpointRef) = some anchored ∧
      anchor.Pins anchored

/-- **A chain of manifests.** -/
theorem verifyCheckpointChain_isOk {env : CheckpointCrates}
    {manifests : List SignedCheckpointManifest} {registry : TrustedKeyRegistry}
    {latestAnchor : Option ExternalAnchor} {nowMs : UInt64} :
    (∃ verified, verifyCheckpointChain env manifests registry latestAnchor nowMs = .ok verified) ↔
      ChainAccepted env manifests registry latestAnchor nowMs := by
  cases manifests with
  | nil => exact iff_of_false (by simp [verifyCheckpointChain]) fun h => h.nonempty rfl
  | cons first rest =>
      unfold verifyCheckpointChain
      simp only [result_bind_eq_ok, forM_neighbours_eq_ok]
      simp only [forM_eq_ok, verifySignedCheckpoint_eq_ok]
      have hlatest : (first :: rest).getLast? = some (rest.getLast?.getD first) :=
        List.getLast?_cons
      constructor
      · rintro ⟨chain, -, hverified, -, hfollows, status, hanchor, -⟩
        refine ⟨List.cons_ne_nil _ _, hverified, hfollows, fun anchor hmem => ?_⟩
        obtain rfl : latestAnchor = some anchor := hmem
        obtain ⟨u, hok, -⟩ := result_bind_eq_ok.mp hanchor
        obtain ⟨hwell, hle, hfind⟩ := verifyAnchor_eq_ok.mp hok
        refine ⟨hwell, fun latest h => ?_, hfind⟩
        obtain rfl : rest.getLast?.getD first = latest := Option.some.inj (hlatest.symm.trans h)
        exact hle
      · rintro ⟨-, hverified, hfollows, hanchor⟩
        cases latestAnchor with
        | none => exact ⟨_, (), hverified, (), hfollows, _, rfl, rfl⟩
        | some anchor =>
            obtain ⟨hwell, hle, hfind⟩ := hanchor anchor rfl
            have hok : verifyAnchor (first :: rest) (rest.getLast?.getD first) anchor = .ok () :=
              verifyAnchor_eq_ok.mpr ⟨hwell, hle _ hlatest, hfind⟩
            exact ⟨_, (), hverified, (), hfollows, _, result_bind_eq_ok.mpr ⟨(), hok, rfl⟩, rfl⟩

/-! ## Honest signatures -/

/-- A signer that `from_seed` made. -/
structure CheckpointSigner.Usable (signer : CheckpointSigner) : Prop where
  signerId : NotBlank signer.signerId
  keyId : NotBlank signer.keyId

/-- A signer that could be made from a seed has identifiers that manifests may carry. -/
theorem CheckpointSigner.usable_of_fromSeed {signer : CheckpointSigner} {signerId keyId : String}
    {seed : List.Vector UInt8 32}
    (h : CheckpointSigner.fromSeed signerId keyId seed = .ok signer) : signer.Usable := by
  unfold CheckpointSigner.fromSeed at h
  simp only [result_bind_eq_ok, normalized_eq_ok] at h
  obtain ⟨-, ⟨hsigner, rfl⟩, -, ⟨hkey, rfl⟩, hpair⟩ := h
  obtain rfl := Except.ok.inj hpair
  exact ⟨by rwa [NotBlank, trim_trim], by rwa [NotBlank, trim_trim]⟩

/-- The body that `sign` signs. -/
def CheckpointSigner.manifestBody (signer : CheckpointSigner) (material : CheckpointMaterial)
    (issuedAtMs : UInt64) (expiresAtMs : Option UInt64) (previousCheckpointRef : Option String) :
    CheckpointManifestBody :=
  { schema := checkpointSchema
    checkpointProfile := checkpointProfile
    ledgerProfile := material.ledgerProfile
    storageRootIdentity := material.storageRootIdentity
    eventChainHead := material.eventChainHead
    lastSequence := material.lastSequence
    walSegment := material.walSegment
    walOffset := material.walOffset
    projectionDigest := material.projectionDigest
    snapshotDigest := material.snapshotDigest
    signerId := signer.signerId
    keyId := signer.keyId
    issuedAtMs := issuedAtMs
    expiresAtMs := expiresAtMs
    previousCheckpointRef := previousCheckpointRef }

section Sign

variable {env : CheckpointCrates} {signer : CheckpointSigner} {material : CheckpointMaterial}
  {issuedAtMs nowMs : UInt64} {expiresAtMs : Option UInt64}
  {previousCheckpointRef : Option String} {manifest : SignedCheckpointManifest}

/-- `sign` accepts well-formed material, and what it returns is determined by the body. -/
theorem CheckpointSigner.sign_eq_ok :
    signer.sign env material issuedAtMs expiresAtMs previousCheckpointRef = .ok manifest ↔
      material.WellFormed ∧ (∀ expires ∈ expiresAtMs, issuedAtMs < expires) ∧
      (∀ reference ∈ previousCheckpointRef, IsRef reference) ∧
      ∃ message, env.manifestBody
          (signer.manifestBody material issuedAtMs expiresAtMs previousCheckpointRef) = .ok message ∧
        manifest =
          { body := signer.manifestBody material issuedAtMs expiresAtMs previousCheckpointRef
            manifestRef := sha256Ref env.toCrates message
            signatureAlgorithm := signatureAlgorithm
            signatureHex := encodeHex (env.ed25519.sign signer.seed message).toList } := by
  unfold CheckpointSigner.sign
  simp only [result_bind_eq_ok, validateMaterial_eq_ok, validateExpiry_eq_ok,
    validatePreviousRef_eq_ok, canonicalBytes_eq_ok]
  constructor
  · rintro ⟨-, hmaterial, -, hexpiry, -, hprev, message, hmessage, hmanifest⟩
    exact ⟨hmaterial, hexpiry, hprev, message, hmessage, (Except.ok.inj hmanifest).symm⟩
  · rintro ⟨hmaterial, hexpiry, hprev, message, hmessage, rfl⟩
    exact ⟨(), hmaterial, (), hexpiry, (), hprev, message, hmessage, rfl⟩

/-- Well-formed material is signed, where the body can be encoded. -/
theorem CheckpointSigner.sign_isOk (signer : CheckpointSigner)
    (hbody : ∀ body, ∃ bytes, env.manifestBody body = .ok bytes)
    (hmaterial : material.WellFormed) (hexpiry : ∀ expires ∈ expiresAtMs, issuedAtMs < expires)
    (hprev : ∀ reference ∈ previousCheckpointRef, IsRef reference) :
    ∃ manifest, signer.sign env material issuedAtMs expiresAtMs previousCheckpointRef =
        .ok manifest ∧ IsRef manifest.manifestRef ∧
      manifest.body = signer.manifestBody material issuedAtMs expiresAtMs previousCheckpointRef := by
  obtain ⟨message, hmessage⟩ :=
    hbody (signer.manifestBody material issuedAtMs expiresAtMs previousCheckpointRef)
  exact ⟨_, CheckpointSigner.sign_eq_ok.mpr ⟨hmaterial, hexpiry, hprev, message, hmessage, rfl⟩,
    isRef_sha256Ref _ message, rfl⟩

/-- An expiry that is not behind the issuance is refused. -/
theorem CheckpointSigner.sign_of_expired (signer : CheckpointSigner) (hmaterial : material.WellFormed)
    (hexpiry : ¬ ∀ expires ∈ expiresAtMs, issuedAtMs < expires) :
    signer.sign env material issuedAtMs expiresAtMs previousCheckpointRef = .error .invalidExpiry := by
  have hvalid : validateMaterial material = .ok () := validateMaterial_eq_ok.mpr hmaterial
  have hrefused : validateExpiry issuedAtMs expiresAtMs = .error .invalidExpiry := by
    unfold validateExpiry failIf
    rw [if_pos (by simpa using hexpiry)]
  unfold CheckpointSigner.sign
  rw [hvalid, hrefused]
  rfl

/-- The bytes of an array of fixed length are read back as this array. -/
@[simp] theorem toArray_toList {n : Nat} (v : List.Vector UInt8 n) :
    toArray n v.toList = some v := by
  unfold toArray
  rw [dif_pos v.toList_length]
  rfl

/-- Bytes that were written in hex are read back, if as many of them are asked for. -/
theorem decodeFixed_encodeHex {n : Nat} (v : List.Vector UInt8 n) (label : String) :
    decodeFixed n (encodeHex v.toList) label = .ok v := by
  unfold decodeFixed decodeHex
  rw [decodeHexBytes_encodeHex]
  show okOr (toArray n v.toList) _ = _
  rw [toArray_toList]
  rfl

/-- A key that is valid from the beginning and for ever. -/
theorem CheckpointSigner.activeAt_trustedKey (signer : CheckpointSigner) (nowMs : UInt64) :
    (signer.trustedKey env 0 none none).ActiveAt nowMs :=
  ⟨UInt64.le_iff_toNat_le.mpr (Nat.zero_le _), by simp [CheckpointSigner.trustedKey],
    by simp [CheckpointSigner.trustedKey]⟩

/-- A manifest that `sign` returned is accepted while its key is registered and active and the
manifest has not expired. -/
theorem CheckpointSigner.verified_of_sign (hhonest : env.ed25519.Honest)
    (hsign : signer.sign env material issuedAtMs expiresAtMs previousCheckpointRef = .ok manifest)
    (hsigner : NotBlank signer.signerId) (hkeyId : NotBlank signer.keyId)
    {registry : TrustedKeyRegistry} {key : TrustedCheckpointKey}
    (hkey : registry.get signer.signerId signer.keyId = some key)
    (hpublic : key.publicKeyHex = encodeHex (env.ed25519.verifyingKey signer.seed).toList)
    (hactive : key.ActiveAt nowMs) (hissued : issuedAtMs ≤ nowMs)
    (hexpires : ∀ expires ∈ expiresAtMs, nowMs ≤ expires) :
    Verified env registry nowMs manifest := by
  obtain ⟨hmaterial, hexpiry, hprev, message, hmessage, rfl⟩ := CheckpointSigner.sign_eq_ok.mp hsign
  refine ⟨⟨rfl, rfl, hmaterial, hsigner, hkeyId, hexpiry, hprev⟩, rfl, hissued, hexpires, message,
    key, hmessage, rfl, hkey, hactive, _, _, ?_, hhonest.isKey signer.seed, ?_,
    hhonest.verify signer.seed message⟩
  · rw [hpublic, decodeFixed_encodeHex]
  · rw [decodeHexBytes_encodeHex, Option.bind_some, toArray_toList]

end Sign

/-! ## Anchors built from a manifest -/

/-- The anchor that pins a manifest. -/
def SignedCheckpointManifest.anchor (manifest : SignedCheckpointManifest)
    (providerProfile anchorId : String) (anchoredAtMs : UInt64) : ExternalAnchor :=
  { providerProfile := providerProfile
    anchorId := anchorId
    checkpointRef := manifest.manifestRef
    storageRootIdentity := manifest.body.storageRootIdentity
    eventChainHead := manifest.body.eventChainHead
    lastSequence := manifest.body.lastSequence
    anchoredAtMs := anchoredAtMs }

section Anchor

variable {env : CheckpointCrates} {registry : TrustedKeyRegistry} {nowMs anchoredAtMs : UInt64}
  {manifest : SignedCheckpointManifest} {providerProfile anchorId : String}

/-- The anchor that is taken of a manifest pins this manifest: it names its reference, sequence, identity and
head. -/
theorem SignedCheckpointManifest.pins_anchor :
    (manifest.anchor providerProfile anchorId anchoredAtMs).Pins manifest :=
  ⟨rfl, rfl, rfl, rfl⟩

/-- The anchor of a verified manifest is well formed, if the provider and the id of the anchor are not
blank. -/
theorem Verified.wellFormed_anchor (h : Verified env registry nowMs manifest)
    (hprovider : NotBlank providerProfile) (hid : NotBlank anchorId) :
    (manifest.anchor providerProfile anchorId anchoredAtMs).WellFormed := by
  obtain ⟨message, key, hmessage, href, -⟩ := h.signed
  have hmaterial := h.wellFormed.material
  refine ⟨hprovider, hid, ?_, hmaterial.storageRootIdentity, hmaterial.eventChainHead,
    hmaterial.lastSequence⟩
  show IsRef manifest.manifestRef
  rw [href]
  exact isRef_sha256Ref _ _

end Anchor

/-- A verified manifest alone is a chain, also with its own anchor. -/
theorem chainAccepted_singleton {env : CheckpointCrates} {registry : TrustedKeyRegistry}
    {nowMs : UInt64} {manifest : SignedCheckpointManifest}
    (h : Verified env registry nowMs manifest) {latestAnchor : Option ExternalAnchor}
    (hanchor : ∀ anchor ∈ latestAnchor, anchor.WellFormed ∧ anchor.Pins manifest) :
    ChainAccepted env [manifest] registry latestAnchor nowMs := by
  refine ⟨List.cons_ne_nil _ _, by simpa using h, List.isChain_singleton _, fun anchor hmem => ?_⟩
  obtain ⟨hwell, hpins⟩ := hanchor anchor hmem
  refine ⟨hwell, ?_, manifest, ?_, hpins⟩
  · rintro latest hlatest
    obtain rfl : manifest = latest := Option.some.inj hlatest
    exact hpins.lastSequence.ge
  · rw [List.find?_cons_of_pos]
    simpa using hpins.checkpointRef

end LiminalDB
