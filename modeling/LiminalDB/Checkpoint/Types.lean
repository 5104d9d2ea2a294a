import LiminalDB.Ledger.Linked
import LiminalDB.Ledger.Validate

/-! # The data model of `checkpoint.rs`

A signed checkpoint binds the state of a ledger: its head, its sequence number, the position in the
log, and the digests of the projection and of the snapshot. Manifests are linked by reference, and
an external anchor pins one of them.

Positions and sequence numbers are natural numbers, as in the ledger they come from; the times a
caller chooses are `u64`. -/

namespace LiminalDB

/-- `CheckpointMaterial`: what a checkpoint says about the ledger. -/
structure CheckpointMaterial where
  ledgerProfile : String
  storageRootIdentity : String
  eventChainHead : String
  lastSequence : Nat
  walSegment : Nat
  walOffset : Nat
  projectionDigest : String
  snapshotDigest : String
  deriving DecidableEq, Repr

/-- `CheckpointManifestBody`: the signed part of a manifest. -/
structure CheckpointManifestBody where
  schema : String
  checkpointProfile : String
  ledgerProfile : String
  storageRootIdentity : String
  eventChainHead : String
  lastSequence : Nat
  walSegment : Nat
  walOffset : Nat
  projectionDigest : String
  snapshotDigest : String
  signerId : String
  keyId : String
  issuedAtMs : UInt64
  expiresAtMs : Option UInt64
  previousCheckpointRef : Option String
  deriving DecidableEq, Repr

/-- The material a manifest body carries. -/
def CheckpointManifestBody.material (body : CheckpointManifestBody) : CheckpointMaterial :=
  ⟨body.ledgerProfile, body.storageRootIdentity, body.eventChainHead, body.lastSequence,
    body.walSegment, body.walOffset, body.projectionDigest, body.snapshotDigest⟩

/-- `SignedCheckpointManifest`: a body, the reference that names it, and the signature of it. -/
structure SignedCheckpointManifest where
  body : CheckpointManifestBody
  manifestRef : String
  signatureAlgorithm : String
  signatureHex : String
  deriving DecidableEq, Repr

/-- `TrustedCheckpointKey`: a public key under two ids, with the time for which it is trusted. -/
structure TrustedCheckpointKey where
  signerId : String
  keyId : String
  publicKeyHex : String
  validFromMs : UInt64
  validUntilMs : Option UInt64
  revokedAtMs : Option UInt64
  deriving DecidableEq, Repr

/-- `TrustedKeyRegistry`, by slot. -/
structure TrustedKeyRegistry where
  keys : Std.ExtTreeMap String TrustedCheckpointKey compare

/-- `TrustedKeyRegistry::default()`: a registry without any keys. -/
def TrustedKeyRegistry.default : TrustedKeyRegistry := ⟨∅⟩

/-- `CheckpointSigner`; the signing key is its seed. -/
structure CheckpointSigner where
  signerId : String
  keyId : String
  seed : List.Vector UInt8 32
  deriving DecidableEq

/-- `ExternalAnchor`: what somebody outside has noted down of a checkpoint. -/
structure ExternalAnchor where
  providerProfile : String
  anchorId : String
  checkpointRef : String
  storageRootIdentity : String
  eventChainHead : String
  lastSequence : Nat
  anchoredAtMs : UInt64
  deriving DecidableEq, Repr

/-- `AntiRollbackStatus`: whether an anchor vouches for a chain, or nothing but its signatures. -/
inductive AntiRollbackStatus
  | localSignatureOnly | externalAnchorVerified
  deriving DecidableEq, Repr

/-- `VerifiedCheckpointChain`: what is known of a chain that was verified, from its first checkpoint to
its latest. -/
structure VerifiedCheckpointChain where
  status : AntiRollbackStatus
  storageRootIdentity : String
  firstCheckpointRef : String
  latestCheckpointRef : String
  latestEventChainHead : String
  latestSequence : Nat
  checkpointCount : Nat
  externalAnchorId : Option String
  deriving DecidableEq, Repr

/-- `CheckpointError`. Where the source puts the text of a ledger error into `Encoding`, `ledger`
carries the error itself. -/
inductive CheckpointError
  | encoding (message : String)
  | ledger (error : TransitionLedgerError)
  | invalidField (label : String)
  | invalidReference (label : String)
  | invalidHex (label : String)
  | unsupportedSignatureAlgorithm
  | manifestReferenceMismatch
  | signatureVerificationFailed
  | unknownKey
  | keyNotYetValid
  | keyExpired
  | keyRevoked
  | checkpointFromFuture
  | checkpointExpired
  | invalidExpiry
  | emptyChain
  | chainIdentityMismatch
  | previousCheckpointMismatch
  | nonMonotonicCheckpoint
  | ledgerHeadNotAdvanced
  | externalAnchorRollback
  | externalAnchorFork
  | externalAnchorNotInChain
  | missingLedgerHead
  | snapshotStateMismatch
  deriving DecidableEq, Repr

/-- `CHECKPOINT_SCHEMA`: the schema that every manifest names. -/
def checkpointSchema : String := "liminaldb.signed-checkpoint-manifest.v0.1"

/-- `CHECKPOINT_PROFILE`: the profile that every manifest names. -/
def checkpointProfile : String := "org.liminaldb.signed-checkpoint.v0.1"

/-- `LEDGER_PROFILE`: the profile of the ledgers that checkpoints are about. -/
def ledgerProfile : String := "org.liminaldb.trustworthy-transition-ledger.v0.1"

/-- `SIGNATURE_ALGORITHM`: the only algorithm that is accepted. -/
def signatureAlgorithm : String := "Ed25519"

/-! ## The crates underneath -/

/-- `ed25519_dalek`: keys are 32 bytes, signatures 64. -/
structure Ed25519 where
  /-- `SigningKey::from_bytes(seed).verifying_key()` -/
  verifyingKey : List.Vector UInt8 32 → List.Vector UInt8 32
  /-- `SigningKey::sign` -/
  sign : List.Vector UInt8 32 → Bytes → List.Vector UInt8 64
  /-- Whether `VerifyingKey::from_bytes` accepts the bytes. -/
  isKey : List.Vector UInt8 32 → Bool
  /-- `VerifyingKey::verify` -/
  verify : List.Vector UInt8 32 → Bytes → List.Vector UInt8 64 → Bool

/-- The assumption on `ed25519_dalek`: what a seed signs is accepted under the seed's key. -/
structure Ed25519.Honest (scheme : Ed25519) : Prop where
  isKey : ∀ seed, scheme.isKey (scheme.verifyingKey seed) = true
  verify : ∀ seed message,
    scheme.verify (scheme.verifyingKey seed) message (scheme.sign seed message) = true

/-- The functions of other crates that checkpoints use, besides those of the ledger. -/
structure CheckpointCrates extends Crates where
  /-- `to_vec` of a manifest body -/
  manifestBody : CheckpointManifestBody → Except String Bytes
  /-- `ed25519_dalek` -/
  ed25519 : Ed25519

/-- A manifest reference determines the manifest body, for the bodies in question: `sha256` over
their canonical CBOR has no collision among them. -/
def CheckpointCrates.Committing (env : CheckpointCrates)
    (manifests : List SignedCheckpointManifest) : Prop :=
  ∀ m ∈ manifests, ∀ m' ∈ manifests, ∀ bytes bytes', env.manifestBody m.body = .ok bytes →
    env.manifestBody m'.body = .ok bytes' → env.sha256 bytes = env.sha256 bytes' → m.body = m'.body

end LiminalDB
