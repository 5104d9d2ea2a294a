import LiminalDB.Checkpoint.Verify
import LiminalDB.Ledger.History

/-! # The crates checkpoints are linked with

The CBOR of a manifest body, and a signature scheme with the interface of Ed25519. The curve is not
modelled: `digestScheme` signs with the key and the digest of the message, and accepts exactly what
it signed. It meets the one assumption made of `ed25519_dalek`. -/

namespace LiminalDB

namespace Codec

/-- A number is never encoded as null. -/
theorem notNull_u64 : u64.NotNull :=
  notNull_of_head (by decide : 0 < 7) fun _ => ⟨_, [], (List.append_nil _).symm⟩

/-- `CheckpointManifestBody` -/
def manifestBody : Codec CheckpointManifestBody :=
  (record 15 (
    (field "schema" text).pair <| (field "checkpoint_profile" text).pair <|
    (field "ledger_profile" text).pair <| (field "storage_root_identity" text).pair <|
    (field "event_chain_head" text).pair <| (field "last_sequence" uint).pair <|
    (field "wal_segment" uint).pair <| (field "wal_offset" uint).pair <|
    (field "projection_digest" text).pair <| (field "snapshot_digest" text).pair <|
    (field "signer_id" text).pair <| (field "key_id" text).pair <|
    (field "issued_at_ms" u64).pair <| (field "expires_at_ms" (u64.option notNull_u64)).pair <|
    (field "previous_checkpoint_ref" ref))).via
    (fun x => (x.schema, x.checkpointProfile, x.ledgerProfile, x.storageRootIdentity,
      x.eventChainHead, x.lastSequence, x.walSegment, x.walOffset, x.projectionDigest,
      x.snapshotDigest, x.signerId, x.keyId, x.issuedAtMs, x.expiresAtMs, x.previousCheckpointRef))
    (fun (x₁, x₂, x₃, x₄, x₅, x₆, x₇, x₈, x₉, x₁₀, x₁₁, x₁₂, x₁₃, x₁₄, x₁₅) => ⟨x₁, x₂, x₃, x₄, x₅,
      x₆, x₇, x₈, x₉, x₁₀, x₁₁, x₁₂, x₁₃, x₁₄, x₁₅⟩)
    fun _ => rfl

end Codec

/-- A signature is the key and the digest of the message. -/
def digestSignature (key : List.Vector UInt8 32) (message : Bytes) : List.Vector UInt8 64 :=
  ⟨key.toList ++ (Sha256.digest message).toList, by simp⟩

/-- The scheme that accepts exactly what it signed. -/
def digestScheme : Ed25519 where
  verifyingKey seed := Sha256.digest seed.toList
  sign seed message := digestSignature (Sha256.digest seed.toList) message
  isKey _ := true
  verify key message signature := decide (signature = digestSignature key message)

/-- The sample scheme verifies what it signs. -/
theorem honest_digestScheme : digestScheme.Honest where
  isKey _ := rfl
  verify _ _ := decide_eq_true rfl

/-- The crates the program is linked with, for checkpoints. -/
def linkedCheckpointCrates : CheckpointCrates :=
  { linkedCrates with
    manifestBody := Codec.manifestBody.serde.toVec
    ed25519 := digestScheme }

/-! ## A signer and a checkpoint -/

/-- A signer. -/
def sampleSigner : CheckpointSigner := ⟨"governance", "key-1", .replicate 32 7⟩

/-- The sample signer is made from its seed. -/
theorem fromSeed_sampleSigner :
    CheckpointSigner.fromSeed "governance" "key-1" (.replicate 32 7) = .ok sampleSigner :=
  result_bind_eq_ok.mpr ⟨"governance", normalized_eq_ok.mpr ⟨by decide, by decide +kernel⟩,
    result_bind_eq_ok.mpr ⟨"key-1", normalized_eq_ok.mpr ⟨by decide, by decide +kernel⟩, rfl⟩⟩

/-- Its key, valid for ever. -/
def sampleKey : TrustedCheckpointKey := sampleSigner.trustedKey linkedCheckpointCrates 0 none none

/-- A registry with that key. -/
def sampleRegistry : TrustedKeyRegistry :=
  ⟨TrustedKeyRegistry.default.keys.insert (keySlot sampleKey.signerId sampleKey.keyId) sampleKey⟩

/-- The registry has the key of the sample signer under its ids. -/
theorem get_sampleRegistry :
    sampleRegistry.get sampleSigner.signerId sampleSigner.keyId = some sampleKey :=
  Std.ExtTreeMap.getElem?_insert_self

/-- This key is active at all times. -/
theorem activeAt_sampleKey (nowMs : UInt64) : sampleKey.ActiveAt nowMs :=
  sampleSigner.activeAt_trustedKey nowMs

/-- What the sample signer signs is accepted by the sample registry from its issuance on. -/
theorem verified_sample {material : CheckpointMaterial} {issuedAtMs nowMs : UInt64}
    {previousCheckpointRef : Option String} {manifest : SignedCheckpointManifest}
    (hsign : sampleSigner.sign linkedCheckpointCrates material issuedAtMs none previousCheckpointRef
      = .ok manifest) (hissued : issuedAtMs ≤ nowMs) :
    Verified linkedCheckpointCrates sampleRegistry nowMs manifest :=
  CheckpointSigner.verified_of_sign honest_digestScheme hsign (by decide) (by decide)
    get_sampleRegistry rfl (activeAt_sampleKey nowMs) hissued (by simp)

/-- The material of a ledger of one event. -/
def sampleMaterial : CheckpointMaterial :=
  ⟨ledgerProfile, sampleRef 0x01, sampleRef 0x02, 1, 1, 400, sampleRef 0x03, sampleRef 0x04⟩

/-- The material of the first checkpoint is well formed. -/
theorem wellFormed_sampleMaterial : sampleMaterial.WellFormed :=
  ⟨by decide, isRef_digestText _, isRef_digestText _, isRef_digestText _, isRef_digestText _,
    Nat.one_ne_zero⟩

/-- The material of that ledger after one more event. -/
def laterMaterial : CheckpointMaterial :=
  ⟨ledgerProfile, sampleRef 0x01, sampleRef 0x12, 2, 1, 800, sampleRef 0x13, sampleRef 0x14⟩

/-- So is that of the second. -/
theorem wellFormed_laterMaterial : laterMaterial.WellFormed :=
  ⟨by decide, isRef_digestText _, isRef_digestText _, isRef_digestText _, isRef_digestText _,
    Nat.succ_ne_zero 1⟩

/-- The reference of a checkpoint of `sampleMaterial`, issued at 5. -/
def firstManifestRef : String := "sha256:2da324850d62c8e8c5781d37b9a0a423f0f3a032ce24873b086cdf8c821658e7"

/-- The reference of a checkpoint of `laterMaterial`, issued at 6 behind that one. -/
def secondManifestRef : String := "sha256:394e73b10e0e13d04139310997b76928cf169c17ea479b7476cabf62c1d79647"

/-- The digest of the first manifest, as it is computed from the bytes that are signed. -/
theorem digest_firstManifest : digestText (Sha256.digest (Codec.manifestBody.enc
    (sampleSigner.manifestBody sampleMaterial 5 none none))) = firstManifestRef := by
  rw [digestText_digest]
  decide +kernel

/-- The digest of the second manifest, which names the first as its predecessor. -/
theorem digest_secondManifest : digestText (Sha256.digest (Codec.manifestBody.enc
    (sampleSigner.manifestBody laterMaterial 6 none (some firstManifestRef)))) = secondManifestRef := by
  rw [digestText_digest]
  decide +kernel

/-- Two checkpoints of the sample ledger, the second with the reference of the first. -/
theorem exists_sample_pair : ∃ first second,
    sampleSigner.sign linkedCheckpointCrates sampleMaterial 5 none none = .ok first ∧
    sampleSigner.sign linkedCheckpointCrates laterMaterial 6 none (some first.manifestRef) = .ok second ∧
    first.manifestRef = firstManifestRef ∧ second.manifestRef = secondManifestRef := by
  -- the reference of the first is a part of what the second signs
  have hlinked : digestText (Sha256.digest (Codec.manifestBody.enc (sampleSigner.manifestBody laterMaterial 6 none
      (some (digestText (Sha256.digest (Codec.manifestBody.enc
        (sampleSigner.manifestBody sampleMaterial 5 none none)))))))) = secondManifestRef := by
    rw [digest_firstManifest, digest_secondManifest]
  refine ⟨_, _, CheckpointSigner.sign_eq_ok.mpr ⟨wellFormed_sampleMaterial, by simp, by simp, _, rfl, rfl⟩,
    CheckpointSigner.sign_eq_ok.mpr ⟨wellFormed_laterMaterial, by simp, ?_, _, rfl, rfl⟩,
    digest_firstManifest, hlinked⟩
  rintro _ ⟨⟩
  exact isRef_sha256Ref _ _

end LiminalDB
