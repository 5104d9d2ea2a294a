import LiminalDB.Foundations.Sha256
import LiminalDB.Ledger.Types
import LiminalDB.Wal.Crc32

/-! # The crates the ledger is linked with

`linkedCrates` is the instance of `Crates` the program runs with: CRC-32, SHA-256, and for every type
the CBOR that its derived `Serialize` writes, with `serde`'s names for fields and variants.
`lossless_linkedCrates` discharges the assumption on `serde_cbor` for it. -/

namespace LiminalDB

namespace Codec

/-- The `serde` name of a `TransitionRecordKind`. -/
def transitionRecordKindName : TransitionRecordKind → String
  | .authorization => "authorization"
  | .observation => "observation"
  | .responseIntegrity => "response_integrity"
  | .causalAudit => "causal_audit"
  | .continuitySnapshot => "continuity_snapshot"

/-- `TransitionRecordKind` -/
def transitionRecordKind : Codec TransitionRecordKind :=
  variant transitionRecordKindName
    [.authorization, .observation, .responseIntegrity, .causalAudit, .continuitySnapshot]
    (by rintro (_ | _) <;> decide)

/-- The `serde` name of an `AuthorityState`. -/
def authorityStateName : AuthorityState → String
  | .valid => "VALID"
  | .denied => "DENIED"
  | .pending => "PENDING"
  | .expired => "EXPIRED"
  | .expiredAtReport => "EXPIRED_AT_REPORT"
  | .consumed => "CONSUMED"
  | .revalidationRequired => "REVALIDATION_REQUIRED"
  | .notEvaluated => "NOT_EVALUATED"
  | .unknown => "UNKNOWN"

/-- `AuthorityState` -/
def authorityState : Codec AuthorityState :=
  variant authorityStateName
    [.valid, .denied, .pending, .expired, .expiredAtReport, .consumed, .revalidationRequired,
     .notEvaluated, .unknown]
    (by rintro (_ | _) <;> decide)

/-- The `serde` name of an `ExecutionState`. -/
def executionStateName : ExecutionState → String
  | .notObserved => "NOT_OBSERVED"
  | .observedExecuted => "OBSERVED_EXECUTED"
  | .observedBlocked => "OBSERVED_BLOCKED"
  | .observedErrored => "OBSERVED_ERRORED"
  | .observedOther => "OBSERVED_OTHER"

/-- `ExecutionState` -/
def executionState : Codec ExecutionState :=
  variant executionStateName
    [.notObserved, .observedExecuted, .observedBlocked, .observedErrored, .observedOther]
    (by rintro (_ | _) <;> decide)

/-- The `serde` name of a `ResponseIntegrityState`. -/
def responseIntegrityStateName : ResponseIntegrityState → String
  | .verified => "VERIFIED"
  | .failed => "FAILED"
  | .partially => "PARTIAL"
  | .notEvaluated => "NOT_EVALUATED"
  | .unknown => "UNKNOWN"

/-- `ResponseIntegrityState` -/
def responseIntegrityState : Codec ResponseIntegrityState :=
  variant responseIntegrityStateName
    [.verified, .failed, .partially, .notEvaluated, .unknown]
    (by rintro (_ | _) <;> decide)

/-- The `serde` name of a `CausalValidityState`. -/
def causalValidityStateName : CausalValidityState → String
  | .valid => "VALID"
  | .invalid => "INVALID"
  | .notEvaluated => "NOT_EVALUATED"
  | .unknown => "UNKNOWN"

/-- `CausalValidityState` -/
def causalValidityState : Codec CausalValidityState :=
  variant causalValidityStateName
    [.valid, .invalid, .notEvaluated, .unknown]
    (by rintro (_ | _) <;> decide)

/-- The `serde` name of a `ContinuityPosture`. -/
def continuityPostureName : ContinuityPosture → String
  | .continueSideEffect => "CONTINUE_SIDE_EFFECT"
  | .retrySideEffect => "RETRY_SIDE_EFFECT"
  | .reportOnly => "REPORT_ONLY"
  | .remediateResponse => "REMEDIATE_RESPONSE"
  | .revalidate => "REVALIDATE"
  | .blocked => "BLOCKED"
  | .alreadyConsumed => "ALREADY_CONSUMED"
  | .notEvaluated => "NOT_EVALUATED"

/-- `ContinuityPosture` -/
def continuityPosture : Codec ContinuityPosture :=
  variant continuityPostureName
    [.continueSideEffect, .retrySideEffect, .reportOnly, .remediateResponse, .revalidate, .blocked,
     .alreadyConsumed, .notEvaluated]
    (by rintro (_ | _) <;> decide)

/-- `Option<String>` -/
def ref : Codec (Option String) := text.option notNull_text

/-- `Option<bool>` -/
def flag : Codec (Option Bool) := bool.option notNull_bool

/-- `u64` -/
def u64 : Codec UInt64 := uint.via UInt64.toNat UInt64.ofNat fun _ => UInt64.ofNat_toNat

/-- `TransitionDimensions` -/
def dimensions : Codec TransitionDimensions :=
  (record 5 (
    (field "authority" authorityState).pair <| (field "execution" executionState).pair <|
    (field "response_integrity" responseIntegrityState).pair <|
    (field "causal_validity" causalValidityState).pair <|
    (field "continuity_posture" continuityPosture))).via
    (fun x => (x.authority, x.execution, x.responseIntegrity, x.causalValidity,
      x.continuityPosture))
    (fun (x₁, x₂, x₃, x₄, x₅) => ⟨x₁, x₂, x₃, x₄, x₅⟩)
    fun _ => rfl

/-- `Option<TransitionDimensions>` -/
def dimensionsOpt : Codec (Option TransitionDimensions) :=
  dimensions.option fun _ => notNull_record 5 _ _

/-- `TransitionLinks` -/
def links : Codec TransitionLinks :=
  (record 5 (
    (field "authorization_ref" ref).pair <| (field "observation_refs" text.list).pair <|
    (field "response_integrity_ref" ref).pair <| (field "causal_audit_ref" ref).pair <|
    (field "previous_continuity_ref" ref))).via
    (fun x => (x.authorizationRef, x.observationRefs, x.responseIntegrityRef, x.causalAuditRef,
      x.previousContinuityRef))
    (fun (x₁, x₂, x₃, x₄, x₅) => ⟨x₁, x₂, x₃, x₄, x₅⟩)
    fun _ => rfl

/-- `TransitionEventBody` -/
def eventBody : Codec TransitionEventBody :=
  (record 13 (
    (field "schema" text).pair <| (field "profile" text).pair <| (field "sequence" uint).pair <|
    (field "transition_id" text).pair <| (field "subject_id" text).pair <|
    (field "kind" transitionRecordKind).pair <| (field "record_ref" text).pair <|
    (field "payload_digest" text).pair <| (field "links" links).pair <|
    (field "dimensions" dimensionsOpt).pair <| (field "side_effect_committed" flag).pair <|
    (field "captured_at_ms" u64).pair <| (field "previous_event_hash" ref))).via
    (fun x => (x.schema, x.profile, x.sequence, x.transitionId, x.subjectId, x.kind, x.recordRef,
      x.payloadDigest, x.links, x.dimensions, x.sideEffectCommitted, x.capturedAtMs,
      x.previousEventHash))
    (fun (x₁, x₂, x₃, x₄, x₅, x₆, x₇, x₈, x₉, x₁₀, x₁₁, x₁₂, x₁₃) => ⟨x₁, x₂, x₃, x₄, x₅, x₆, x₇,
      x₈, x₉, x₁₀, x₁₁, x₁₂, x₁₃⟩)
    fun _ => rfl

/-- `TransitionEvent` -/
def event : Codec TransitionEvent :=
  (record 2 (
    (field "body" eventBody).pair <| (field "event_hash" text))).via
    (fun x => (x.body, x.eventHash))
    (fun (x₁, x₂) => ⟨x₁, x₂⟩)
    fun _ => rfl

/-- `TransitionProjection` -/
def projection : Codec TransitionProjection :=
  (record 13 (
    (field "transition_id" text).pair <| (field "subject_id" text).pair <|
    (field "authorization_ref" ref).pair <| (field "authorization_epoch" uint).pair <|
    (field "observation_refs" text.list).pair <| (field "response_integrity_ref" ref).pair <|
    (field "causal_audit_ref" ref).pair <| (field "continuity_snapshot_ref" ref).pair <|
    (field "dimensions" dimensionsOpt).pair <| (field "side_effect_committed" bool).pair <|
    (field "last_sequence" uint).pair <| (field "last_event_hash" text).pair <|
    (field "event_count" uint))).via
    (fun x => (x.transitionId, x.subjectId, x.authorizationRef, x.authorizationEpoch,
      x.observationRefs, x.responseIntegrityRef, x.causalAuditRef, x.continuitySnapshotRef,
      x.dimensions, x.sideEffectCommitted, x.lastSequence, x.lastEventHash, x.eventCount))
    (fun (x₁, x₂, x₃, x₄, x₅, x₆, x₇, x₈, x₉, x₁₀, x₁₁, x₁₂, x₁₃) => ⟨x₁, x₂, x₃, x₄, x₅, x₆, x₇,
      x₈, x₉, x₁₀, x₁₁, x₁₂, x₁₃⟩)
    fun _ => rfl

/-- `RecordOwner` -/
def recordOwner : Codec RecordOwner :=
  (record 3 (
    (field "transition_id" text).pair <| (field "subject_id" text).pair <|
    (field "kind" transitionRecordKind))).via
    (fun x => (x.transitionId, x.subjectId, x.kind))
    (fun (x₁, x₂, x₃) => ⟨x₁, x₂, x₃⟩)
    fun _ => rfl

/-- `SnapshotOffset` -/
def snapshotOffset : Codec SnapshotOffset :=
  (record 2 (
    (field "segment" uint).pair <| (field "position" uint))).via
    (fun x => (x.segment, x.position))
    (fun (x₁, x₂) => ⟨x₁, x₂⟩)
    fun _ => rfl

/-- `TransitionLedgerSnapshotBody` -/
def snapshotBody : Codec TransitionLedgerSnapshotBody :=
  (record 9 (
    (field "schema" text).pair <| (field "profile" text).pair <|
    (field "wal_offset" snapshotOffset).pair <| (field "next_sequence" uint).pair <|
    (field "head_event_hash" ref).pair <| (field "projections" projection.map).pair <|
    (field "record_owners" recordOwner.map).pair <| (field "projection_digest" text).pair <|
    (field "created_at_ms" u64))).via
    (fun x => (x.schema, x.profile, x.walOffset, x.nextSequence, x.headEventHash, x.projections,
      x.recordOwners, x.projectionDigest, x.createdAtMs))
    (fun (x₁, x₂, x₃, x₄, x₅, x₆, x₇, x₈, x₉) => ⟨x₁, x₂, x₃, x₄, x₅, x₆, x₇, x₈, x₉⟩)
    fun _ => rfl

/-- `TransitionLedgerSnapshot` -/
def snapshot : Codec TransitionLedgerSnapshot :=
  (record 2 (
    (field "body" snapshotBody).pair <| (field "snapshot_digest" text))).via
    (fun x => (x.body, x.snapshotDigest))
    (fun (x₁, x₂) => ⟨x₁, x₂⟩)
    fun _ => rfl

/-- `ProjectionDigestMaterial` -/
def projectionDigestMaterial : Codec LedgerState :=
  (record 4 (
    (field "next_sequence" uint).pair <| (field "head_event_hash" ref).pair <|
    (field "projections" projection.map).pair <| (field "record_owners" recordOwner.map))).via
    (fun x => (x.nextSequence, x.headEventHash, x.projections, x.recordOwners))
    (fun (x₁, x₂, x₃, x₄) => ⟨x₁, x₂, x₃, x₄⟩)
    fun _ => rfl

/-! ### Cut off events -/

/-- A number is read as the same with more bytes behind it. -/
theorem stable_uint : Stable uint.dec := stable_decHead 0

/-- So is a reference that may be missing. -/
theorem stable_ref : Stable ref.dec := stable_option stable_text notNull_text

/-- So are the dimensions of a record. -/
theorem stable_dimensions : Stable dimensions.dec := by
  refine stable_via (stable_behind ?_ _) _
  exact stable_pair (stable_behind (stable_variant _) _) <|
    stable_pair (stable_behind (stable_variant _) _) <|
    stable_pair (stable_behind (stable_variant _) _) <|
    stable_pair (stable_behind (stable_variant _) _) (stable_behind (stable_variant _) _)

/-- So are its links. -/
theorem stable_links : Stable links.dec := by
  have hrefs : Stable text.list.dec := stable_counted _ stable_text
  refine stable_via (stable_behind ?_ _) _
  exact stable_pair (stable_behind stable_ref _) <| stable_pair (stable_behind hrefs _) <|
    stable_pair (stable_behind stable_ref _) <| stable_pair (stable_behind stable_ref _)
      (stable_behind stable_ref _)

/-- So is the body of an event, field by field. -/
theorem stable_eventBody : Stable eventBody.dec := by
  have hdimensions : Stable dimensionsOpt.dec := stable_option stable_dimensions _
  have hflag : Stable flag.dec := stable_option stable_bool notNull_bool
  have htime : Stable u64.dec := stable_via stable_uint _
  refine stable_via (stable_behind ?_ _) _
  exact stable_pair (stable_behind stable_text _) <| stable_pair (stable_behind stable_text _) <|
    stable_pair (stable_behind stable_uint _) <| stable_pair (stable_behind stable_text _) <|
    stable_pair (stable_behind stable_text _) <| stable_pair (stable_behind (stable_variant _) _) <|
    stable_pair (stable_behind stable_text _) <| stable_pair (stable_behind stable_text _) <|
    stable_pair (stable_behind stable_links _) <| stable_pair (stable_behind hdimensions _) <|
    stable_pair (stable_behind hflag _) <| stable_pair (stable_behind htime _)
      (stable_behind stable_ref _)

/-- What follows the encoding of an event does not change how it is read. -/
theorem stable_event : Stable event.dec :=
  stable_via (stable_behind (stable_pair (stable_behind stable_eventBody _)
    (stable_behind stable_text _)) _) _

/-- The size of an event: the names of the fields, and the fields. -/
theorem length_event (event : TransitionEvent) :
    (Codec.event.enc event).length = 172 + (text.enc event.body.schema).length
      + (text.enc event.body.profile).length + (uint.enc event.body.sequence).length
      + (text.enc event.body.transitionId).length + (text.enc event.body.subjectId).length
      + (transitionRecordKind.enc event.body.kind).length + (text.enc event.body.recordRef).length
      + (text.enc event.body.payloadDigest).length + (links.enc event.body.links).length
      + (dimensionsOpt.enc event.body.dimensions).length
      + (flag.enc event.body.sideEffectCommitted).length
      + (u64.enc event.body.capturedAtMs).length + (ref.enc event.body.previousEventHash).length
      + (text.enc event.eventHash).length := by
  have hnames : ((["schema", "profile", "sequence", "transition_id", "subject_id", "kind", "record_ref",
      "payload_digest", "links", "dimensions", "side_effect_committed", "captured_at_ms",
      "previous_event_hash", "body", "event_hash"].map fun name => (text.enc name).length).sum
      + (encHead 5 2).length + (encHead 5 13).length) = 172 := by decide +kernel
  simp only [List.map_cons, List.map_nil, List.sum_cons, List.sum_nil] at hnames
  simp only [Codec.event, Codec.eventBody, Codec.via, Codec.record, Codec.behind, Codec.field,
    Codec.pair, List.length_append]
  omega

end Codec

/-- `serde_cbor` on a type with the given coding: trailing bytes are an error. -/
def Codec.serde {α : Type} (c : Codec α) : Serde α where
  toVec a := .ok (c.enc a)
  fromSlice bytes :=
    match c.dec bytes with
    | some (a, []) => .ok a
    | some (_, _ :: _) => .error "trailing data"
    | none => .error "invalid data"

/-- What a codec writes is read back. -/
theorem Codec.lossless_serde {α : Type} (c : Codec α) : c.serde.Lossless := by
  intro a
  refine ⟨c.enc a, rfl, ?_⟩
  have h := c.dec_enc a []
  rw [List.append_nil] at h
  simp [Codec.serde, h]

/-- What a stable codec writes is not read from a part of it. -/
theorem Codec.rejectsTruncated_serde {α : Type} {c : Codec α} (hc : Codec.Stable c.dec) :
    c.serde.RejectsTruncated := by
  intro a bytes written henc hprefix hne
  cases henc
  simp only [Codec.serde]
  split
  · rename_i b hdec
    exact absurd hdec (Codec.dec_ne_of_prefix hc hprefix hne)
  · exact ⟨_, rfl⟩
  · exact ⟨_, rfl⟩

/-- The crates the program is linked with. -/
def linkedCrates : Crates where
  crc32 := crc32Ieee
  sha256 := Sha256.digest
  event := Codec.event.serde
  snapshot := Codec.snapshot.serde
  eventBody := Codec.eventBody.serde.toVec
  snapshotBody := Codec.snapshotBody.serde.toVec
  projectionDigestMaterial := Codec.projectionDigestMaterial.serde.toVec

/-- `serde_cbor` loses nothing on the types of the ledger. -/
theorem lossless_linkedCrates : linkedCrates.Lossless where
  event := Codec.event.lossless_serde
  snapshot := Codec.snapshot.lossless_serde
  eventBody := fun _ => ⟨_, rfl⟩
  snapshotBody := fun _ => ⟨_, rfl⟩
  projectionDigestMaterial := fun _ => ⟨_, rfl⟩

/-- The beginning of an event is not an event. -/
theorem rejectsTruncated_linkedCrates : linkedCrates.event.RejectsTruncated :=
  Codec.rejectsTruncated_serde Codec.stable_event

end LiminalDB
