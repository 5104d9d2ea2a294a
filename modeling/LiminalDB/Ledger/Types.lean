import LiminalDB.Wal.Store
import Mathlib.Data.Vector.Basic

/-! # The data model of `trustworthy_transition.rs`

Events, the projection of one transition, the ledger state and the snapshot file. Both `BTreeMap`s
are extensional tree maps, so that two states are equal exactly when they hold the same entries.

The counters of the source (`sequence`, `next_sequence`, `authorization_epoch`, `event_count`) are
`u64`; here they are natural numbers. They start at zero or one and every accepted event moves each
of them by at most one, so the two agree on every history of fewer than `2 ^ 64` events. -/

namespace LiminalDB

/-- `TransitionRecordKind` -/
inductive TransitionRecordKind
  /-- Opens a transition, or supersedes its authorization. -/
  | authorization
  /-- Adds a piece of evidence. -/
  | observation
  /-- Judges the response against the evidence. -/
  | responseIntegrity
  /-- Judges the causal chain. -/
  | causalAudit
  /-- Closes over all current evidence. -/
  | continuitySnapshot
  deriving DecidableEq, Repr

/-- `AuthorityState`: how a response stands to the authority it claims. -/
inductive AuthorityState
  | valid | denied | pending | expired | expiredAtReport | consumed | revalidationRequired
  | notEvaluated | unknown
  deriving DecidableEq, Repr

/-- `ExecutionState`: what was seen of the execution. -/
inductive ExecutionState
  | notObserved | observedExecuted | observedBlocked | observedErrored | observedOther
  deriving DecidableEq, Repr

/-- `ResponseIntegrityState`; `partially` is the source's `Partial`. -/
inductive ResponseIntegrityState
  | verified | failed | partially | notEvaluated | unknown
  deriving DecidableEq, Repr

/-- `CausalValidityState`: whether the cause that the response names holds. -/
inductive CausalValidityState
  | valid | invalid | notEvaluated | unknown
  deriving DecidableEq, Repr

/-- `ContinuityPosture`: how to go on after a verdict. -/
inductive ContinuityPosture
  | continueSideEffect | retrySideEffect | reportOnly | remediateResponse | revalidate | blocked
  | alreadyConsumed | notEvaluated
  deriving DecidableEq, Repr

/-- `TransitionDimensions`: the five independent verdicts. -/
structure TransitionDimensions where
  authority : AuthorityState
  execution : ExecutionState
  responseIntegrity : ResponseIntegrityState
  causalValidity : CausalValidityState
  continuityPosture : ContinuityPosture
  deriving DecidableEq, Repr

/-- `TransitionLinks`: the records an event cites. The defaults are those of `Default`. -/
structure TransitionLinks where
  authorizationRef : Option String := none
  observationRefs : List String := []
  responseIntegrityRef : Option String := none
  causalAuditRef : Option String := none
  previousContinuityRef : Option String := none
  deriving DecidableEq, Repr

/-- Every reference the links hold. -/
def TransitionLinks.refs (links : TransitionLinks) : List String :=
  links.authorizationRef.toList ++ links.observationRefs ++ links.responseIntegrityRef.toList
    ++ links.causalAuditRef.toList ++ links.previousContinuityRef.toList

/-- `TransitionEventInput`: what a caller passes to `append`. -/
structure TransitionEventInput where
  transitionId : String
  subjectId : String
  kind : TransitionRecordKind
  recordRef : String
  payloadDigest : String
  links : TransitionLinks
  dimensions : Option TransitionDimensions
  sideEffectCommitted : Option Bool
  capturedAtMs : UInt64
  deriving DecidableEq, Repr

/-- `TransitionEventBody`: the hashed part of an event. -/
structure TransitionEventBody where
  schema : String
  profile : String
  sequence : Nat
  transitionId : String
  subjectId : String
  kind : TransitionRecordKind
  recordRef : String
  payloadDigest : String
  links : TransitionLinks
  dimensions : Option TransitionDimensions
  sideEffectCommitted : Option Bool
  capturedAtMs : UInt64
  previousEventHash : Option String
  deriving DecidableEq, Repr

/-- The caller's part of an event body. -/
def TransitionEventBody.input (body : TransitionEventBody) : TransitionEventInput :=
  ⟨body.transitionId, body.subjectId, body.kind, body.recordRef, body.payloadDigest, body.links,
    body.dimensions, body.sideEffectCommitted, body.capturedAtMs⟩

namespace TransitionEventBody

variable (body : TransitionEventBody)

/-- The input that an event was made of has its kind. -/
@[simp] theorem input_kind : body.input.kind = body.kind := rfl

/-- It has its reference. -/
@[simp] theorem input_recordRef : body.input.recordRef = body.recordRef := rfl

/-- It has its links. -/
@[simp] theorem input_links : body.input.links = body.links := rfl

end TransitionEventBody

/-- `TransitionEvent`: a body and its hash. -/
structure TransitionEvent where
  body : TransitionEventBody
  eventHash : String
  deriving DecidableEq, Repr

/-- `TransitionProjection`: the current state of one transition. -/
structure TransitionProjection where
  transitionId : String
  subjectId : String
  authorizationRef : Option String
  authorizationEpoch : Nat
  observationRefs : List String
  responseIntegrityRef : Option String
  causalAuditRef : Option String
  continuitySnapshotRef : Option String
  dimensions : Option TransitionDimensions
  sideEffectCommitted : Bool
  lastSequence : Nat
  lastEventHash : String
  eventCount : Nat
  deriving DecidableEq, Repr

/-- `RecordOwner`: which transition introduced a record, and as what. -/
structure RecordOwner where
  transitionId : String
  subjectId : String
  kind : TransitionRecordKind
  deriving DecidableEq, Repr

/-- `LedgerState`: the projection of the whole history. -/
structure LedgerState where
  nextSequence : Nat
  headEventHash : Option String
  projections : Std.ExtTreeMap String TransitionProjection compare
  recordOwners : Std.ExtTreeMap String RecordOwner compare
  deriving DecidableEq

/-- `LedgerState::default()`: no transitions and no events, with one as the first number. -/
def LedgerState.default : LedgerState := ⟨1, none, ∅, ∅⟩

/-- `SnapshotOffset`: a place in the log, by segment and position. -/
structure SnapshotOffset where
  segment : Nat
  position : Nat
  deriving DecidableEq, Repr

/-- `From<Offset> for SnapshotOffset` -/
def SnapshotOffset.ofOffset (offset : Offset) : SnapshotOffset := ⟨offset.segment, offset.position⟩

/-- `From<SnapshotOffset> for Offset` -/
def SnapshotOffset.toOffset (offset : SnapshotOffset) : Offset := ⟨offset.segment, offset.position⟩

/-- `TransitionLedgerSnapshotBody`: the state of a ledger at a place in its log, all of which the digest
covers. -/
structure TransitionLedgerSnapshotBody where
  schema : String
  profile : String
  walOffset : SnapshotOffset
  nextSequence : Nat
  headEventHash : Option String
  projections : Std.ExtTreeMap String TransitionProjection compare
  recordOwners : Std.ExtTreeMap String RecordOwner compare
  projectionDigest : String
  createdAtMs : UInt64
  deriving DecidableEq

/-- The ledger state a snapshot body carries. -/
def TransitionLedgerSnapshotBody.state (body : TransitionLedgerSnapshotBody) : LedgerState :=
  ⟨body.nextSequence, body.headEventHash, body.projections, body.recordOwners⟩

/-- `TransitionLedgerSnapshot`: a body with the digest of it. -/
structure TransitionLedgerSnapshot where
  body : TransitionLedgerSnapshotBody
  snapshotDigest : String
  deriving DecidableEq

/-- `TransitionLedgerError`. A storage error carries the log's own error in place of its text. -/
inductive TransitionLedgerError
  | storage (error : StoreError)
  | encoding (message : String)
  | invalidIdentifier (label : String)
  | invalidReference (label : String)
  | eventProfileMismatch
  | snapshotProfileMismatch
  | sequenceMismatch (expected actual : Nat)
  | previousEventHashMismatch
  | eventHashMismatch
  | snapshotDigestMismatch
  | snapshotProjectionDigestMismatch
  | replayProjectionMismatch
  | duplicateRecordReference (reference : String)
  | missingAuthorization (transitionId : String)
  | missingParent (reference : String)
  | parentMismatch (label : String)
  | crossTransitionReference (reference : String)
  | subjectMismatch (transitionId : String)
  | reauthorizationWithoutSupersession
  | observationSetMismatch
  | sideEffectRollback
  | executionRollback
  | continuityDimensionsRequired
  | invalidLinks (kind : TransitionRecordKind)
  | poisonedAfterStorageFailure
  deriving DecidableEq, Repr

/-- The error comes from the log and not from a check of the ledger. -/
def TransitionLedgerError.isStorage : TransitionLedgerError → Bool
  | storage _ => true
  | _ => false

/-- `EVENT_SCHEMA`: the schema that every event names. -/
def eventSchema : String := "liminaldb.trustworthy-transition-event.v0.1"

/-- `SNAPSHOT_SCHEMA`: the schema that every snapshot names. -/
def snapshotSchema : String := "liminaldb.trustworthy-transition-snapshot.v0.1"

/-- `PROFILE`: the profile that every event and snapshot names. -/
def profile : String := "org.liminaldb.trustworthy-transition-ledger.v0.1"

/-! ## The crates underneath -/

/-- The CBOR coding of one type by `serde_cbor`. -/
structure Serde (α : Type) where
  /-- `serde_cbor::to_vec` -/
  toVec : α → Except String Bytes
  /-- `serde_cbor::from_slice` -/
  fromSlice : Bytes → Except String α

/-- `from_slice` undoes `to_vec`, which does not fail on the type. -/
def Serde.Lossless {α : Type} (serde : Serde α) : Prop :=
  ∀ a, ∃ bytes, serde.toVec a = .ok bytes ∧ serde.fromSlice bytes = .ok a

/-- `from_slice` reads no value from a cut off encoding. -/
def Serde.RejectsTruncated {α : Type} (serde : Serde α) : Prop :=
  ∀ {a bytes written}, serde.toVec a = .ok bytes → written <+: bytes → written ≠ bytes →
    ∃ e, serde.fromSlice written = .error e

/-- The functions of other crates that the ledger calls. The last three types are only ever encoded,
to be hashed. -/
structure Crates where
  /-- `crc32fast` -/
  crc32 : Bytes → UInt32
  /-- `Sha256::digest` -/
  sha256 : Bytes → List.Vector UInt8 32
  /-- CBOR of an event -/
  event : Serde TransitionEvent
  /-- CBOR of a snapshot -/
  snapshot : Serde TransitionLedgerSnapshot
  /-- `to_vec` of an event body -/
  eventBody : TransitionEventBody → Except String Bytes
  /-- `to_vec` of a snapshot body -/
  snapshotBody : TransitionLedgerSnapshotBody → Except String Bytes
  /-- `to_vec` of `ProjectionDigestMaterial`, which borrows the four fields of a state -/
  projectionDigestMaterial : LedgerState → Except String Bytes

/-- The assumption on `serde_cbor`: `to_vec` succeeds on every type of the ledger, and `from_slice`
undoes it where the ledger reads the type back. -/
structure Crates.Lossless (env : Crates) : Prop where
  event : env.event.Lossless
  snapshot : env.snapshot.Lossless
  eventBody : ∀ body, ∃ bytes, env.eventBody body = .ok bytes
  snapshotBody : ∀ body, ∃ bytes, env.snapshotBody body = .ok bytes
  projectionDigestMaterial : ∀ state, ∃ bytes, env.projectionDigestMaterial state = .ok bytes

end LiminalDB
