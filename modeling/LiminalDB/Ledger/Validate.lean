import LiminalDB.Foundations.StateResult
import LiminalDB.Ledger.Types

/-! # Validation of inputs and of event bodies

The write path normalises what a caller passes (`normalizeInput`), the replay path insists that a
stored body is already canonical (`validateEventBody`). The two are written separately in the source.
`Canonical` is what both enforce: `validateEventBody_eq_ok` and `normalizeInput_eq_ok` say so, and
`Canonical.normalized_eq` that normalising leaves a canonical input alone. -/

namespace LiminalDB

/-- `validate_ref`: `sha256:` and 64 lower-case hexadecimal digits. -/
def validateRef (reference : String) (label : String) : Except TransitionLedgerError Unit :=
  let bytes := asBytes reference
  let valid := bytes.length == 71 && "sha256:".toList.isPrefixOf reference.toList
    && (bytes.drop 7).all isLowerHex
  failIf (¬ valid) (.invalidReference label)

/-- `validate_optional_ref`: a reference has its shape where there is one. -/
def validateOptionalRef (reference : Option String) (label : String) :
    Except TransitionLedgerError Unit :=
  match reference with
  | some reference => validateRef reference label
  | none => .ok ()

/-- `non_empty`: trim, and refuse what is empty then. -/
def nonEmpty (value : String) (label : String) : Except TransitionLedgerError String :=
  let normalized := trim value
  if normalized.isEmpty then .error (.invalidIdentifier label) else .ok normalized

/-- `validate_canonical_identifier`: not empty and already trimmed. -/
def validateCanonicalIdentifier (value : String) (label : String) :
    Except TransitionLedgerError Unit :=
  let trimmed := trim value
  failIf (trimmed.isEmpty ∨ trimmed ≠ value) (.invalidIdentifier label)

/-- `normalize_input`: an input with its names trimmed, whose references all have their shape. -/
def normalizeInput (input : TransitionEventInput) :
    Except TransitionLedgerError TransitionEventInput := do
  let transitionId ← nonEmpty input.transitionId "transition_id"
  let subjectId ← nonEmpty input.subjectId "subject_id"
  validateRef input.recordRef "record_ref"
  validateRef input.payloadDigest "payload_digest"
  validateOptionalRef input.links.authorizationRef "authorization_ref"
  validateOptionalRef input.links.responseIntegrityRef "response_integrity_ref"
  validateOptionalRef input.links.causalAuditRef "causal_audit_ref"
  validateOptionalRef input.links.previousContinuityRef "previous_continuity_ref"
  input.links.observationRefs.forM (validateRef · "observation_ref")
  let links := { input.links with observationRefs := sortDedup input.links.observationRefs }
  failIf (input.kind = .continuitySnapshot ∧ input.dimensions.isNone) .continuityDimensionsRequired
  return { input with transitionId := transitionId, subjectId := subjectId, links := links }

/-- `validate_event_body`: the same of a body that was read, whose names have to be trimmed already. -/
def validateEventBody (body : TransitionEventBody) : Except TransitionLedgerError Unit := do
  validateCanonicalIdentifier body.transitionId "transition_id"
  validateCanonicalIdentifier body.subjectId "subject_id"
  validateRef body.recordRef "record_ref"
  validateRef body.payloadDigest "payload_digest"
  validateOptionalRef body.links.authorizationRef "authorization_ref"
  validateOptionalRef body.links.responseIntegrityRef "response_integrity_ref"
  validateOptionalRef body.links.causalAuditRef "causal_audit_ref"
  validateOptionalRef body.links.previousContinuityRef "previous_continuity_ref"
  validateOptionalRef body.previousEventHash "previous_event_hash"
  body.links.observationRefs.forM (validateRef · "observation_ref")
  let canonicalObservations := sortDedup body.links.observationRefs
  failIf (canonicalObservations ≠ body.links.observationRefs) (.invalidLinks body.kind)
  failIf (body.kind = .continuitySnapshot ∧ body.dimensions.isNone) .continuityDimensionsRequired

/-! ## What is accepted -/

/-- A well-formed reference. -/
def IsRef (reference : String) : Prop :=
  (asBytes reference).length = 71 ∧ "sha256:".toList <+: reference.toList ∧
    ((asBytes reference).drop 7).all isLowerHex = true

/-- A usable identifier: not empty and free of white space at both ends. -/
def IsIdentifier (value : String) : Prop := value ≠ "" ∧ trim value = value

/-- What an event's caller part must satisfy to be recorded. -/
structure Canonical (input : TransitionEventInput) : Prop where
  transitionId : IsIdentifier input.transitionId
  subjectId : IsIdentifier input.subjectId
  recordRef : IsRef input.recordRef
  payloadDigest : IsRef input.payloadDigest
  refs : ∀ r ∈ input.links.refs, IsRef r
  /-- The observation references are strictly increasing. -/
  observationRefs : sortDedup input.links.observationRefs = input.links.observationRefs
  dimensions : input.kind = .continuitySnapshot → input.dimensions.isSome

/-- The input as it is recorded: identifiers trimmed, observation references sorted and
deduplicated. -/
def TransitionEventInput.normalized (input : TransitionEventInput) : TransitionEventInput :=
  { input with
    transitionId := trim input.transitionId
    subjectId := trim input.subjectId
    links := { input.links with observationRefs := sortDedup input.links.observationRefs } }

/-- The check of a reference succeeds exactly if it is one. -/
@[simp] theorem validateRef_eq_ok {reference label : String} {u : Unit} :
    validateRef reference label = .ok u ↔ IsRef reference := by
  unfold validateRef
  rw [failIf_eq_ok]
  simp [IsRef, and_assoc]

/-- A reference that may be missing is checked only if it is given. -/
@[simp] theorem validateOptionalRef_eq_ok {reference : Option String} {label : String} {u : Unit} :
    validateOptionalRef reference label = .ok u ↔ ∀ r ∈ reference, IsRef r := by
  cases reference with
  | none => simp [validateOptionalRef]
  | some r => simp [validateOptionalRef]

/-- The check of an identifier succeeds exactly if it is one. -/
@[simp] theorem validateCanonicalIdentifier_eq_ok {value label : String} {u : Unit} :
    validateCanonicalIdentifier value label = .ok u ↔ IsIdentifier value := by
  unfold validateCanonicalIdentifier
  rw [failIf_eq_ok, IsIdentifier]
  simp only [String.isEmpty_iff, not_or, not_not, ne_eq]
  constructor
  · rintro ⟨hne, htrim⟩
    exact ⟨htrim ▸ hne, htrim⟩
  · rintro ⟨hne, htrim⟩
    exact ⟨htrim.symm ▸ hne, htrim⟩

/-- A text is trimmed, and has to be an identifier after that. -/
@[simp] theorem nonEmpty_eq_ok {value label normalized : String} :
    nonEmpty value label = .ok normalized ↔ IsIdentifier (trim value) ∧ normalized = trim value := by
  have hident : IsIdentifier (trim value) ↔ trim value ≠ "" := and_iff_left (trim_trim value)
  rw [hident]
  unfold nonEmpty
  by_cases h : trim value = ""
  · rw [if_pos (String.isEmpty_iff.mpr h)]
    simp [h]
  · rw [if_neg (by simpa using h)]
    simp [h, eq_comm]

/-- The test of `validate_ref`, which other modules of the store repeat with errors of their own. -/
def checkRef {ε : Type} (reference : String) (e : ε) : Except ε Unit :=
  let bytes := asBytes reference
  let valid := bytes.length == 71 && "sha256:".toList.isPrefixOf reference.toList
    && (bytes.drop 7).all isLowerHex
  failIf (¬ valid) e

/-- A reference is checked in the same way wherever an error of its own is raised. -/
@[simp] theorem checkRef_eq_ok {ε : Type} {reference : String} {e : ε} {u : Unit} :
    checkRef reference e = .ok u ↔ IsRef reference := by
  unfold checkRef
  rw [failIf_eq_ok]
  simp [IsRef, and_assoc]

/-- The references of the links, field by field. -/
theorem forall_mem_refs {links : TransitionLinks} {P : String → Prop} :
    (∀ r ∈ links.refs, P r) ↔
      (∀ r ∈ links.authorizationRef, P r) ∧ (∀ r ∈ links.responseIntegrityRef, P r) ∧
      (∀ r ∈ links.causalAuditRef, P r) ∧ (∀ r ∈ links.previousContinuityRef, P r) ∧
      ∀ r ∈ links.observationRefs, P r := by
  simp only [TransitionLinks.refs, List.forall_mem_append, Option.mem_toList]
  tauto

/-- The test both paths make for the dimensions of a continuity snapshot. -/
theorem continuityDimensions_iff {kind : TransitionRecordKind}
    {dimensions : Option TransitionDimensions} :
    ¬ (kind = .continuitySnapshot ∧ dimensions.isNone) ↔
      (kind = .continuitySnapshot → dimensions.isSome) := by
  cases dimensions <;> simp

/-- **The replay path** accepts exactly the canonical bodies with a well-formed predecessor. -/
theorem validateEventBody_eq_ok {body : TransitionEventBody} {u : Unit} :
    validateEventBody body = .ok u ↔
      Canonical body.input ∧ ∀ h ∈ body.previousEventHash, IsRef h := by
  unfold validateEventBody
  simp only [result_bind_eq_ok, validateCanonicalIdentifier_eq_ok, validateRef_eq_ok,
    validateOptionalRef_eq_ok, forM_eq_ok, failIf_eq_ok]
  constructor
  · rintro ⟨-, htid, -, hsid, -, hrec, -, hpay, -, hauth, -, hri, -, hca, -, hpc, -, hprev, -,
      hobs, -, hsorted, hdim⟩
    exact ⟨⟨htid, hsid, hrec, hpay, forall_mem_refs.mpr ⟨hauth, hri, hca, hpc, hobs⟩,
      not_not.mp hsorted, continuityDimensions_iff.mp hdim⟩, hprev⟩
  · rintro ⟨hcan, hprev⟩
    obtain ⟨hauth, hri, hca, hpc, hobs⟩ := forall_mem_refs.mp hcan.refs
    exact ⟨(), hcan.transitionId, (), hcan.subjectId, (), hcan.recordRef, (), hcan.payloadDigest,
      (), hauth, (), hri, (), hca, (), hpc, (), hprev, (), hobs, (),
      not_not.mpr hcan.observationRefs, continuityDimensions_iff.mpr hcan.dimensions⟩

/-- **The write path** turns an input into its normal form, and accepts it exactly when that is
canonical. -/
theorem normalizeInput_eq_ok {input normalized : TransitionEventInput} :
    normalizeInput input = .ok normalized ↔
      Canonical input.normalized ∧ normalized = input.normalized := by
  unfold normalizeInput
  simp only [result_bind_eq_ok, nonEmpty_eq_ok, validateRef_eq_ok, validateOptionalRef_eq_ok,
    forM_eq_ok, failIf_eq_ok]
  constructor
  · rintro ⟨tid, ⟨htid, rfl⟩, sid, ⟨hsid, rfl⟩, -, hrec, -, hpay, -, hauth, -, hri, -, hca, -, hpc,
      -, hobs, -, hdim, hlast⟩
    cases hlast
    refine ⟨⟨htid, hsid, hrec, hpay, forall_mem_refs.mpr ⟨hauth, hri, hca, hpc, ?_⟩, ?_,
      continuityDimensions_iff.mp hdim⟩, rfl⟩
    · -- the references are checked before they are sorted
      intro r hr
      exact hobs r (mem_sortDedup.mp hr)
    · exact sortDedup_sortDedup _
  · rintro ⟨hcan, rfl⟩
    obtain ⟨hauth, hri, hca, hpc, hobs⟩ := forall_mem_refs.mp hcan.refs
    refine ⟨_, ⟨hcan.transitionId, rfl⟩, _, ⟨hcan.subjectId, rfl⟩, (), hcan.recordRef, (),
      hcan.payloadDigest, (), hauth, (), hri, (), hca, (), hpc, (), ?_, (),
      continuityDimensions_iff.mpr hcan.dimensions, rfl⟩
    intro r hr
    exact hobs r (mem_sortDedup.mpr hr)

/-- Normalising leaves a canonical input alone. -/
theorem Canonical.normalized_eq {input : TransitionEventInput} (h : Canonical input) :
    input.normalized = input := by
  unfold TransitionEventInput.normalized
  rw [h.transitionId.2, h.subjectId.2, h.observationRefs]

/-! ## Digests -/

/-- A digest as a reference: `sha256:` and its bytes in lower-case hexadecimal. -/
def digestText (digest : List.Vector UInt8 32) : String :=
  "sha256:" ++ String.ofList (digest.toList.flatMap hexByte)

/-- `sha256_ref`: the digest of the bytes, as the text by which records refer to it. -/
def sha256Ref (env : Crates) (bytes : Bytes) : String := digestText (env.sha256 bytes)

/-- `digest_cbor`, for a value with the given coding. -/
def digestCbor {α : Type} (env : Crates) (toVec : α → Except String Bytes) (value : α) :
    Except TransitionLedgerError String := do
  let bytes ← (toVec value).mapError .encoding
  return sha256Ref env bytes

/-- The text of a digest is a well-formed reference. -/
theorem isRef_digestText (digest : List.Vector UInt8 32) : IsRef (digestText digest) := by
  obtain ⟨hlen, hall⟩ := asBytes_hex digest.toList
  rw [List.Vector.toList_length] at hlen
  have hbytes : asBytes (digestText digest) =
      [0x73, 0x68, 0x61, 0x32, 0x35, 0x36, 0x3a] ++
        (digest.toList.flatMap hexByte).flatMap String.utf8EncodeChar := by
    simp only [asBytes_eq, digestText, String.toList_append, String.toList_ofList,
      List.flatMap_append]
    rfl
  refine ⟨?_, ?_, ?_⟩
  · rw [hbytes, List.length_append, hlen]
    rfl
  · rw [digestText, String.toList_append]
    exact List.prefix_append _ _
  · rw [hbytes]
    exact hall

/-- Every event hash can be cited as a predecessor. -/
theorem isRef_sha256Ref (env : Crates) (bytes : Bytes) : IsRef (sha256Ref env bytes) :=
  isRef_digestText _

/-- Two hexadecimal digits determine the byte. -/
theorem hexByte_injective : Function.Injective hexByte := by
  intro a b h
  have hdigit : ∀ m < 16, ∀ n < 16, hexDigit m = hexDigit n → m = n := by decide
  have ha := a.toNat_lt
  have hb := b.toNat_lt
  simp only [hexByte, List.cons.injEq, and_true] at h
  have hhi := hdigit _ (by omega) _ (by omega) h.1
  have hlo := hdigit _ (by omega) _ (by omega) h.2
  exact UInt8.toNat_inj.mp (by omega)

/-- The text of a digest determines the digest. -/
theorem digestText_injective : Function.Injective digestText := by
  intro a b h
  have htext := congrArg String.toList h
  simp only [digestText, String.toList_append, String.toList_ofList, List.append_cancel_left_eq]
    at htext
  -- each byte takes two characters, so the texts can be compared byte by byte
  have hex_inj : ∀ xs ys : Bytes, xs.flatMap hexByte = ys.flatMap hexByte → xs = ys := by
    intro xs
    induction xs with
    | nil =>
        rintro (_ | ⟨y, ys⟩) hxy
        · rfl
        · cases hxy
    | cons x xs ih =>
        rintro (_ | ⟨y, ys⟩) hxy
        · cases hxy
        · rw [List.flatMap_cons, List.flatMap_cons] at hxy
          obtain ⟨hhead, htail⟩ := List.append_inj hxy rfl
          rw [hexByte_injective hhead, ih ys htail]
  exact List.Vector.toList_injective (hex_inj _ _ htext)

/-- A digest is that of the encoded bytes, where there are any. -/
theorem digestCbor_eq_ok {α : Type} {env : Crates} {toVec : α → Except String Bytes} {value : α}
    {digest : String} :
    digestCbor env toVec value = .ok digest ↔
      ∃ bytes, toVec value = .ok bytes ∧ digest = sha256Ref env bytes := by
  unfold digestCbor
  cases toVec value with
  | ok bytes => simp [Except.mapError, bind, Except.bind, pure, Except.pure, eq_comm]
  | error message => simp [Except.mapError, bind, Except.bind]

/-- A digest is a reference. -/
theorem isRef_of_digestCbor {α : Type} {env : Crates} {toVec : α → Except String Bytes} {value : α}
    {digest : String} (h : digestCbor env toVec value = .ok digest) : IsRef digest := by
  obtain ⟨bytes, -, rfl⟩ := digestCbor_eq_ok.mp h
  exact isRef_sha256Ref env bytes

end LiminalDB
