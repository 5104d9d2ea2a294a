import LiminalDB.Checkpoint.AntiRollback

/-! # How anchor failures are classified

A caller that branches on the three anchor errors wants to know which one a chain gets. `anchorClass`
is the documented classification, and `anchor_classes_iff` says for which chains `verify_anchor` gives
it: it asks for a different head or identity at the anchored sequence where the documentation asks for a
different checkpoint there. -/

namespace LiminalDB

/-- A checkpoint of the chain contradicts the anchor: another checkpoint at its sequence and storage
identity, or the anchored reference with another head, sequence or identity. -/
def Forked (manifests : List SignedCheckpointManifest) (anchor : ExternalAnchor) : Prop :=
  (∃ m ∈ manifests, m.body.lastSequence = anchor.lastSequence ∧
    m.body.storageRootIdentity = anchor.storageRootIdentity ∧ m.manifestRef ≠ anchor.checkpointRef) ∨
  ∃ m ∈ manifests, m.manifestRef = anchor.checkpointRef ∧
    (m.body.eventChainHead ≠ anchor.eventChainHead ∨ m.body.lastSequence ≠ anchor.lastSequence ∨
      m.body.storageRootIdentity ≠ anchor.storageRootIdentity)

instance (manifests : List SignedCheckpointManifest) (anchor : ExternalAnchor) :
    Decidable (Forked manifests anchor) := inferInstanceAs (Decidable (_ ∨ _))

/-- The documented failure class of a chain with the given latest sequence, `none` for success. -/
def anchorClass (manifests : List SignedCheckpointManifest) (latestSequence : Nat)
    (anchor : ExternalAnchor) : Option CheckpointError :=
  if latestSequence < anchor.lastSequence then some .externalAnchorRollback
  else if Forked manifests anchor then some .externalAnchorFork
  else if ∀ m ∈ manifests, m.manifestRef ≠ anchor.checkpointRef then some .externalAnchorNotInChain
  else none

/-- The error of a result. -/
def errorOf {ε α : Type} : Except ε α → Option ε
  | .ok _ => none
  | .error e => some e

/-- The condition for the documented class: the chain ends before the anchor, or holds the anchored
reference, or a checkpoint at the anchored sequence has the anchored identity and another head. -/
def Distinguishable (manifests : List SignedCheckpointManifest) (latestSequence : Nat)
    (anchor : ExternalAnchor) : Prop :=
  latestSequence < anchor.lastSequence ∨ (∃ m ∈ manifests, m.manifestRef = anchor.checkpointRef) ∨
  ∀ m ∈ manifests, m.body.lastSequence = anchor.lastSequence →
    m.body.storageRootIdentity = anchor.storageRootIdentity ∧
      m.body.eventChainHead ≠ anchor.eventChainHead

section Classes

variable {manifests : List SignedCheckpointManifest} {anchor : ExternalAnchor}
  {latest : SignedCheckpointManifest}

/-- In a chain a sequence number belongs to one manifest. -/
theorem eq_of_lastSequence_eq (h : manifests.IsChain Succeeds) {m m' : SignedCheckpointManifest}
    (hm : m ∈ manifests) (hm' : m' ∈ manifests)
    (hsequence : m.body.lastSequence = m'.body.lastSequence) : m = m' := by
  have hpairwise : manifests.Pairwise fun m m' => m.body.lastSequence < m'.body.lastSequence :=
    pairwise_of_succeeds h (fun _ _ hm => hm.lastSequence) fun _ _ _ => lt_trans
  have hinj : (manifests.map fun m => m.body.lastSequence).Nodup :=
    List.pairwise_map.mpr (hpairwise.imp fun hlt => hlt.ne)
  exact List.inj_on_of_nodup_map hinj hm hm' hsequence

/-- A chain that ends before the anchor. -/
theorem verifyAnchor_rollback (hanchor : anchor.WellFormed)
    (h : latest.body.lastSequence < anchor.lastSequence) :
    verifyAnchor manifests latest anchor = .error .externalAnchorRollback := by
  have hvalid : validateAnchor anchor = .ok () := validateAnchor_eq_ok.mpr hanchor
  unfold verifyAnchor
  rw [hvalid, failIf, if_pos h]
  rfl

/-- A chain that reaches the anchor and does not hold its reference. -/
theorem verifyAnchor_absent (hanchor : anchor.WellFormed)
    (h : ¬ latest.body.lastSequence < anchor.lastSequence)
    (habsent : ∀ m ∈ manifests, m.manifestRef ≠ anchor.checkpointRef) :
    verifyAnchor manifests latest anchor = .error
      (if ∃ m ∈ manifests, m.body.lastSequence = anchor.lastSequence ∧
          (m.body.eventChainHead ≠ anchor.eventChainHead ∨
            m.body.storageRootIdentity ≠ anchor.storageRootIdentity)
        then .externalAnchorFork else .externalAnchorNotInChain) := by
  have hfind : (manifests.find? fun m => m.manifestRef = anchor.checkpointRef) = none := by
    simpa using habsent
  have hvalid : validateAnchor anchor = .ok () := validateAnchor_eq_ok.mpr hanchor
  unfold verifyAnchor
  rw [hvalid, failIf, if_neg h, hfind]
  by_cases hother : ∃ m ∈ manifests, m.body.lastSequence = anchor.lastSequence ∧
      (m.body.eventChainHead ≠ anchor.eventChainHead ∨
        m.body.storageRootIdentity ≠ anchor.storageRootIdentity)
  · rw [if_pos hother]
    show (failIf _ _ >>= fun _ => _) = _
    rw [failIf, if_pos hother]
    rfl
  · rw [if_neg hother]
    show (failIf _ _ >>= fun _ => _) = _
    rw [failIf, if_neg hother]
    rfl

/-- A chain that reaches the anchor and holds its reference. -/
theorem verifyAnchor_present (hanchor : anchor.WellFormed)
    (h : ¬ latest.body.lastSequence < anchor.lastSequence) {anchored : SignedCheckpointManifest}
    (hfind : (manifests.find? fun m => m.manifestRef = anchor.checkpointRef) = some anchored) :
    errorOf (verifyAnchor manifests latest anchor) =
      if anchored.body.eventChainHead ≠ anchor.eventChainHead ∨
          anchored.body.lastSequence ≠ anchor.lastSequence ∨
          anchored.body.storageRootIdentity ≠ anchor.storageRootIdentity
        then some .externalAnchorFork else none := by
  have hvalid : validateAnchor anchor = .ok () := validateAnchor_eq_ok.mpr hanchor
  unfold verifyAnchor
  rw [hvalid, failIf, if_neg h, hfind]
  show errorOf (failIf _ _) = _
  rw [failIf]
  by_cases hroot : anchored.body.storageRootIdentity = anchor.storageRootIdentity <;>
  by_cases hhead : anchored.body.eventChainHead = anchor.eventChainHead <;>
  by_cases hsequence : anchored.body.lastSequence = anchor.lastSequence <;>
  simp [hroot, hhead, hsequence, errorOf]

variable {env : CheckpointCrates} {registry : TrustedKeyRegistry} {nowMs : UInt64}

/-- A chain that holds the anchored reference gets the documented class. -/
theorem verifyAnchor_class_of_present (hchain : ChainAccepted env manifests registry none nowMs)
    (hcommitting : env.Committing manifests) (hanchor : anchor.WellFormed)
    (hreached : ¬ latest.body.lastSequence < anchor.lastSequence)
    (hpresent : ∃ m ∈ manifests, m.manifestRef = anchor.checkpointRef) :
    errorOf (verifyAnchor manifests latest anchor) =
      anchorClass manifests latest.body.lastSequence anchor := by
  obtain ⟨m, hm, hmref⟩ := hpresent
  have hnotAbsent : ¬ ∀ m ∈ manifests, m.manifestRef ≠ anchor.checkpointRef :=
    fun habsent => habsent m hm hmref
  unfold anchorClass
  rw [if_neg hreached]
  cases hfind : manifests.find? fun m => m.manifestRef = anchor.checkpointRef with
  | none => exact absurd hmref (by simpa using List.find?_eq_none.mp hfind m hm)
  | some anchored =>
      have href : anchored.manifestRef = anchor.checkpointRef := by
        simpa using List.find?_some hfind
      have hmem := List.mem_of_find?_eq_some hfind
      rw [verifyAnchor_present hanchor hreached hfind]
      by_cases hdiffers : anchored.body.eventChainHead ≠ anchor.eventChainHead ∨
          anchored.body.lastSequence ≠ anchor.lastSequence ∨
          anchored.body.storageRootIdentity ≠ anchor.storageRootIdentity
      · rw [if_pos hdiffers, if_pos (.inr ⟨anchored, hmem, href, hdiffers⟩)]
      · have hsequence : anchored.body.lastSequence = anchor.lastSequence := by
          by_contra hne
          exact hdiffers (.inr (.inl hne))
        -- the anchored manifest is the only one with its reference and the only one at its sequence
        have hfork : ¬ Forked manifests anchor := by
          rintro (⟨m', hm', hsequence', -, href'⟩ | ⟨m', hm', href', hdiffers'⟩)
          · obtain rfl := eq_of_lastSequence_eq hchain.follows hm' hmem
              (hsequence'.trans hsequence.symm)
            exact href' href
          · have hbody := Verified.body_eq hcommitting hm' hmem (hchain.verified m' hm')
              (hchain.verified anchored hmem) (href'.trans href.symm)
            rw [hbody] at hdiffers'
            exact hdiffers hdiffers'
        rw [if_neg hdiffers, if_neg hfork, if_neg hnotAbsent]

/-- Without the reference, with a checkpoint at the anchored sequence: the documentation looks at its
identity, the code at its identity and its head. -/
theorem verifyAnchor_class_of_at (hchain : ChainAccepted env manifests registry none nowMs)
    (hanchor : anchor.WellFormed) (hreached : ¬ latest.body.lastSequence < anchor.lastSequence)
    (habsent : ∀ m ∈ manifests, m.manifestRef ≠ anchor.checkpointRef)
    {m : SignedCheckpointManifest} (hm : m ∈ manifests)
    (hsequence : m.body.lastSequence = anchor.lastSequence) :
    errorOf (verifyAnchor manifests latest anchor) =
        anchorClass manifests latest.body.lastSequence anchor ↔
      m.body.storageRootIdentity = anchor.storageRootIdentity ∧
        m.body.eventChainHead ≠ anchor.eventChainHead := by
  -- The chain has only one checkpoint at the sequence of the anchor.
  have hunique : ∀ m' ∈ manifests, m'.body.lastSequence = anchor.lastSequence → m' = m := by
    intro m' hm' hsequence'
    exact eq_of_lastSequence_eq hchain.follows hm' hm (hsequence'.trans hsequence.symm)
  have hcode : (∃ m ∈ manifests, m.body.lastSequence = anchor.lastSequence ∧
      (m.body.eventChainHead ≠ anchor.eventChainHead ∨
        m.body.storageRootIdentity ≠ anchor.storageRootIdentity)) ↔
      (m.body.eventChainHead ≠ anchor.eventChainHead ∨
        m.body.storageRootIdentity ≠ anchor.storageRootIdentity) := by
    constructor
    · rintro ⟨m', hm', hsequence', hdiffers⟩
      rwa [← hunique m' hm' hsequence']
    · exact fun hdiffers => ⟨m, hm, hsequence, hdiffers⟩
  have hfork : Forked manifests anchor ↔
      m.body.storageRootIdentity = anchor.storageRootIdentity := by
    constructor
    · rintro (⟨m', hm', hsequence', hroot, -⟩ | ⟨m', hm', href, -⟩)
      · rwa [← hunique m' hm' hsequence']
      · exact absurd href (habsent m' hm')
    · exact fun hroot => .inl ⟨m, hm, hsequence, hroot, habsent m hm⟩
  unfold anchorClass
  rw [verifyAnchor_absent hanchor hreached habsent, if_neg hreached, if_pos habsent]
  simp only [hcode, hfork, errorOf]
  -- What is left depends only on whether the root and the head agree.
  by_cases hroot : m.body.storageRootIdentity = anchor.storageRootIdentity <;>
  by_cases hhead : m.body.eventChainHead = anchor.eventChainHead <;>
  simp [hroot, hhead]

/-- Without the reference and without a checkpoint at the anchored sequence. -/
theorem verifyAnchor_class_of_skipped (hanchor : anchor.WellFormed)
    (hreached : ¬ latest.body.lastSequence < anchor.lastSequence)
    (habsent : ∀ m ∈ manifests, m.manifestRef ≠ anchor.checkpointRef)
    (hskipped : ∀ m ∈ manifests, m.body.lastSequence ≠ anchor.lastSequence) :
    errorOf (verifyAnchor manifests latest anchor) =
      anchorClass manifests latest.body.lastSequence anchor := by
  have hfork : ¬ Forked manifests anchor := by
    rintro (⟨m, hm, hsequence, -⟩ | ⟨m, hm, href, -⟩)
    · exact hskipped m hm hsequence
    · exact habsent m hm href
  unfold anchorClass
  rw [verifyAnchor_absent hanchor hreached habsent, if_neg hreached, if_neg hfork, if_pos habsent,
    if_neg fun ⟨m, hm, hsequence, _⟩ => hskipped m hm hsequence]
  rfl

/-- `verify_anchor` gives the documented class where the chain can be told from a fork. -/
theorem verifyAnchor_class_iff (hchain : ChainAccepted env manifests registry none nowMs)
    (hcommitting : env.Committing manifests) (hanchor : anchor.WellFormed) :
    errorOf (verifyAnchor manifests latest anchor) =
        anchorClass manifests latest.body.lastSequence anchor ↔
      Distinguishable manifests latest.body.lastSequence anchor := by
  by_cases hbehind : latest.body.lastSequence < anchor.lastSequence
  · refine iff_of_true ?_ (.inl hbehind)
    rw [verifyAnchor_rollback hanchor hbehind, anchorClass, if_pos hbehind]
    rfl
  by_cases hpresent : ∃ m ∈ manifests, m.manifestRef = anchor.checkpointRef
  · exact iff_of_true (verifyAnchor_class_of_present hchain hcommitting hanchor hbehind hpresent)
      (.inr (.inl hpresent))
  have habsent : ∀ m ∈ manifests, m.manifestRef ≠ anchor.checkpointRef := by
    intro m hm heq
    exact hpresent ⟨m, hm, heq⟩
  simp only [Distinguishable, hbehind, hpresent, false_or]
  by_cases hat : ∃ m ∈ manifests, m.body.lastSequence = anchor.lastSequence
  · obtain ⟨m, hm, hsequence⟩ := hat
    rw [verifyAnchor_class_of_at hchain hanchor hbehind habsent hm hsequence]
    constructor
    · intro h m' hm' hsequence'
      rwa [eq_of_lastSequence_eq hchain.follows hm' hm (hsequence'.trans hsequence.symm)]
    · exact fun h => h m hm hsequence
  · have hskipped : ∀ m ∈ manifests, m.body.lastSequence ≠ anchor.lastSequence := by
      intro m hm heq
      exact hat ⟨m, hm, heq⟩
    exact iff_of_true (verifyAnchor_class_of_skipped hanchor hbehind habsent hskipped)
      fun m hm hsequence => absurd hsequence (hskipped m hm)

/-- With an anchor the verifier does what it does without one, and then looks at the anchor. -/
theorem errorOf_verifyCheckpointChain (anchor : ExternalAnchor) {verified : VerifiedCheckpointChain}
    (h : verifyCheckpointChain env manifests registry none nowMs = .ok verified) :
    ∃ latest : SignedCheckpointManifest, verified.latestSequence = latest.body.lastSequence ∧
      errorOf (verifyCheckpointChain env manifests registry (some anchor) nowMs) =
        errorOf (verifyAnchor manifests latest anchor) := by
  cases manifests with
  | nil => cases h
  | cons first rest =>
      unfold verifyCheckpointChain at h ⊢
      obtain ⟨u, hverified, h⟩ := result_bind_eq_ok.mp h
      obtain ⟨u', hfollows, h⟩ := result_bind_eq_ok.mp h
      obtain rfl := Except.ok.inj h
      refine ⟨rest.getLast?.getD first, rfl, ?_⟩
      dsimp only
      rw [hverified, hfollows]
      simp only [verifyLatestAnchor, bind, Except.bind]
      cases verifyAnchor (first :: rest) (rest.getLast?.getD first) anchor with
      | ok u => rfl
      | error e => rfl

end Classes

/-- **When anchor failures are classified as documented.** A chain that `verify_checkpoint_chain`
accepts without an anchor gets the documented class with a well-formed anchor exactly when it ends
before the anchored sequence, or holds the anchored reference, or every checkpoint at the anchored
sequence has the anchored identity and another head. -/
theorem anchor_classes_iff {env : CheckpointCrates} {manifests : List SignedCheckpointManifest}
    {registry : TrustedKeyRegistry} {nowMs : UInt64} {verified : VerifiedCheckpointChain}
    (h : verifyCheckpointChain env manifests registry none nowMs = .ok verified)
    (hcommitting : env.Committing manifests) {anchor : ExternalAnchor} (hanchor : anchor.WellFormed) :
    errorOf (verifyCheckpointChain env manifests registry (some anchor) nowMs) =
        anchorClass manifests verified.latestSequence anchor ↔
      Distinguishable manifests verified.latestSequence anchor := by
  have hchain := verifyCheckpointChain_isOk.mp ⟨verified, h⟩
  obtain ⟨latest, hlatest, hsame⟩ := errorOf_verifyCheckpointChain anchor h
  rw [hsame, hlatest]
  exact verifyAnchor_class_iff hchain hcommitting hanchor

/-- A manifest of the sample material, verified. -/
theorem exists_sample_chain : ∃ manifest verified,
    verifyCheckpointChain linkedCheckpointCrates [manifest] sampleRegistry none 5 = .ok verified ∧
    verified.latestSequence = 1 ∧ manifest.body.material = sampleMaterial := by
  obtain ⟨manifest, hsign⟩ : ∃ manifest,
      sampleSigner.sign linkedCheckpointCrates sampleMaterial 5 none none = .ok manifest :=
    ⟨_, CheckpointSigner.sign_eq_ok.mpr
      ⟨wellFormed_sampleMaterial, by simp, by simp, _, rfl, rfl⟩⟩
  obtain ⟨-, -, -, message, -, hmanifest⟩ := CheckpointSigner.sign_eq_ok.mp hsign
  have haccepted : ChainAccepted linkedCheckpointCrates [manifest] sampleRegistry none 5 :=
    chainAccepted_singleton (verified_sample hsign (UInt64.le_refl 5)) (by simp)
  obtain ⟨verified, hverified⟩ := verifyCheckpointChain_isOk.mpr haccepted
  have hsequence : verified.latestSequence = manifest.body.lastSequence := by
    unfold verifyCheckpointChain at hverified
    obtain ⟨-, -, hverified⟩ := result_bind_eq_ok.mp hverified
    obtain ⟨-, -, hverified⟩ := result_bind_eq_ok.mp hverified
    obtain rfl := Except.ok.inj hverified
    rfl
  exact ⟨manifest, verified, hverified, by rw [hsequence, hmanifest]; rfl, by rw [hmanifest]; rfl⟩

/-- An anchor at the sequence of the sample material, with the given reference and head. -/
def sampleAnchor (checkpointRef eventChainHead : String) : ExternalAnchor :=
  ⟨"provider", "anchor-1", checkpointRef, sampleMaterial.storageRootIdentity, eventChainHead, 1, 5⟩

/-- An anchor with references for the checkpoint and the head is well formed. -/
theorem wellFormed_sampleAnchor {checkpointRef eventChainHead : String} (href : IsRef checkpointRef)
    (hhead : IsRef eventChainHead) : (sampleAnchor checkpointRef eventChainHead).WellFormed where
  providerProfile := (by decide : NotBlank "provider")
  anchorId := (by decide : NotBlank "anchor-1")
  checkpointRef := href
  storageRootIdentity := wellFormed_sampleMaterial.storageRootIdentity
  eventChainHead := hhead
  lastSequence := Nat.one_ne_zero

/-- An anchor for the first of two manifests with another head is a fork. -/
theorem anchor_classes_pair : ∃ first second verified,
    verifyCheckpointChain linkedCheckpointCrates [first, second] sampleRegistry none 7 = .ok verified ∧
    errorOf (verifyCheckpointChain linkedCheckpointCrates [first, second] sampleRegistry
        (some (sampleAnchor first.manifestRef (sampleRef 0x07))) 7) =
      anchorClass [first, second] verified.latestSequence
        (sampleAnchor first.manifestRef (sampleRef 0x07)) := by
  obtain ⟨first, second, -, -, hcommitting, haccepted⟩ := exists_sample_chain_pair
  have hchain := haccepted none (by simp)
  obtain ⟨verified, hverified⟩ := verifyCheckpointChain_isOk.mpr hchain
  have hown : (first.anchor "provider" "anchor-1" 5).WellFormed :=
    (hchain.verified first List.mem_cons_self).wellFormed_anchor (by decide) (by decide)
  have href : IsRef first.manifestRef := hown.checkpointRef
  exact ⟨first, second, verified, hverified,
    (anchor_classes_iff hverified hcommitting (wellFormed_sampleAnchor href (isRef_digestText _))).mpr
      (.inr (.inl ⟨first, List.mem_cons_self, rfl⟩))⟩

/-- A chain of one manifest and an anchor for another manifest with the same identity, sequence and
head: documented as a fork, reported as an anchor that is not in the chain. -/
theorem not_classified_equal_head : ∃ manifest verified anchor,
    verifyCheckpointChain linkedCheckpointCrates [manifest] sampleRegistry none 5 = .ok verified ∧
    anchor.WellFormed ∧ anchorClass [manifest] verified.latestSequence anchor =
      some .externalAnchorFork ∧
    errorOf (verifyCheckpointChain linkedCheckpointCrates [manifest] sampleRegistry (some anchor) 5) =
      some .externalAnchorNotInChain := by
  obtain ⟨manifest, verified, hverified, hsequence, hmaterial⟩ := exists_sample_chain
  -- of two references one is not that of the manifest
  obtain ⟨reference, href, hother⟩ : ∃ reference, IsRef reference ∧ manifest.manifestRef ≠ reference := by
    by_cases h : manifest.manifestRef = sampleRef 0x05
    · refine ⟨sampleRef 0x06, isRef_digestText _, fun h' => ?_⟩
      exact absurd (h.symm.trans h') (by decide +kernel)
    · exact ⟨_, isRef_digestText _, h⟩
  have hbody : manifest.body.storageRootIdentity = sampleMaterial.storageRootIdentity ∧
      manifest.body.eventChainHead = sampleMaterial.eventChainHead ∧ manifest.body.lastSequence = 1 :=
    ⟨congrArg CheckpointMaterial.storageRootIdentity hmaterial,
      congrArg CheckpointMaterial.eventChainHead hmaterial,
      congrArg CheckpointMaterial.lastSequence hmaterial⟩
  have hanchor := wellFormed_sampleAnchor href wellFormed_sampleMaterial.eventChainHead
  refine ⟨manifest, verified, _, hverified, hanchor, ?_, ?_⟩
  · have hforked : Forked [manifest] (sampleAnchor reference sampleMaterial.eventChainHead) :=
      .inl ⟨manifest, by simp, hbody.2.2, hbody.1, hother⟩
    have hreached : ¬ verified.latestSequence <
        (sampleAnchor reference sampleMaterial.eventChainHead).lastSequence := by
      rw [hsequence]
      exact lt_irrefl 1
    rw [anchorClass, if_neg hreached, if_pos hforked]
  · obtain ⟨latest, hlatest, hsame⟩ := errorOf_verifyCheckpointChain
      (sampleAnchor reference sampleMaterial.eventChainHead) hverified
    have hreached : ¬ latest.body.lastSequence <
        (sampleAnchor reference sampleMaterial.eventChainHead).lastSequence := by
      rw [← hlatest, hsequence]
      exact lt_irrefl 1
    rw [hsame, verifyAnchor_absent hanchor hreached (List.forall_mem_singleton.mpr hother), if_neg]
    · rfl
    · rintro ⟨m, hm, -, hdiffers⟩
      rw [List.mem_singleton.mp hm] at hdiffers
      rcases hdiffers with hhead | hroot
      · exact hhead hbody.2.1
      · exact hroot hbody.1

end LiminalDB
