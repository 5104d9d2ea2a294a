import LiminalDB.Checkpoint.Linked

/-! # Anti-rollback soundness of the chain verifier

What a verified chain of checkpoints says: the manifests speak of one ledger and one signer, each
names the one before it, and the ledger only moved forward. With an external anchor the anchored
manifest is among them, and two chains verified against the same anchor cannot have forked behind
it. -/

namespace LiminalDB

/-- What holds of the manifests of an accepted chain, over any distance. -/
structure AntiRollback (manifests : List SignedCheckpointManifest) : Prop where
  ledgerProfile : ∀ m ∈ manifests, ∀ m' ∈ manifests, m.body.ledgerProfile = m'.body.ledgerProfile
  storageRootIdentity : ∀ m ∈ manifests, ∀ m' ∈ manifests,
    m.body.storageRootIdentity = m'.body.storageRootIdentity
  signerId : ∀ m ∈ manifests, ∀ m' ∈ manifests, m.body.signerId = m'.body.signerId
  linked : manifests.IsChain fun previous current =>
    current.body.previousCheckpointRef = some previous.manifestRef
  lastSequence : manifests.Pairwise fun previous current =>
    previous.body.lastSequence < current.body.lastSequence
  position : manifests.Pairwise fun previous current =>
    previous.body.position < current.body.position
  issuedAtMs : manifests.Pairwise fun previous current =>
    previous.body.issuedAtMs ≤ current.body.issuedAtMs
  manifestRef : (manifests.map (·.manifestRef)).Nodup

section Chain

variable {env : CheckpointCrates} {manifests : List SignedCheckpointManifest}

/-- A relation that neighbours have and that carries over holds at any distance. -/
theorem pairwise_of_succeeds {R : SignedCheckpointManifest → SignedCheckpointManifest → Prop}
    (h : manifests.IsChain Succeeds) (hfollows : ∀ m m', Succeeds m m' → R m m')
    (htrans : ∀ m₁ m₂ m₃, R m₁ m₂ → R m₂ m₃ → R m₁ m₃) : manifests.Pairwise R := by
  have : Trans R R R := ⟨fun h₁ h₂ => htrans _ _ _ h₁ h₂⟩
  exact List.isChain_iff_pairwise.mp (h.imp hfollows)

/-- A field that neighbours share is shared by all. -/
theorem shared_of_succeeds {α : Type} (f : SignedCheckpointManifest → α)
    (h : manifests.IsChain Succeeds) (hfollows : ∀ m m', Succeeds m m' → f m' = f m) :
    ∀ m ∈ manifests, ∀ m' ∈ manifests, f m = f m' := by
  have hpairwise : manifests.Pairwise fun m m' => f m = f m' :=
    pairwise_of_succeeds h (fun m m' hm => (hfollows m m' hm).symm) fun _ _ _ => Eq.trans
  have : Std.Symm fun m m' : SignedCheckpointManifest => f m = f m' := ⟨fun _ _ => Eq.symm⟩
  intro m hm m' hm'
  exact List.Pairwise.forall_of_forall (R := fun m m' => f m = f m')
    (fun _ _ => rfl) hpairwise hm hm'

/-- The reference of an accepted manifest determines its body. -/
theorem Verified.body_eq {registry registry' : TrustedKeyRegistry} {nowMs nowMs' : UInt64}
    {m m' : SignedCheckpointManifest} (hcommitting : env.Committing manifests)
    (hm : m ∈ manifests) (hm' : m' ∈ manifests) (h : Verified env registry nowMs m)
    (h' : Verified env registry' nowMs' m') (href : m.manifestRef = m'.manifestRef) :
    m.body = m'.body := by
  obtain ⟨message, -, hmessage, hmref, -⟩ := h.signed
  obtain ⟨message', -, hmessage', hmref', -⟩ := h'.signed
  refine hcommitting m hm m' hm' message message' hmessage hmessage' ?_
  rw [hmref, hmref'] at href
  exact digestText_injective href

/-- Accepted manifests with different references are free of collisions. -/
theorem committing_of_nodup {registry : TrustedKeyRegistry} {nowMs : UInt64}
    (h : ∀ m ∈ manifests, Verified env registry nowMs m)
    (hnodup : (manifests.map (·.manifestRef)).Nodup) : env.Committing manifests := by
  intro m hm m' hm' bytes bytes' hbytes hbytes' hsha
  obtain ⟨message, -, hmessage, href, -⟩ := (h m hm).signed
  obtain ⟨message', -, hmessage', href', -⟩ := (h m' hm').signed
  obtain rfl := Except.ok.inj (hmessage.symm.trans hbytes)
  obtain rfl := Except.ok.inj (hmessage'.symm.trans hbytes')
  have hrefs : m.manifestRef = m'.manifestRef := by
    rw [href, href', sha256Ref, sha256Ref, hsha]
  exact congrArg _ (List.inj_on_of_nodup_map hnodup hm hm' hrefs)

/-- **Soundness of the chain verifier**, without regard to the anchor. -/
theorem ChainAccepted.antiRollback {registry : TrustedKeyRegistry}
    {latestAnchor : Option ExternalAnchor} {nowMs : UInt64}
    (h : ChainAccepted env manifests registry latestAnchor nowMs)
    (hcommitting : env.Committing manifests) : AntiRollback manifests where
  ledgerProfile := shared_of_succeeds (·.body.ledgerProfile) h.follows fun _ _ hm => hm.ledgerProfile
  storageRootIdentity :=
    shared_of_succeeds (·.body.storageRootIdentity) h.follows fun _ _ hm => hm.storageRootIdentity
  signerId := shared_of_succeeds (·.body.signerId) h.follows fun _ _ hm => hm.signerId
  linked := h.follows.imp fun _ _ hm => hm.previousRef
  lastSequence :=
    pairwise_of_succeeds h.follows (fun _ _ hm => hm.lastSequence) fun _ _ _ => lt_trans
  position := pairwise_of_succeeds h.follows (fun _ _ hm => hm.position) fun _ _ _ => lt_trans
  issuedAtMs :=
    pairwise_of_succeeds h.follows (fun _ _ hm => hm.issuedAtMs) fun _ _ _ => UInt64.le_trans
  manifestRef := by
    -- two manifests with one reference would have one body, and so one sequence number
    have hsequence : manifests.Pairwise fun m m' => m.body.lastSequence < m'.body.lastSequence :=
      pairwise_of_succeeds h.follows (fun _ _ hm => hm.lastSequence) fun _ _ _ => lt_trans
    refine List.pairwise_map.mpr (hsequence.imp_of_mem fun {m m'} hm hm' hlt href => ?_)
    have hbody := Verified.body_eq hcommitting hm hm' (h.verified m hm) (h.verified m' hm') href
    rw [hbody] at hlt
    exact lt_irrefl _ hlt

end Chain

/-- **Anti-rollback.** Whatever `verify_checkpoint_chain` accepts is a linked, strictly advancing
chain of one ledger and one signer. If it was accepted with an anchor, the manifest the anchor pins
is in it and the latest is not older. And any other chain accepted with the same anchor, by whatever
registry and at whatever time, agrees with it behind the anchored manifest. -/
theorem verified_chain_anti_rollback {env : CheckpointCrates}
    {manifests : List SignedCheckpointManifest} {registry : TrustedKeyRegistry}
    {latestAnchor : Option ExternalAnchor} {nowMs : UInt64} {verified : VerifiedCheckpointChain}
    (h : verifyCheckpointChain env manifests registry latestAnchor nowMs = .ok verified)
    (hcommitting : env.Committing manifests) :
    AntiRollback manifests ∧
    ∀ anchor ∈ latestAnchor,
      (∃ anchored ∈ manifests, anchor.Pins anchored) ∧
      (∀ latest ∈ manifests.getLast?, anchor.lastSequence ≤ latest.body.lastSequence) ∧
      ∀ manifests' registry' nowMs' verified',
        verifyCheckpointChain env manifests' registry' (some anchor) nowMs' = .ok verified' →
        env.Committing (manifests ++ manifests') →
        ∀ i j : Nat, (manifests.map (·.manifestRef))[i]? = some anchor.checkpointRef →
          (manifests'.map (·.manifestRef))[j]? = some anchor.checkpointRef →
          ∀ d ≤ i, d ≤ j →
            (manifests.map (·.body))[i - d]? = (manifests'.map (·.body))[j - d]? := by
  have hchain := verifyCheckpointChain_isOk.mp ⟨verified, h⟩
  refine ⟨hchain.antiRollback hcommitting, fun anchor hanchor => ?_⟩
  obtain ⟨-, hlatest, anchored, hfind, hpins⟩ := hchain.anchored anchor hanchor
  refine ⟨⟨anchored, List.mem_of_find?_eq_some hfind, hpins⟩, hlatest, ?_⟩
  intro manifests' registry' nowMs' verified' h' hboth i j hi hj d hdi hdj
  have hchain' := verifyCheckpointChain_isOk.mp ⟨verified', h'⟩
  rw [List.getElem?_map, Option.map_eq_some_iff] at hi hj
  obtain ⟨m, hm, hmref⟩ := hi
  obtain ⟨m', hm', hmref'⟩ := hj
  obtain ⟨e, e', he, he', -, hbody⟩ := eq_behind_of_hash_eq
    SignedCheckpointManifest.body SignedCheckpointManifest.manifestRef
    (hchain.follows.imp fun _ _ hm => hm.previousRef)
    (hchain'.follows.imp fun _ _ hm => hm.previousRef)
    (fun a ha b hb => Verified.body_eq hboth (List.mem_append_left _ ha)
      (List.mem_append_right _ hb) (hchain.verified a ha) (hchain'.verified b hb))
    ⟨m, m', hm, hm', hmref.trans hmref'.symm⟩ hdi hdj
  rw [List.getElem?_map, List.getElem?_map, he, he', Option.map_some, Option.map_some, hbody]

/-- Two checkpoints of the sample ledger are a chain, also with an anchor from the first of them. -/
theorem exists_sample_chain_pair : ∃ first second,
    first.body = sampleSigner.manifestBody sampleMaterial 5 none none ∧
    second.body = sampleSigner.manifestBody laterMaterial 6 none (some first.manifestRef) ∧
    linkedCheckpointCrates.Committing [first, second] ∧
    ∀ latestAnchor ∈ [none, some (first.anchor "provider" "anchor-1" 5)],
      ChainAccepted linkedCheckpointCrates [first, second] sampleRegistry latestAnchor 7 := by
  obtain ⟨first, second, hsign, hsign', href, href'⟩ := exists_sample_pair
  have hverified : ∀ m ∈ [first, second], Verified linkedCheckpointCrates sampleRegistry 7 m := by
    rw [List.forall_mem_cons, List.forall_mem_singleton]
    exact ⟨verified_sample hsign (by decide), verified_sample hsign' (by decide)⟩
  have hcommitting : linkedCheckpointCrates.Committing [first, second] := by
    refine committing_of_nodup hverified ?_
    rw [List.map_cons, List.map_singleton, href, href']
    decide
  obtain ⟨-, -, -, message, -, hfirst⟩ := CheckpointSigner.sign_eq_ok.mp hsign
  obtain ⟨-, -, -, message', -, hsecond⟩ := CheckpointSigner.sign_eq_ok.mp hsign'
  have hbody : first.body = sampleSigner.manifestBody sampleMaterial 5 none none := congrArg _ hfirst
  have hbody' : second.body = sampleSigner.manifestBody laterMaterial 6 none (some first.manifestRef) :=
    congrArg _ hsecond
  refine ⟨first, second, hbody, hbody', hcommitting, ?_⟩
  have hsucceeds : Succeeds first second := by
    refine ⟨?_, ?_, ?_, ?_, ?_, ?_, ?_, ?_⟩ <;> rw [hbody'] <;> try rw [hbody]
    · rfl
    · rfl
    · rfl
    · rfl
    · exact Nat.one_lt_two
    · exact (by decide : toLex (1, 400) < toLex (1, 800))
    · exact (by decide : (5 : UInt64) ≤ 6)
    · exact (sampleRef_inj.not.mpr (by decide) : sampleRef 0x12 ≠ sampleRef 0x02)
  have hfollows : [first, second].IsChain Succeeds := List.isChain_pair.mpr hsucceeds
  rw [List.forall_mem_cons, List.forall_mem_singleton]
  refine ⟨⟨List.cons_ne_nil _ _, hverified, hfollows, nofun⟩, List.cons_ne_nil _ _, hverified, hfollows, ?_⟩
  rintro _ ⟨⟩
  refine ⟨(hverified first List.mem_cons_self).wellFormed_anchor (by decide) (by decide), ?_, first, ?_,
    SignedCheckpointManifest.pins_anchor⟩
  · rintro latest hlatest
    obtain rfl : second = latest := Option.some.inj hlatest
    rw [hbody']
    show first.body.lastSequence ≤ 2
    rw [hbody]
    exact (by decide : 1 ≤ 2)
  · rw [List.find?_cons_of_pos]
    exact decide_eq_true rfl

/-- A chain of two manifests, the second with the reference of the first, verified against an anchor from
the first. -/
theorem verified_chain_anti_rollback_pair :
    ∃ first second verified,
      second.body.previousCheckpointRef = some first.manifestRef ∧
      verifyCheckpointChain linkedCheckpointCrates [first, second] sampleRegistry
        (some (first.anchor "provider" "anchor-1" 5)) 7 = .ok verified ∧
      AntiRollback [first, second] ∧
      ∃ anchored ∈ [first, second], (first.anchor "provider" "anchor-1" 5).Pins anchored := by
  obtain ⟨first, second, -, hbody', hcommitting, haccepted⟩ := exists_sample_chain_pair
  obtain ⟨verified, hchain⟩ := verifyCheckpointChain_isOk.mpr
    (haccepted (some (first.anchor "provider" "anchor-1" 5)) (by simp))
  obtain ⟨hsound, hanchor⟩ := verified_chain_anti_rollback hchain hcommitting
  exact ⟨first, second, verified, congrArg _ hbody', hchain, hsound, (hanchor _ rfl).1⟩

end LiminalDB
