import LiminalDB.Checkpoint.Linked

/-! # Which key a manifest is verified under

`TrustedKeyRegistry` folds a signer id and a key id into one map key with a NUL between them, and
neither `insert` nor the check of a manifest keeps NUL out of the ids. Two pairs of ids can so share a
slot, and `get` hands out whatever key was inserted last for the slot. `uses_named_key_iff` says for
which registrations that is the key the manifest names. -/

namespace LiminalDB

/-! ## Slots -/

/-- The pair of ids a key is registered for. -/
def TrustedCheckpointKey.ids (key : TrustedCheckpointKey) : String × String :=
  (key.signerId, key.keyId)

/-- The pair of ids a manifest names. -/
def CheckpointManifestBody.ids (body : CheckpointManifestBody) : String × String :=
  (body.signerId, body.keyId)

/-- The slot of a pair of ids. -/
def slotOf (ids : String × String) : String := keySlot ids.1 ids.2

/-- Registration and manifests admit every pair of ids that are not blank. -/
def Admitted (ids : String × String) : Prop := NotBlank ids.1 ∧ NotBlank ids.2

/-- The slot, in characters. -/
theorem toList_slotOf (ids : String × String) :
    (slotOf ids).toList = ids.1.toList ++ '\x00' :: ids.2.toList := by
  simp [slotOf, keySlot, String.toList_append, List.append_assoc]

/-- Two pairs with one slot are equal, or one of them has a NUL inside its signer id and the other
inside its key id, with the same text between. -/
theorem slotOf_eq_slotOf {ids other : String × String} (h : slotOf other = slotOf ids) :
    other = ids ∨
    (∃ between, ids.1 = other.1 ++ "\x00" ++ between ∧ other.2 = between ++ "\x00" ++ ids.2) ∨
    ∃ between, other.1 = ids.1 ++ "\x00" ++ between ∧ ids.2 = between ++ "\x00" ++ other.2 := by
  have hlist := congrArg String.toList h
  rw [toList_slotOf, toList_slotOf] at hlist
  -- which of the two signer ids is the longer one
  rcases List.append_eq_append_iff.mp hlist with ⟨more, hsigner, hrest⟩ | ⟨more, hsigner, hrest⟩
  · cases more with
    | nil =>
        rw [List.append_nil] at hsigner
        rw [List.nil_append] at hrest
        exact .inl (Prod.ext (String.toList_inj.mp hsigner.symm)
          (String.toList_inj.mp (List.cons.inj hrest).2))
    | cons c between =>
        obtain ⟨hc, hkey⟩ := List.cons.inj hrest
        refine .inr (.inl ⟨String.ofList between, ?_, ?_⟩) <;> apply String.toList_inj.mp
        · rw [hsigner, ← hc]
          simp
        · rw [hkey]
          simp
  · cases more with
    | nil =>
        rw [List.append_nil] at hsigner
        rw [List.nil_append] at hrest
        exact .inl (Prod.ext (String.toList_inj.mp hsigner)
          (String.toList_inj.mp (List.cons.inj hrest).2.symm))
    | cons c between =>
        obtain ⟨hc, hkey⟩ := List.cons.inj hrest
        refine .inr (.inr ⟨String.ofList between, ?_, ?_⟩) <;> apply String.toList_inj.mp
        · rw [hsigner, ← hc]
          simp
        · rw [hkey]
          simp

/-- Text with a NUL in it is not blank. -/
theorem notBlank_of_nul (before after : String) : NotBlank (before ++ "\x00" ++ after) := by
  intro hblank
  have hnil := congrArg String.toList hblank
  simp only [trim, String.toList_ofList, String.toList_empty, List.rdropWhile_eq_nil_iff] at hnil
  -- dropping white space does not get past the NUL
  have hmem : '\x00' ∈ (before ++ "\x00" ++ after).toList.dropWhile isWhitespace := by
    have hsplit : (before ++ "\x00" ++ after).toList = before.toList ++ '\x00' :: after.toList := by
      simp
    rw [hsplit, List.dropWhile_append]
    split
    · rw [List.dropWhile_cons_of_neg (by decide)]
      exact List.mem_cons_self
    · exact List.mem_append_right _ List.mem_cons_self
  exact absurd (hnil _ hmem) (by decide)

/-! ## Registries -/

/-- The registry after keys have been inserted in turn, as long as every `insert` succeeds. -/
def TrustedKeyRegistry.insertAll (registry : TrustedKeyRegistry) (keys : List TrustedCheckpointKey) :
    Except CheckpointError TrustedKeyRegistry :=
  keys.foldlM TrustedKeyRegistry.withKey registry

/-- A key that `insert` takes. -/
structure TrustedCheckpointKey.WellFormed (key : TrustedCheckpointKey) : Prop where
  admitted : Admitted key.ids
  publicKeyHex : ∃ publicKey, decodeFixed 32 key.publicKeyHex "public_key_hex" = .ok publicKey
  validUntilMs : ∀ until_ ∈ key.validUntilMs, key.validFromMs ≤ until_

/-- A trusted key is accepted exactly if it is well formed. -/
theorem validateTrustedKey_eq_ok {key : TrustedCheckpointKey} {u : Unit} :
    validateTrustedKey key = .ok u ↔ key.WellFormed := by
  unfold validateTrustedKey
  simp only [result_bind_eq_ok, normalized_eq_ok, failIf_eq_ok, not_exists, not_and, UInt64.not_lt]
  constructor
  · rintro ⟨-, ⟨hsigner, -⟩, -, ⟨hkey, -⟩, publicKey, hpublic, huntil⟩
    exact ⟨⟨hsigner, hkey⟩, ⟨publicKey, hpublic⟩, huntil⟩
  · rintro ⟨⟨hsigner, hkey⟩, ⟨publicKey, hpublic⟩, huntil⟩
    exact ⟨_, ⟨hsigner, rfl⟩, _, ⟨hkey, rfl⟩, publicKey, hpublic, huntil⟩

/-- A key that is accepted takes the slot of its two ids, and whatever stood there is gone. -/
theorem withKey_eq_ok {registry registry' : TrustedKeyRegistry} {key : TrustedCheckpointKey} :
    registry.withKey key = .ok registry' ↔
      key.WellFormed ∧ registry' = ⟨registry.keys.insert (slotOf key.ids) key⟩ := by
  unfold TrustedKeyRegistry.withKey
  simp only [result_bind_eq_ok, validateTrustedKey_eq_ok]
  constructor
  · rintro ⟨-, hkey, hok⟩
    exact ⟨hkey, (Except.ok.inj hok).symm⟩
  · rintro ⟨hkey, rfl⟩
    exact ⟨(), hkey, rfl⟩

/-- The last element of which a test is true. -/
def lastWhere {α : Type} (p : α → Bool) (l : List α) : Option α := (l.filter p).getLast?

/-- The last element with a property is the one at the end, if that has it. -/
theorem lastWhere_concat {α : Type} (p : α → Bool) (l : List α) (a : α) :
    lastWhere p (l ++ [a]) = if p a then some a else lastWhere p l := by
  unfold lastWhere
  split
  next h => simp [h]
  next h => simp [h]

/-- The last image with a property is that of the last element whose image has it. -/
theorem lastWhere_map {α β : Type} (p : β → Bool) (f : α → β) (l : List α) :
    lastWhere p (l.map f) = (lastWhere (p ∘ f) l).map f := by
  rw [lastWhere, lastWhere, List.filter_map, List.getLast?_map]

/-- What is found is in the list and has the property. -/
theorem lastWhere_eq_some {α : Type} {p : α → Bool} {l : List α} {a : α}
    (h : lastWhere p l = some a) : a ∈ l ∧ p a = true :=
  List.mem_filter.mp (List.mem_of_getLast? h)

/-- Registration succeeds exactly for well-formed keys, and a slot holds the last of its keys. -/
theorem insertAll_default {keys : List TrustedCheckpointKey} {registry : TrustedKeyRegistry}
    (h : TrustedKeyRegistry.default.insertAll keys = .ok registry) :
    (∀ key ∈ keys, key.WellFormed) ∧
    ∀ slot, registry.keys[slot]? = lastWhere (fun key => slotOf key.ids = slot) keys := by
  induction keys using List.reverseRecOn generalizing registry with
  | nil =>
      obtain rfl := Except.ok.inj h
      exact ⟨by simp, fun slot => by simp [TrustedKeyRegistry.default, lastWhere]⟩
  | append_singleton keys key ih =>
      rw [TrustedKeyRegistry.insertAll, List.foldlM_append] at h
      obtain ⟨before, hbefore, hlast⟩ := result_bind_eq_ok.mp h
      obtain ⟨registry', hkey, hpure⟩ := result_bind_eq_ok.mp hlast
      obtain rfl := Except.ok.inj hpure
      obtain ⟨hwell, hslots⟩ := ih hbefore
      obtain ⟨hkey, rfl⟩ := withKey_eq_ok.mp hkey
      refine ⟨fun k hk => ?_, fun slot => ?_⟩
      · rcases List.mem_append.mp hk with hk | hk
        · exact hwell k hk
        · rwa [List.mem_singleton.mp hk]
      · rw [lastWhere_concat, Std.ExtTreeMap.getElem?_insert, ← hslots]
        by_cases hslot : slotOf key.ids = slot
        · simp [hslot]
        · simp [hslot]

/-- Keys that are well formed can all be registered. -/
theorem insertAll_isOk {keys : List TrustedCheckpointKey} (h : ∀ key ∈ keys, key.WellFormed) :
    ∃ registry, TrustedKeyRegistry.default.insertAll keys = .ok registry := by
  induction keys using List.reverseRecOn with
  | nil => exact ⟨_, rfl⟩
  | append_singleton keys key ih =>
      obtain ⟨before, hbefore⟩ := ih fun k hk => h k (List.mem_append_left _ hk)
      refine ⟨⟨before.keys.insert (slotOf key.ids) key⟩, ?_⟩
      rw [TrustedKeyRegistry.insertAll, List.foldlM_append]
      exact result_bind_eq_ok.mpr ⟨before, hbefore, result_bind_eq_ok.mpr
        ⟨_, withKey_eq_ok.mpr ⟨h key (by simp), rfl⟩, rfl⟩⟩

/-! ## Names that nothing shadows -/

/-- Of the pairs with the slot of `ids` the last one registered, if any, is `ids` itself. -/
def Unshadowed (registered : List (String × String)) (ids : String × String) : Prop :=
  ∀ other ∈ lastWhere (fun other => slotOf other = slotOf ids) registered, other = ids

instance (registered : List (String × String)) (ids : String × String) :
    Decidable (Unshadowed registered ids) :=
  inferInstanceAs (Decidable (∀ other ∈ lastWhere _ registered, other = ids))

/-- No NUL can be taken for the one between the ids: before every NUL of the signer id and behind
every NUL of the key id there is nothing that could be an id. -/
structure Unambiguous (ids : String × String) : Prop where
  signerId : ∀ before after, ids.1 = before ++ "\x00" ++ after → ¬ NotBlank before
  keyId : ∀ before after, ids.2 = before ++ "\x00" ++ after → ¬ NotBlank after

/-- A text is not the same with a NUL and more behind it. -/
theorem ne_append_nul (text after : String) : text ≠ text ++ "\x00" ++ after := by
  intro h
  have hlength := congrArg (fun s => s.toList.length) h
  simp at hlength

/-- The pairs that no registration can shadow. -/
theorem unshadowed_iff_unambiguous {ids : String × String} :
    (∀ registered, (∀ other ∈ registered, Admitted other) → Unshadowed registered ids) ↔
      Unambiguous ids := by
  constructor
  · intro h
    -- a pair that is cut at another NUL shadows `ids` when it is the only one
    have hcut : ∀ other, Admitted other → slotOf other = slotOf ids → other = ids := by
      intro other hother hslot
      refine h [other] (by simpa using hother) other ?_
      simp [lastWhere, hslot]
    refine ⟨fun before after hsigner hbefore => ?_, fun before after hkey hafter => ?_⟩
    · have hsame := hcut (before, after ++ "\x00" ++ ids.2) ⟨hbefore, notBlank_of_nul _ _⟩ (by
        simp only [slotOf, keySlot, hsigner, String.append_assoc])
      exact ne_append_nul before after (by rw [← hsigner, ← hsame])
    · have hsame := hcut (ids.1 ++ "\x00" ++ before, after) ⟨notBlank_of_nul _ _, hafter⟩ (by
        simp only [slotOf, keySlot, hkey, String.append_assoc])
      exact ne_append_nul ids.1 before (congrArg Prod.fst hsame).symm
  · intro hunambiguous registered hregistered other hlast
    obtain ⟨hmem, hslot⟩ := lastWhere_eq_some hlast
    have hother := hregistered other hmem
    rcases slotOf_eq_slotOf (of_decide_eq_true hslot) with heq | ⟨between, hsigner, -⟩ |
      ⟨between, -, hkey⟩
    · exact heq
    · exact absurd hother.1 (hunambiguous.signerId _ _ hsigner)
    · exact absurd hother.2 (hunambiguous.keyId _ _ hkey)

/-! ## Verification -/

section Verification

variable {env : CheckpointCrates} {keys : List TrustedCheckpointKey} {registry : TrustedKeyRegistry}
  {nowMs : UInt64} {manifest : SignedCheckpointManifest}

/-- The verdict on a manifest depends on its named key alone. -/
structure UsesNamedKey (env : CheckpointCrates) (keys : List TrustedCheckpointKey)
    (registry : TrustedKeyRegistry) (nowMs : UInt64) (manifest : SignedCheckpointManifest) :
    Prop where
  /-- An accepted manifest is signed under the last key inserted for its ids, which the registry still
  holds and which is active. -/
  named : verifySignedCheckpoint env registry nowMs manifest = .ok () → ∃ key message,
    lastWhere (fun key => key.ids = manifest.body.ids) keys = some key ∧
    registry.keys[slotOf key.ids]? = some key ∧ key.ActiveAt nowMs ∧
    env.manifestBody manifest.body = .ok message ∧
    SignatureAccepted env.ed25519 key message manifest.signatureHex
  /-- Without the keys of other ids the verdict is the same. -/
  unaffected : ∀ registry', TrustedKeyRegistry.default.insertAll
      (keys.filter fun key => key.ids = manifest.body.ids) = .ok registry' →
    verifySignedCheckpoint env registry' nowMs manifest =
      verifySignedCheckpoint env registry nowMs manifest

/-- The key `get` returns, where the ids are not shadowed: the last one inserted for them. -/
theorem get_of_unshadowed (hkeys : TrustedKeyRegistry.default.insertAll keys = .ok registry)
    {ids : String × String} (h : Unshadowed (keys.map TrustedCheckpointKey.ids) ids) :
    registry.get ids.1 ids.2 = lastWhere (fun key => key.ids = ids) keys := by
  have hget : registry.get ids.1 ids.2 = lastWhere (fun key => slotOf key.ids = slotOf ids) keys :=
    (insertAll_default hkeys).2 (slotOf ids)
  rw [hget]
  rw [Unshadowed, lastWhere_map] at h
  clear hget hkeys
  induction keys using List.reverseRecOn with
  | nil => rfl
  | append_singleton keys key ih =>
      simp only [Function.comp_def, lastWhere_concat] at h ih ⊢
      by_cases hslot : slotOf key.ids = slotOf ids
      · have hids : key.ids = ids := h key.ids (by simp [hslot])
        simp [hids]
      · have hids : key.ids ≠ ids := fun heq => hslot (congrArg slotOf heq)
        simp only [hslot, hids, decide_false, Bool.false_eq_true, if_false] at h ⊢
        exact ih h

/-- Only the key `get` returns matters. -/
theorem verifySignedCheckpoint_congr {registry' : TrustedKeyRegistry}
    (h : registry'.get manifest.body.signerId manifest.body.keyId =
      registry.get manifest.body.signerId manifest.body.keyId) :
    verifySignedCheckpoint env registry' nowMs manifest =
      verifySignedCheckpoint env registry nowMs manifest := by
  unfold verifySignedCheckpoint
  rw [h]

/-- If no later key has taken the slot of the named one, it is the one that is used. -/
theorem usesNamedKey_of_unshadowed
    (hkeys : TrustedKeyRegistry.default.insertAll keys = .ok registry)
    (h : Admitted manifest.body.ids →
      Unshadowed (keys.map TrustedCheckpointKey.ids) manifest.body.ids) :
    UsesNamedKey env keys registry nowMs manifest := by
  constructor
  · intro hok
    have hverified := verifySignedCheckpoint_eq_ok.mp hok
    have hget := get_of_unshadowed hkeys (h ⟨hverified.wellFormed.signerId, hverified.wellFormed.keyId⟩)
    obtain ⟨message, key, hmessage, -, hkey, hactive, hsignature⟩ := hverified.signed
    have hlast : lastWhere (fun key => key.ids = manifest.body.ids) keys = some key :=
      hget.symm.trans hkey
    have hids : key.ids = manifest.body.ids := of_decide_eq_true (lastWhere_eq_some hlast).2
    exact ⟨key, message, hlast, hids ▸ hkey, hactive, hmessage, hsignature⟩
  · intro registry' hkeys'
    by_cases hadmitted : Admitted manifest.body.ids
    · have hget := get_of_unshadowed hkeys (h hadmitted)
      -- among the keys of the ids alone there is nothing to shadow them
      have halone : Unshadowed ((keys.filter fun key => key.ids = manifest.body.ids).map
          TrustedCheckpointKey.ids) manifest.body.ids := by
        intro other hlast
        obtain ⟨key, hkey, rfl⟩ := List.mem_map.mp (lastWhere_eq_some hlast).1
        exact of_decide_eq_true (List.mem_filter.mp hkey).2
      have hget' := get_of_unshadowed hkeys' halone
      apply verifySignedCheckpoint_congr
      refine hget'.trans (Eq.trans ?_ hget.symm)
      simp only [lastWhere, List.filter_filter, Bool.and_self]
    · -- a manifest with a blank id is refused before the registry is asked
      have hrefused : ¬ manifest.body.WellFormed := fun hwell =>
        hadmitted ⟨hwell.signerId, hwell.keyId⟩
      unfold verifySignedCheckpoint
      cases hbody : validateManifestBody manifest.body with
      | ok u => exact absurd (validateManifestBody_eq_ok.mp hbody) hrefused
      | error e => rfl

/-- A key of `sampleSigner`'s seed, for any pair of ids. -/
def seedKey (env : CheckpointCrates) (ids : String × String) : TrustedCheckpointKey :=
  CheckpointSigner.trustedKey env ⟨ids.1, ids.2, sampleSigner.seed⟩ 0 none none

/-- The key of some seed under admitted ids is well formed. -/
theorem wellFormed_seedKey {ids : String × String} (h : Admitted ids) :
    (seedKey env ids).WellFormed :=
  ⟨h, ⟨_, decodeFixed_encodeHex _ _⟩, by simp [seedKey, CheckpointSigner.trustedKey]⟩

/-- Whatever key `get` returns for the ids of a manifest, its owner can have signed the manifest. -/
theorem exists_verified_of_get (hbody : ∀ body, ∃ bytes, env.manifestBody body = .ok bytes)
    (hhonest : env.ed25519.Honest) {ids other : String × String} (hids : Admitted ids)
    (hget : registry.get ids.1 ids.2 = some (seedKey env other)) :
    ∃ manifest : SignedCheckpointManifest, manifest.body.ids = ids ∧
      verifySignedCheckpoint env registry 0 manifest = .ok () := by
  let signer : CheckpointSigner := ⟨ids.1, ids.2, sampleSigner.seed⟩
  have hsigned : ∃ manifest, signer.sign env sampleMaterial 0 none none = .ok manifest ∧
      IsRef manifest.manifestRef ∧ manifest.body = signer.manifestBody sampleMaterial 0 none none :=
    signer.sign_isOk hbody wellFormed_sampleMaterial (by simp) (by simp)
  obtain ⟨manifest, hsign, -, hmanifest⟩ := hsigned
  refine ⟨manifest, by rw [hmanifest]; rfl, verifySignedCheckpoint_eq_ok.mpr ?_⟩
  exact CheckpointSigner.verified_of_sign hhonest hsign hids.1 hids.2 hget rfl
    (CheckpointSigner.activeAt_trustedKey _ 0) (UInt64.le_refl 0) (by simp)

end Verification

/-- **When verification uses the named key.** For keys registered in turn for the pairs `registered`
and manifests that name `ids`: an accepted manifest is signed under the last key inserted for `ids`,
and keys of other pairs have no say in the verdict, exactly when the last pair registered in the slot
of `ids`, if any, is `ids` itself, or an id is blank. No registration can take the slot away exactly
when no NUL in `ids` could be the one between two ids. -/
theorem uses_named_key_iff {env : CheckpointCrates} (hhonest : env.ed25519.Honest)
    (hbody : ∀ body, ∃ bytes, env.manifestBody body = .ok bytes) (ids : String × String) :
    (∀ registered, (∀ other ∈ registered, Admitted other) →
      ((∀ keys registry, keys.map TrustedCheckpointKey.ids = registered →
          TrustedKeyRegistry.default.insertAll keys = .ok registry →
          ∀ (manifest : SignedCheckpointManifest) nowMs, manifest.body.ids = ids →
            UsesNamedKey env keys registry nowMs manifest) ↔
        (Admitted ids → Unshadowed registered ids))) ∧
    ((∀ registered, (∀ other ∈ registered, Admitted other) → Unshadowed registered ids) ↔
      Unambiguous ids) := by
  refine ⟨fun registered hregistered => ⟨fun h hids other hlast => ?_, ?_⟩,
    unshadowed_iff_unambiguous⟩
  · -- all keys are of one seed, so what is signed with it is accepted under the other pair's key
    have hids_map : (registered.map (seedKey env)).map TrustedCheckpointKey.ids = registered := by
      rw [List.map_map]
      exact List.map_id _
    have hwell : ∀ key ∈ registered.map (seedKey env), key.WellFormed := by
      intro key hkey
      obtain ⟨pair, hpair, rfl⟩ := List.mem_map.mp hkey
      exact wellFormed_seedKey (hregistered pair hpair)
    obtain ⟨registry, hkeys⟩ := insertAll_isOk hwell
    have hget : registry.get ids.1 ids.2 = some (seedKey env other) := by
      refine ((insertAll_default hkeys).2 (slotOf ids)).trans ?_
      rw [lastWhere_map]
      exact congrArg (Option.map _) hlast
    obtain ⟨manifest, hmanifest, hok⟩ := exists_verified_of_get hbody hhonest hids hget
    obtain ⟨key, message, hkey, hheld, -⟩ := (h _ _ hids_map hkeys manifest 0 hmanifest).named hok
    have hname : key.ids = ids := (of_decide_eq_true (lastWhere_eq_some hkey).2).trans hmanifest
    rw [hname] at hheld
    have hsame : seedKey env other = key := Option.some.inj (hget.symm.trans hheld)
    exact (congrArg TrustedCheckpointKey.ids hsame).trans hname
  · -- no other pair shares the slot, so that the key in it is the one that was named
    rintro hunshadowed keys registry rfl hkeys manifest nowMs rfl
    exact usesNamedKey_of_unshadowed hkeys hunshadowed

/-- The pairs of three registered keys: two of `governance`, and one of `archive` between them. -/
def sampleRegistered : List (String × String) :=
  [("governance", "key-2"), ("archive", "key-1"), ("governance", "key-1")]

/-- Three registered keys, and manifests that name the middle one of `archive`: each is verified under the
key of its own pair, although the others share a signer id or a key id with it. -/
theorem uses_named_key_archive :
    Unshadowed sampleRegistered ("archive", "key-1") ∧
    ∀ keys registry, keys.map TrustedCheckpointKey.ids = sampleRegistered →
      TrustedKeyRegistry.default.insertAll keys = .ok registry →
      ∀ (manifest : SignedCheckpointManifest) nowMs, manifest.body.ids = ("archive", "key-1") →
        UsesNamedKey linkedCheckpointCrates keys registry nowMs manifest := by
  have hadmitted : ∀ other ∈ sampleRegistered, Admitted other := by
    simp only [sampleRegistered, List.mem_cons, List.not_mem_nil, or_false]
    rintro other (rfl | rfl | rfl) <;> exact ⟨by decide, by decide⟩
  have hunshadowed : Unshadowed sampleRegistered ("archive", "key-1") := by decide +kernel
  exact ⟨hunshadowed, ((uses_named_key_iff honest_digestScheme (fun _ => ⟨_, rfl⟩) _).1
    sampleRegistered hadmitted).mpr fun _ => hunshadowed⟩

/-- A key registered for `a`, NUL, `b` as the signer and `c` as the key: a manifest of the signer `a`
and the key `b`, NUL, `c` is accepted under it, although no key was ever inserted for these. -/
theorem not_uses_named_key_nul :
    ∃ registry manifest,
      TrustedKeyRegistry.default.insertAll [seedKey linkedCheckpointCrates ("a\x00b", "c")] =
        .ok registry ∧
      manifest.body.ids = ("a", "b\x00c") ∧
      verifySignedCheckpoint linkedCheckpointCrates registry 0 manifest = .ok () ∧
      ¬ UsesNamedKey linkedCheckpointCrates [seedKey linkedCheckpointCrates ("a\x00b", "c")] registry 0
        manifest := by
  have hwell : (seedKey linkedCheckpointCrates ("a\x00b", "c")).WellFormed :=
    wellFormed_seedKey ⟨by decide, by decide⟩
  obtain ⟨registry, hkeys⟩ : ∃ registry, TrustedKeyRegistry.default.insertAll
      [seedKey linkedCheckpointCrates ("a\x00b", "c")] = .ok registry :=
    insertAll_isOk (by simpa using hwell)
  have hget : registry.get "a" "b\x00c" = some (seedKey linkedCheckpointCrates ("a\x00b", "c")) := by
    refine ((insertAll_default hkeys).2 (slotOf ("a", "b\x00c"))).trans ?_
    have hslot : slotOf ("a\x00b", "c") = slotOf ("a", "b\x00c") := by decide
    exact (lastWhere_concat _ [] _).trans (if_pos (decide_eq_true hslot))
  have hids : Admitted ("a", "b\x00c") := ⟨by decide, by decide⟩
  obtain ⟨manifest, hmanifest, hok⟩ :=
    exists_verified_of_get (fun _ => ⟨_, rfl⟩) honest_digestScheme hids hget
  refine ⟨registry, manifest, hkeys, hmanifest, hok, fun h => ?_⟩
  obtain ⟨key, -, hkey, -⟩ := h.named hok
  obtain ⟨hmem, hids⟩ := lastWhere_eq_some hkey
  rw [List.mem_singleton.mp hmem, hmanifest] at hids
  exact absurd hids (by decide)

end LiminalDB
