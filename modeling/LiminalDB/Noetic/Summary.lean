import LiminalDB.Noetic.Convergence

/-! # Summaries: `summary` and `is_in_sync_with`

A summary hashes the peer id, the time and counter of the register clocks, and the ids and hashes of
what the state shows, one after another. Two summaries are in sync when the hashes are equal, that is
when the hashed fields are (`inSync_iff`). The peer id is one of them: two peers are never in sync. The
fields are run together without separators, so that other fields, cut at other places, may give the same
text (`RunAlike`). -/

namespace LiminalDB

/-- `Summary`: what a peer tells of its state: a digest, three counts, two clocks and the sum of
credences. -/
structure Summary (F : Type) where
  peer : PeerId
  digest : String
  modelCount : ℕ
  epochCount : ℕ
  seedCount : ℕ
  topkClock : Hlc
  policyClock : Hlc
  credenceSum : F

/-- `Summary::is_in_sync_with`: the digests are compared, and nothing else. -/
def Summary.isInSyncWith {F : Type} (self other : Summary F) : Bool := self.digest == other.digest

/-- The time and the counter of a clock, as they are hashed. -/
def Hlc.stampBytes (clock : Hlc) : Bytes := toBeBytes 8 clock.physMs.toNat ++ toBeBytes 4 clock.log.toNat

/-! ## Fields that are run together -/

/-- Two lists of fields run together alike: they begin with a common piece and go on alike behind it, where
an empty field does not count. -/
inductive RunAlike : List Bytes → List Bytes → Prop
  | nil : RunAlike [] []
  | emptyLeft {fields fields' : List Bytes} (h : RunAlike fields fields') : RunAlike ([] :: fields) fields'
  | emptyRight {fields fields' : List Bytes} (h : RunAlike fields fields') : RunAlike fields ([] :: fields')
  | piece (common : Bytes) {rest rest' : Bytes} {fields fields' : List Bytes}
      (h : RunAlike (rest :: fields) (rest' :: fields')) :
      RunAlike ((common ++ rest) :: fields) ((common ++ rest') :: fields')

namespace RunAlike

variable {fields fields' : List Bytes}

/-- Fields that run alike make the same text. -/
theorem flatten_eq (h : RunAlike fields fields') : fields.flatten = fields'.flatten := by
  induction h with
  | nil => rfl
  | emptyLeft _ ih => rw [List.flatten_cons, ih, List.nil_append]
  | emptyRight _ ih => rw [List.flatten_cons, ih, List.nil_append]
  | piece common _ ih =>
      rw [List.flatten_cons, List.flatten_cons] at ih ⊢
      rw [List.append_assoc, List.append_assoc, ih]

/-- Fields with one text run together alike, byte for byte. -/
theorem of_flatten_eq : ∀ {fields fields' : List Bytes}, fields.flatten = fields'.flatten →
    RunAlike fields fields'
  | [], [], _ => .nil
  | [] :: _, _, h => .emptyLeft (of_flatten_eq (by simpa using h))
  | _, [] :: _, h => .emptyRight (of_flatten_eq (by simpa using h))
  | (byte :: rest) :: fields, [], h => by simp at h
  | [], (byte :: rest) :: fields', h => by simp at h
  | (byte :: rest) :: fields, (byte' :: rest') :: fields', h => by
      rw [List.flatten_cons, List.flatten_cons, List.cons_append, List.cons_append] at h
      obtain ⟨rfl, hrest⟩ := List.cons_eq_cons.mp h
      exact .piece [byte] (of_flatten_eq (by simpa using hrest))
termination_by fields fields' => fields.flatten.length + fields.length + fields'.length

/-- Fields run alike exactly if the texts that they make are the same, wherever these are cut into fields. -/
theorem iff_flatten_eq : RunAlike fields fields' ↔ fields.flatten = fields'.flatten :=
  ⟨flatten_eq, of_flatten_eq⟩

instance (fields fields' : List Bytes) : Decidable (RunAlike fields fields') :=
  decidable_of_iff _ iff_flatten_eq.symm

/-- Fields of equal lengths run together alike only where they are the same. -/
theorem eq_of_lengths (h : RunAlike fields fields')
    (hlengths : fields.map List.length = fields'.map List.length) : fields = fields' := by
  have hflatten := h.flatten_eq
  clear h
  induction fields generalizing fields' with
  | nil => exact (List.map_eq_nil_iff.mp hlengths.symm).symm
  | cons field fields ih =>
      obtain _ | ⟨field', fields'⟩ := fields'
      · cases hlengths
      obtain ⟨hlength, hrests⟩ := List.cons_eq_cons.mp hlengths
      obtain ⟨rfl, hrest⟩ := List.append_inj hflatten hlength
      rw [ih hrests hrest]

end RunAlike

/-! ## What is hashed -/

namespace NoeticState

variable {F : Type} [Credence F]

/-- The hashed fields between the clock of the top list and that of the policies: the headers shown,
the label and the clock of the seed status, the hash of the policies. -/
def hashedText (self : NoeticState F) : Bytes :=
  let ctx := self.mergeContext none
  (self.models.elements ctx).flatMap (fun model => asBytes model.id ++ asBytes model.hash) ++
  (self.epochs.elements ctx).flatMap (fun epoch => toBeBytes 8 epoch.id.toNat ++ asBytes epoch.hash) ++
  (self.seeds.elements ctx).flatMap (fun seed => asBytes seed.id ++ toBeBytes 8 seed.epoch.toNat) ++
  asBytes self.seedStatus.value.asStr ++ self.seedStatus.clock.stampBytes ++
  asBytes self.policies.value.hash

/-- What a state shows of its elements and values, field by field: the ids and hashes of the headers, the ids
and epochs of the seeds, the label and the clock of the seed status, the hash of the policies. -/
def shownFields (self : NoeticState F) : List Bytes :=
  let ctx := self.mergeContext none
  (self.models.elements ctx).flatMap (fun model => [asBytes model.id, asBytes model.hash]) ++
  (self.epochs.elements ctx).flatMap (fun epoch => [toBeBytes 8 epoch.id.toNat, asBytes epoch.hash]) ++
  (self.seeds.elements ctx).flatMap (fun seed => [asBytes seed.id, toBeBytes 8 seed.epoch.toNat]) ++
  [asBytes self.seedStatus.value.asStr, self.seedStatus.clock.stampBytes, asBytes self.policies.value.hash]

/-- The fields that are shown make the text that is hashed. -/
theorem flatten_shownFields (self : NoeticState F) : self.shownFields.flatten = self.hashedText := by
  have hpairs : ∀ {α : Type} (l : List α) (f g : α → Bytes),
      (l.flatMap fun x => [f x, g x]).flatten = l.flatMap fun x => f x ++ g x := by
    intro α l f g
    induction l with
    | nil => rfl
    | cons x l ih => simp only [List.flatMap_cons, List.flatten_append, ih]; simp
  simp only [shownFields, hashedText, List.flatten_append, hpairs]
  simp

/-- All that `summary` feeds to the hasher. -/
def hashed (self : NoeticState F) : Bytes :=
  self.peer.bytes.toList ++ self.modelTopk.clock.stampBytes ++ self.hashedText ++
  self.policies.clock.stampBytes

/-- `NoeticState::summary`, with the hexadecimal text of a `blake3` hash. -/
def summary (blake3 : Bytes → String) (self : NoeticState F) : Summary F :=
  let ctx := self.mergeContext none
  { peer := self.peer
    digest := blake3 self.hashed
    modelCount := (self.models.elements ctx).length
    epochCount := (self.epochs.elements ctx).length
    seedCount := (self.seeds.elements ctx).length
    topkClock := self.modelTopk.clock
    policyClock := self.policies.clock
    credenceSum := self.credence.foldl (fun sum _ value => sum + value) 0 }

/-- Two states agree on the hashed fields. The headers, the status and the policies are compared as
they are hashed, run together, and without the nodes of the clocks, the versions and sources of the
headers, the entries of the top list, the data of the status and the payload of the policies. -/
structure HashedAlike (a b : NoeticState F) : Prop where
  peer : a.peer = b.peer
  topkMs : a.modelTopk.clock.physMs = b.modelTopk.clock.physMs
  topkLog : a.modelTopk.clock.log = b.modelTopk.clock.log
  text : a.hashedText = b.hashedText
  policyMs : a.policies.clock.physMs = b.policies.clock.physMs
  policyLog : a.policies.clock.log = b.policies.clock.log

/-- A clock is hashed as twelve bytes, whatever it is. -/
theorem length_stampBytes (clock : Hlc) : clock.stampBytes.length = 12 := by
  simp [Hlc.stampBytes]

/-- These are the same exactly if time and counter are: the peer of the clock is not among them. -/
theorem stampBytes_eq_iff {a b : Hlc} :
    a.stampBytes = b.stampBytes ↔ a.physMs = b.physMs ∧ a.log = b.log := by
  refine ⟨fun h => ?_, fun ⟨hphys, hlog⟩ => by rw [Hlc.stampBytes, Hlc.stampBytes, hphys, hlog]⟩
  obtain ⟨hphys, hlog⟩ := List.append_inj h (by simp)
  have hnat : ∀ {k n n' : ℕ}, n < 256 ^ k → n' < 256 ^ k → toBeBytes k n = toBeBytes k n' → n = n' := by
    intro k n n' hn hn' heq
    rw [← fromBeBytes_toBeBytes hn, heq, fromBeBytes_toBeBytes hn']
  exact ⟨UInt64.toNat_inj.mp (hnat a.physMs.toNat_lt b.physMs.toNat_lt hphys),
    UInt32.toNat_inj.mp (hnat a.log.toNat_lt b.log.toNat_lt hlog)⟩

/-- Two states are hashed to the same exactly if peers, clocks and the fields shown say so. -/
theorem hashed_eq_iff {a b : NoeticState F} : a.hashed = b.hashed ↔ HashedAlike a b := by
  constructor
  · intro h
    unfold hashed at h
    obtain ⟨hfront, hpolicy⟩ := List.append_inj' h (by simp [length_stampBytes])
    rw [List.append_assoc, List.append_assoc] at hfront
    obtain ⟨hpeer, hrest⟩ := List.append_inj hfront (by simp)
    obtain ⟨htopk, htext⟩ := List.append_inj hrest (by simp [length_stampBytes])
    have hbytes : a.peer = b.peer := by
      cases ha : a.peer; cases hb : b.peer
      rw [ha, hb] at hpeer
      exact congrArg PeerId.mk (List.Vector.toList_injective hpeer)
    exact ⟨hbytes, (stampBytes_eq_iff.mp htopk).1, (stampBytes_eq_iff.mp htopk).2, htext,
      (stampBytes_eq_iff.mp hpolicy).1, (stampBytes_eq_iff.mp hpolicy).2⟩
  · intro h
    unfold hashed
    rw [h.peer, h.text, stampBytes_eq_iff.mpr ⟨h.topkMs, h.topkLog⟩,
      stampBytes_eq_iff.mpr ⟨h.policyMs, h.policyLog⟩]

variable {blake3 : Bytes → String}

/-- Two summaries are in sync when the states agree on the hashed fields. -/
theorem inSync_iff (hblake3 : Function.Injective blake3) (a b : NoeticState F) :
    (a.summary blake3).isInSyncWith (b.summary blake3) ↔ HashedAlike a b := by
  rw [← hashed_eq_iff, Summary.isInSyncWith, beq_iff_eq]
  exact hblake3.eq_iff

/-- States of one peer that show the same agree on the hashed fields. -/
theorem SameContent.hashedAlike {a b : NoeticState F} (h : SameContent a b) (hpeer : a.peer = b.peer) :
    HashedAlike a b := by
  refine ⟨hpeer, by rw [h.modelTopk], by rw [h.modelTopk], ?_, by rw [h.policies], by rw [h.policies]⟩
  simp only [hashedText, h.models, h.epochs, h.seeds, h.seedStatus, h.policies]

/-- A merge keeps the peer that merges. -/
theorem peer_merge (a b : NoeticState F) : (a.merge b).peer = a.peer := rfl

/-- The two states differ in the time or the counter of the clock of the top list or of the policies, or the
fields that they show do not run together alike. -/
def ToldApart (a b : NoeticState F) : Prop :=
  a.modelTopk.clock.physMs ≠ b.modelTopk.clock.physMs ∨ a.modelTopk.clock.log ≠ b.modelTopk.clock.log ∨
  a.policies.clock.physMs ≠ b.policies.clock.physMs ∨ a.policies.clock.log ≠ b.policies.clock.log ∨
  ¬ RunAlike a.shownFields b.shownFields

/-- Where the fields have the same lengths, as ids and hashes of a fixed width have, a difference in any of
them tells the states apart. -/
theorem toldApart_of_lengths {a b : NoeticState F}
    (hlengths : a.shownFields.map List.length = b.shownFields.map List.length)
    (hne : a.shownFields ≠ b.shownFields) : ToldApart a b :=
  .inr (.inr (.inr (.inr fun halike => hne (halike.eq_of_lengths hlengths))))

/-- Two states of one peer are not told apart exactly if they are hashed alike. -/
theorem not_toldApart_iff {a b : NoeticState F} (hpeer : a.peer = b.peer) :
    ¬ ToldApart a b ↔ HashedAlike a b := by
  rw [ToldApart, RunAlike.iff_flatten_eq, flatten_shownFields, flatten_shownFields]
  simp only [not_or, not_not]
  constructor
  · rintro ⟨htopkMs, htopkLog, hpolicyMs, hpolicyLog, htext⟩
    exact ⟨hpeer, htopkMs, htopkLog, htext, hpolicyMs, hpolicyLog⟩
  · intro h
    exact ⟨h.topkMs, h.topkLog, h.policyMs, h.policyLog, h.text⟩

/-- **When summaries tell the truth.** For two states of one peer they do exactly when the states show the
same, or differ in one of the two hashed clocks, or show fields that do not run together alike. For states of
two peers, exactly when these do not show the same. So the summaries of two peers that have merged each other
are never in sync. -/
theorem summary_inSync_iff_sameContent_iff (hblake3 : Function.Injective blake3)
    (a b : NoeticState F) :
    (((a.summary blake3).isInSyncWith (b.summary blake3) ↔ SameContent a b) ↔
      a.peer = b.peer ∧ (SameContent a b ∨ ToldApart a b) ∨ a.peer ≠ b.peer ∧ ¬ SameContent a b) ∧
    (a.peer ≠ b.peer →
      ¬ ((a.merge b).summary blake3).isInSyncWith ((b.merge a).summary blake3)) := by
  rw [inSync_iff hblake3, inSync_iff hblake3]
  refine ⟨?_, fun hne halike => hne ?_⟩
  · by_cases hpeer : a.peer = b.peer
    · have hsame : SameContent a b → HashedAlike a b := fun h => h.hashedAlike hpeer
      rw [← not_toldApart_iff hpeer] at hsame ⊢
      simp only [hpeer, ne_eq, not_true, false_and, or_false, true_and]
      by_cases hcontent : SameContent a b
      · simp [hcontent, hsame hcontent]
      · simp [hcontent]
    · -- the peer is hashed
      have halike : ¬ HashedAlike a b := fun h => hpeer h.peer
      simp only [hpeer, halike, false_and, false_or, ne_eq, not_false_eq_true, true_and, false_iff]
  · rw [← peer_merge a b, halike.peer, peer_merge]

/-- Bytes are told by their hex digits. -/
theorem encodeHex_injective : Function.Injective encodeHex := fun a b h => by
  have hdecode := congrArg decodeHexBytes h
  rwa [decodeHexBytes_encodeHex, decodeHexBytes_encodeHex, Option.some.injEq] at hdecode

/-- Two new peers merge each other. They show the same and are not in sync. -/
theorem not_inSync_merged_peers :
    ∃ (blake3 : Bytes → String) (a b : NoeticState ℚ), Function.Injective blake3 ∧
      Produced a ∧ Produced b ∧ a.credence = b.credence ∧ SameContent (a.merge b) (b.merge a) ∧
      ¬ ((a.merge b).summary blake3).isInSyncWith ((b.merge a).summary blake3) := by
  refine ⟨encodeHex, new (samplePeer 1), new (samplePeer 2), encodeHex_injective, .new _, .new _, rfl,
    ⟨by decide, by decide, by decide, by decide +kernel, by decide +kernel, ?_⟩, ?_⟩
  · rw [merge_eq, merge_eq]
    exact Lww.merge_comm fun h => absurd h (by decide)
  · rw [inSync_iff encodeHex_injective]
    intro h
    exact absurd h.peer (by decide)

/-- A peer before and after it writes a seed status: the summaries tell the two states apart. -/
theorem summary_inSync_one_writer :
    ((new (samplePeer 1) : NoeticState ℚ).summary encodeHex).isInSyncWith
        ((statusWriter 1 10).summary encodeHex) ↔
      SameContent (new (samplePeer 1)) (statusWriter 1 10) := by
  have hapart : ToldApart (new (samplePeer 1) : NoeticState ℚ) (statusWriter 1 10) :=
    .inr (.inr (.inr (.inr (by decide))))
  exact (summary_inSync_iff_sameContent_iff encodeHex_injective _ _).1.mpr (.inl ⟨rfl, .inr hapart⟩)

end NoeticState

end LiminalDB
