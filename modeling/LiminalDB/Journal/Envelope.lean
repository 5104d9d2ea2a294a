import LiminalDB.Field.Snapshot
import LiminalDB.Ledger.Linked

/-! # The bytes of a snapshot

The CBOR that the derived serializers write for a `SnapshotEnvelope`, over any coding of its numbers. The
fields under `#[serde(skip)]` are not written and come back as their defaults, so what is read from the
bytes of an envelope is the envelope without them: `SnapshotEnvelope.fromSlice_serde`. -/

namespace LiminalDB

variable {F : Type}

/-- The serializer of a type through what is written of it. -/
def Codec.skipping {α β : Type} (c : Codec β) (written : α → β) (read : β → α) : Serde α where
  toVec a := c.serde.toVec (written a)
  fromSlice bytes := (c.serde.fromSlice bytes).map read

/-- What is read back is what the written part determines. -/
theorem Codec.fromSlice_skipping {α β : Type} (c : Codec β) (written : α → β) (read : β → α) (a : α) :
    ∃ bytes, (c.skipping written read).toVec a = .ok bytes ∧
      (c.skipping written read).fromSlice bytes = .ok (read (written a)) := by
  obtain ⟨bytes, henc, hdec⟩ := c.lossless_serde (written a)
  refine ⟨bytes, henc, ?_⟩
  unfold Codec.skipping
  dsimp only
  rw [hdec]
  rfl

namespace Codec

/-! ## Numbers and names -/

/-- `u32` -/
def u32 : Codec UInt32 := uint.via UInt32.toNat UInt32.ofNat fun _ => UInt32.ofNat_toNat

/-- `u16` -/
def u16 : Codec UInt16 := uint.via UInt16.toNat UInt16.ofNat fun _ => UInt16.ofNat_toNat

/-- The bits of a number, or of the one NaN. -/
instance (bits : BitVec 32) : Decidable (Float.Model.Format.binary32.Valid bits) :=
  decidable_of_iff
    (@Float.Model.UnpackedFloat.unpackExponent .binary32 bits = -1#_ →
      @Float.Model.UnpackedFloat.unpackMantissa .binary32 bits ≠ 0#_ →
      bits = Float.Model.UnpackedFloat.packedNaN .binary32)
    ⟨fun h => ⟨h⟩, fun h => h.eq_packedNaN⟩

/-- The bits of an `f32`. -/
def binary32 : Codec Float32 where
  enc x := toBeBytes 4 x.toBits.toNat
  dec bytes := do
    let (n, rest) ← decBe 4 bytes
    if h : Float.Model.Format.binary32.Valid (UInt32.ofNat n).toBitVec then
      return (.ofModel ⟨UInt32.ofNat n, h⟩, rest)
    else none
  dec_enc := by
    intro x rest
    have hlt : x.toBits.toNat < 256 ^ 4 := x.toBits.toNat_lt
    have hbits : UInt32.ofNat x.toBits.toNat = x.toBits := UInt32.ofNat_toNat
    have hvalid : Float.Model.Format.binary32.Valid (UInt32.ofNat x.toBits.toNat).toBitVec := by
      rw [hbits]
      exact x.toModel.valid
    have hback : ∀ (bits : UInt32) (h : Float.Model.Format.binary32.Valid bits.toBitVec), bits = x.toBits →
        Float32.ofModel ⟨bits, h⟩ = x := by
      rintro _ h rfl
      rfl
    rw [decBe_toBeBytes hlt]
    refine (dif_pos hvalid).trans ?_
    rw [hback _ hvalid hbits]
    rfl

/-- Major type 7 with four bytes behind it: an `f32` in single precision, the form that holds them all. The
serializer takes the shorter half where that holds the number. -/
def f32 : Codec Float32 := binary32.behind [0xfa]

/-- The serde name of a `NodeState`. -/
def nodeStateName : NodeState → String
  | .active => "Active"
  | .idle => "Idle"
  | .sleep => "Sleep"
  | .dead => "Dead"

/-- `NodeState` -/
def nodeState : Codec NodeState :=
  variant nodeStateName [.active, .idle, .sleep, .dead] (by rintro (_ | _) <;> decide)

/-- The serde name of an `ImpulseKind`. -/
def impulseKindName : ImpulseKind → String
  | .query => "Query"
  | .write => "Write"
  | .affect => "Affect"

/-- `ImpulseKind` -/
def impulseKind : Codec ImpulseKind :=
  variant impulseKindName [.query, .write, .affect] (by rintro (_ | _) <;> decide)

/-- The serde name of a `Hint`. -/
def hintName : Hint → String
  | .slowTick => "SlowTick"
  | .fastTick => "FastTick"
  | .trimField => "TrimField"
  | .wakeSeeds => "WakeSeeds"

/-- `Hint` -/
def hint : Codec Hint :=
  variant hintName [.slowTick, .fastTick, .trimField, .wakeSeeds] (by rintro (_ | _) <;> decide)

/-- The serde name of an `EpochKind`. -/
def epochKindName : EpochKind → String
  | .dream => "dream"
  | .collective => "collective"
  | .awaken => "awaken"

/-- `EpochKind` -/
def epochKind : Codec EpochKind :=
  variant epochKindName [.dream, .collective, .awaken] (by rintro (_ | _) <;> decide)

/-! ## Cells and rules -/

/-- `BTreeSet<NodeId>`: a sequence in increasing order. -/
def nodeIds : Codec (Std.ExtTreeSet NodeId compare) :=
  u64.list.via (·.toList) (Std.ExtTreeSet.ofList · compare) fun ids => by
    refine Std.ExtTreeSet.ext_mem fun id => ?_
    rw [Std.ExtTreeSet.mem_ofList, List.contains_iff_mem, Std.ExtTreeSet.mem_toList]

variable (float : Codec F)

/-- `CellSnapshot` -/
def cellSnapshot : Codec (CellSnapshot F) :=
  (record 13 (
    (field "id" u64).pair <| (field "seed_affinity" float).pair <|
    (field "seed_metabolism" float).pair <| (field "core_pattern" text).pair <|
    (field "state" nodeState).pair <| (field "links" nodeIds).pair <|
    (field "metabolism" float).pair <| (field "affinity" float).pair <|
    (field "last_response_ms" u64).pair <| (field "energy" float).pair <|
    (field "salience" float).pair <| (field "adreno_tag" bool).pair <|
    (field "last_recall_ms" u64))).via
    (fun x => (x.id, x.seedAffinity, x.seedMetabolism, x.corePattern, x.state, x.links, x.metabolism,
      x.affinity, x.lastResponseMs, x.energy, x.salience, x.adrenoTag, x.lastRecallMs))
    (fun (x₁, x₂, x₃, x₄, x₅, x₆, x₇, x₈, x₉, x₁₀, x₁₁, x₁₂, x₁₃) => ⟨x₁, x₂, x₃, x₄, x₅, x₆, x₇,
      x₈, x₉, x₁₀, x₁₁, x₁₂, x₁₃⟩)
    fun _ => rfl

/-- `ReflexWhen` -/
def reflexWhen : Codec (ReflexWhen F) :=
  (record 5 (
    (field "token" text).pair <| (field "kind" impulseKind).pair <|
    (field "min_strength" float).pair <| (field "window_ms" u32).pair <|
    (field "min_count" u16))).via
    (fun x => (x.token, x.kind, x.minStrength, x.windowMs, x.minCount))
    (fun (x₁, x₂, x₃, x₄, x₅) => ⟨x₁, x₂, x₃, x₄, x₅⟩)
    fun _ => rfl

/-- The variants of a `ReflexAction`. -/
inductive ReflexActionTag
  | emitHint
  | spawnSeed
  | wakeSleeping
  | boostLinks
  deriving DecidableEq

/-- The serde name of a variant. -/
def ReflexActionTag.name : ReflexActionTag → String
  | .emitHint => "EmitHint"
  | .spawnSeed => "SpawnSeed"
  | .wakeSleeping => "WakeSleeping"
  | .boostLinks => "BoostLinks"

/-- What a variant of `ReflexAction` holds. -/
def ReflexActionTag.Fields (F : Type) : ReflexActionTag → Type
  | .emitHint => Hint
  | .spawnSeed => String × F
  | .wakeSleeping => UInt16
  | .boostLinks => F × UInt16

/-- The fields of a variant of `ReflexAction`. -/
def reflexActionFields : (tag : ReflexActionTag) → Codec (tag.Fields F)
  | .emitHint => record 1 (field "hint" hint)
  | .spawnSeed => record 2 ((field "seed" text).pair (field "affinity_shift" float))
  | .wakeSleeping => record 1 (field "count" u16)
  | .boostLinks => record 2 ((field "factor" float).pair (field "top" u16))

/-- `ReflexAction` -/
def reflexAction : Codec (ReflexAction F) :=
  (tagged (variant ReflexActionTag.name [.emitHint, .spawnSeed, .wakeSleeping, .boostLinks]
      (by rintro (_ | _) <;> decide)) (reflexActionFields float)).via
    (fun
      | .emitHint hint => ⟨.emitHint, hint⟩
      | .spawnSeed seed affinityShift => ⟨.spawnSeed, seed, affinityShift⟩
      | .wakeSleeping count => ⟨.wakeSleeping, count⟩
      | .boostLinks factor top => ⟨.boostLinks, factor, top⟩)
    (fun
      | ⟨.emitHint, hint⟩ => .emitHint hint
      | ⟨.spawnSeed, seed, affinityShift⟩ => .spawnSeed seed affinityShift
      | ⟨.wakeSleeping, count⟩ => .wakeSleeping count
      | ⟨.boostLinks, factor, top⟩ => .boostLinks factor top)
    (by rintro (_ | _) <;> rfl)

/-- `ReflexRule` -/
def reflexRule : Codec (ReflexRule F) :=
  (record 4 (
    (field "id" u64).pair <| (field "when" (reflexWhen float)).pair <|
    (field "then" (reflexAction float)).pair <| (field "enabled" bool))).via
    (fun x => (x.id, x.when, x.action, x.enabled))
    (fun (x₁, x₂, x₃, x₄) => ⟨x₁, x₂, x₃, x₄⟩)
    fun _ => rfl

/-! ## Configurations -/

/-- `TrsState` -/
def trsState : Codec (TrsState F) :=
  (record 9 (
    (field "alpha" float).pair <| (field "beta" float).pair <| (field "target_load" float).pair <|
    (field "err_i" float).pair <| (field "k_p" float).pair <| (field "k_i" float).pair <|
    (field "k_d" float).pair <| (field "last_err" float).pair <| (field "last_ts" u64))).via
    (fun x => (x.alpha, x.beta, x.targetLoad, x.errI, x.kP, x.kI, x.kD, x.lastErr, x.lastTs))
    (fun (x₁, x₂, x₃, x₄, x₅, x₆, x₇, x₈, x₉) => ⟨x₁, x₂, x₃, x₄, x₅, x₆, x₇, x₈, x₉⟩)
    fun _ => rfl

/-- `DreamConfig` -/
def dreamConfig : Codec (DreamConfig F) :=
  (record 7 (
    (field "min_idle_s" u32).pair <| (field "window_ms" u32).pair <|
    (field "strengthen_top_pct" float).pair <| (field "weaken_bottom_pct" float).pair <|
    (field "protect_salience" float).pair <| (field "adreno_protect" bool).pair <|
    (field "max_ops_per_cycle" u32))).via
    (fun x => (x.minIdleS, x.windowMs, x.strengthenTopPct, x.weakenBottomPct, x.protectSalience,
      x.adrenoProtect, x.maxOpsPerCycle))
    (fun (x₁, x₂, x₃, x₄, x₅, x₆, x₇) => ⟨x₁, x₂, x₃, x₄, x₅, x₆, x₇⟩)
    fun _ => rfl

/-- `SyncConfig` -/
def syncConfig : Codec (SyncConfig F) :=
  (record 6 (
    (field "phase_len_ms" u32).pair <| (field "phase_gap_ms" u32).pair <|
    (field "cooccur_threshold" float).pair <| (field "max_groups" u16).pair <|
    (field "share_top_k" u16).pair <| (field "weight_xfer" float))).via
    (fun x => (x.phaseLenMs, x.phaseGapMs, x.cooccurThreshold, x.maxGroups, x.shareTopK, x.weightXfer))
    (fun (x₁, x₂, x₃, x₄, x₅, x₆) => ⟨x₁, x₂, x₃, x₄, x₅, x₆⟩)
    fun _ => rfl

/-- `AwakeningConfig` -/
def awakeningConfig : Codec (AwakeningConfig F) :=
  (record 7 (
    (field "max_nodes" uint).pair <| (field "energy_floor" float).pair <|
    (field "energy_boost" float).pair <| (field "salience_boost" float).pair <|
    (field "protect_salience" float).pair <| (field "tick_bias_ms" int).pair <|
    (field "target_gain" float))).via
    (fun x => (x.maxNodes, x.energyFloor, x.energyBoost, x.salienceBoost, x.protectSalience,
      x.tickBiasMs, x.targetGain))
    (fun (x₁, x₂, x₃, x₄, x₅, x₆, x₇) => ⟨x₁, x₂, x₃, x₄, x₅, x₆, x₇⟩)
    fun _ => rfl

/-! ## The model and its log -/

/-- `ResonantEdge` -/
def resonantEdge : Codec (ResonantEdge F) :=
  (record 4 (
    (field "from" u64).pair <| (field "to" u64).pair <| (field "weight" float).pair <|
    (field "coherence" float))).via
    (fun x => (x.source, x.target, x.weight, x.coherence))
    (fun (x₁, x₂, x₃, x₄) => ⟨x₁, x₂, x₃, x₄⟩)
    fun _ => rfl

/-- `Influence` -/
def influence : Codec (Influence F) :=
  (record 4 (
    (field "source" u64).pair <| (field "sink" u64).pair <| (field "weight" float).pair <|
    (field "coherence" float))).via
    (fun x => (x.source, x.sink, x.weight, x.coherence))
    (fun (x₁, x₂, x₃, x₄) => ⟨x₁, x₂, x₃, x₄⟩)
    fun _ => rfl

/-- `Tension` -/
def tension : Codec (Tension F) :=
  (record 3 (
    (field "node" u64).pair <| (field "magnitude" float).pair <| (field "relief" float))).via
    (fun x => (x.node, x.magnitude, x.relief))
    (fun (x₁, x₂, x₃) => ⟨x₁, x₂, x₃⟩)
    fun _ => rfl

/-- What is written of a `ResonantModel`. -/
abbrev ModelFields (F : Type) : Type :=
  List (ResonantEdge F) × List (Influence F) × List (Tension F) × F

/-- `ResonantModel`, without the two fields that are skipped. -/
def resonantModel : Codec (ModelFields F) :=
  record 4 (
    (field "edges" (resonantEdge float).list).pair <|
    (field "influences" (influence float).list).pair <|
    (field "tensions" (tension float).list).pair <| (field "coherence" float))

/-- The variants of a `SyncEvent`. -/
inductive SyncEventTag
  | dream
  | collective
  | build
  | apply
  | tick
  deriving DecidableEq

/-- The serde name of a variant. -/
def SyncEventTag.name : SyncEventTag → String
  | .dream => "Dream"
  | .collective => "Collective"
  | .build => "Build"
  | .apply => "Apply"
  | .tick => "Tick"

/-- What a variant of `SyncEvent` holds. -/
def SyncEventTag.Fields : SyncEventTag → Type
  | .dream => UInt64 × UInt32 × UInt32 × UInt32
  | .collective => UInt64 × UInt32 × UInt32 × UInt32
  | .build => UInt64 × String × UInt32
  | .apply => UInt64 × Option String × UInt32
  | .tick => UInt64

/-- The fields of a variant of `SyncEvent`. -/
def syncEventFields : (tag : SyncEventTag) → Codec tag.Fields
  | .dream =>
      record 4 (
        (field "at_ms" u64).pair <| (field "strengthened" u32).pair <|
        (field "weakened" u32).pair <| (field "protected" u32))
  | .collective =>
      record 4 (
        (field "at_ms" u64).pair <| (field "shared" u32).pair <| (field "aligned" u32).pair <|
        (field "protected" u32))
  | .build =>
      record 3 ((field "at_ms" u64).pair <| (field "hash" text).pair <| (field "cell_count" u32))
  | .apply =>
      record 3 (
        (field "at_ms" u64).pair <| (field "hash" (text.option notNull_text)).pair <|
        (field "cell_count" u32))
  | .tick => record 1 (field "at_ms" u64)

/-- `SyncEvent` -/
def syncEvent : Codec SyncEvent :=
  (tagged (variant SyncEventTag.name [.dream, .collective, .build, .apply, .tick]
      (by rintro (_ | _) <;> decide)) syncEventFields).via
    (fun
      | .dream atMs strengthened weakened protectedCells =>
          ⟨.dream, atMs, strengthened, weakened, protectedCells⟩
      | .collective atMs shared aligned protectedCells =>
          ⟨.collective, atMs, shared, aligned, protectedCells⟩
      | .build atMs hash cellCount => ⟨.build, atMs, hash, cellCount⟩
      | .apply atMs hash cellCount => ⟨.apply, atMs, hash, cellCount⟩
      | .tick atMs => ⟨.tick, atMs⟩)
    (fun
      | ⟨.dream, atMs, strengthened, weakened, protectedCells⟩ =>
          .dream atMs strengthened weakened protectedCells
      | ⟨.collective, atMs, shared, aligned, protectedCells⟩ =>
          .collective atMs shared aligned protectedCells
      | ⟨.build, atMs, hash, cellCount⟩ => .build atMs hash cellCount
      | ⟨.apply, atMs, hash, cellCount⟩ => .apply atMs hash cellCount
      | ⟨.tick, atMs⟩ => .tick atMs)
    (by rintro (_ | _) <;> rfl)

/-- `SyncLog`, without its capacity. -/
def syncLog : Codec (List SyncEvent) := record 1 (field "entries" syncEvent.list)

/-! ## Epochs -/

/-- `HarmonyMetrics` -/
def harmonyMetrics : Codec (HarmonyMetrics F) :=
  (record 3 (
    (field "avg_strength" float).pair <| (field "avg_latency" float).pair <|
    (field "entropy" float))).via
    (fun x => (x.avgStrength, x.avgLatency, x.entropy))
    (fun (x₁, x₂, x₃) => ⟨x₁, x₂, x₃⟩)
    fun _ => rfl

/-- `Epoch` -/
def epoch : Codec (Epoch F) :=
  (record 13 (
    (field "id" u64).pair <| (field "kind" epochKind).pair <| (field "start_ms" u64).pair <|
    (field "end_ms" u64).pair <| (field "cfg_hash" u64).pair <| (field "report_hash" u64).pair <|
    (field "harmony_before" (harmonyMetrics float)).pair <|
    (field "harmony_after" (harmonyMetrics float)).pair <|
    (field "tension_before" float).pair <| (field "tension_after" float).pair <|
    (field "latency_avg_before" float).pair <| (field "latency_avg_after" float).pair <|
    (field "impact" float))).via
    (fun x => (x.id, x.kind, x.startMs, x.endMs, x.cfgHash, x.reportHash, x.harmonyBefore,
      x.harmonyAfter, x.tensionBefore, x.tensionAfter, x.latencyAvgBefore, x.latencyAvgAfter, x.impact))
    (fun (x₁, x₂, x₃, x₄, x₅, x₆, x₇, x₈, x₉, x₁₀, x₁₁, x₁₂, x₁₃) => ⟨x₁, x₂, x₃, x₄, x₅, x₆, x₇,
      x₈, x₉, x₁₀, x₁₁, x₁₂, x₁₃⟩)
    fun _ => rfl

/-- `MirrorTimeline` -/
def mirrorTimeline : Codec (MirrorTimeline F) :=
  (record 2 ((field "epochs" (epoch float).list).pair (field "built_ms" u64))).via
    (fun x => (x.epochs, x.builtMs))
    (fun (x₁, x₂) => ⟨x₁, x₂⟩)
    fun _ => rfl

/-! ## The envelope -/

/-- What is written of an envelope: all but the skipped fields of its model and its log. -/
abbrev EnvelopeFields (F : Type) : Type :=
  UInt64 × NodeId × List (CellSnapshot F) × List (ReflexRule F) × ReflexId × Option (TrsState F) ×
    Option (DreamConfig F) × Option (SyncConfig F) × Option (AwakeningConfig F) ×
    Option (ModelFields F) × Option (List SyncEvent) × UInt64 × Option (MirrorTimeline F)

/-- `SnapshotEnvelope` -/
def envelopeFields : Codec (EnvelopeFields F) :=
  record 13 (
    (field "now_ms" u64).pair <| (field "next_id" u64).pair <|
    (field "cells" (cellSnapshot float).list).pair <| (field "rules" (reflexRule float).list).pair <|
    (field "next_reflex_id" u64).pair <|
    (field "trs" ((trsState float).option fun _ => notNull_record 9 _ _)).pair <|
    (field "dream" ((dreamConfig float).option fun _ => notNull_record 7 _ _)).pair <|
    (field "sync" ((syncConfig float).option fun _ => notNull_record 6 _ _)).pair <|
    (field "awakening" ((awakeningConfig float).option fun _ => notNull_record 7 _ _)).pair <|
    (field "resonant" ((resonantModel float).option fun _ => notNull_record 4 _ _)).pair <|
    (field "sync_log" (syncLog.option fun _ => notNull_record 1 _ _)).pair <|
    (field "last_awaken_tick" u64).pair <|
    (field "mirror" ((mirrorTimeline float).option fun _ => notNull_record 2 _ _)))

/-- `EventDelta::Spawn`, tagged by its kind. -/
def spawn : Codec (CellSnapshot F) :=
  record 2 ((field "payload" (cellSnapshot float)).behind (text.enc "kind" ++ text.enc "spawn"))

end Codec

namespace SnapshotEnvelope

/-- What is written of an envelope. -/
def fields (envelope : SnapshotEnvelope F) : Codec.EnvelopeFields F :=
  (envelope.nowMs, envelope.nextId, envelope.cells, envelope.rules, envelope.nextReflexId, envelope.trs,
    envelope.dream, envelope.sync, envelope.awakening,
    envelope.resonant.map fun model => (model.edges, model.influences, model.tensions, model.coherence),
    envelope.syncLog.map SyncLog.entries, envelope.lastAwakenTick, envelope.mirror)

/-- The envelope that is read, with the defaults of the skipped fields. -/
def ofFields : Codec.EnvelopeFields F → SnapshotEnvelope F
  | (nowMs, nextId, cells, rules, nextReflexId, trs, dream, sync, awakening, resonant, syncLog,
      lastAwakenTick, mirror) =>
    { nowMs, nextId, cells, rules, nextReflexId, trs, dream, sync, awakening
      resonant := resonant.map fun (edges, influences, tensions, coherence) =>
        ⟨edges, influences, tensions, coherence, none, none⟩
      syncLog := syncLog.map fun entries => ⟨entries, 0⟩
      lastAwakenTick, mirror }

/-- What is not written is what is skipped. -/
theorem ofFields_fields (envelope : SnapshotEnvelope F) : ofFields envelope.fields = envelope.skipped := by
  unfold ofFields fields skipped
  cases envelope.resonant <;> cases envelope.syncLog <;> rfl

/-- `serde_cbor` on an envelope. -/
def serde (float : Codec F) : Serde (SnapshotEnvelope F) :=
  (Codec.envelopeFields float).skipping fields ofFields

/-- What is read from the bytes of an envelope is the envelope without its skipped fields. -/
theorem fromSlice_serde (float : Codec F) (envelope : SnapshotEnvelope F) :
    ∃ bytes, (serde float).toVec envelope = .ok bytes ∧
      (serde float).fromSlice bytes = .ok envelope.skipped := by
  rw [← ofFields_fields]
  exact (Codec.envelopeFields float).fromSlice_skipping fields ofFields envelope

end SnapshotEnvelope

end LiminalDB
