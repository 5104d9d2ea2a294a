import LiminalDB.Foundations.Greatest
import LiminalDB.Foundations.KeyedFold
import Mathlib.Algebra.Order.Ring.Unbundled.Rat
import Mathlib.Data.List.Lex
import Mathlib.Data.Prod.Lex
import Mathlib.Data.String.Basic
import Mathlib.Data.Vector.Basic

/-! # The replicated structures of the noetic layer: `crdt.rs`

Hybrid clocks, last-writer registers and the observed-remove set with clocks on both sides. Ties of
two clocks are broken by the credence of their nodes, which a `MergeContext` holds. Each context
orders the clocks by a key (`MergeContext.key`), so that registers and both maps of a set keep the
greatest. -/

namespace LiminalDB

/-- A peer: the 32 bytes of its public key. -/
structure PeerId where
  /-- The bytes of the key. -/
  bytes : List.Vector UInt8 32
  deriving DecidableEq

namespace PeerId

/-- The bytes as numbers: arrays of bytes are compared from the front. -/
def key (peer : PeerId) : List ℕ := peer.bytes.toList.map UInt8.toNat

/-- No two clocks have the same key. -/
theorem key_injective : Function.Injective key := by
  rintro ⟨a⟩ ⟨b⟩ h
  congr 1
  refine List.Vector.toList_injective (List.map_injective_iff.mpr ?_ h)
  exact fun x y => UInt8.toNat_inj.mp

/-- The derived order. -/
instance : LinearOrder PeerId := LinearOrder.lift' key key_injective

instance : Std.LawfulEqOrd PeerId := lawfulEqOrd PeerId

instance : Std.TransOrd PeerId := transOrd PeerId

end PeerId

/-- A hybrid logical clock. -/
structure Hlc where
  physMs : UInt64
  log : UInt32
  node : PeerId
  deriving DecidableEq

/-- The credence of the peers that have one, and of all others. Credences are `f32` without NaN: a
linear order. -/
structure MergeContext (F : Type) where
  credence : Std.ExtTreeMap PeerId F compare
  default : F

namespace MergeContext

variable {F : Type} [LinearOrder F]

/-- `MergeContext::new`: a context in which every peer has the same credence. -/
def new (default : F) : MergeContext F := ⟨∅, default⟩

/-- `set_peer`: the credence of one peer is set. -/
def setPeer (ctx : MergeContext F) (peer : PeerId) (credence : F) : MergeContext F :=
  { ctx with credence := ctx.credence.insert peer credence }

/-- `credence_for`: the credence of a peer, or the common one if it has none of its own. -/
def credenceFor (ctx : MergeContext F) (peer : PeerId) : F :=
  ctx.credence[peer]?.getD ctx.default

/-- What a context compares clocks by: the time, the counter, the credence of the node, the node. -/
def key (ctx : MergeContext F) (clock : Hlc) : ℕ ×ₗ ℕ ×ₗ F ×ₗ PeerId :=
  toLex (clock.physMs.toNat, toLex (clock.log.toNat,
    toLex (ctx.credenceFor clock.node, clock.node)))

omit [LinearOrder F] in
/-- No two clocks have the same key in a context, for the key ends with all that a clock is made of. -/
theorem key_injective (ctx : MergeContext F) : Function.Injective ctx.key := by
  rintro ⟨phys, log, node⟩ ⟨phys', log', node'⟩ h
  simp only [key, toLex_inj, Prod.mk.injEq] at h
  obtain ⟨hphys, hlog, -, hnode⟩ := h
  rw [UInt64.toNat_inj.mp hphys, UInt32.toNat_inj.mp hlog, hnode]

end MergeContext

namespace Hlc

variable {F : Type} [LinearOrder F]

/-- `Hlc::new`: the clock of a node at a physical time, its counter at zero. -/
def new (node : PeerId) (physMs : UInt64) : Hlc := ⟨physMs, 0, node⟩

/-- `Hlc::merged`. The counter is a `u32`; its addition wraps in a release build. -/
def merged (self other : Hlc) (node : PeerId) (nowMs : UInt64) : Hlc :=
  let maxPhys := max (max self.physMs other.physMs) nowMs
  let log :=
    if maxPhys = self.physMs ∧ maxPhys = other.physMs then max self.log other.log + 1
    else if maxPhys = self.physMs then self.log + 1
    else if maxPhys = other.physMs then other.log + 1
    else 0
  ⟨maxPhys, log, node⟩

/-- `Hlc::compare`: by physical time, then by the counter, by the credence of the node, and last by the
node. -/
def compare (self other : Hlc) (ctx : MergeContext F) : Ordering :=
  match Ord.compare self.physMs other.physMs with
  | .eq =>
      match Ord.compare self.log other.log with
      | .eq =>
          match Ord.compare (ctx.credenceFor self.node) (ctx.credenceFor other.node) with
          | .eq => Ord.compare self.node other.node
          | order => order
      | order => order
  | order => order

/-- A context compares clocks by their keys. -/
theorem compare_eq (self other : Hlc) (ctx : MergeContext F) :
    self.compare other ctx = Ord.compare (ctx.key self) (ctx.key other) := by
  have hphys : Ord.compare self.physMs other.physMs =
      Ord.compare self.physMs.toNat other.physMs.toNat := by
    simp [Ord.compare, compareOfLessAndEq, UInt64.lt_iff_toNat_lt, ← UInt64.toNat_inj]
  have hlog : Ord.compare self.log other.log = Ord.compare self.log.toNat other.log.toNat := by
    simp [Ord.compare, compareOfLessAndEq, UInt32.lt_iff_toNat_lt, ← UInt32.toNat_inj]
  rw [compare, hphys, hlog]
  simp only [Prod.Lex.compare_def, compareLex, compareOn, MergeContext.key, ofLex_toLex]
  cases Ord.compare self.physMs.toNat other.physMs.toNat <;>
    cases Ord.compare self.log.toNat other.log.toNat <;>
    cases Ord.compare (ctx.credenceFor self.node) (ctx.credenceFor other.node) <;> rfl

variable {a b c : Hlc} {ctx : MergeContext F}

/-- A clock compares as less exactly if its key is less. -/
theorem compare_eq_lt : a.compare b ctx = .lt ↔ ctx.key a < ctx.key b := by
  rw [compare_eq, compare_lt_iff_lt]

/-- It does not compare as less exactly if its key is no less. -/
theorem compare_ne_lt : a.compare b ctx ≠ .lt ↔ ctx.key b ≤ ctx.key a := by
  rw [ne_eq, compare_eq_lt, not_lt]

/-- It compares as greater exactly if its key is greater. -/
theorem compare_eq_gt : a.compare b ctx = .gt ↔ ctx.key b < ctx.key a := by
  rw [compare_eq, compare_gt_iff_gt]

/-- Two clocks compare as equal only if they are the same. -/
theorem compare_eq_eq : a.compare b ctx = .eq ↔ a = b := by
  rw [compare_eq, compare_eq_iff_eq, ctx.key_injective.eq_iff]

/-- Comparing the other way round gives the opposite answer. -/
theorem compare_swap : (a.compare b ctx).swap = b.compare a ctx := by
  rw [compare_eq, compare_eq]
  exact Std.OrientedOrd.eq_swap.symm

end Hlc

/-! ## Last-writer registers -/

/-- A last-writer register. -/
structure Lww (T : Type) where
  value : T
  clock : Hlc
  deriving DecidableEq

namespace Lww

variable {F : Type} [LinearOrder F] {T : Type}

/-- `Lww::merge`: the value with the later clock stays, and on a tie this side's own. -/
def merge (self other : Lww T) (ctx : MergeContext F) : Lww T :=
  if self.clock.compare other.clock ctx = .lt then ⟨other.value, other.clock⟩ else self

/-- A register keeps the value with the greatest clock. -/
theorem merge_eq (self other : Lww T) (ctx : MergeContext F) :
    self.merge other ctx = keepGreatest (fun register : Lww T => ctx.key register.clock) self other := by
  simp only [merge, keepGreatest, Hlc.compare_eq_lt]

/-- Two registers merge to the same one in either order, unless they have one clock and two values. -/
theorem merge_comm {a b : Lww T} {ctx : MergeContext F}
    (h : a.clock = b.clock → a.value = b.value) : a.merge b ctx = b.merge a ctx := by
  rw [merge_eq, merge_eq]
  refine keepGreatest_comm fun hkey => ?_
  have hclock := ctx.key_injective hkey
  cases a; cases b
  simp only [mk.injEq] at h hclock ⊢
  exact ⟨h hclock, hclock⟩

/-- Three registers merge to the same one however they are bracketed. -/
theorem merge_assoc (a b c : Lww T) (ctx : MergeContext F) :
    (a.merge b ctx).merge c ctx = a.merge (b.merge c ctx) ctx := by
  simp only [merge_eq]
  exact keepGreatest_assoc _ a b c

/-- A register merged with itself stays as it is. -/
theorem merge_self (a : Lww T) (ctx : MergeContext F) : a.merge a ctx = a := by
  rw [merge_eq, keepGreatest_self]

/-- The clock of a merged register does not depend on the values. -/
theorem clock_merge (a b : Lww T) (ctx : MergeContext F) :
    (a.merge b ctx).clock = keepGreatest ctx.key a.clock b.clock := by
  rw [merge_eq]
  unfold keepGreatest
  exact apply_ite Lww.clock _ _ _

end Lww

/-! ## The set -/

section Stamped

variable {F : Type} [LinearOrder F] {T : Type} [LinearOrder T]

/-- The body of `insert` and of `remove`: the map keeps its clock of `value` unless the new one is
greater. -/
def stamp (m : Std.ExtTreeMap T Hlc compare) (value : T) (clock : Hlc) (ctx : MergeContext F) :
    Std.ExtTreeMap T Hlc compare :=
  match m[value]? with
  | some existing => if existing.compare clock ctx ≠ .lt then m else m.insert value clock
  | none => m.insert value clock

/-- The clock of a value after one of two maps was folded into the other. -/
def laterOf (ctx : MergeContext F) : Option Hlc → Option Hlc → Option Hlc :=
  Option.merge (keepGreatest ctx.key)

/-- Stamping a value leaves it with the later of its clocks. -/
theorem getElem?_stamp_self (m : Std.ExtTreeMap T Hlc compare) (value : T) (clock : Hlc)
    (ctx : MergeContext F) : (stamp m value clock ctx)[value]? = laterOf ctx m[value]? (some clock) := by
  unfold stamp laterOf
  cases hm : m[value]? with
  | none => simp
  | some existing =>
      rw [Option.merge_some_some]
      by_cases hge : existing.compare clock ctx ≠ .lt
      · rw [keepGreatest_of_le (Hlc.compare_ne_lt.mp hge)]
        simp only [if_pos hge, hm]
      · rw [keepGreatest_of_lt (Hlc.compare_eq_lt.mp (not_not.mp hge))]
        simp only [if_neg hge, Std.ExtTreeMap.getElem?_insert_self]

/-- Stamping one value leaves the clocks of the others. -/
theorem getElem?_stamp_of_ne {m : Std.ExtTreeMap T Hlc compare} {value v : T} (clock : Hlc)
    (ctx : MergeContext F) (h : v ≠ value) : (stamp m value clock ctx)[v]? = m[v]? := by
  have hinsert : (m.insert value clock)[v]? = m[v]? := by
    rw [Std.ExtTreeMap.getElem?_insert, if_neg (by simpa using h.symm)]
  unfold stamp
  cases m[value]? with
  | none => exact hinsert
  | some existing =>
      by_cases hge : existing.compare clock ctx ≠ .lt
      · simp only [if_pos hge]
      · simp only [if_neg hge, hinsert]

variable (ctx : MergeContext F)

/-- The later of two clocks, if there are any, does not depend on their order. -/
theorem laterOf_comm (a b : Option Hlc) : laterOf ctx a b = laterOf ctx b a := by
  cases a <;> cases b <;> simp only [laterOf, Option.merge_none_left, Option.merge_none_right,
    Option.merge_some_some]
  exact congrArg some (keepGreatest_comm fun h => ctx.key_injective h)

/-- Nor does the latest of three depend on how they are bracketed. -/
theorem laterOf_assoc (a b c : Option Hlc) :
    laterOf ctx (laterOf ctx a b) c = laterOf ctx a (laterOf ctx b c) := by
  cases a <;> cases b <;> cases c <;> simp only [laterOf, Option.merge_none_left,
    Option.merge_none_right, Option.merge_some_some]
  exact congrArg some (keepGreatest_assoc _ _ _ _)

/-- The later of a clock and itself is this clock. -/
theorem laterOf_self (a : Option Hlc) : laterOf ctx a a = a := by
  cases a <;> simp [laterOf]

end Stamped

/-- `OrSet`: the latest insertion and the latest removal of each value. -/
structure OrSet (T : Type) [LinearOrder T] where
  adds : Std.ExtTreeMap T Hlc compare
  removals : Std.ExtTreeMap T Hlc compare

namespace OrSet

variable {F : Type} [LinearOrder F] {T : Type} [LinearOrder T]

/-- `OrSet::default`: nothing was added or removed. -/
def default : OrSet T := ⟨∅, ∅⟩

/-- `OrSet::insert`: an addition, which a later one of the same value replaces. -/
def insert (self : OrSet T) (value : T) (clock : Hlc) (ctx : MergeContext F) : OrSet T :=
  { self with adds := stamp self.adds value clock ctx }

/-- `OrSet::remove`: a removal, which is kept so that earlier additions elsewhere do not come back. -/
def remove (self : OrSet T) (value : T) (clock : Hlc) (ctx : MergeContext F) : OrSet T :=
  { self with removals := stamp self.removals value clock ctx }

/-- The filter of `elements`: the insertion is later than the removal, if there is one. -/
def shows (self : OrSet T) (ctx : MergeContext F) (value : T) (addClock : Hlc) : Bool :=
  match self.removals[value]? with
  | some remClock => addClock.compare remClock ctx = .gt
  | none => true

/-- `OrSet::elements`: the values whose addition is not older than their removal. -/
def elements (self : OrSet T) (ctx : MergeContext F) : List T :=
  (self.adds.toList.filter fun (value, addClock) => self.shows ctx value addClock).map Prod.fst

/-- `OrSet::merge`: both sides' additions and removals, each value at its latest clock. -/
def merge (self other : OrSet T) (ctx : MergeContext F) : OrSet T :=
  let self := other.adds.foldl (fun self value clock => self.insert value clock ctx) self
  other.removals.foldl (fun self value clock => self.remove value clock ctx) self

/-- Two sets are the same if they have the same clocks for insertions and for removals. -/
@[ext] theorem ext_getElem? {a b : OrSet T} (hadds : ∀ v : T, a.adds[v]? = b.adds[v]?)
    (hremovals : ∀ v : T, a.removals[v]? = b.removals[v]?) : a = b := by
  cases a; cases b
  rw [mk.injEq]
  exact ⟨Std.ExtTreeMap.ext_getElem? hadds, Std.ExtTreeMap.ext_getElem? hremovals⟩

/-- The second loop of `merge` leaves the insertions alone. -/
theorem adds_foldl_remove (m : Std.ExtTreeMap T Hlc compare) (s : OrSet T) (ctx : MergeContext F) :
    (m.foldl (fun s value clock => s.remove value clock ctx) s).adds = s.adds := by
  refine foldl_keeps adds ?_ m s
  intro _ _ _
  rfl

/-- The first loop of `merge` leaves the removals alone. -/
theorem removals_foldl_insert (m : Std.ExtTreeMap T Hlc compare) (s : OrSet T)
    (ctx : MergeContext F) :
    (m.foldl (fun s value clock => s.insert value clock ctx) s).removals = s.removals := by
  refine foldl_keeps removals ?_ m s
  intro _ _ _
  rfl

/-- The insertions of a merged set, value by value. -/
theorem getElem?_adds_merge (a b : OrSet T) (ctx : MergeContext F) (v : T) :
    (a.merge b ctx).adds[v]? = laterOf ctx a.adds[v]? b.adds[v]? := by
  have htouches : TouchesKey (fun (s : OrSet T) v => s.adds[v]?)
      (fun s value clock => s.insert value clock ctx) (fun o clock => laterOf ctx o (some clock)) :=
    ⟨fun s _ _ => getElem?_stamp_self s.adds _ _ ctx, fun _ _ _ clock h => getElem?_stamp_of_ne clock ctx h⟩
  dsimp only [merge]
  rw [adds_foldl_remove]
  refine (look_foldl_entry htouches b.adds a v).trans ?_
  cases b.adds[v]? with
  | none => simp [laterOf]
  | some clock => rfl

/-- The removals of a merged set, value by value. -/
theorem getElem?_removals_merge (a b : OrSet T) (ctx : MergeContext F) (v : T) :
    (a.merge b ctx).removals[v]? = laterOf ctx a.removals[v]? b.removals[v]? := by
  have htouches : TouchesKey (fun (s : OrSet T) v => s.removals[v]?)
      (fun s value clock => s.remove value clock ctx) (fun o clock => laterOf ctx o (some clock)) :=
    ⟨fun s _ _ => getElem?_stamp_self s.removals _ _ ctx, fun _ _ _ clock h => getElem?_stamp_of_ne clock ctx h⟩
  dsimp only [merge]
  refine (look_foldl_entry htouches b.removals _ v).trans ?_
  rw [removals_foldl_insert]
  cases b.removals[v]? with
  | none => simp [laterOf]
  | some clock => rfl

/-- Two sets merge to the same one in either order: each clock of the result is the later of two. -/
theorem merge_comm (a b : OrSet T) (ctx : MergeContext F) : a.merge b ctx = b.merge a ctx := by
  ext v : 1
  · rw [getElem?_adds_merge, getElem?_adds_merge, laterOf_comm]
  · rw [getElem?_removals_merge, getElem?_removals_merge, laterOf_comm]

/-- Three sets merge to the same one however they are bracketed. -/
theorem merge_assoc (a b c : OrSet T) (ctx : MergeContext F) :
    (a.merge b ctx).merge c ctx = a.merge (b.merge c ctx) ctx := by
  ext v : 1
  · simp only [getElem?_adds_merge, laterOf_assoc]
  · simp only [getElem?_removals_merge, laterOf_assoc]

/-- A set merged with itself stays as it is. -/
theorem merge_self (a : OrSet T) (ctx : MergeContext F) : a.merge a ctx = a := by
  ext v : 1
  · rw [getElem?_adds_merge, laterOf_self]
  · rw [getElem?_removals_merge, laterOf_self]

/-- The elements of a set, value by value. -/
theorem mem_elements {s : OrSet T} {ctx : MergeContext F} {v : T} :
    v ∈ s.elements ctx ↔ ∃ clock, s.adds[v]? = some clock ∧
      ∀ r, s.removals[v]? = some r → ctx.key r < ctx.key clock := by
  have hshows : ∀ clock, s.shows ctx v clock = true ↔
      ∀ r, s.removals[v]? = some r → ctx.key r < ctx.key clock := by
    intro clock
    unfold shows
    cases s.removals[v]? with
    | none => simp
    | some r => simp [Hlc.compare_eq_gt]
  unfold elements
  rw [List.mem_map]
  constructor
  · rintro ⟨⟨v', clock⟩, hmem, rfl⟩
    obtain ⟨hentry, hfilter⟩ := List.mem_filter.mp hmem
    exact ⟨clock, Std.ExtTreeMap.mem_toList_iff_getElem?_eq_some.mp hentry, (hshows clock).mp hfilter⟩
  · rintro ⟨clock, hadd, hrem⟩
    refine ⟨(v, clock), List.mem_filter.mpr ⟨?_, (hshows clock).mpr hrem⟩, rfl⟩
    exact Std.ExtTreeMap.mem_toList_iff_getElem?_eq_some.mpr hadd

/-! ## Operations split over replicas -/

/-- One operation on a set. -/
inductive Op (T : Type)
  /-- `insert` -/
  | insert (value : T) (clock : Hlc)
  /-- `remove` -/
  | remove (value : T) (clock : Hlc)
  deriving DecidableEq

/-- A replica that has the operations `ops`, from its own callers and from the replicas merged into
it. -/
inductive Replica (ctx : MergeContext F) : List (Op T) → OrSet T → Prop
  /-- A new replica. -/
  | default : Replica ctx [] .default
  /-- An insertion. -/
  | insert {ops s} (h : Replica ctx ops s) (value : T) (clock : Hlc) :
      Replica ctx (ops ++ [.insert value clock]) (s.insert value clock ctx)
  /-- A removal. -/
  | remove {ops s} (h : Replica ctx ops s) (value : T) (clock : Hlc) :
      Replica ctx (ops ++ [.remove value clock]) (s.remove value clock ctx)
  /-- Another replica, of any history, is merged in. -/
  | merge {ops ops' s t} (h : Replica ctx ops s) (h' : Replica ctx ops' t) :
      Replica ctx (ops ++ ops') (s.merge t ctx)

/-- The clock that a map holds for a value is the greatest of `clocks`. -/
def IsLatest (ctx : MergeContext F) (clocks : Hlc → Prop) : Option Hlc → Prop
  | none => ∀ clock, ¬ clocks clock
  | some latest => clocks latest ∧ ∀ clock, clocks clock → ctx.key clock ≤ ctx.key latest

/-- The latest clock of a kind depends on nothing but which clocks are of that kind. -/
theorem IsLatest.congr {ctx : MergeContext F} {p q : Hlc → Prop} {o : Option Hlc}
    (h : IsLatest ctx p o) (hpq : ∀ clock, p clock ↔ q clock) : IsLatest ctx q o := by
  rwa [show q = p from funext fun clock => propext (hpq clock).symm]

/-- The later of the latest clocks of two kinds is the latest of both kinds. -/
theorem IsLatest.laterOf {ctx : MergeContext F} {p q : Hlc → Prop} {a b : Option Hlc}
    (ha : IsLatest ctx p a) (hb : IsLatest ctx q b) :
    IsLatest ctx (fun clock => p clock ∨ q clock) (laterOf ctx a b) := by
  cases a with
  | none =>
      refine IsLatest.congr (by simpa [LiminalDB.laterOf] using hb) fun clock => ?_
      exact ⟨.inr, fun h => h.resolve_left (ha clock)⟩
  | some a =>
      cases b with
      | none =>
          refine IsLatest.congr (p := p) (by simpa [LiminalDB.laterOf] using ha) fun clock => ?_
          exact ⟨.inl, fun h => h.resolve_right (hb clock)⟩
      | some b =>
          rw [LiminalDB.laterOf, Option.merge_some_some]
          refine ⟨?_, fun clock hclock => ?_⟩
          · rcases keepGreatest_eq_or ctx.key a b with heq | heq
            · rw [heq]; exact .inl ha.1
            · rw [heq]; exact .inr hb.1
          · refine le_trans ?_ (key_keepGreatest ctx.key a b).ge
            rcases hclock with hclock | hclock
            · exact (ha.2 clock hclock).trans (le_max_left _ _)
            · exact (hb.2 clock hclock).trans (le_max_right _ _)

/-- Stamping one value of a map. -/
theorem IsLatest.stamp {ctx : MergeContext F} {p : Hlc → Prop} {m : Std.ExtTreeMap T Hlc compare}
    {v : T} (h : IsLatest ctx p m[v]?) (value : T) (clock : Hlc) :
    IsLatest ctx (fun c => p c ∨ v = value ∧ c = clock) (stamp m value clock ctx)[v]? := by
  by_cases hv : v = value
  · subst hv
    have hone : IsLatest ctx (fun c => v = v ∧ c = clock) (some clock) :=
      ⟨⟨rfl, rfl⟩, fun c hc => by rw [hc.2]⟩
    rw [getElem?_stamp_self]
    exact h.laterOf hone
  · rw [getElem?_stamp_of_ne clock ctx hv]
    exact h.congr fun c => ⟨.inl, fun hc => hc.resolve_right fun hc => hv hc.1⟩

variable {ctx : MergeContext F} {ops : List (Op T)} {s : OrSet T}

/-- A replica holds the latest insertion of each value among its operations. -/
theorem Replica.adds (h : Replica ctx ops s) (v : T) :
    IsLatest ctx (fun clock => Op.insert v clock ∈ ops) s.adds[v]? := by
  induction h with
  | default => simp [IsLatest, OrSet.default]
  | insert _ value clock ih => exact (ih.stamp value clock).congr fun c => by simp
  | remove _ value clock ih => exact ih.congr fun c => by simp
  | merge _ _ ih ih' =>
      rw [getElem?_adds_merge]
      exact (ih.laterOf ih').congr fun c => List.mem_append.symm

/-- A replica holds the latest removal of each value among its operations. -/
theorem Replica.removals (h : Replica ctx ops s) (v : T) :
    IsLatest ctx (fun clock => Op.remove v clock ∈ ops) s.removals[v]? := by
  induction h with
  | default => simp [IsLatest, OrSet.default]
  | insert _ value clock ih => exact ih.congr fun c => by simp
  | remove _ value clock ih => exact (ih.stamp value clock).congr fun c => by simp
  | merge _ _ ih ih' =>
      rw [getElem?_removals_merge]
      exact (ih.laterOf ih').congr fun c => List.mem_append.symm

/-- **Membership.** A replica shows a value when one insertion among its operations is later than
every removal. -/
theorem Replica.mem_elements (h : Replica ctx ops s) (v : T) :
    v ∈ s.elements ctx ↔ ∃ clock, Op.insert v clock ∈ ops ∧
      ∀ r, Op.remove v r ∈ ops → clock.compare r ctx = .gt := by
  have hadds := h.adds v
  have hremovals := h.removals v
  rw [OrSet.mem_elements]
  constructor
  · rintro ⟨clock, hadd, hlater⟩
    rw [hadd] at hadds
    refine ⟨clock, hadds.1, fun r hr => Hlc.compare_eq_gt.mpr ?_⟩
    cases hrem : s.removals[v]? with
    | none =>
        rw [hrem] at hremovals
        exact absurd hr (hremovals r)
    | some latest =>
        rw [hrem] at hremovals
        exact (hremovals.2 r hr).trans_lt (hlater latest hrem)
  · rintro ⟨clock, hclock, hlater⟩
    cases hadd : s.adds[v]? with
    | none =>
        rw [hadd] at hadds
        exact absurd hclock (hadds clock)
    | some latest =>
        rw [hadd] at hadds
        refine ⟨latest, rfl, fun r hr => ?_⟩
        rw [hr] at hremovals
        exact (Hlc.compare_eq_gt.mp (hlater r hremovals.1)).trans_le (hadds.2 clock hclock)

end OrSet

/-! ## The laws under a fixed context -/

/-- **The laws of the replicated structures under one context.** The context orders the clocks
strictly and totally; merging registers is associative and idempotent, and commutative when equal
clocks carry equal values; merging sets is a semilattice on the stored maps; and a value is shown when
one of its insertions is later than all its removals, however they were split over replicas. -/
theorem crdt_laws {F : Type} [LinearOrder F] (ctx : MergeContext F) :
    (∀ a b : Hlc, (a.compare b ctx).swap = b.compare a ctx) ∧
    (∀ a b c : Hlc, a.compare b ctx = .lt → b.compare c ctx = .lt → a.compare c ctx = .lt) ∧
    (∀ a b : Hlc, a.compare b ctx = .eq ↔ a = b) ∧
    (∀ (T : Type) (a b c : Lww T),
      ((a.clock = b.clock → a.value = b.value) → a.merge b ctx = b.merge a ctx) ∧
      (a.merge b ctx).merge c ctx = a.merge (b.merge c ctx) ctx ∧ a.merge a ctx = a) ∧
    (∀ (T : Type) [LinearOrder T] (a b c : OrSet T), a.merge b ctx = b.merge a ctx ∧
      (a.merge b ctx).merge c ctx = a.merge (b.merge c ctx) ctx ∧ a.merge a ctx = a) ∧
    (∀ (T : Type) [LinearOrder T] (ops : List (OrSet.Op T)) (s : OrSet T),
      OrSet.Replica ctx ops s → ∀ v, v ∈ s.elements ctx ↔
        ∃ clock, OrSet.Op.insert v clock ∈ ops ∧
          ∀ r, OrSet.Op.remove v r ∈ ops → clock.compare r ctx = .gt) := by
  refine ⟨fun a b => Hlc.compare_swap, fun a b c hab hbc => ?_, fun a b => Hlc.compare_eq_eq,
    fun T a b c => ⟨Lww.merge_comm, Lww.merge_assoc a b c ctx, Lww.merge_self a ctx⟩,
    fun T _ a b c => ⟨OrSet.merge_comm a b ctx, OrSet.merge_assoc a b c ctx, OrSet.merge_self a ctx⟩,
    fun T _ ops s h v => h.mem_elements v⟩
  rw [Hlc.compare_eq_lt] at hab hbc ⊢
  exact hab.trans hbc

/-- The peer whose key is the given byte, 32 times. -/
def samplePeer (byte : UInt8) : PeerId := ⟨List.Vector.replicate 32 byte⟩

/-- The context in which no peer has a credence of its own. -/
def evenContext : MergeContext ℚ := .new (1 / 2)

/-- Two replicas insert a value and the second removes it again: merged either way they do not show
it. -/
theorem crdt_laws_two_replicas :
    ∃ s t : OrSet String,
      OrSet.Replica evenContext [.insert "model/a" ⟨1000, 0, samplePeer 1⟩] s ∧
      OrSet.Replica evenContext
        [.insert "model/a" ⟨900, 0, samplePeer 2⟩, .remove "model/a" ⟨1100, 0, samplePeer 2⟩] t ∧
      s.merge t evenContext = t.merge s evenContext ∧
      "model/a" ∉ (s.merge t evenContext).elements evenContext := by
  obtain ⟨-, -, -, -, hsets, hmem⟩ := crdt_laws evenContext
  have hnew : OrSet.Replica evenContext ([] : List (OrSet.Op String)) .default := .default
  have hs := hnew.insert "model/a" ⟨1000, 0, samplePeer 1⟩
  have ht := (hnew.insert "model/a" ⟨900, 0, samplePeer 2⟩).remove "model/a" ⟨1100, 0, samplePeer 2⟩
  refine ⟨_, _, hs, ht, (hsets _ _ _ .default).1, ?_⟩
  rw [hmem _ _ _ (hs.merge ht)]
  rintro ⟨clock, hclock, hlater⟩
  have hgt := hlater ⟨1100, 0, samplePeer 2⟩ (by decide)
  simp only [List.nil_append, List.mem_append, List.mem_cons, OrSet.Op.insert.injEq, true_and,
    reduceCtorEq, List.not_mem_nil, or_false] at hclock
  rcases hclock with rfl | rfl
  · exact absurd hgt (by decide)
  · exact absurd hgt (by decide)

end LiminalDB
