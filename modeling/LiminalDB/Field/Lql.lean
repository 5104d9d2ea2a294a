import LiminalDB.Field.Hits
import Mathlib.Algebra.Order.BigOperators.Group.List

/-! # Queries: `stats_for_pattern` and LQL's `SELECT`

A query gathers the hits of its tokens within its window, each once by its sequence number. An impulse leaves
one hit for each of its tokens, so a response is counted as often as the impulse shares tokens with the query,
and not at all for a wildcard (`select_counts_iff`). -/

namespace LiminalDB

variable {F : Type}

/-- `ViewFilter`: what a hit has to reach in strength, and its cell in salience or tag. -/
structure ViewFilter (F : Type) where
  minStrength : Option F
  minSalience : Option F
  adreno : Option Bool

/-- `NodeHitStat`: how many of the hits a cell has. -/
structure NodeHitStat where
  id : NodeId
  hits : ℕ
  deriving DecidableEq

/-- `ViewStats`. The counts are `u32`: a query never has 2³² hits at once. -/
structure ViewStats (F : Type) where
  count : ℕ
  avgStrength : F
  avgLatency : F
  topNodes : List NodeHitStat
  emotionalLoad : F

/-- The order of `top_nodes`: most hits first, then the smaller id. -/
def NodeHitStat.cmp (a b : NodeHitStat) : Ordering := (compare b.hits a.hits).then (compare a.id b.id)

/-- The nodes with the most hits, the three best of them. -/
def topNodes (nodes : List NodeId) : List NodeHitStat :=
  (sortBy NodeHitStat.cmp (nodes.dedup.map fun id => ⟨id, nodes.count id⟩)).take 3

namespace ClusterField

variable [FloatLike F]

open FloatLike (clamp ofNat)

/-- What `apply_filters` retains. -/
def passes (self : ClusterField F) (filter : ViewFilter F) (strength : F) (node : NodeId) : Bool :=
  (filter.minStrength.all fun minStrength => minStrength ≤ strength) &&
    (filter.minSalience.all fun minSalience => self.cells[node]?.any fun cell => minSalience ≤ cell.salience) &&
    filter.adreno.all fun adreno => self.cells[node]?.any fun cell => cell.adrenoTag == adreno

/-- `apply_filters`: the hits that pass the filter. -/
def applyFilters (self : ClusterField F) (hits : List (Hit F)) (filter : ViewFilter F) : List (Hit F) :=
  hits.filter fun hit => self.passes filter hit.strength hit.node

/-- A hit is added, unless there is one of its number. -/
def combine (combined : List (Hit F)) (hit : Hit F) : List (Hit F) :=
  if combined.any fun seen => seen.seq = hit.seq then combined else combined ++ [hit]

/-- `gather_hits_for_pattern`: the recent hits of all tokens of the pattern, put together and in the
order of time. -/
def gatherHitsForPattern (platform : Platform F) (self : ClusterField F) (pattern : String) (windowMs : UInt32) :
    List (Hit F) :=
  sortBy (fun a b => compareOfLessAndEq a.ts b.ts)
    (((tokenize platform pattern).flatMap fun token => self.recentFor platform token windowMs).foldl combine [])

/-- `stats_from_hits`: the count, the means, the best cells and the share of the tagged ones. -/
def statsFromHits (self : ClusterField F) (hits : List (Hit F)) : ViewStats F :=
  if hits.isEmpty then ⟨0, 0.0, 0.0, [], 0.0⟩
  else
    let count := hits.length
    let totalStrength := (hits.map Hit.strength).foldl (· + ·) 0.0
    let totalLatency := (hits.map fun hit => ofNat hit.latencyMs.toNat).foldl (· + ·) 0.0
    let emotionalHits : F := ofNat (hits.countP fun hit => self.cells[hit.node]?.any NodeCell.adrenoTag)
    { count
      avgStrength := clamp (totalStrength / ofNat count) 0.0 1.0
      avgLatency := totalLatency / ofNat count
      topNodes := topNodes (hits.map Hit.node)
      emotionalLoad := clamp (emotionalHits / ofNat count) 0.0 1.0 }

/-- `stats_for_pattern`: the statistics of the filtered hits, over a window of at least one
millisecond. -/
def statsForPattern (platform : Platform F) (self : ClusterField F) (pattern : String) (windowMs : UInt32)
    (filter : ViewFilter F) : ViewStats F :=
  let window := if windowMs < 1 then 1 else windowMs
  self.statsFromHits (self.applyFilters (self.gatherHitsForPattern platform pattern window) filter)

/-- The window with which a `SELECT` or a view calls `stats_for_pattern`. -/
def lqlWindow (windowMs : Option UInt32) : UInt32 :=
  let window := windowMs.getD 1000
  if window < 1 then 1 else window

end ClusterField

/-! ## The best nodes -/

/-- The first entries are the up to three nodes that are listed most often, of these the smaller ids first. -/
structure TopThree (nodes : List NodeId) (top : List NodeHitStat) : Prop where
  length : top.length = min 3 nodes.dedup.length
  hits : ∀ e ∈ top, e.id ∈ nodes ∧ e.hits = nodes.count e.id
  sorted : top.Pairwise fun a b => b.hits < a.hits ∨ a.hits = b.hits ∧ a.id < b.id
  best : ∀ e ∈ top, ∀ id ∈ nodes, id ∉ top.map NodeHitStat.id →
    nodes.count id < e.hits ∨ nodes.count id = e.hits ∧ e.id < id

/-- Nodes are ranked by their hits, the most first, and those with as many by their ids. -/
theorem NodeHitStat.cmp_isLE_iff {a b : NodeHitStat} : (NodeHitStat.cmp a b).isLE = true ↔
    b.hits < a.hits ∨ b.hits = a.hits ∧ a.id ≤ b.id := by
  unfold NodeHitStat.cmp
  rcases Nat.lt_trichotomy b.hits a.hits with hlt | heq | hgt
  · simp [Nat.compare_eq_lt.mpr hlt, hlt]
  · rw [Nat.compare_eq_eq.mpr heq, Ordering.then, Std.isLE_compare]
    simp [heq]
  · rw [Nat.compare_eq_gt.mpr hgt]
    exact iff_of_false (by simp [Ordering.then]) (by omega)

/-- The order is total and transitive. -/
theorem pairwise_sortBy_cmp (stats : List NodeHitStat) :
    (sortBy NodeHitStat.cmp stats).Pairwise fun a b => (NodeHitStat.cmp a b).isLE = true := by
  have htotal : Std.Total fun a b => (NodeHitStat.cmp a b).isLE = true := by
    refine ⟨fun a b => ?_⟩
    simp only [NodeHitStat.cmp_isLE_iff, UInt64.le_iff_toNat_le]
    omega
  have htrans : IsTrans NodeHitStat fun a b => (NodeHitStat.cmp a b).isLE = true := by
    refine ⟨fun a b c => ?_⟩
    simp only [NodeHitStat.cmp_isLE_iff, UInt64.le_iff_toNat_le]
    omega
  exact List.pairwise_insertionSort _ stats

/-- The nodes that are reported are the three with the most hits. -/
theorem topThree_topNodes (nodes : List NodeId) : TopThree nodes (topNodes nodes) := by
  have hperm := sortBy_perm NodeHitStat.cmp (nodes.dedup.map fun id => ⟨id, nodes.count id⟩)
  have hids : ((sortBy NodeHitStat.cmp (nodes.dedup.map fun id => ⟨id, nodes.count id⟩)).map NodeHitStat.id).Perm
      nodes.dedup := by
    refine (hperm.map _).trans (List.Perm.of_eq ?_)
    rw [List.map_map]
    exact List.map_id _
  have hstat {e : NodeHitStat} (he : e ∈ sortBy NodeHitStat.cmp (nodes.dedup.map fun id => ⟨id, nodes.count id⟩)) :
      e.id ∈ nodes ∧ e.hits = nodes.count e.id := by
    obtain ⟨id, hid, rfl⟩ := List.mem_map.mp (hperm.mem_iff.mp he)
    exact ⟨List.mem_dedup.mp hid, rfl⟩
  -- No id stands twice, so that the order is strict.
  have hstrict : (sortBy NodeHitStat.cmp (nodes.dedup.map fun id => ⟨id, nodes.count id⟩)).Pairwise fun a b =>
      b.hits < a.hits ∨ a.hits = b.hits ∧ a.id < b.id := by
    have hne := List.pairwise_map.mp (hids.nodup_iff.mpr nodes.nodup_dedup)
    refine (List.pairwise_and_iff.mpr ⟨pairwise_sortBy_cmp _, hne⟩).imp fun {a b} hab => ?_
    obtain ⟨hle, hne⟩ := hab
    rw [NodeHitStat.cmp_isLE_iff, UInt64.le_iff_toNat_le] at hle
    rw [ne_eq, ← UInt64.toNat_inj] at hne
    rw [UInt64.lt_iff_toNat_lt]
    omega
  unfold topNodes
  refine ⟨?_, fun e he => hstat (List.mem_of_mem_take he), hstrict.sublist (List.take_sublist _ _), ?_⟩
  · rw [List.length_take, ← hids.length_eq, List.length_map]
  · intro e he id hid hnot
    have hall : (⟨id, nodes.count id⟩ : NodeHitStat) ∈
        sortBy NodeHitStat.cmp (nodes.dedup.map fun id => ⟨id, nodes.count id⟩) :=
      hperm.mem_iff.mpr (List.mem_map.mpr ⟨id, List.mem_dedup.mpr hid, rfl⟩)
    rw [← List.take_append_drop 3 (sortBy _ _)] at hall hstrict
    rcases List.mem_append.mp hall with htop | hrest
    · exact absurd (List.mem_map.mpr ⟨_, htop, rfl⟩) hnot
    · have hbefore := (List.pairwise_append.mp hstrict).2.2 e he _ hrest
      exact hbefore.imp_right fun h => ⟨h.1.symm, h.2⟩

/-- The order in which hits are found makes no difference to them. -/
theorem TopThree.perm {nodes nodes' : List NodeId} {top : List NodeHitStat} (h : TopThree nodes top)
    (hperm : nodes.Perm nodes') : TopThree nodes' top := by
  refine ⟨?_, fun e he => ?_, h.sorted, fun e he id hid hnot => ?_⟩
  · rw [h.length, hperm.dedup.length_eq]
  · rw [← hperm.mem_iff, ← hperm.count_eq]
    exact h.hits e he
  · rw [← hperm.count_eq]
    exact h.best e he id (hperm.mem_iff.mpr hid) hnot

/-! ## Responses -/

/-- A cell has responded to an impulse. -/
structure Response (F : Type) where
  ts : UInt64
  /-- The tokens of the impulse, each once. -/
  tokens : List String
  nodup : tokens.Nodup
  strength : F
  node : NodeId

namespace ClusterField

variable [FloatLike F] {platform : Platform F} {self start : ClusterField F}

/-- The responses to the impulse of a call. -/
def responsesOf (platform : Platform F) (self : ClusterField F) : FieldCall F → List (Response F)
  | .routeImpulse visits imp =>
      (self.responders platform visits imp).map fun response =>
        ⟨self.nowMs, (tokenize platform imp.pattern).eraseDups, nodup_eraseDups _, imp.strength, response.1⟩
  | _ => []

/-- The responses of a run. -/
def responseHistory (platform : Platform F) : ClusterField F → List (FieldCall F) → List (Response F)
  | _, [] => []
  | self, c :: calls => self.responsesOf platform c ++ responseHistory platform (self.call platform c) calls

/-- A cell responds to an impulse at most once. -/
theorem nodup_responders (visits : Visits F) (imp : Impulse F) :
    ((self.responders platform visits imp).map Prod.fst).Nodup := by
  -- The cells are asked in turn, and each answers or does not.
  have hsublist (ids : List NodeId) (acc : Responses F) : List.Sublist
      ((ids.foldl (ingestAt platform imp) acc).responded.map Prod.fst) (acc.responded.map Prod.fst ++ ids) := by
    induction ids generalizing acc with
    | nil => rw [List.append_nil, List.foldl_nil]
    | cons id ids ih =>
        have hone : List.Sublist ((ingestAt platform imp acc id).responded.map Prod.fst)
            (acc.responded.map Prod.fst ++ [id]) := by
          unfold ingestAt
          dsimp only
          split
          · split
            · rw [List.map_append]
              exact List.Sublist.refl _
            · exact List.sublist_append_left _ _
          · exact List.sublist_append_left _ _
        have hboth := (ih _).trans (hone.append (List.Sublist.refl ids))
        rwa [List.append_assoc, List.singleton_append] at hboth
  exact (nodup_targets visits _ imp).sublist (hsublist _ _)

/-- The tokens that an impulse shares with a pattern. -/
def shared (platform : Platform F) (pattern : String) (response : Response F) : List String :=
  response.tokens.filter fun token => token ∈ tokenize platform pattern

/-- Whether a time is in a window. -/
def inWindow (self : ClusterField F) (windowMs : UInt32) (ts : UInt64) : Bool :=
  saturatingSub self.nowMs windowMs.toUInt64 ≤ ts

/-- The responses that a query is after: in the window, let through by the filter, and with a token of the
pattern unless that is the wildcard. -/
def sought (platform : Platform F) (self : ClusterField F) (pattern : String) (windowMs : UInt32)
    (filter : ViewFilter F) (responses : List (Response F)) : List (Response F) :=
  responses.filter fun response => self.inWindow windowMs response.ts &&
    self.passes filter response.strength response.node &&
    (pattern = "*" || !(shared platform pattern response).isEmpty)

/-! ## Hits and responses -/

/-- What a hit has of its response. -/
def hitData (e : String × Hit F) : String × UInt64 × F × NodeId := (e.1, e.2.ts, e.2.strength, e.2.node)

omit [FloatLike F] in
/-- What is asked about a hit is what was recorded: the lowered token, the time, the strength and the node. -/
theorem map_hitData_hits (strength : F) (notes : Notes F) (recordings : List (String × NodeId × UInt32)) :
    (notes.hits platform strength recordings).map hitData =
      recordings.map fun r => (platform.toLowercase r.1, notes.nowMs, strength, r.2.1) := by
  induction recordings generalizing notes with
  | nil => rfl
  | cons r recordings ih =>
      rw [Notes.hits, List.map_cons, List.map_cons, ih]
      rfl

/-- A number for each element that meets a condition adds up to as many times the number. -/
theorem sum_map_ite {α : Type} (p : α → Bool) (n : ℕ) (l : List α) :
    (l.map fun a => if p a then n else 0).sum = l.countP p * n := by
  induction l with
  | nil => rw [List.countP_nil, Nat.zero_mul]; rfl
  | cons a l ih =>
      rw [List.map_cons, List.sum_cons, ih, List.countP_cons, Nat.add_mul, Nat.add_comm]
      split <;> simp

/-- An impulse leaves a hit for each response and each token that it shares with a pattern. -/
theorem countP_hitsOf (pattern : String) (Q : UInt64 × F × NodeId → Bool) (c : FieldCall F) :
    ((self.hitsOf platform c).map hitData).countP (fun d => d.1 ∈ tokenize platform pattern && Q d.2) =
      (((self.responsesOf platform c).filter fun r => Q (r.ts, r.strength, r.node)).map fun r =>
        (shared platform pattern r).length).sum := by
  cases c with
  | routeImpulse visits imp =>
      obtain ⟨counters, hreact⟩ := @notes_react F _ platform self visits imp
      have hnow : (self.react platform visits imp).notes.nowMs = self.nowMs := congrArg Notes.nowMs hreact
      have hperm := visits.tokens.perm (tokenize platform imp.pattern).eraseDups
      -- The hits of one token.
      have htoken (token : String) (htoken : token ∈ visits.tokens.arrange (tokenize platform imp.pattern).eraseDups) :
          (((self.responders platform visits imp).map fun response => (token, response)).map fun r =>
            (platform.toLowercase r.1, self.nowMs, imp.strength, r.2.1)).countP
              (fun d => d.1 ∈ tokenize platform pattern && Q d.2) =
            if token ∈ tokenize platform pattern then
              (self.responders platform visits imp).countP fun r => Q (self.nowMs, imp.strength, r.1) else 0 := by
        have hlower := toLowercase_of_mem_tokenize (List.mem_eraseDups.mp (hperm.mem_iff.mp htoken))
        rw [List.map_map, List.countP_map]
        split
        · rename_i hmem
          refine List.countP_congr fun r _ => ?_
          simp [hlower, hmem]
        · rename_i hmem
          rw [List.countP_eq_zero]
          intro r _
          simp [hlower, hmem]
      unfold hitsOf responsesOf recordings
      rw [map_hitData_hits, hnow, List.map_flatMap, List.countP_flatMap]
      refine (congrArg List.sum (List.map_congr_left htoken)).trans ?_
      have hsum := sum_map_ite (fun token => decide (token ∈ tokenize platform pattern))
        ((self.responders platform visits imp).countP fun r => Q (self.nowMs, imp.strength, r.1))
        (visits.tokens.arrange (tokenize platform imp.pattern).eraseDups)
      simp only [decide_eq_true_eq] at hsum
      have hconst (l : List (NodeId × UInt32)) : (l.map fun _ =>
          ((tokenize platform imp.pattern).eraseDups.filter fun token => token ∈ tokenize platform pattern).length).sum =
          (tokenize platform imp.pattern).eraseDups.countP (fun token => token ∈ tokenize platform pattern) *
            l.length := by
        rw [List.map_const', List.sum_replicate_nat, List.countP_eq_length_filter, Nat.mul_comm]
      rw [hsum, hperm.countP_eq, List.filter_map, List.map_map,
        List.countP_eq_length_filter (l := self.responders platform visits imp)]
      exact (hconst _).symm
  | _ => rfl

/-- So does a run. -/
theorem countP_hitHistory (pattern : String) (Q : UInt64 × F × NodeId → Bool) (calls : List (FieldCall F)) :
    ((hitHistory platform self calls).map hitData).countP (fun d => d.1 ∈ tokenize platform pattern && Q d.2) =
      (((responseHistory platform self calls).filter fun r => Q (r.ts, r.strength, r.node)).map fun r =>
        (shared platform pattern r).length).sum := by
  induction calls generalizing self with
  | nil => rfl
  | cons c calls ih =>
      rw [hitHistory, responseHistory, List.map_append, List.countP_append, countP_hitsOf, ih, List.filter_append,
        List.map_append, List.sum_append]

/-! ## Sequence numbers -/

omit [FloatLike F] in
/-- The hits of some recordings are numbered one after the other, as long as the numbers last. -/
theorem seq_hits (strength : F) {notes : Notes F} {recordings : List (String × NodeId × UInt32)}
    (hroom : notes.nextHitSeq.toNat + recordings.length < 2 ^ 64) :
    (notes.hits platform strength recordings).map (fun e => e.2.seq.toNat) =
        List.range' notes.nextHitSeq.toNat recordings.length ∧
      (recordings.foldl (Notes.recordTokenHit platform strength) notes).nextHitSeq.toNat =
        notes.nextHitSeq.toNat + recordings.length := by
  induction recordings generalizing notes with
  | nil => exact ⟨rfl, rfl⟩
  | cons r recordings ih =>
      rw [List.length_cons] at hroom ⊢
      have hnext : (saturatingAdd notes.nextHitSeq 1).toNat = notes.nextHitSeq.toNat + 1 := by
        have hsum : (notes.nextHitSeq + 1).toNat = notes.nextHitSeq.toNat + 1 := by
          rw [UInt64.toNat_add, UInt64.toNat_one, Nat.mod_eq_of_lt (by omega)]
        unfold saturatingAdd
        rw [if_neg (by rw [UInt64.lt_iff_toNat_lt, hsum]; omega), hsum]
      obtain ⟨hseqs, hlast⟩ := @ih (notes.recordTokenHit platform strength r) (by
        show (saturatingAdd notes.nextHitSeq 1).toNat + recordings.length < 2 ^ 64
        omega)
      refine ⟨?_, ?_⟩
      · rw [Notes.hits, List.map_cons, hseqs, List.range'_succ]
        show _ :: List.range' (saturatingAdd notes.nextHitSeq 1).toNat recordings.length = _
        rw [hnext]
      · rw [List.foldl_cons, hlast]
        show (saturatingAdd notes.nextHitSeq 1).toNat + recordings.length = _
        omega

omit [FloatLike F] in
/-- Each recording makes one hit. -/
theorem length_hits (strength : F) (notes : Notes F) (recordings : List (String × NodeId × UInt32)) :
    (notes.hits platform strength recordings).length = recordings.length := by
  induction recordings generalizing notes with
  | nil => rfl
  | cons r recordings ih => rw [Notes.hits, List.length_cons, List.length_cons, ih]

/-- While they do not run out, the hits of a run are numbered one after another. -/
theorem seq_hitHistory {calls : List (FieldCall F)}
    (hroom : self.nextHitSeq.toNat + (hitHistory platform self calls).length < 2 ^ 64) :
    (hitHistory platform self calls).map (fun e => e.2.seq.toNat) =
      List.range' self.nextHitSeq.toNat (hitHistory platform self calls).length := by
  induction calls generalizing self with
  | nil => rfl
  | cons c calls ih =>
      rw [hitHistory, List.length_append] at hroom ⊢
      -- A call numbers its hits from where the field stands, and moves that on by as many.
      have hcall : (self.hitsOf platform c).map (fun e => e.2.seq.toNat) =
          List.range' self.nextHitSeq.toNat (self.hitsOf platform c).length ∧
          (self.call platform c).nextHitSeq.toNat =
            self.nextHitSeq.toNat + (self.hitsOf platform c).length := by
        by_cases himpulse : ∃ visits imp, c = .routeImpulse visits imp
        · obtain ⟨visits, imp, rfl⟩ := himpulse
          obtain ⟨counters, hreact⟩ := @notes_react F _ platform self visits imp
          have hnext : (self.react platform visits imp).notes.nextHitSeq = self.nextHitSeq :=
            congrArg Notes.nextHitSeq hreact
          have hlength := @length_hits F platform imp.strength (self.react platform visits imp).notes
            (self.recordings platform visits imp)
          unfold hitsOf at hroom ⊢
          rw [hlength] at hroom ⊢
          obtain ⟨hseqs, hlast⟩ := @seq_hits F platform imp.strength
            (self.react platform visits imp).notes (self.recordings platform visits imp)
            (by rw [hnext]; omega)
          rw [hnext] at hseqs hlast
          refine ⟨hseqs, ?_⟩
          show (self.routeImpulse platform visits imp).notes.nextHitSeq.toNat = _
          rw [notes_routeImpulse]
          exact hlast
        · push Not at himpulse
          obtain ⟨rules, nowMs, hnotes, -⟩ := @notes_call F _ platform self c himpulse
          have hnext : (self.call platform c).nextHitSeq = self.nextHitSeq := congrArg Notes.nextHitSeq hnotes
          have hnone : self.hitsOf platform c = [] := by
            cases c with
            | routeImpulse visits imp => exact absurd rfl (himpulse visits imp)
            | _ => rfl
          rw [hnone]
          exact ⟨rfl, by rw [hnext]; rfl⟩
      rw [List.map_append, hcall.1, ih (by rw [hcall.2]; omega), hcall.2, List.range'_append_1]

/-! ## Gathering -/

omit [FloatLike F] in
/-- Of the hits of one number the first is kept. -/
theorem combine_spec (hits combined : List (Hit F)) (h : (combined.map Hit.seq).Nodup) :
    ((hits.foldl combine combined).map Hit.seq).Nodup ∧
      (∀ hit ∈ hits.foldl combine combined, hit ∈ combined ∨ hit ∈ hits) ∧
      ∀ hit, hit ∈ combined ∨ hit ∈ hits → ∃ kept ∈ hits.foldl combine combined, kept.seq = hit.seq := by
  induction hits generalizing combined with
  | nil =>
      exact ⟨h, fun hit hhit => Or.inl hhit,
        fun hit hhit => ⟨hit, hhit.resolve_right List.not_mem_nil, rfl⟩⟩
  | cons first hits ih =>
      rw [List.foldl_cons]
      by_cases hseen : (combined.any fun seen => seen.seq = first.seq) = true
      · have hsame : combine combined first = combined := if_pos hseen
        rw [hsame]
        obtain ⟨hnodup, hfrom, hto⟩ := ih combined h
        refine ⟨hnodup, fun hit hhit => (hfrom hit hhit).imp_right (List.mem_cons_of_mem _), ?_⟩
        rintro hit (hold | hnew)
        · exact hto hit (Or.inl hold)
        · rcases List.mem_cons.mp hnew with rfl | hrest
          · obtain ⟨seen, hmem, hseq⟩ := List.any_eq_true.mp hseen
            obtain ⟨kept, hkept, hkeptSeq⟩ := hto seen (Or.inl hmem)
            exact ⟨kept, hkept, hkeptSeq.trans (of_decide_eq_true hseq)⟩
          · exact hto hit (Or.inr hrest)
      · have hadded : combine combined first = combined ++ [first] := if_neg hseen
        rw [hadded]
        have hnew : ((combined ++ [first]).map Hit.seq).Nodup := by
          rw [List.map_append, List.map_singleton]
          refine h.append (List.nodup_singleton _) ?_
          rw [List.disjoint_singleton]
          intro hmem
          obtain ⟨seen, hseen', hseq⟩ := List.mem_map.mp hmem
          exact hseen (List.any_eq_true.mpr ⟨seen, hseen', decide_eq_true hseq⟩)
        obtain ⟨hnodup, hfrom, hto⟩ := ih _ hnew
        refine ⟨hnodup, fun hit hhit => ?_, fun hit hhit => hto hit ?_⟩
        · have hcase := hfrom hit hhit
          rw [List.mem_append, List.mem_singleton, or_assoc] at hcase
          rwa [List.mem_cons]
        · rwa [List.mem_append, List.mem_singleton, or_assoc, ← List.mem_cons]

omit [FloatLike F] in
/-- A query gathers the hits in the window under the tokens of the pattern. -/
theorem gatherHits_perm {history : List (String × Hit F)} (hnoted : Noted history self.notes)
    (hseq : (history.map fun e => e.2.seq.toNat).Nodup) {pattern : String} {windowMs : UInt32}
    (hwindow : windowMs.toNat ≤ 120000)
    (hfew : ∀ token ∈ tokenize platform pattern,
      (under token history).countP (fun hit => self.inWindow windowMs hit.ts) < 512) :
    (self.gatherHitsForPattern platform pattern windowMs).Perm
      ((history.filter fun e => e.1 ∈ tokenize platform pattern && self.inWindow windowMs e.2.ts).map Prod.snd) := by
  -- No queue is over its limit, so that it has every hit of the window.
  have hrecent (token : String) (htoken : token ∈ tokenize platform pattern) :
      self.recentFor platform token windowMs =
        (under token history).filter fun hit => self.inWindow windowMs hit.ts := by
    have hlast := @recentFor_eq_lastOf F platform self history hnoted token windowMs hwindow
    rw [toLowercase_of_mem_tokenize htoken] at hlast
    refine hlast.trans (lastOf_of_length_le ?_)
    rw [← List.countP_eq_length_filter]
    exact (hfew token htoken).le
  have hmem (hit : Hit F) : hit ∈ ((tokenize platform pattern).flatMap fun token =>
      self.recentFor platform token windowMs) ↔ hit ∈ (history.filter fun e =>
        e.1 ∈ tokenize platform pattern && self.inWindow windowMs e.2.ts).map Prod.snd := by
    rw [List.mem_flatMap, List.mem_map]
    constructor
    · rintro ⟨token, htoken, hhit⟩
      rw [hrecent token htoken, List.mem_filter] at hhit
      obtain ⟨hunder, hinside⟩ := hhit
      obtain ⟨e, he, rfl⟩ := List.mem_map.mp hunder
      obtain ⟨hhistory, hkey⟩ := List.mem_filter.mp he
      obtain rfl := of_decide_eq_true hkey
      exact ⟨e, List.mem_filter.mpr ⟨hhistory, by simp [htoken, hinside]⟩, rfl⟩
    · rintro ⟨e, he, rfl⟩
      obtain ⟨hhistory, hboth⟩ := List.mem_filter.mp he
      obtain ⟨htoken, hinside⟩ := (Bool.and_eq_true _ _).mp hboth
      have htoken := of_decide_eq_true htoken
      refine ⟨e.1, htoken, ?_⟩
      rw [hrecent e.1 htoken, List.mem_filter]
      exact ⟨List.mem_map.mpr ⟨e, List.mem_filter.mpr ⟨hhistory, decide_eq_true rfl⟩, rfl⟩, hinside⟩
  obtain ⟨hnodup, hfrom, hto⟩ := combine_spec ((tokenize platform pattern).flatMap fun token =>
    self.recentFor platform token windowMs) [] List.nodup_nil
  have hsub {hit : Hit F} (hhit : hit ∈ (history.filter fun e =>
      e.1 ∈ tokenize platform pattern && self.inWindow windowMs e.2.ts).map Prod.snd) :
    ∃ e ∈ history, e.2 = hit := by
    obtain ⟨e, he, rfl⟩ := List.mem_map.mp hhit
    exact ⟨e, List.mem_of_mem_filter he, rfl⟩
  refine (sortBy_perm _ _).trans ((List.perm_ext_iff_of_nodup (hnodup.of_map Hit.seq) ?_).mpr fun hit => ?_)
  · have hall : (history.map Prod.snd).Nodup := by
      refine List.Nodup.of_map (fun hit : Hit F => hit.seq.toNat) ?_
      rw [List.map_map]
      exact hseq
    exact hall.sublist (List.filter_sublist.map Prod.snd)
  · constructor
    · intro hhit
      exact (hmem hit).mp ((hfrom hit hhit).resolve_left List.not_mem_nil)
    · intro hhit
      obtain ⟨kept, hkept, hsame⟩ := hto hit (Or.inr ((hmem hit).mpr hhit))
      obtain ⟨e, he, rfl⟩ := hsub hhit
      obtain ⟨e', he', rfl⟩ := hsub ((hmem kept).mp ((hfrom kept hkept).resolve_left List.not_mem_nil))
      -- One number, one hit.
      have hequal : e' = e := List.inj_on_of_nodup_map hseq he' he (congrArg UInt64.toNat hsame)
      exact hequal ▸ hkept

/-! ## The statistics -/

/-- The statistics count the hits and rank their nodes. -/
theorem stats_of_hits (hits : List (Hit F)) : (self.statsFromHits hits).count = hits.length ∧
    (self.statsFromHits hits).topNodes = topNodes (hits.map Hit.node) := by
  cases hits with
  | nil => exact ⟨rfl, rfl⟩
  | cons hit hits => exact ⟨rfl, rfl⟩

omit [FloatLike F] in
/-- A window is never empty. -/
theorem lqlWindow_pos (windowMs : Option UInt32) : ¬ lqlWindow windowMs < 1 := by
  unfold lqlWindow
  dsimp only
  split
  · decide
  · assumption

/-- The hits that a query counts, by what they have of their responses. -/
theorem countP_applyFilters {history : List (String × Hit F)} {pattern : String} {windowMs : UInt32}
    (hperm : (self.gatherHitsForPattern platform pattern windowMs).Perm
      ((history.filter fun e => e.1 ∈ tokenize platform pattern && self.inWindow windowMs e.2.ts).map Prod.snd))
    (filter : ViewFilter F) (R : NodeId → Bool) :
    (self.applyFilters (self.gatherHitsForPattern platform pattern windowMs) filter).countP (fun hit => R hit.node) =
      (history.map hitData).countP fun d => d.1 ∈ tokenize platform pattern &&
        (self.inWindow windowMs d.2.1 && self.passes filter d.2.2.1 d.2.2.2 && R d.2.2.2) := by
  unfold applyFilters
  rw [(hperm.filter _).countP_eq, List.countP_filter, List.countP_map, List.countP_filter, List.countP_map]
  refine List.countP_congr fun e _ => ?_
  simp only [hitData, Function.comp_apply, Bool.and_eq_true]
  constructor
  · rintro ⟨⟨hnode, hpasses⟩, htoken, hwindow⟩
    exact ⟨htoken, ⟨hwindow, hpasses⟩, hnode⟩
  · rintro ⟨htoken, ⟨hwindow, hpasses⟩, hnode⟩
    exact ⟨⟨hnode, hpasses⟩, htoken, hwindow⟩

omit [FloatLike F] in
/-- Elements without a weight may be left out of a sum. -/
theorem sum_map_filter {α : Type} {weight : α → ℕ} {c : α → Bool} {l : List α}
    (h : ∀ a ∈ l, c a = false → weight a = 0) : (l.map weight).sum = ((l.filter c).map weight).sum := by
  induction l with
  | nil => rfl
  | cons a l ih =>
      have hrest := ih fun b hb => h b (List.mem_cons_of_mem _ hb)
      rw [List.map_cons, List.sum_cons, hrest]
      cases hc : c a with
      | false => rw [List.filter_cons_of_neg (by simp [hc]), h a List.mem_cons_self hc, Nat.zero_add]
      | true => rw [List.filter_cons_of_pos hc, List.map_cons, List.sum_cons]

omit [FloatLike F] in
/-- Weights that all are at least one, or all at most one, add up to the length of the list only if all are one. -/
theorem sum_map_eq_length_iff {α : Type} {weight : α → ℕ} {l : List α}
    (h : (∀ a ∈ l, 1 ≤ weight a) ∨ ∀ a ∈ l, weight a ≤ 1) :
    (l.map weight).sum = l.length ↔ ∀ a ∈ l, weight a = 1 := by
  -- The rest cannot make up for a first weight that is not one.
  have hlow (l : List α) (hl : ∀ a ∈ l, 1 ≤ weight a) : l.length ≤ (l.map weight).sum := by
    have hle := List.length_le_sum_of_one_le (l.map weight) (List.forall_mem_map.mpr hl)
    rwa [List.length_map] at hle
  have hhigh (l : List α) (hl : ∀ a ∈ l, weight a ≤ 1) : (l.map weight).sum ≤ l.length := by
    have hle := List.sum_le_card_nsmul (l.map weight) 1 (List.forall_mem_map.mpr hl)
    rwa [List.length_map, nsmul_eq_mul, Nat.mul_one] at hle
  refine ⟨fun hsum => ?_, fun hone => ?_⟩
  · induction l with
    | nil => exact List.forall_mem_nil _
    | cons a l ih =>
        rw [List.map_cons, List.sum_cons, List.length_cons] at hsum
        rcases h with hall | hall
        · obtain ⟨hfirst, hrest⟩ := List.forall_mem_cons.mp hall
          have hle := hlow l hrest
          exact List.forall_mem_cons.mpr ⟨by omega, ih (Or.inl hrest) (by omega)⟩
        · obtain ⟨hfirst, hrest⟩ := List.forall_mem_cons.mp hall
          have hle := hhigh l hrest
          exact List.forall_mem_cons.mpr ⟨by omega, ih (Or.inr hrest) (by omega)⟩
  · rw [List.map_congr_left hone, List.map_const', List.sum_replicate_nat, Nat.mul_one]

/-- The hits that a query counts are the responses it is after, each as often as it shares tokens. -/
theorem countP_counted {history : List (String × Hit F)} {calls : List (FieldCall F)} {pattern : String}
    {windowMs : UInt32} (hhistory : history = hitHistory platform start calls)
    (hperm : (self.gatherHitsForPattern platform pattern windowMs).Perm
      ((history.filter fun e => e.1 ∈ tokenize platform pattern && self.inWindow windowMs e.2.ts).map Prod.snd))
    (filter : ViewFilter F) (R : NodeId → Bool) :
    (self.applyFilters (self.gatherHitsForPattern platform pattern windowMs) filter).countP (fun hit => R hit.node) =
      (((sought platform self pattern windowMs filter (responseHistory platform start calls)).filter fun r =>
        R r.node).map fun r => (shared platform pattern r).length).sum := by
  rw [countP_applyFilters hperm, hhistory]
  refine (countP_hitHistory pattern (fun d => self.inWindow windowMs d.1 && self.passes filter d.2.1 d.2.2 && R d.2.2)
    calls).trans ?_
  rw [sum_map_filter (c := fun r => pattern = "*" || !(shared platform pattern r).isEmpty) fun r _ hr => ?_]
  · unfold sought
    rw [List.filter_filter, List.filter_filter]
    congr 2
    refine List.filter_congr fun r _ => ?_
    ac_rfl
  · rw [Bool.or_eq_false_iff, Bool.not_eq_false', List.isEmpty_iff] at hr
    rw [hr.2, List.length_nil]

/-- A response that is sought shares a token with the pattern, unless that is the wildcard, which has but one. -/
theorem length_shared (pattern : String) (windowMs : UInt32) (filter : ViewFilter F) (responses : List (Response F)) :
    (∀ r ∈ sought platform self pattern windowMs filter responses, 1 ≤ (shared platform pattern r).length) ∨
      ∀ r ∈ sought platform self pattern windowMs filter responses, (shared platform pattern r).length ≤ 1 := by
  by_cases hwildcard : pattern = "*"
  · right
    intro r _
    have htokens : tokenize platform pattern = [platform.toLowercase "*"] := by
      rw [hwildcard]
      rfl
    have hsub : shared platform pattern r ⊆ [platform.toLowercase "*"] := by
      intro token htoken
      rw [← htokens]
      exact of_decide_eq_true (List.mem_filter.mp htoken).2
    exact (List.subperm_of_subset (r.nodup.filter _) hsub).length_le
  · left
    intro r hr
    obtain ⟨-, hkept⟩ := List.mem_filter.mp hr
    simp only [Bool.and_eq_true, Bool.or_eq_true, decide_eq_true_eq, hwildcard, false_or] at hkept
    rw [Bool.not_eq_true', List.isEmpty_eq_false_iff] at hkept
    exact List.length_pos_of_ne_nil hkept.2

/-- `SELECT` and the views count a response once, and rank its cell by it, if and only if each response they are
after shares exactly one token with the pattern: for the wildcard, if each impulse has the token `*`. -/
theorem select_counts_iff (hstart : ∀ key, start.tokenHits key = []) (calls : List (FieldCall F))
    (hroom : start.nextHitSeq.toNat + (hitHistory platform start calls).length < 2 ^ 64) (pattern : String)
    (windowMs : Option UInt32) (filter : ViewFilter F) (hwindow : (lqlWindow windowMs).toNat ≤ 120000)
    (hfew : ∀ token ∈ tokenize platform pattern, (under token (hitHistory platform start calls)).countP
      (fun hit => (calls.foldl (call platform) start).inWindow (lqlWindow windowMs) hit.ts) < 512) :
    let self := calls.foldl (call platform) start
    let stats := self.statsForPattern platform pattern (lqlWindow windowMs) filter
    let counted := sought platform self pattern (lqlWindow windowMs) filter (responseHistory platform start calls)
    (stats.count = counted.length ∧ TopThree (counted.map Response.node) stats.topNodes) ↔
      ∀ r ∈ counted, (shared platform pattern r).length = 1 := by
  intro self stats counted
  have hnoted := @Noted.run F _ platform _ _ (noted_nil hstart) calls
  rw [List.nil_append] at hnoted
  have hseq : ((hitHistory platform start calls).map fun e => e.2.seq.toNat).Nodup := by
    rw [seq_hitHistory hroom]
    exact List.nodup_range'
  have hcounted (R : NodeId → Bool) := countP_counted (Eq.refl (hitHistory platform start calls))
    (gatherHits_perm hnoted hseq hwindow hfew) filter R
  have hstats : stats = self.statsFromHits
      (self.applyFilters (self.gatherHitsForPattern platform pattern (lqlWindow windowMs)) filter) := by
    show statsForPattern platform self pattern (lqlWindow windowMs) filter = _
    unfold statsForPattern
    rw [if_neg (lqlWindow_pos windowMs)]
  have hcount : stats.count = (counted.map fun r => (shared platform pattern r).length).sum := by
    have hall := hcounted fun _ => true
    rw [List.countP_true, List.filter_true] at hall
    rw [hstats, (stats_of_hits _).1, hall]
  rw [hcount, sum_map_eq_length_iff (length_shared pattern _ filter _)]
  refine ⟨fun h => h.1, fun hone => ⟨hone, ?_⟩⟩
  -- A cell has as many hits as responses.
  have hperm : ((self.applyFilters (self.gatherHitsForPattern platform pattern (lqlWindow windowMs)) filter).map
      Hit.node).Perm (counted.map Response.node) := by
    rw [List.perm_iff_count]
    intro id
    have hid := hcounted fun node => node == id
    rw [List.count_eq_countP, List.count_eq_countP, List.countP_map, List.countP_map]
    refine hid.trans ?_
    rw [(sum_map_eq_length_iff (Or.inr fun r hr => (hone r (List.mem_of_mem_filter hr)).le)).mpr
      fun r hr => hone r (List.mem_of_mem_filter hr), List.countP_eq_length_filter]
    rfl
  rw [hstats, (stats_of_hits _).2]
  exact (topThree_topNodes _).perm hperm

/-- One impulse with two tokens, to which one cell responds. -/
def loadCalls : List (FieldCall ℚ) :=
  [.addRoot "cpu/load", .routeImpulse .listed ⟨.query, "cpu/load", 0.5, 0, []⟩]

/-- The response of the sample shares one token with a pattern of one token, and so is counted once. -/
theorem select_counts_iff_loadCalls :
    let self := loadCalls.foldl (call (constantPlatform ℚ 0.5)) new
    let stats := self.statsForPattern (constantPlatform ℚ 0.5) "cpu" (lqlWindow none) ⟨none, none, none⟩
    let counted := sought (constantPlatform ℚ 0.5) self "cpu" (lqlWindow none) ⟨none, none, none⟩
      (responseHistory (constantPlatform ℚ 0.5) new loadCalls)
    counted.length = 1 ∧ stats.count = counted.length ∧ TopThree (counted.map Response.node) stats.topNodes :=
  ⟨by decide +kernel, (select_counts_iff (fun _ => rfl) loadCalls (by decide +kernel) "cpu" none ⟨none, none, none⟩
    (by decide) (by decide +kernel)).mpr (by decide +kernel)⟩

/-- A query with both tokens counts the response twice, and the wildcard does not count it. -/
theorem not_select_counts_loadCalls :
    let self := loadCalls.foldl (call (constantPlatform ℚ 0.5)) new
    let stats (pattern : String) :=
      self.statsForPattern (constantPlatform ℚ 0.5) pattern (lqlWindow none) ⟨none, none, none⟩
    let counted (pattern : String) := sought (constantPlatform ℚ 0.5) self pattern (lqlWindow none) ⟨none, none, none⟩
      (responseHistory (constantPlatform ℚ 0.5) new loadCalls)
    (counted "cpu/load").length = 1 ∧ (stats "cpu/load").count = 2 ∧
      (counted "*").length = 1 ∧ (stats "*").count = 0 := by
  decide +kernel

end ClusterField

end LiminalDB
