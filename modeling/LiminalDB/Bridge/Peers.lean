import LiminalDB.Field.Cell
import LiminalDB.Foundations.KeyedFold
import LiminalDB.Noetic.Crdt
import Mathlib.Data.List.Induction

/-! # Peers: `GossipManager`

The manager keeps a table of peers and hands an event about every change of it to its broadcast sender, under the
lock of the table, so that calls of any threads come one after another. The events are a log of the table
(`gossip_log`), whoever of the subscribers gets them. Who copied the table and applies the events that arrive has
the manager's entry of every peer whose newest event is among them (`copies_catch_up`), however many others were
lost on the way. -/

namespace LiminalDB

variable {F : Type}

/-- `PeerInfo`: what is known of a peer: where it is, how far it is trusted, and when it was last heard
of. -/
structure PeerInfo (F : Type) where
  id : PeerId
  url : String
  nameSpace : String
  credence : F
  lastSeenMs : UInt64
  deriving DecidableEq

/-- `GossipEventKind`: what has happened to a peer. -/
inductive GossipEventKind
  | registered
  | summary
  | expired
  deriving DecidableEq

/-- `GossipEvent`: the announcement of what has happened to a peer, with what is known of it. -/
structure GossipManager.GossipEvent (F : Type) where
  peer : PeerId
  kind : GossipEventKind
  info : Option (PeerInfo F)
  deriving DecidableEq

/-- The peers by their ids. -/
abbrev PeerTable (F : Type) := Std.ExtTreeMap PeerId (PeerInfo F) compare

/-- `GossipManager`, with the milliseconds of its timeout. Of the sender `tx` it has the events that were handed
to `send`, oldest first: what the channel does with them, and to whom it gives them, is not the manager's. -/
structure GossipManager (F : Type) where
  localPeer : PeerId
  peers : PeerTable F
  heartbeatTimeoutMs : ℕ
  tx : List (GossipManager.GossipEvent F)

namespace GossipManager

/-- `GossipManager::new`: a manager that knows no peers, with a timeout of 45 seconds. -/
def new (localPeer : PeerId) : GossipManager F := ⟨localPeer, ∅, 45000, []⟩

/-- `with_timeout`: the same manager with another timeout. -/
def withTimeout (self : GossipManager F) (timeoutMs : ℕ) : GossipManager F :=
  { self with heartbeatTimeoutMs := timeoutMs }

/-- `register_peer`: the peer is known from now on, and announced. -/
def registerPeer (self : GossipManager F) (info : PeerInfo F) : GossipManager F :=
  { self with
    peers := self.peers.insert info.id info
    tx := self.tx ++ [⟨info.id, .registered, some info⟩] }

/-- `update_summary`: a known peer was heard of, perhaps with another credence, and that is announced. -/
def updateSummary (self : GossipManager F) (id : PeerId) (lastSeenMs : UInt64) (credence : Option F) :
    GossipManager F :=
  match self.peers[id]? with
  | some existing =>
      let existing := { existing with lastSeenMs, credence := credence.getD existing.credence }
      { self with
        peers := self.peers.insert id existing
        tx := self.tx ++ [⟨id, .summary, some existing⟩] }
  -- A peer that is not known is neither added nor announced.
  | none => self

/-- `remove_peer`: a known peer is forgotten, and announced as expired. -/
def removePeer (self : GossipManager F) (id : PeerId) : Option (PeerInfo F) × GossipManager F :=
  match self.peers[id]? with
  | some info =>
      (some info,
        { self with peers := self.peers.erase id, tx := self.tx ++ [⟨info.id, .expired, some info⟩] })
  | none => (none, self)

/-- The peer has not been seen for longer than the timeout. -/
def isStale (self : GossipManager F) (nowMs : UInt64) (info : PeerInfo F) : Bool :=
  UInt64.ofNat self.heartbeatTimeoutMs < saturatingSub nowMs info.lastSeenMs

/-- The loop of `expire_stale`: the infos that were removed, and the manager. -/
def expireOne (acc : List (PeerInfo F) × GossipManager F) (id : PeerId) : List (PeerInfo F) × GossipManager F :=
  match acc.2.removePeer id with
  | (some info, manager) => (acc.1 ++ [info], manager)
  | (none, manager) => (acc.1, manager)

/-- `expire_stale`, which visits the peers in any order. -/
def expireStale (order : Order PeerId) (self : GossipManager F) (nowMs : UInt64) :
    List (PeerInfo F) × GossipManager F :=
  ((order.arrange self.peers.keys).filter fun id => self.peers[id]?.any (self.isStale nowMs)).foldl expireOne
    ([], self)

/-! ## Runs -/

/-- A call that changes the table. -/
inductive Call (F : Type)
  | registerPeer (info : PeerInfo F)
  | updateSummary (id : PeerId) (lastSeenMs : UInt64) (credence : Option F)
  | removePeer (id : PeerId)
  | expireStale (order : Order PeerId) (nowMs : UInt64)

/-- One call. -/
def call (self : GossipManager F) : Call F → GossipManager F
  | .registerPeer info => self.registerPeer info
  | .updateSummary id lastSeenMs credence => self.updateSummary id lastSeenMs credence
  | .removePeer id => (self.removePeer id).2
  | .expireStale order nowMs => (self.expireStale order nowMs).2

/-- Calls in turn. -/
def run (self : GossipManager F) (calls : List (Call F)) : GossipManager F := calls.foldl call self

end GossipManager

/-- What an event says about the table. -/
def GossipManager.GossipEvent.apply (table : PeerTable F) (event : GossipManager.GossipEvent F) : PeerTable F :=
  match event.kind, event.info with
  | .registered, some info => table.insert event.peer info
  | .summary, some info => table.insert event.peer info
  | .expired, _ => table.erase event.peer
  | _, none => table

/-- The table that events make. -/
def replayPeers (events : List (GossipManager.GossipEvent F)) : PeerTable F :=
  events.foldl GossipManager.GossipEvent.apply ∅

/-- An event fits the table that the events before it make: it is about the peer of its info, a summary updates
a peer that is known, and leaves its place alone, and what expires is what is known. -/
def GossipManager.GossipEvent.Fits (before : List (GossipManager.GossipEvent F))
    (event : GossipManager.GossipEvent F) : Prop :=
  ∃ info, event.info = some info ∧ info.id = event.peer ∧
    match event.kind with
    | .registered => True
    | .summary => ∃ old, (replayPeers before)[event.peer]? = some old ∧
        info.url = old.url ∧ info.nameSpace = old.nameSpace
    | .expired => (replayPeers before)[event.peer]? = some info

/-! ## The log -/

section Log

variable {self : GossipManager F}

/-- What holds of a manager: its peers stand under their ids, and its events make its table, each of them
fitting those before it. -/
structure GossipManager.Logs (manager : GossipManager F) : Prop where
  keyed : ∀ (id : PeerId) (info : PeerInfo F), manager.peers[id]? = some info → info.id = id
  replay : replayPeers manager.tx = manager.peers
  fits : ∀ before event after, manager.tx = before ++ event :: after → event.Fits before

/-- One more event is applied to the table that the events before it make. -/
theorem replayPeers_append_singleton (events : List (GossipManager.GossipEvent F))
    (event : GossipManager.GossipEvent F) :
    replayPeers (events ++ [event]) = event.apply (replayPeers events) := by
  rw [replayPeers, List.foldl_append, List.foldl_cons, List.foldl_nil, replayPeers]

/-- One more event. -/
theorem GossipManager.Logs.send (h : self.Logs) {event : GossipManager.GossipEvent F}
    (hfits : event.Fits self.tx) (hkeyed : ∀ (id : PeerId) (info : PeerInfo F),
      (event.apply self.peers)[id]? = some info → info.id = id) :
    ({ self with peers := event.apply self.peers, tx := self.tx ++ [event] } : GossipManager F).Logs where
  keyed := hkeyed
  replay := by rw [replayPeers_append_singleton, h.replay]
  fits := forall_split_append_singleton.mpr ⟨h.fits, hfits⟩

namespace GossipManager

/-- A new manager has announced nothing, and its table is empty. -/
theorem logs_new (localPeer : PeerId) : (new localPeer : GossipManager F).Logs where
  keyed id info h := by
    rw [new, Std.ExtTreeMap.getElem?_empty] at h
    cases h
  replay := rfl
  fits before event after h := by
    have hlength := congrArg List.length h
    simp [new] at hlength

/-- A table with an info under its id. -/
theorem keyed_insert {table : PeerTable F}
    (h : ∀ (id : PeerId) (info : PeerInfo F), table[id]? = some info → info.id = id) {id : PeerId}
    {info : PeerInfo F} (hid : info.id = id) (other : PeerId) (found : PeerInfo F)
    (hfound : (table.insert id info)[other]? = some found) : found.id = other := by
  rw [Std.ExtTreeMap.getElem?_insert] at hfound
  split at hfound
  · rename_i heq
    cases hfound
    exact hid.trans (Std.LawfulEqCmp.eq_of_compare heq)
  · exact h other found hfound

/-- Registering a peer enters it and announces this, whether it was there or not. -/
theorem Logs.registerPeer (h : self.Logs) (info : PeerInfo F) : (self.registerPeer info).Logs :=
  @Logs.send F self h ⟨info.id, .registered, some info⟩ ⟨info, rfl, rfl, trivial⟩ (keyed_insert h.keyed rfl)

/-- A summary of a known peer is announced as an update, and one of an unknown peer is not announced. -/
theorem Logs.updateSummary (h : self.Logs) (id : PeerId) (lastSeenMs : UInt64) (credence : Option F) :
    (self.updateSummary id lastSeenMs credence).Logs := by
  cases hfound : self.peers[id]? with
  | none =>
      simp only [GossipManager.updateSummary, hfound]
      exact h
  | some existing =>
      simp only [GossipManager.updateSummary, hfound]
      have hid : existing.id = id := h.keyed id existing hfound
      refine @Logs.send F self h ⟨id, .summary, some _⟩ ⟨_, rfl, hid, existing, ?_, rfl, rfl⟩
        (keyed_insert h.keyed hid)
      rw [h.replay, hfound]

/-- What `remove_peer` does, where there is a peer and where there is none. -/
theorem removePeer_of_some {id : PeerId} {info : PeerInfo F} (hfound : self.peers[id]? = some info) :
    self.removePeer id = (some info,
      { self with peers := self.peers.erase id, tx := self.tx ++ [⟨info.id, .expired, some info⟩] }) := by
  simp only [removePeer, hfound]

/-- Removing a peer that is not there does nothing. -/
theorem removePeer_of_none {id : PeerId} (hfound : self.peers[id]? = none) : self.removePeer id = (none, self) := by
  simp only [removePeer, hfound]

/-- Removing a peer that is there announces its leaving. -/
theorem Logs.removePeer (h : self.Logs) (id : PeerId) : (self.removePeer id).2.Logs := by
  cases hfound : self.peers[id]? with
  | none =>
      rw [removePeer_of_none hfound]
      exact h
  | some info =>
      rw [removePeer_of_some hfound]
      have hid : info.id = id := h.keyed id info hfound
      rw [hid]
      refine @Logs.send F self h ⟨id, .expired, some info⟩ ⟨info, rfl, hid, ?_⟩ ?_
      · show (replayPeers self.tx)[id]? = some info
        rw [h.replay, hfound]
      · intro other found hother
        have hother : (self.peers.erase id)[other]? = some found := hother
        rw [Std.ExtTreeMap.getElem?_erase] at hother
        split at hother
        · cases hother
        · exact h.keyed other found hother

/-- So does expiring one. -/
theorem Logs.expireOne {acc : List (PeerInfo F) × GossipManager F} (h : acc.2.Logs) (id : PeerId) :
    (expireOne acc id).2.Logs := by
  have hremoved := h.removePeer id
  cases hfound : acc.2.peers[id]? with
  | none =>
      rw [removePeer_of_none hfound] at hremoved
      simp only [GossipManager.expireOne, removePeer_of_none hfound]
      exact hremoved
  | some info =>
      rw [removePeer_of_some hfound] at hremoved
      simp only [GossipManager.expireOne, removePeer_of_some hfound]
      exact hremoved

/-- Each call keeps what holds of a manager, by the kinds of calls. -/
theorem Logs.call (h : self.Logs) (c : Call F) : (self.call c).Logs := by
  cases c with
  | registerPeer info => exact h.registerPeer info
  | updateSummary id lastSeenMs credence => exact h.updateSummary id lastSeenMs credence
  | removePeer id => exact h.removePeer id
  | expireStale order nowMs =>
      -- The invariant of the loop: the manager logs.
      have hstep : ∀ acc : List (PeerInfo F) × GossipManager F, acc.2.Logs →
          ∀ id, (GossipManager.expireOne acc id).2.Logs := fun acc hacc id => Logs.expireOne hacc id
      exact List.foldlRecOn (motive := fun acc => acc.2.Logs) (b := ([], self)) _ GossipManager.expireOne h
        fun acc hacc id _ => hstep acc hacc id

/-- Setting the timeout announces nothing and touches no peer. -/
theorem Logs.withTimeout (h : self.Logs) (timeoutMs : ℕ) : (self.withTimeout timeoutMs).Logs :=
  ⟨h.keyed, h.replay, h.fits⟩

/-- By induction over the calls, it holds after every run. -/
theorem Logs.run (h : self.Logs) (calls : List (Call F)) : (self.run calls).Logs :=
  List.foldlRecOn calls GossipManager.call h fun _ hmanager c _ => hmanager.call c

end GossipManager

end Log

/-- In any run of calls, the announcements are a log of the table: replayed, they make it, and each fits the
table at its time. -/
theorem gossip_log (localPeer : PeerId) (timeoutMs : ℕ) (calls : List (GossipManager.Call F)) :
    let manager := ((GossipManager.new localPeer).withTimeout timeoutMs).run calls
    replayPeers manager.tx = manager.peers ∧
      ∀ before event after, manager.tx = before ++ event :: after → event.Fits before := by
  intro manager
  have hlogs : manager.Logs :=
    ((GossipManager.logs_new localPeer).withTimeout timeoutMs).run calls
  exact ⟨hlogs.replay, hlogs.fits⟩

/-! ## Stale peers -/

section Stale

variable {self : GossipManager F}

namespace GossipManager

/-- A peer is stale once the timeout has passed since it was seen, counted in natural numbers: the sum
saturates. -/
theorem isStale_eq (self : GossipManager F) (nowMs : UInt64) (info : PeerInfo F) :
    self.isStale nowMs info =
      decide (info.lastSeenMs.toNat + self.heartbeatTimeoutMs % 2 ^ 64 < nowMs.toNat) := by
  unfold isStale
  rw [decide_eq_decide, UInt64.lt_iff_toNat_lt, toNat_saturatingSub, UInt64.toNat_ofNat']
  omega

/-- What the loop of `expire_stale` does with distinct peers of the table, in any order. -/
theorem foldl_expireOne (h : self.Logs) {ids : List PeerId} (hids : ids.Nodup)
    (hknown : ∀ id ∈ ids, id ∈ self.peers) (removed : List (PeerInfo F)) :
    let after := ids.foldl expireOne (removed, self)
    after.1 = removed ++ ids.filterMap (self.peers[·]?) ∧
      (∀ id : PeerId, after.2.peers[id]? = if id ∈ ids then none else self.peers[id]?) ∧
      after.2.tx =
        self.tx ++ (ids.filterMap (self.peers[·]?)).map fun info => ⟨info.id, .expired, some info⟩ := by
  induction ids generalizing self removed with
  | nil => simp
  | cons id ids ih =>
      obtain ⟨hnotmem, hids⟩ := List.nodup_cons.mp hids
      obtain ⟨info, hfound⟩ : ∃ info, self.peers[id]? = some info :=
        Option.isSome_iff_exists.mp (by
          rw [← Std.ExtTreeMap.mem_iff_isSome_getElem?]
          exact hknown id List.mem_cons_self)
      have hstep : expireOne (removed, self) id = (removed ++ [info], (self.removePeer id).2) := by
        simp only [expireOne, removePeer_of_some hfound]
      have hlogs := h.removePeer id
      rw [removePeer_of_some hfound] at hstep hlogs
      -- Taking out one peer leaves those that are still to come.
      have hothers : ∀ other ∈ ids, (self.peers.erase id)[other]? = self.peers[other]? := by
        intro other hother
        have hne : compare id other ≠ .eq := fun heq =>
          hnotmem (Std.LawfulEqCmp.eq_of_compare heq ▸ hother)
        rw [Std.ExtTreeMap.getElem?_erase, if_neg hne]
      obtain ⟨hremoved, hpeers, hsent⟩ := ih hlogs hids (fun other hother => by
        rw [Std.ExtTreeMap.mem_iff_isSome_getElem?]
        show ((self.peers.erase id)[other]?).isSome
        rw [hothers other hother, ← Std.ExtTreeMap.mem_iff_isSome_getElem?]
        exact hknown other (List.mem_cons_of_mem _ hother)) (removed ++ [info])
      have hrest : ids.filterMap ((self.peers.erase id)[·]?) = ids.filterMap (self.peers[·]?) :=
        List.filterMap_congr hothers
      intro after
      have hafter : after = ids.foldl expireOne (removed ++ [info],
          { self with peers := self.peers.erase id, tx := self.tx ++ [⟨info.id, .expired, some info⟩] }) := by
        show ids.foldl expireOne (expireOne (removed, self) id) = _
        rw [hstep]
      rw [hafter]
      refine ⟨?_, fun other => ?_, ?_⟩
      · rw [hremoved, hrest, List.filterMap_cons, hfound, List.append_assoc]
        rfl
      · -- Who is asked for is the first of them, one of the others, or none.
        rw [hpeers]
        show (if other ∈ ids then none else (self.peers.erase id)[other]?) = _
        rw [Std.ExtTreeMap.getElem?_erase]
        by_cases heq : compare id other = .eq
        · obtain rfl : id = other := Std.LawfulEqCmp.eq_of_compare heq
          simp [hnotmem]
        · have hne : other ≠ id := fun hother => heq (hother ▸ Std.ReflCmp.compare_self)
          simp [heq, hne]
      · rw [hsent]
        show (self.tx ++ [⟨info.id, .expired, some info⟩]) ++
          (ids.filterMap ((self.peers.erase id)[·]?)).map _ = _
        rw [hrest, List.filterMap_cons, hfound, List.append_assoc]
        rfl

/-- The infos of the keys with an info that meets a condition. -/
theorem filterMap_stale_keys (table : PeerTable F) (p : PeerInfo F → Bool) :
    (table.keys.filter fun id => table[id]?.any p).filterMap (table[·]?) = table.values.filter p := by
  have hentry : ∀ entry ∈ table.toList, table[entry.1]? = some entry.2 :=
    fun entry hmem => Std.ExtTreeMap.mem_toList_iff_getElem?_eq_some.mp hmem
  rw [values_eq_map_toList, ← Std.ExtTreeMap.map_fst_toList_eq_keys, List.filter_map, List.filter_map,
    List.filterMap_map]
  have hfilter : table.toList.filter ((fun id => table[id]?.any p) ∘ Prod.fst) =
      table.toList.filter (p ∘ Prod.snd) := by
    apply List.filter_congr
    intro entry hmem
    simp [hentry entry hmem]
  rw [hfilter, ← List.filterMap_eq_map]
  apply List.filterMap_congr
  intro entry hmem
  exact hentry entry (List.mem_of_mem_filter hmem)

/-- `expire_stale` of a manager that logs. -/
theorem Logs.expireStale (h : self.Logs) (order : Order PeerId) (nowMs : UInt64) :
    let result := self.expireStale order nowMs
    result.1.Perm (self.peers.values.filter (self.isStale nowMs)) ∧
      (∀ id : PeerId, result.2.peers[id]? = self.peers[id]?.filter fun info => !self.isStale nowMs info) ∧
      result.2.tx = self.tx ++ result.1.map fun info => ⟨info.id, .expired, some info⟩ := by
  intro result
  set stale := (order.arrange self.peers.keys).filter fun id => self.peers[id]?.any (self.isStale nowMs) with hstale
  have hnodup : stale.Nodup := ((order.perm _).nodup_iff.mpr Std.ExtTreeMap.nodup_keys).filter _
  have hmem : ∀ id : PeerId, id ∈ stale ↔
      ∃ info, self.peers[id]? = some info ∧ self.isStale nowMs info := by
    intro id
    rw [hstale, List.mem_filter, order.mem_arrange, Std.ExtTreeMap.mem_keys]
    cases hfound : self.peers[id]? <;> simp [Std.ExtTreeMap.mem_iff_isSome_getElem?, hfound]
  have hknown : ∀ id ∈ stale, id ∈ self.peers := by
    intro id hid
    obtain ⟨info, hfound, -⟩ := (hmem id).mp hid
    rw [Std.ExtTreeMap.mem_iff_isSome_getElem?, hfound]
    rfl
  obtain ⟨hremoved, hpeers, hsent⟩ := foldl_expireOne h hnodup hknown []
  have hresult : result = stale.foldl GossipManager.expireOne ([], self) := rfl
  rw [← hresult] at hremoved hpeers hsent
  refine ⟨?_, fun id => ?_, ?_⟩
  · rw [hremoved, List.nil_append, ← filterMap_stale_keys]
    exact ((order.perm _).filter _).filterMap _
  · rw [hpeers]
    cases hfound : self.peers[id]? with
    | none => simp
    | some info =>
        by_cases hold : self.isStale nowMs info <;> simp [hmem, hfound, hold, Option.filter_some]
  · rw [hsent, hremoved, List.nil_append]

end GossipManager

end Stale

/-- After any run of calls, and in whatever order the peers are visited, `expire_stale` takes out the peers that
have not been seen for longer than the timeout, each once, hands them back and announces them in that order, and
leaves all others. -/
theorem stale_peers_expire (localPeer : PeerId) (timeoutMs : ℕ) (calls : List (GossipManager.Call F))
    (order : Order PeerId) (nowMs : UInt64) :
    let manager := ((GossipManager.new localPeer).withTimeout timeoutMs).run calls
    let stale := fun info : PeerInfo F =>
      decide (info.lastSeenMs.toNat + manager.heartbeatTimeoutMs % 2 ^ 64 < nowMs.toNat)
    let result := manager.expireStale order nowMs
    result.1.Perm (manager.peers.values.filter stale) ∧
      (∀ id : PeerId, result.2.peers[id]? = manager.peers[id]?.filter fun info => !stale info) ∧
      result.2.tx = manager.tx ++ result.1.map fun info => ⟨info.id, .expired, some info⟩ := by
  intro manager stale result
  have hlogs : manager.Logs :=
    ((GossipManager.logs_new localPeer).withTimeout timeoutMs).run calls
  have hstale : stale = manager.isStale nowMs := funext fun info => (manager.isStale_eq nowMs info).symm
  rw [hstale]
  exact hlogs.expireStale order nowMs

/-! ## Copies of the table -/

section Copies

variable {self : GossipManager F}

namespace GossipManager

/-- A call only adds to what was sent. -/
theorem tx_prefix_call (h : self.Logs) (c : Call F) : self.tx <+: (self.call c).tx := by
  cases c with
  | registerPeer info => exact List.prefix_append _ _
  | updateSummary id lastSeenMs credence =>
      simp only [call, updateSummary]
      cases self.peers[id]? with
      | none => exact List.prefix_refl _
      | some existing => exact List.prefix_append _ _
  | removePeer id =>
      simp only [call, removePeer]
      cases self.peers[id]? with
      | none => exact List.prefix_refl _
      | some info => exact List.prefix_append _ _
  | expireStale order nowMs =>
      obtain ⟨-, -, hsent⟩ := h.expireStale order nowMs
      exact ⟨_, hsent.symm⟩

/-- So does a run. -/
theorem tx_prefix_run (h : self.Logs) (calls : List (Call F)) : self.tx <+: (self.run calls).tx := by
  induction calls generalizing self with
  | nil => exact List.prefix_refl _
  | cons c calls ih => exact (tx_prefix_call h c).trans (ih (h.call c))

/-- Every event that a manager sends has an info. -/
theorem Logs.isSome_info (h : self.Logs) : ∀ event ∈ self.tx, event.info.isSome := by
  intro event hmem
  obtain ⟨before, after, hsplit⟩ := List.append_of_mem hmem
  obtain ⟨info, hinfo, -⟩ := h.fits before event after hsplit
  rw [hinfo]
  rfl

end GossipManager

/-- The entry that an event leaves for its peer. -/
def GossipManager.GossipEvent.entry (event : GossipManager.GossipEvent F) : Option (PeerInfo F) :=
  match event.kind with
  | .expired => none
  | _ => event.info

/-- The newest of the events about a peer. -/
def newestAbout (id : PeerId) (events : List (GossipManager.GossipEvent F)) :
    Option (GossipManager.GossipEvent F) :=
  (events.filter fun event => event.peer = id).getLast?

/-- One more event is the newest about its peer, and changes nothing for the others. -/
theorem newestAbout_append_singleton (id : PeerId) (events : List (GossipManager.GossipEvent F))
    (event : GossipManager.GossipEvent F) :
    newestAbout id (events ++ [event]) = if event.peer = id then some event else newestAbout id events := by
  unfold newestAbout
  by_cases hid : event.peer = id <;> simp [hid]

/-- One event about a peer, and about any other. -/
theorem GossipManager.GossipEvent.getElem?_apply {event : GossipManager.GossipEvent F}
    (hinfo : event.info.isSome) (table : PeerTable F) (id : PeerId) :
    (event.apply table)[id]? = if event.peer = id then event.entry else table[id]? := by
  obtain ⟨peer, kind, info⟩ := event
  obtain ⟨info, rfl⟩ := Option.isSome_iff_exists.mp hinfo
  have hcompare : compare peer id = .eq ↔ peer = id := Std.LawfulEqCmp.compare_eq_iff_eq
  cases kind with
  | registered => simp [apply, entry, Std.ExtTreeMap.getElem?_insert, hcompare]
  | summary => simp [apply, entry, Std.ExtTreeMap.getElem?_insert, hcompare]
  | expired => simp [apply, entry, Std.ExtTreeMap.getElem?_erase, hcompare]

/-- What events make of a table: each peer has the entry of the newest event about it. -/
theorem getElem?_foldl_apply (table : PeerTable F) (id : PeerId)
    {events : List (GossipManager.GossipEvent F)} (hinfo : ∀ event ∈ events, event.info.isSome) :
    (events.foldl GossipManager.GossipEvent.apply table)[id]? =
      (newestAbout id events).elim table[id]? GossipManager.GossipEvent.entry := by
  induction events using List.reverseRecOn with
  | nil => rfl
  | append_singleton events event ih =>
      have hlast : event.info.isSome := hinfo event (by simp)
      rw [List.foldl_append, List.foldl_cons, List.foldl_nil, event.getElem?_apply hlast,
        newestAbout_append_singleton, ih fun e he => hinfo e (List.mem_append_left _ he)]
      by_cases hid : event.peer = id <;> simp [hid]

end Copies

/-- Whoever copies the table of a manager after any calls, and applies in their order any of the events that it
sends in further calls, has its entry for every peer the newest event about which is the newest one sent: so the
whole table, where none was missed. -/
theorem copies_catch_up (localPeer : PeerId) (timeoutMs : ℕ) (before after : List (GossipManager.Call F)) :
    let manager := ((GossipManager.new localPeer).withTimeout timeoutMs).run before
    let later := manager.run after
    ∃ announced, later.tx = manager.tx ++ announced ∧
      announced.foldl GossipManager.GossipEvent.apply manager.peers = later.peers ∧
      ∀ got : List (GossipManager.GossipEvent F), got.Sublist announced →
        ∀ id : PeerId, newestAbout id got = newestAbout id announced →
          (got.foldl GossipManager.GossipEvent.apply manager.peers)[id]? = later.peers[id]? := by
  intro manager later
  have hlogs : manager.Logs :=
    ((GossipManager.logs_new localPeer).withTimeout timeoutMs).run before
  have hlater : later.Logs := hlogs.run after
  obtain ⟨announced, hannounced⟩ := GossipManager.tx_prefix_run hlogs after
  have htx : later.tx = manager.tx ++ announced := hannounced.symm
  have htable : announced.foldl GossipManager.GossipEvent.apply manager.peers = later.peers := by
    rw [← hlater.replay, htx, replayPeers, List.foldl_append, ← replayPeers, hlogs.replay]
  have hinfo : ∀ event ∈ announced, event.info.isSome := fun event hmem =>
    hlater.isSome_info event (by rw [htx]; exact List.mem_append_right _ hmem)
  refine ⟨announced, htx, htable, fun got hgot id hnewest => ?_⟩
  rw [← htable, getElem?_foldl_apply _ _ hinfo, ← hnewest,
    getElem?_foldl_apply _ _ fun event hmem => hinfo event (hgot.subset hmem)]

/-- A copy that missed everything but the last summary of the first peer has its entry all the same. -/
theorem copies_catch_up_last_summary :
    let manager := ((GossipManager.new (samplePeer 0)).withTimeout 45000).run
      [.registerPeer ⟨samplePeer 1, "ws://one", "alpha", (1 / 2 : ℚ), 10⟩]
    let later := manager.run
      [.registerPeer ⟨samplePeer 2, "ws://two", "alpha", 1 / 2, 11⟩, .updateSummary (samplePeer 1) 12 none,
        .updateSummary (samplePeer 1) 13 (some 1), .removePeer (samplePeer 2)]
    let got := [⟨samplePeer 1, .summary, some ⟨samplePeer 1, "ws://one", "alpha", 1, 13⟩⟩]
    (got.foldl GossipManager.GossipEvent.apply manager.peers)[samplePeer 1]? = later.peers[samplePeer 1]? := by
  intro manager later got
  obtain ⟨announced, htx, -, hcopy⟩ := copies_catch_up (samplePeer 0) 45000
    [.registerPeer ⟨samplePeer 1, "ws://one", "alpha", (1 / 2 : ℚ), 10⟩]
    [.registerPeer ⟨samplePeer 2, "ws://two", "alpha", 1 / 2, 11⟩, .updateSummary (samplePeer 1) 12 none,
      .updateSummary (samplePeer 1) 13 (some 1), .removePeer (samplePeer 2)]
  have hsent : later.tx.drop 1 = [⟨samplePeer 2, .registered, some ⟨samplePeer 2, "ws://two", "alpha", 1 / 2, 11⟩⟩,
      ⟨samplePeer 1, .summary, some ⟨samplePeer 1, "ws://one", "alpha", 1 / 2, 12⟩⟩,
      ⟨samplePeer 1, .summary, some ⟨samplePeer 1, "ws://one", "alpha", 1, 13⟩⟩,
      ⟨samplePeer 2, .expired, some ⟨samplePeer 2, "ws://two", "alpha", 1 / 2, 11⟩⟩] := by decide +kernel
  have hannounced : announced = later.tx.drop 1 := by
    rw [show later.tx = manager.tx ++ announced from htx]
    rfl
  rw [hsent] at hannounced
  subst hannounced
  exact hcopy got (by decide +kernel) (samplePeer 1) (by decide +kernel)

end LiminalDB
