import Mathlib.Data.List.Induction
import Mathlib.Logic.Function.Basic

/-! # Keys and namespaces: `Access`

An operator registers namespaces and keys, and disables keys. What `authorize` answers is read off the history
of these calls: a key lets in who was granted it when it was first added to a registered namespace, and nobody
once it has been disabled (`authorize_iff_granted`). There is no call that takes a revocation back. -/

namespace LiminalDB

/-- `Role`: what a key may do. -/
inductive Role
  | admin
  | writer
  | reader
  deriving DecidableEq, Repr

/-- `Role::permits`: a role permits itself and the lower ones. -/
def Role.permits : Role → Role → Bool
  | .admin, _ => true
  | .writer, .writer => true
  | .writer, .reader => true
  | .reader, .reader => true
  | _, _ => false

/-- `ApiKey`: a key of one name space and role, with the hash of its secret. -/
structure ApiKey where
  id : String
  secretHash : Vector UInt8 32
  role : Role
  ns : String
  createdMs : UInt64
  disabled : Bool
  deriving DecidableEq

/-- `ApiKey::new`: a key that is not disabled. -/
def ApiKey.new (id : String) (secretHash : Vector UInt8 32) (role : Role) (ns : String) (createdMs : UInt64) :
    ApiKey :=
  { id, secretHash, role, ns, createdMs, disabled := false }

/-- `AccessError`: why a call is refused, with the key and the names that it is about. -/
inductive AccessError
  | unknownKey (key : String)
  | keyDisabled (key : String)
  | keyExists (key : String)
  | unknownNamespace (ns : String)
  | wrongNamespace (key keyNs requiredNs : String)
  | forbidden (key : String) (role required : Role)
  deriving DecidableEq

/-- `Quotas` of a namespace. -/
structure Access.Quotas where
  rps : UInt32
  burst : UInt32
  maxCells : UInt32
  maxViews : UInt32
  deriving DecidableEq

/-- `Quotas::default`: zero for each quota. -/
def Access.Quotas.default : Access.Quotas := ⟨0, 0, 0, 0⟩

/-- `Access`. The maps are only looked up. -/
structure Access where
  keys : String → Option ApiKey
  nsQuotas : String → Option Access.Quotas

namespace Access

/-- `Access::new`: no keys and no name spaces. -/
def new : Access := ⟨fun _ => none, fun _ => none⟩

/-- `register_namespace`: the name space is known from now on, and keeps a quota it had. -/
def registerNamespace (self : Access) (ns : String) : Access :=
  { self with nsQuotas := Function.update self.nsQuotas ns (some ((self.nsQuotas ns).getD .default)) }

/-- `set_quota`: the quota is set, and the name space is known from now on. -/
def setQuota (self : Access) (ns : String) (quota : Quotas) : Access :=
  { self with nsQuotas := Function.update self.nsQuotas ns (some quota) }

/-- `add_key`: a new key of a known name space is entered. -/
def addKey (self : Access) (key : ApiKey) : Except AccessError Unit × Access :=
  if (self.keys key.id).isSome then (.error (.keyExists key.id), self)
  else if (self.nsQuotas key.ns).isNone then (.error (.unknownNamespace key.ns), self)
  else (.ok (), { self with keys := Function.update self.keys key.id (some key) })

/-- `disable_key`: a known key is disabled for good. -/
def disableKey (self : Access) (keyId : String) : Except AccessError Unit × Access :=
  match self.keys keyId with
  | some key => (.ok (), { self with keys := Function.update self.keys keyId (some { key with disabled := true }) })
  | none => (.error (.unknownKey keyId), self)

/-- `authorize`: the role of a key that may do what is required, or the first reason why it may not. -/
def authorize (self : Access) (keyId : String) (required : Role) (ns : String) : Except AccessError Role :=
  match self.keys keyId with
  | none => .error (.unknownKey keyId)
  | some key =>
      if key.disabled then .error (.keyDisabled keyId)
      else if key.ns ≠ ns then .error (.wrongNamespace keyId key.ns ns)
      else if !key.role.permits required then .error (.forbidden keyId key.role required)
      else .ok key.role

/-! ## Runs -/

/-- A call that changes the access state. -/
inductive Call
  | registerNamespace (ns : String)
  | setQuota (ns : String) (quota : Quotas)
  | addKey (key : ApiKey)
  | disableKey (keyId : String)
  deriving DecidableEq

/-- One call. A call that fails changes nothing. -/
def call (self : Access) : Call → Access
  | .registerNamespace ns => self.registerNamespace ns
  | .setQuota ns quota => self.setQuota ns quota
  | .addKey key => (self.addKey key).2
  | .disableKey keyId => (self.disableKey keyId).2

/-- A run from an empty state. -/
def run (calls : List Call) : Access := calls.foldl call new

/-- The call registers the namespace. -/
def Call.registers (ns : String) : Call → Prop
  | .registerNamespace registered => registered = ns
  | .setQuota registered _ => registered = ns
  | _ => False

/-- The key is granted by a call with `after` behind it: its namespace is known by then, and no other key was
added under its id to a namespace that was known. -/
def Granted (calls : List Call) (key : ApiKey) (after : List Call) : Prop :=
  ∃ before, calls = before ++ .addKey key :: after ∧ (∃ c ∈ before, c.registers key.ns) ∧
    ∀ earlier other later, before = earlier ++ .addKey other :: later → other.id = key.id →
      ∀ c ∈ earlier, ¬ c.registers other.ns

section Runs

variable {calls : List Call} {key : ApiKey} {after : List Call}

/-- One more call is made in the state reached by those before it. -/
theorem run_append_singleton (calls : List Call) (c : Call) : run (calls ++ [c]) = (run calls).call c := by
  rw [run, List.foldl_append, List.foldl_cons, List.foldl_nil, run]

/-- A namespace is known from the call on that registers it. -/
theorem nsQuotas_run (calls : List Call) (ns : String) :
    ((run calls).nsQuotas ns).isSome = true ↔ ∃ c ∈ calls, c.registers ns := by
  induction calls using List.reverseRecOn with
  | nil => simp [run, new]
  | append_singleton calls c ih =>
      simp only [run_append_singleton, List.mem_append, List.mem_singleton, or_and_right, exists_or,
        exists_eq_left]
      rw [← ih]
      cases c with
      | registerNamespace registered =>
          by_cases heq : ns = registered
          · subst heq
            simp [call, registerNamespace, Call.registers]
          · simp [call, registerNamespace, Call.registers, Function.update_of_ne heq, Ne.symm heq]
      | setQuota registered quota =>
          by_cases heq : ns = registered
          · subst heq
            simp [call, setQuota, Call.registers]
          · simp [call, setQuota, Call.registers, Function.update_of_ne heq, Ne.symm heq]
      | addKey key =>
          simp only [call, addKey, Call.registers, or_false]
          split
          · rfl
          · split <;> rfl
      | disableKey keyId =>
          simp only [call, disableKey, Call.registers, or_false]
          split <;> rfl

/-- Where a key was added to a namespace that was known, one of its id has been granted. -/
theorem exists_granted {earlier later : List Call} {other : ApiKey}
    (hcalls : calls = earlier ++ .addKey other :: later) {c : Call} (hc : c ∈ earlier)
    (hregisters : c.registers other.ns) : ∃ first rest, first.id = other.id ∧ Granted calls first rest := by
  induction hlength : earlier.length using Nat.strongRecOn generalizing earlier later other c with
  | ind length ih =>
      by_cases hfirst : ∀ before key after, earlier = before ++ .addKey key :: after → key.id = other.id →
          ∀ c ∈ before, ¬ c.registers key.ns
      · exact ⟨other, later, rfl, earlier, hcalls, ⟨c, hc, hregisters⟩, hfirst⟩
      · -- An earlier one was added to a known namespace.
        push Not at hfirst
        obtain ⟨before, key, after, rfl, hid, c', hc', hregisters'⟩ := hfirst
        have hlt : before.length < length := by
          rw [← hlength, List.length_append, List.length_cons]
          omega
        rw [List.append_assoc, List.cons_append] at hcalls
        obtain ⟨first, rest, hsame, hgranted⟩ := ih before.length hlt hcalls hc' hregisters' rfl
        exact ⟨first, rest, hsame.trans hid, hgranted⟩

/-- A key that is granted was granted before the last call, or by it. -/
theorem granted_append_singleton {c : Call} : Granted (calls ++ [c]) key after ↔
    (∃ rest, after = rest ++ [c] ∧ Granted calls key rest) ∨
      (c = .addKey key ∧ after = [] ∧ (∃ c ∈ calls, c.registers key.ns) ∧
        ∀ other rest, other.id = key.id → ¬ Granted calls other rest) := by
  constructor
  · rintro ⟨before, hsplit, hknown, hfirst⟩
    rcases List.eq_nil_or_concat after with rfl | ⟨rest, last, rfl⟩
    · obtain ⟨rfl, hlast⟩ := List.append_inj' hsplit rfl
      refine Or.inr ⟨List.head_eq_of_cons_eq hlast, rfl, hknown, ?_⟩
      rintro other rest hid ⟨earlier, hbefore, ⟨c, hc, hregisters⟩, -⟩
      exact hfirst earlier other rest hbefore hid c hc hregisters
    · rw [List.concat_eq_append, ← List.cons_append, ← List.append_assoc] at hsplit
      obtain ⟨hcalls, hlast⟩ := List.append_inj' hsplit rfl
      obtain rfl : c = last := List.head_eq_of_cons_eq hlast
      exact Or.inl ⟨rest, List.concat_eq_append, before, hcalls, hknown, hfirst⟩
  · rintro (⟨rest, rfl, before, rfl, hknown, hfirst⟩ | ⟨rfl, rfl, hknown, hnone⟩)
    · refine ⟨before, ?_, hknown, hfirst⟩
      rw [List.append_assoc, List.cons_append]
    · refine ⟨calls, rfl, hknown, ?_⟩
      intro earlier other later hcalls hid c hc hregisters
      obtain ⟨first, rest, hsame, hgranted⟩ := exists_granted hcalls hc hregisters
      exact hnone first rest (hsame.trans hid) hgranted

/-- A key as a history of calls leaves it: the one that was granted, disabled if it was disabled since. -/
def Holds (calls : List Call) (keyId : String) (found : ApiKey) : Prop :=
  ∃ key after, Granted calls key after ∧ key.id = keyId ∧
    found = { key with disabled := key.disabled || decide (.disableKey keyId ∈ after) }

/-- After one more call a key is held as before, disabled if the call does that, or it is the key that the
call adds. -/
theorem holds_append_singleton {c : Call} {keyId : String} {found : ApiKey} : Holds (calls ++ [c]) keyId found ↔
    (∃ old, Holds calls keyId old ∧ found = { old with disabled := old.disabled || decide (c = .disableKey keyId) }) ∨
      (c = .addKey found ∧ found.id = keyId ∧ (∃ c ∈ calls, c.registers found.ns) ∧
        ∀ old, ¬ Holds calls keyId old) := by
  constructor
  · rintro ⟨key, after, hgranted, hid, rfl⟩
    rcases granted_append_singleton.mp hgranted with ⟨rest, rfl, hbefore⟩ | ⟨rfl, rfl, hknown, hnone⟩
    · refine Or.inl ⟨_, ⟨key, rest, hbefore, hid, rfl⟩, ?_⟩
      simp [Bool.or_assoc, eq_comm]
    · refine Or.inr ⟨by simp, hid, hknown, ?_⟩
      rintro old ⟨other, rest, hother, hsame, -⟩
      exact hnone other rest (hsame.trans hid.symm) hother
  · rintro (⟨old, ⟨key, rest, hgranted, hid, rfl⟩, rfl⟩ | ⟨rfl, hid, hknown, hnone⟩)
    · refine ⟨key, rest ++ [c], granted_append_singleton.mpr (Or.inl ⟨rest, rfl, hgranted⟩), hid, ?_⟩
      simp [Bool.or_assoc, eq_comm]
    · refine ⟨found, [], granted_append_singleton.mpr (Or.inr ⟨rfl, rfl, hknown, ?_⟩), hid, by simp⟩
      intro other rest hsame hother
      exact hnone _ ⟨other, rest, hother, hsame.trans hid, rfl⟩

/-- The keys of a run are those of its history. -/
theorem keys_run (calls : List Call) (keyId : String) (found : ApiKey) :
    (run calls).keys keyId = some found ↔ Holds calls keyId found := by
  induction calls using List.reverseRecOn generalizing keyId found with
  | nil =>
      refine iff_of_false (fun h => nomatch h) ?_
      rintro ⟨key, after, ⟨before, hsplit, -⟩, -⟩
      cases before <;> cases hsplit
  | append_singleton calls c ih =>
      have hnone : (run calls).keys keyId = none ↔ ∀ old, ¬ Holds calls keyId old := by
        rw [Option.eq_none_iff_forall_ne_some]
        exact forall_congr' fun old => not_congr (ih keyId old)
      rw [holds_append_singleton, run_append_singleton, ← hnone]
      simp only [← ih]
      cases c with
      | registerNamespace ns => simp [call, registerNamespace, eq_comm]
      | setQuota ns quota => simp [call, setQuota, eq_comm]
      | disableKey id =>
          by_cases heq : keyId = id
          · subst heq
            cases hkey : (run calls).keys keyId with
            | none => simp [call, disableKey, hkey]
            | some key => simp [call, disableKey, hkey, eq_comm]
          · have hne : ¬ id = keyId := fun h => heq h.symm
            cases hkey : (run calls).keys id with
            | none => simp [call, disableKey, hkey, hne]
            | some key => simp [call, disableKey, hkey, Function.update_of_ne heq, hne]
      | addKey key =>
          have hquotas := nsQuotas_run calls key.ns
          have hkept : (∃ old, (run calls).keys keyId = some old ∧ found =
              { old with disabled := old.disabled || decide (Call.addKey key = .disableKey keyId) }) ↔
                (run calls).keys keyId = some found := by simp
          rw [hkept]
          simp only [call, addKey]
          -- The key is refused, or it is new under its id.
          split
          · rename_i hsome
            refine (or_iff_left ?_).symm
            rintro ⟨heq, rfl, -, hmissing⟩
            cases heq
            rw [hmissing] at hsome
            cases hsome
          · rename_i hmissing
            rw [Bool.not_eq_true, Option.isSome_eq_false_iff, Option.isNone_iff_eq_none] at hmissing
            split
            · rename_i hunknown
              refine (or_iff_left ?_).symm
              rintro ⟨heq, -, hknown, -⟩
              cases heq
              rw [← hquotas, Option.isSome_iff_ne_none] at hknown
              exact hknown (Option.isNone_iff_eq_none.mp hunknown)
            · rename_i hknown
              have hknown : ((run calls).nsQuotas key.ns).isSome = true :=
                Option.isSome_iff_ne_none.mpr fun hunknown => hknown (Option.isNone_iff_eq_none.mpr hunknown)
              show Function.update (run calls).keys key.id (some key) keyId = some found ↔ _
              by_cases heq : keyId = key.id
              · subst heq
                rw [Function.update_self, hmissing]
                constructor
                · intro h
                  cases h
                  exact Or.inr ⟨rfl, rfl, hquotas.mp hknown, rfl⟩
                · rintro (h | ⟨h, -⟩)
                  · cases h
                  · cases h
                    rfl
              · rw [Function.update_of_ne heq]
                refine (or_iff_left ?_).symm
                rintro ⟨h, hid, -⟩
                cases h
                exact heq hid.symm

/-! ## Answers -/

/-- A later call only ever disables a key. -/
theorem keys_run_append {keyId : String} {found : ApiKey} (h : (run calls).keys keyId = some found)
    (more : List Call) : ∃ disabled, (run (calls ++ more)).keys keyId = some { found with disabled } ∧
      (found.disabled = true → disabled = true) := by
  induction more using List.reverseRecOn with
  | nil => exact ⟨found.disabled, by rw [List.append_nil, h], fun hdisabled => hdisabled⟩
  | append_singleton more c ih =>
      obtain ⟨disabled, hkey, hstays⟩ := ih
      refine ⟨disabled || decide (c = .disableKey keyId), ?_, fun hdisabled => by rw [hstays hdisabled]; rfl⟩
      rw [← List.append_assoc, keys_run, holds_append_singleton]
      exact Or.inl ⟨_, (keys_run _ _ _).mp hkey, rfl⟩

/-- A key is authorized if it is there, enabled, of the namespace and of a role that permits the required
one. -/
theorem authorize_ok_iff {self : Access} {keyId ns : String} {required role : Role} :
    self.authorize keyId required ns = .ok role ↔ ∃ key, self.keys keyId = some key ∧ key.disabled = false ∧
      key.ns = ns ∧ key.role = role ∧ role.permits required = true := by
  constructor
  · intro h
    rw [authorize] at h
    split at h
    · cases h
    · rename_i key hkey
      split_ifs at h with hdisabled hns hpermits
      cases h
      exact ⟨key, hkey, by simpa using hdisabled, not_not.mp hns, rfl, by simpa using hpermits⟩
  · rintro ⟨key, hkey, hdisabled, rfl, rfl, hpermits⟩
    simp [authorize, hkey, hdisabled, hpermits]

/-- A key is reported as disabled exactly if it is there and is. -/
theorem authorize_disabled_iff {self : Access} {keyId ns : String} {required : Role} :
    self.authorize keyId required ns = .error (.keyDisabled keyId) ↔
      ∃ key, self.keys keyId = some key ∧ key.disabled = true := by
  constructor
  · intro h
    rw [authorize] at h
    split at h
    · cases h
    · rename_i key hkey
      split_ifs at h with hdisabled hns hpermits
      · exact ⟨key, hkey, hdisabled⟩
      · cases h
      · cases h
  · rintro ⟨key, hkey, hdisabled⟩
    simp [authorize, hkey, hdisabled]

/-- After any calls, `authorize` lets in exactly who was granted the key, for its namespace and what its role
permits, unless the key was disabled since; a key that is disabled stays so, and a key never comes to stand for
another role or namespace. -/
theorem authorize_iff_granted (calls : List Call) (keyId : String) :
    (∀ required role ns, (run calls).authorize keyId required ns = .ok role ↔
      ∃ key after, Granted calls key after ∧ key.id = keyId ∧ key.ns = ns ∧ key.role = role ∧
        role.permits required = true ∧ key.disabled = false ∧ .disableKey keyId ∉ after) ∧
    (∀ required ns, (run calls).authorize keyId required ns = .error (.keyDisabled keyId) →
      ∀ more required ns, (run (calls ++ more)).authorize keyId required ns = .error (.keyDisabled keyId)) ∧
    ∀ required role ns, (run calls).authorize keyId required ns = .ok role →
      ∀ more required' role' ns', (run (calls ++ more)).authorize keyId required' ns' = .ok role' →
        role' = role ∧ ns' = ns := by
  refine ⟨fun required role ns => ?_, fun required ns h more required' ns' => ?_,
    fun required role ns h more required' role' ns' h' => ?_⟩
  · rw [authorize_ok_iff]
    constructor
    · rintro ⟨found, hfound, hdisabled, hns, hrole, hpermits⟩
      obtain ⟨key, after, hgranted, hid, rfl⟩ := (keys_run calls keyId found).mp hfound
      simp only [Bool.or_eq_false_iff, decide_eq_false_iff_not] at hdisabled
      exact ⟨key, after, hgranted, hid, hns, hrole, hpermits, hdisabled.1, hdisabled.2⟩
    · rintro ⟨key, after, hgranted, hid, hns, hrole, hpermits, henabled, hkept⟩
      exact ⟨_, (keys_run calls keyId _).mpr ⟨key, after, hgranted, hid, rfl⟩, by simp [henabled, hkept], hns,
        hrole, hpermits⟩
  · obtain ⟨key, hkey, hdisabled⟩ := authorize_disabled_iff.mp h
    obtain ⟨disabled, hlater, hstays⟩ := keys_run_append hkey more
    exact authorize_disabled_iff.mpr ⟨_, hlater, hstays hdisabled⟩
  · obtain ⟨key, hkey, -, hns, hrole, -⟩ := authorize_ok_iff.mp h
    obtain ⟨disabled, hlater, -⟩ := keys_run_append hkey more
    obtain ⟨key', hkey', -, hns', hrole', -⟩ := authorize_ok_iff.mp h'
    rw [hlater] at hkey'
    cases hkey'
    exact ⟨hrole'.symm.trans hrole, hns'.symm.trans hns⟩

end Runs

end Access

end LiminalDB
