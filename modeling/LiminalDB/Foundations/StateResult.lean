import Mathlib.Tactic.Common

/-! # In-place mutation with early exits

A function that mutates its state in place and may return early with an error is modelled as
`EStateM ε σ α`: an error result keeps whatever the body had already written, so "a rejected call
changes nothing" is a theorem about the body and not a feature of the model.

* `bind_eq_ok` and its companions invert a successful run, one statement at a time; the `result_`
  lemmas and `forM_eq_ok` do the same for checks that have no state.
* `ReadOnly m`: the computation never writes.
* `Raises P r` and `RaisesFrom P m s` bound the errors a result or a computation can have.
* `Atomic m`: an error leaves the state as it was. It holds when the body first reads and checks
  and then commits by total writes (`Atomic.bind_readOnly`, `Atomic.bind_total`). -/

namespace LiminalDB

universe u

variable {ε σ α β : Type u}

/-- The `?` operator: continue with the value of a pure result or return its error. -/
def ofResult : Except ε α → EStateM ε σ α
  | .ok a => pure a
  | .error e => throw e

/-! ## Inverting a pure result -/

/-- A sequence of pure checks succeeds exactly when both parts do. -/
theorem result_bind_eq_ok {r : Except ε α} {f : α → Except ε β} {b : β} :
    (r >>= f) = .ok b ↔ ∃ a, r = .ok a ∧ f a = .ok b := by
  cases r with
  | ok a => simp [bind, Except.bind]
  | error e => simp [bind, Except.bind]

/-- `if c { return Err(e) }` -/
def failIf (c : Prop) [Decidable c] (e : ε) : Except ε PUnit :=
  if c then .error e else .ok PUnit.unit

/-- The check passes exactly when the condition does not hold. -/
@[simp] theorem failIf_eq_ok {c : Prop} [Decidable c] {e : ε} {u : PUnit} :
    failIf c e = .ok u ↔ ¬ c := by
  by_cases h : c <;> simp [failIf, h]

/-- `Option::ok_or_else` -/
def okOr (o : Option α) (e : ε) : Except ε α :=
  match o with
  | some a => .ok a
  | none => .error e

/-- There is a value exactly when the option has it. -/
@[simp] theorem okOr_eq_ok {o : Option α} {e : ε} {a : α} : okOr o e = .ok a ↔ o = some a := by
  cases o <;> simp [okOr]

/-- `map_err` changes no success. -/
@[simp] theorem mapError_eq_ok {ε' : Type u} {r : Except ε α} {f : ε → ε'} {a : α} :
    r.mapError f = .ok a ↔ r = .ok a := by
  cases r <;> simp [Except.mapError]

/-- A `for` loop of checks succeeds exactly when every check does. -/
theorem forM_eq_ok {γ : Type*} {l : List γ} {f : γ → Except ε PUnit.{u + 1}} {u : PUnit} :
    l.forM f = .ok u ↔ ∀ a ∈ l, f a = .ok PUnit.unit := by
  induction l with
  | nil => exact iff_of_true rfl (by simp)
  | cons a l ih =>
      rw [show (a :: l).forM f = (f a >>= fun _ => l.forM f) from rfl, result_bind_eq_ok,
        List.forall_mem_cons, ← ih]
      exact ⟨fun ⟨_, ha, hl⟩ => ⟨ha, hl⟩, fun ⟨ha, hl⟩ => ⟨_, ha, hl⟩⟩

/-! ## Inverting a successful run -/

/-- A sequence succeeds exactly when its first part does and the rest succeeds from there. -/
theorem bind_eq_ok {m : EStateM ε σ α} {f : α → EStateM ε σ β} {s s' : σ} {b : β} :
    (m >>= f) s = .ok b s' ↔ ∃ a t, m s = .ok a t ∧ f a t = .ok b s' := by
  show EStateM.bind m f s = _ ↔ _
  unfold EStateM.bind
  cases h : m s with
  | ok a t => simp
  | error e t => simp

/-- Returning a value succeeds with this value, in the state that it finds. -/
@[simp] theorem pure_eq_ok {a b : α} {s s' : σ} :
    (pure a : EStateM ε σ α) s = .ok b s' ↔ a = b ∧ s = s' := by
  show EStateM.Result.ok a s = .ok b s' ↔ _
  simp

/-- Raising an error never succeeds. -/
@[simp] theorem throw_eq_ok {e : ε} {b : α} {s s' : σ} :
    (throw e : EStateM ε σ α) s = .ok b s' ↔ False := by
  show EStateM.Result.error e s = .ok b s' ↔ False
  simp

/-- Reading the state succeeds with the state, and leaves it. -/
@[simp] theorem get_eq_ok {b s s' : σ} :
    (get : EStateM ε σ σ) s = .ok b s' ↔ s = b ∧ s = s' := by
  show EStateM.Result.ok s s = .ok b s' ↔ _
  simp

/-- Changing the state succeeds, in the changed one. -/
@[simp] theorem modify_eq_ok {g : σ → σ} {u : PUnit} {s s' : σ} :
    (modify g : EStateM ε σ PUnit) s = .ok u s' ↔ g s = s' := by
  show EStateM.Result.ok PUnit.unit (g s) = .ok u s' ↔ _
  simp

/-- A pure result succeeds in a computation exactly when it is one, and leaves the state. -/
@[simp] theorem ofResult_eq_ok {r : Except ε α} {b : α} {s s' : σ} :
    (ofResult r : EStateM ε σ α) s = .ok b s' ↔ r = .ok b ∧ s = s' := by
  cases r with
  | ok a => simp [ofResult]
  | error e => simp [ofResult]

/-! ## Running the primitive operations -/

/-- Running a read gives the state that it ran from. -/
theorem get_run (s : σ) : (get : EStateM ε σ σ) s = .ok s s := rfl

/-- Running a change gives the changed state. -/
theorem modify_run (g : σ → σ) (s : σ) : (modify g : EStateM ε σ PUnit) s = .ok PUnit.unit (g s) := rfl

/-- A sequence whose first part is known to succeed runs the rest from there. -/
theorem bind_run {m : EStateM ε σ α} {f : α → EStateM ε σ β} {s t : σ} {a : α} (h : m s = .ok a t) :
    (m >>= f) s = f a t := by
  show EStateM.bind m f s = _
  unfold EStateM.bind
  rw [h]

/-- Running an error raises it in the state that it ran from. -/
theorem throw_run (e : ε) (s : σ) : (throw e : EStateM ε σ α) s = .error e s := rfl

/-! ## Computations that do not write -/

/-- The computation never writes: whatever it returns, the state is the one it started from. -/
def ReadOnly (m : EStateM ε σ α) : Prop :=
  ∀ s, (∀ a t, m s = .ok a t → t = s) ∧ ∀ e t, m s = .error e t → t = s

/-- Returning a value writes nothing. -/
theorem ReadOnly.pure (a : α) : ReadOnly (pure a : EStateM ε σ α) := by
  intro s
  refine ⟨fun b t h => ?_, fun e t h => ?_⟩
  · exact ((pure_eq_ok.mp h).2).symm
  · cases h

/-- Raising an error writes nothing. -/
theorem ReadOnly.throw (e : ε) : ReadOnly (throw e : EStateM ε σ α) := by
  intro s
  refine ⟨fun b t h => (throw_eq_ok.mp h).elim, fun e' t h => ?_⟩
  cases h; rfl

/-- Reading the state writes nothing. -/
theorem ReadOnly.get : ReadOnly (get : EStateM ε σ σ) := by
  intro s
  refine ⟨fun b t h => ?_, fun e t h => ?_⟩
  · exact ((get_eq_ok.mp h).2).symm
  · cases h

/-- A pure result, be it a value or an error, writes nothing. -/
theorem ReadOnly.ofResult (r : Except ε α) : ReadOnly (ofResult r : EStateM ε σ α) := by
  cases r with
  | ok a => exact ReadOnly.pure a
  | error e => exact ReadOnly.throw e

/-! ## Computations that commit at the end -/

/-- An error leaves the state exactly as it was before the call. -/
def Atomic (m : EStateM ε σ α) : Prop :=
  ∀ s e t, m s = .error e t → t = s

/-- The computation cannot fail. -/
def Total (m : EStateM ε σ α) : Prop :=
  ∀ s e t, m s ≠ .error e t

/-- Changing the state cannot fail. -/
theorem Total.modify (g : σ → σ) : Total (modify g : EStateM ε σ PUnit) := by
  intro s e t h
  cases h

/-- What cannot fail has no error that could leave the state half changed. -/
theorem Total.atomic {m : EStateM ε σ α} (h : Total m) : Atomic m :=
  fun s e t he => absurd he (h s e t)

/-- Reading and checking first: the error of either part is raised on the untouched state. -/
theorem Atomic.bind_readOnly {m : EStateM ε σ α} {f : α → EStateM ε σ β} (hm : ReadOnly m)
    (hf : ∀ a, Atomic (f a)) : Atomic (m >>= f) := by
  intro s e t h
  change EStateM.bind m f s = _ at h
  unfold EStateM.bind at h
  cases hms : m s with
  | ok a s' =>
      rw [hms] at h
      have hs : s' = s := (hm s).1 a s' hms
      rw [hs] at h
      exact hf a s e t h
  | error e' s' =>
      rw [hms] at h
      cases h
      exact (hm s).2 e t hms

/-- Committing last: once the atomic part has succeeded nothing after it can fail. -/
theorem Atomic.bind_total {m : EStateM ε σ α} {f : α → EStateM ε σ β} (hm : Atomic m)
    (hf : ∀ a, Total (f a)) : Atomic (m >>= f) := by
  intro s e t h
  change EStateM.bind m f s = _ at h
  unfold EStateM.bind at h
  cases hms : m s with
  | ok a s' =>
      rw [hms] at h
      exact absurd h (hf a s' e t)
  | error e' s' =>
      rw [hms] at h
      cases h
      exact hm s e t hms

/-- A choice between two atomic computations is atomic. -/
theorem Atomic.ite {c : Prop} [Decidable c] {m n : EStateM ε σ α} (hm : Atomic m)
    (hn : Atomic n) : Atomic (if c then m else n) := by
  by_cases h : c
  · simpa [h] using hm
  · simpa [h] using hn

/-! ## Which errors can be raised -/

/-- Every error of the result satisfies `P`. -/
def Raises (P : ε → Prop) (r : Except ε α) : Prop := ∀ e, r = .error e → P e

/-- Every error the computation can raise from `s` satisfies `P`. -/
def RaisesFrom (P : ε → Prop) (m : EStateM ε σ α) (s : σ) : Prop := ∀ e t, m s = .error e t → P e

section Raises

variable {P : ε → Prop} {s : σ}

/-- A success raises nothing. -/
theorem Raises.ok (a : α) : Raises P (.ok a : Except ε α) := nofun

/-- A result that is known to be a success raises nothing. -/
theorem Raises.of_ok {r : Except ε α} {a : α} (h : r = .ok a) : Raises P r := by
  rw [h]
  exact .ok a

/-- A check raises its own error and no other. -/
theorem Raises.failIf {c : Prop} [Decidable c] {e : ε} (h : c → P e) : Raises P (failIf c e) := by
  intro e' he
  unfold LiminalDB.failIf at he
  split at he
  · cases he
    exact h ‹c›
  · cases he

/-- A missing value raises its own error and no other. -/
theorem Raises.okOr {o : Option α} {e : ε} (h : o = none → P e) : Raises P (okOr o e) := by
  intro e' he
  cases o with
  | none =>
      cases he
      exact h rfl
  | some a => cases he

/-- A sequence raises what its first part does, or what the rest does behind a success of it. -/
theorem Raises.bind {r : Except ε α} {f : α → Except ε β} (hr : Raises P r)
    (hf : ∀ a, r = .ok a → Raises P (f a)) : Raises P (r >>= f) := by
  intro e he
  cases hra : r with
  | ok a =>
      rw [hra] at he
      exact hf a hra e he
  | error e' =>
      rw [hra] at he
      cases he
      exact hr e hra

/-- A loop of checks raises what one of them does. -/
theorem Raises.forM {γ : Type*} {l : List γ} {f : γ → Except ε PUnit.{u + 1}}
    (h : ∀ a ∈ l, Raises P (f a)) : Raises P (l.forM f) := by
  induction l with
  | nil => exact .ok _
  | cons a l ih =>
      exact .bind (h a List.mem_cons_self) fun _ _ =>
        ih fun b hb => h b (List.mem_cons_of_mem _ hb)

/-- The same of a pure result and the computation behind it. -/
theorem RaisesFrom.bind_result {r : Except ε α} {f : α → EStateM ε σ β} (hr : Raises P r)
    (hf : ∀ a, r = .ok a → RaisesFrom P (f a) s) : RaisesFrom P (ofResult r >>= f) s := by
  intro e t h
  cases hra : r with
  | ok a =>
      rw [hra] at h
      exact hf a hra e t h
  | error e' =>
      rw [hra] at h
      cases h
      exact hr e hra

/-- A computation behind a read raises what it does with the state it runs from. -/
theorem RaisesFrom.bind_get {f : σ → EStateM ε σ β} (hf : RaisesFrom P (f s) s) :
    RaisesFrom P (get >>= f) s := hf

/-- Changing the state raises nothing. -/
theorem RaisesFrom.modify (g : σ → σ) : RaisesFrom P (modify g : EStateM ε σ PUnit) s := nofun

/-- Nothing is raised behind a computation but what it raises itself. -/
theorem RaisesFrom.bind_total {m : EStateM ε σ α} {f : α → EStateM ε σ β} (hm : RaisesFrom P m s)
    (hf : ∀ a, Total (f a)) : RaisesFrom P (m >>= f) s := by
  intro e t h
  change EStateM.bind m f s = _ at h
  unfold EStateM.bind at h
  cases hms : m s with
  | ok a s' =>
      rw [hms] at h
      exact absurd h (hf a s' e t)
  | error e' s' =>
      rw [hms] at h
      cases h
      exact hm e t hms

end Raises

end LiminalDB
