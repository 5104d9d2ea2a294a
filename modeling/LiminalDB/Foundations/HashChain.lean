import Mathlib.Data.List.Chain
import Mathlib.Tactic.Common

/-! # Hash chains

Every entry of a chain names the hash of the one before it, and the first names nothing. The hash of
the last entry is the head. Where no two different entries share a hash, the head determines the
whole chain, of whatever length.

A chain need not be given from its first entry on. `eq_behind_of_hash_eq` is about two lists whose
entries name their predecessors and which share one entry, at whatever positions: behind it they
cannot fork. -/

namespace LiminalDB

variable {E H : Type*}

/-- `Chain prev hash es head`: the entries `es`, each with its predecessor's hash in `prev`, end in
`head`. -/
inductive Chain (prev : E → Option H) (hash : E → H) : List E → Option H → Prop
  /-- The empty chain has no head. -/
  | nil : Chain prev hash [] none
  /-- An entry extends the chain whose head it names. -/
  | snoc {es : List E} {e : E} : Chain prev hash es (prev e) →
      Chain prev hash (es ++ [e]) (some (hash e))

/-- **The head commits to the chain.** -/
theorem Chain.eq_of_head_eq {prev : E → Option H} {hash : E → H} {es es' : List E}
    {head : Option H} (h : Chain prev hash es head) (h' : Chain prev hash es' head)
    (hinj : ∀ e ∈ es, ∀ e' ∈ es', hash e = hash e' → e = e') : es = es' := by
  -- backwards along the first chain; the second one is determined entry by entry
  induction h generalizing es' with
  | nil =>
      cases h'
      rfl
  | @snoc es e htail ih =>
      generalize hhead : some (hash e) = head at h'
      cases h' with
      | nil => cases hhead
      | @snoc es' e' htail' =>
          have hee : e = e' := hinj e (by simp) e' (by simp) (Option.some.inj hhead)
          subst hee
          rw [ih htail' fun a ha b hb => hinj a (List.mem_append_left _ ha) b
            (List.mem_append_left _ hb)]

/-- **No fork behind a shared entry.** Two linked lists with entries of equal hash at `i` and `j`
agree on what is hashed, going back from there as far as both reach. -/
theorem eq_behind_of_hash_eq {B : Type*} (body : E → B) (hash : E → H) {prev : B → Option H}
    {es es' : List E}
    (h : es.IsChain fun previous current => prev (body current) = some (hash previous))
    (h' : es'.IsChain fun previous current => prev (body current) = some (hash previous))
    (hinj : ∀ e ∈ es, ∀ e' ∈ es', hash e = hash e' → body e = body e') {i j : Nat}
    (hij : ∃ e e', es[i]? = some e ∧ es'[j]? = some e' ∧ hash e = hash e') {d : Nat} (hi : d ≤ i)
    (hj : d ≤ j) :
    ∃ e e', es[i - d]? = some e ∧ es'[j - d]? = some e' ∧ hash e = hash e' ∧ body e = body e' := by
  induction d with
  | zero =>
      obtain ⟨e, e', he, he', hhash⟩ := hij
      exact ⟨e, e', he, he', hhash,
        hinj e (List.mem_of_getElem? he) e' (List.mem_of_getElem? he') hhash⟩
  | succ d ih =>
      obtain ⟨e, e', he, he', -, hbody⟩ := ih (by omega) (by omega)
      obtain ⟨hlt, rfl⟩ := List.getElem?_eq_some_iff.mp he
      obtain ⟨hlt', rfl⟩ := List.getElem?_eq_some_iff.mp he'
      -- the equal bodies name the hash of the entry before, in both lists
      have hprev := List.isChain_iff_getElem.mp h (i - (d + 1)) (by omega)
      have hprev' := List.isChain_iff_getElem.mp h' (j - (d + 1)) (by omega)
      simp only [show i - (d + 1) + 1 = i - d by omega, show j - (d + 1) + 1 = j - d by omega]
        at hprev hprev'
      rw [hbody, hprev'] at hprev
      have hhash := (Option.some.inj hprev).symm
      exact ⟨_, _, List.getElem?_eq_getElem _, List.getElem?_eq_getElem _, hhash,
        hinj _ (List.getElem_mem _) _ (List.getElem_mem _) hhash⟩

end LiminalDB
