import LiminalDB.Foundations.Words

/-! # Separators

Rust's `str::split_once`, `str::trim_end_matches`, and what `str::trim` and `str::strip_prefix` do to a text
that is put together from known parts. A text that was joined by a separator is split again where it was
joined, if the separator does not begin in the part before it (`splitOnce_append`). -/

namespace LiminalDB

/-! ## Splitting -/

/-- The parts before and behind the first place where a separator stands. -/
def splitAtFirst (sep : List Char) : List Char → Option (List Char × List Char)
  | [] => if sep.isEmpty then some ([], []) else none
  | c :: l =>
      if sep.isPrefixOf (c :: l) then some ([], (c :: l).drop sep.length)
      else (splitAtFirst sep l).map fun parts => (c :: parts.1, parts.2)

/-- `str::split_once` -/
def splitOnce (s sep : String) : Option (String × String) :=
  (splitAtFirst sep.toList s.toList).map fun parts => (String.ofList parts.1, String.ofList parts.2)

/-- A separator does not stand anywhere in a text and what follows it, before the text ends. -/
def Clear (sep rest : List Char) : List Char → Prop
  | [] => True
  | c :: l => ¬ sep <+: c :: (l ++ rest) ∧ Clear sep rest l

/-- The first separator is found where it was put, if none begins earlier. -/
theorem splitAtFirst_append {sep before behind : List Char} (h : Clear sep (sep ++ behind) before) :
    splitAtFirst sep (before ++ (sep ++ behind)) = some (before, behind) := by
  induction before with
  | nil =>
      cases sep with
      | nil => cases behind <;> simp [splitAtFirst]
      | cons d sep =>
          have hprefix : (d :: sep).isPrefixOf (d :: (sep ++ behind)) = true :=
            List.isPrefixOf_iff_prefix.mpr ⟨behind, rfl⟩
          rw [List.nil_append, List.cons_append, splitAtFirst, if_pos hprefix, ← List.cons_append, List.drop_left]
  | cons c before ih =>
      obtain ⟨hhere, hlater⟩ := h
      rw [List.cons_append, splitAtFirst, if_neg (mt List.isPrefixOf_iff_prefix.mp hhere), ih hlater]
      rfl

/-- The first character of a separator is not in the text. -/
theorem clear_of_head {d : Char} {sep rest before : List Char} (h : d ∉ before) :
    Clear (d :: sep) rest before := by
  induction before with
  | nil => trivial
  | cons c before ih =>
      obtain ⟨hne, hmem⟩ := not_or.mp (mt List.mem_cons.mpr h)
      refine ⟨?_, ih hmem⟩
      intro hprefix
      exact hne (List.cons_prefix_cons.mp hprefix).1

/-- The second character of a separator of two is not in the text, nor does the separator start with it. -/
theorem clear_of_second {d e : Char} {behind before : List Char} (hne : d ≠ e) (h : e ∉ before) :
    Clear [d, e] ([d, e] ++ behind) before := by
  induction before with
  | nil => trivial
  | cons c before ih =>
      have hmem : e ∉ before := fun he => h (List.mem_cons_of_mem c he)
      refine ⟨?_, ih hmem⟩
      intro hprefix
      have hrest := (List.cons_prefix_cons.mp hprefix).2
      -- What follows is the text again, or the separator.
      cases before with
      | nil => exact hne (List.cons_prefix_cons.mp hrest).1.symm
      | cons c' before => exact hmem ((List.cons_prefix_cons.mp hrest).1 ▸ List.mem_cons_self)

/-- A text that was joined is split where it was joined. -/
theorem splitOnce_append {before sep behind : String}
    (h : Clear sep.toList (sep.toList ++ behind.toList) before.toList) :
    splitOnce (before ++ sep ++ behind) sep = some (before, behind) := by
  rw [splitOnce, String.toList_append, String.toList_append, List.append_assoc, splitAtFirst_append h]
  simp

/-- A text is split at a separator whose first character does not stand before it. -/
theorem splitOnce_of_head {before sep behind : String} {d : Char} (hsep : sep.toList.head? = some d)
    (h : d ∉ before.toList) : splitOnce (before ++ sep ++ behind) sep = some (before, behind) := by
  obtain ⟨rest, hrest⟩ := List.head?_eq_some_iff.mp hsep
  apply splitOnce_append
  rw [hrest]
  exact clear_of_head h

/-- It is also split at one of two characters whose second does not stand before it. -/
theorem splitOnce_of_second {before sep behind : String} {d e : Char} (hsep : sep.toList = [d, e]) (hne : d ≠ e)
    (h : e ∉ before.toList) : splitOnce (before ++ sep ++ behind) sep = some (before, behind) := by
  apply splitOnce_append
  rw [hsep]
  exact clear_of_second hne h

/-! ## Prefixes -/

/-- A prefix that was put in front is stripped off. -/
@[simp] theorem stripPrefix_append (pattern rest : String) :
    stripPrefix (pattern ++ rest) pattern = some rest := by
  simp [stripPrefix]

/-- A text that starts with something else. -/
theorem stripPrefix_eq_none {pattern first rest : String} (h : ¬ pattern.toList <+: first.toList)
    (h' : ¬ first.toList <+: pattern.toList) : stripPrefix (first ++ rest) pattern = none := by
  rw [stripPrefix, if_neg]
  intro hprefix
  have hpattern := List.isPrefixOf_iff_prefix.mp hprefix
  rw [String.toList_append] at hpattern
  exact (List.prefix_or_prefix_of_prefix hpattern (List.prefix_append _ _)).elim h h'

/-- A text that starts with another character. -/
theorem stripPrefix_of_head {s pattern : String} {c d : Char} (hs : s.toList.head? = some c)
    (hpattern : pattern.toList.head? = some d) (hne : d ≠ c) : stripPrefix s pattern = none := by
  obtain ⟨rest, hrest⟩ := List.head?_eq_some_iff.mp hs
  obtain ⟨tail, htail⟩ := List.head?_eq_some_iff.mp hpattern
  rw [stripPrefix, if_neg]
  intro hprefix
  rw [hrest, htail] at hprefix
  exact hne (List.cons_prefix_cons.mp (List.isPrefixOf_iff_prefix.mp hprefix)).1

/-! ## Numbers -/

/-- A number in decimal has digits only. -/
theorem isDigit_of_mem_repr {n : ℕ} {c : Char} (h : c ∈ n.repr.toList) : c.isDigit = true := by
  rw [Nat.toList_repr] at h
  exact Nat.isDigit_of_mem_toDigits (by decide) (by decide) h

/-- A character that is no digit is not in a number. -/
theorem notMem_repr {c : Char} (h : c.isDigit = false) (n : ℕ) : c ∉ n.repr.toList := by
  intro hc
  rw [isDigit_of_mem_repr hc] at h
  cases h

/-! ## Ends -/

/-- `str::trim_end_matches`, for a pattern that is not empty: each match takes a character. -/
def trimEndMatches (value pattern : String) : String :=
  String.ofList (dropPrefixes pattern.toList.reverse value.toList.length value.toList.reverse).reverse

/-- Where the pattern does not stand at the beginning, nothing is dropped. -/
theorem dropPrefixes_of_not_prefix {pattern chars : List Char} (h : ¬ pattern <+: chars) (n : ℕ) :
    dropPrefixes pattern n chars = chars := by
  cases n with
  | zero => rfl
  | succ n => rw [dropPrefixes, if_neg (mt List.isPrefixOf_iff_prefix.mp h)]

/-- Nor where it does not stand at the end. -/
theorem trimEndMatches_eq_self {value pattern : String} (h : ¬ pattern.toList <:+ value.toList) :
    trimEndMatches value pattern = value := by
  have hreverse : ¬ pattern.toList.reverse <+: value.toList.reverse := mt List.reverse_prefix.mp h
  rw [trimEndMatches, dropPrefixes_of_not_prefix hreverse, List.reverse_reverse, String.ofList_toList]

/-- One match is taken away, if there is no other before it. -/
theorem trimEndMatches_append {value pattern : String} (hne : pattern.toList ≠ [])
    (h : ¬ pattern.toList <:+ value.toList) : trimEndMatches (value ++ pattern) pattern = value := by
  have hreverse : ¬ pattern.toList.reverse <+: value.toList.reverse := mt List.reverse_prefix.mp h
  obtain ⟨n, hlength⟩ := Nat.exists_eq_succ_of_ne_zero (n := (value ++ pattern).toList.length) (by simp [hne])
  have hprefix : pattern.toList.reverse.isPrefixOf (value ++ pattern).toList.reverse = true := by
    apply List.isPrefixOf_iff_prefix.mpr
    simp
  rw [trimEndMatches, hlength, dropPrefixes, if_pos hprefix, String.toList_append, List.reverse_append,
    List.drop_left, dropPrefixes_of_not_prefix hreverse, List.reverse_reverse, String.ofList_toList]

/-- A text stays as it is if it is not empty and no white space is at its ends. -/
theorem trim_eq_self {s : String} (hfirst : ∀ c ∈ s.toList.head?, isWhitespace c = false)
    (hlast : ∀ c ∈ s.toList.getLast?, isWhitespace c = false) : trim s = s := by
  have hleft : s.toList.dropWhile isWhitespace = s.toList := by
    cases hs : s.toList with
    | nil => rfl
    | cons c l =>
        rw [hs] at hfirst
        exact List.dropWhile_cons_of_neg (by simpa using hfirst c rfl)
  have hright : s.toList.rdropWhile isWhitespace = s.toList := by
    rw [List.rdropWhile_eq_self_iff]
    intro hne
    simpa using hlast _ (List.getLast?_eq_some_getLast hne)
  rw [trim, hleft, hright, String.ofList_toList]

/-- What a text begins with, unless it is white space, it begins with when it is stripped. -/
theorem head?_trim {s : String} {c : Char} (hhead : s.toList.head? = some c) (hsolid : isWhitespace c = false) :
    (trim s).toList.head? = some c := by
  obtain ⟨rest, hrest⟩ := List.head?_eq_some_iff.mp hhead
  have hleft : s.toList.dropWhile isWhitespace = s.toList := by
    rw [hrest]
    exact List.dropWhile_cons_of_neg (by simp [hsolid])
  have hne : s.toList.rdropWhile isWhitespace ≠ [] := by
    rw [Ne, List.rdropWhile_eq_nil_iff, hrest]
    intro hall
    simpa [hsolid] using hall c List.mem_cons_self
  have hprefix : s.toList.rdropWhile isWhitespace <+: s.toList := List.rdropWhile_prefix _ _
  rw [trim, String.toList_ofList, hleft, ← hhead, List.head?_eq_some_head hne, hprefix.head hne,
    ← List.head?_eq_some_head]

/-- A text without blanks is not shortened by trimming. -/
theorem trim_of_solid {s : String} (h : ∀ c ∈ s.toList, isWhitespace c = false) : trim s = s := by
  apply trim_eq_self
  · intro c hc
    exact h c (List.mem_of_head? hc)
  · intro c hc
    exact h c (List.mem_of_getLast? hc)

/-- A text that begins with something else than white space. -/
def StartsSolid (s : String) : Prop := ∃ c ∈ s.toList.head?, isWhitespace c = false

/-- A text that ends with something else than white space. -/
def EndsSolid (s : String) : Prop := ∃ c ∈ s.toList.getLast?, isWhitespace c = false

/-- What starts with something other than a blank does so whatever follows. -/
theorem StartsSolid.append {s : String} (h : StartsSolid s) (t : String) : StartsSolid (s ++ t) := by
  obtain ⟨c, hc, hsolid⟩ := h
  refine ⟨c, ?_, hsolid⟩
  rw [String.toList_append, List.head?_append, hc]
  rfl

/-- What ends with something other than a blank does so whatever stands before it. -/
theorem EndsSolid.append {t : String} (h : EndsSolid t) (s : String) : EndsSolid (s ++ t) := by
  obtain ⟨c, hc, hsolid⟩ := h
  refine ⟨c, ?_, hsolid⟩
  rw [String.toList_append, List.getLast?_append, hc]
  rfl

/-- A word ends with one of its characters, which is no blank. -/
theorem IsWord.endsSolid {w : String} (h : IsWord w) : EndsSolid w :=
  ⟨w.toList.getLast h.ne_nil, List.getLast?_eq_some_getLast h.ne_nil, h.solid _ (List.getLast_mem h.ne_nil)⟩

/-- A text that has no blank at either end is not shortened, even if there are blanks in it. -/
theorem trim_of_ends {s : String} (hfirst : StartsSolid s) (hlast : EndsSolid s) : trim s = s := by
  obtain ⟨c, hc, hsolid⟩ := hfirst
  obtain ⟨d, hd, hsolid'⟩ := hlast
  apply trim_eq_self
  · intro c' hc'
    rwa [Option.mem_unique hc' hc]
  · intro d' hd'
    rwa [Option.mem_unique hd' hd]

end LiminalDB
