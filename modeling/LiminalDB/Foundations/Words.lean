import LiminalDB.Foundations.Text

/-! # Words and numbers in text

Rust's `str::split_whitespace`, `str::trim_matches`, `str::strip_prefix`, `str::eq_ignore_ascii_case` and the
parsing of unsigned integers. What a text is split into does not depend on the white space between its
words: joined words are split again (`splitWhitespace_intercalate`). -/

namespace LiminalDB

/-! ## Words -/

/-- The parts between white space that are not empty. -/
def words (chars : List Char) : List (List Char) := (chars.splitOnP isWhitespace).filter (· ≠ [])

/-- `str::split_whitespace` -/
def splitWhitespace (s : String) : List String := (words s.toList).map String.ofList

/-- A word: not empty, and without white space. -/
structure IsWord (w : String) : Prop where
  ne_nil : w.toList ≠ []
  solid : ∀ c ∈ w.toList, isWhitespace c = false

/-- Being a word can be evaluated: there is a character, and none is a blank. -/
theorem isWord_iff {w : String} :
    IsWord w ↔ w.toList ≠ [] ∧ w.toList.all (fun c => !isWhitespace c) = true := by
  constructor
  · intro h
    exact ⟨h.ne_nil, by simpa using h.solid⟩
  · rintro ⟨hne, hsolid⟩
    exact ⟨hne, by simpa using hsolid⟩

instance (w : String) : Decidable (IsWord w) := decidable_of_iff _ isWord_iff.symm

/-- A word goes on with any text that has no blanks. -/
theorem IsWord.append {v w : String} (hv : IsWord v) (hw : ∀ c ∈ w.toList, isWhitespace c = false) :
    IsWord (v ++ w) := by
  constructor
  · simp [hv.ne_nil]
  · intro c hc
    rw [String.toList_append, List.mem_append] at hc
    exact hc.elim (hv.solid c) (hw c)

/-- `str::trim_matches`, for a predicate. -/
def trimMatches (p : Char → Bool) (s : String) : String :=
  String.ofList ((s.toList.dropWhile p).rdropWhile p)

/-- `str::strip_prefix` -/
def stripPrefix (s pattern : String) : Option String :=
  if pattern.toList.isPrefixOf s.toList then some (String.ofList (s.toList.drop pattern.toList.length))
  else none

/-- `str::eq_ignore_ascii_case` -/
def eqIgnoreAsciiCase (s t : String) : Bool := s.toList.map Char.toLower = t.toList.map Char.toLower

/-- `str::parse` to an unsigned integer: a `+` may stand before the digits, and the value has to fit. -/
def parseUnsigned (bits : ℕ) (raw : String) : Option ℕ :=
  let digits := if raw.toList.head? = some '+' then raw.toList.tail else raw.toList
  if digits = [] then none
  else if digits.all Char.isDigit then
    let value := Nat.ofDigitChars 10 digits 0
    if value < 2 ^ bits then some value else none
  else none

section Words

variable {c : Char} {l m : List Char}

/-- A blank ends the word before it, and what follows is split on its own. -/
theorem words_append_cons (hc : isWhitespace c = true) (l m : List Char) :
    words (l ++ c :: m) = words l ++ words m := by
  rw [words, List.splitOnP_append_cons _ _ hc, List.filter_append]
  rfl

/-- Characters without a blank are one word. -/
theorem words_eq_singleton (hne : l ≠ []) (h : ∀ c ∈ l, isWhitespace c = false) : words l = [l] := by
  rw [words, List.splitOnP_eq_singleton h]
  simp [hne]

/-- An empty text has no words. -/
@[simp] theorem words_nil : words [] = [] := rfl

/-- Blanks at the beginning make no difference to the words of a text. -/
theorem words_dropWhile (l : List Char) : words (l.dropWhile isWhitespace) = words l := by
  induction l with
  | nil => rfl
  | cons c l ih =>
      by_cases hc : isWhitespace c = true
      · have hsplit := words_append_cons hc [] l
        rw [List.nil_append, words_nil, List.nil_append] at hsplit
        rw [List.dropWhile_cons_of_pos hc, ih, hsplit]
      · rw [List.dropWhile_cons_of_neg hc]

/-- Nor do blanks at its end. -/
theorem words_rdropWhile (l : List Char) : words (l.rdropWhile isWhitespace) = words l := by
  induction l using List.reverseRecOn with
  | nil => rfl
  | append_singleton l c ih =>
      by_cases hc : isWhitespace c = true
      · rw [List.rdropWhile_concat_pos _ _ _ hc, ih, words_append_cons hc, words_nil, List.append_nil]
      · rw [List.rdropWhile_concat_neg _ _ _ hc]

/-- The ends of a text do not matter. -/
theorem splitWhitespace_trim (s : String) : splitWhitespace (trim s) = splitWhitespace s := by
  rw [splitWhitespace, trim, String.toList_ofList, words_rdropWhile, words_dropWhile]
  rfl

/-- Two texts with a blank between them have the words of the first and then those of the second. -/
theorem splitWhitespace_append (s t : String) :
    splitWhitespace (s ++ " " ++ t) = splitWhitespace s ++ splitWhitespace t := by
  have hblank : " ".toList = [' '] := rfl
  have hspace : isWhitespace ' ' = true := by decide
  rw [splitWhitespace, String.toList_append, String.toList_append, hblank, List.append_assoc,
    List.singleton_append, words_append_cons hspace, List.map_append]
  rfl

/-- A word is split into itself alone. -/
theorem IsWord.splitWhitespace {w : String} (h : IsWord w) : splitWhitespace w = [w] := by
  rw [LiminalDB.splitWhitespace, words_eq_singleton h.ne_nil h.solid]
  simp

/-- Words that are joined by blanks are split again. -/
theorem splitWhitespace_intercalate {ws : List String} (h : ∀ w ∈ ws, IsWord w) :
    splitWhitespace (" ".intercalate ws) = ws := by
  induction ws with
  | nil => rfl
  | cons w ws ih =>
      have hw := (h w List.mem_cons_self).splitWhitespace
      have hrest := ih fun v hv => h v (List.mem_cons_of_mem _ hv)
      -- Only between two words there is a blank.
      cases ws with
      | nil => exact hw
      | cons v ws => rw [String.intercalate_cons_cons, splitWhitespace_append, hw, hrest, List.singleton_append]

/-- The pieces between blanks have no blanks in them. -/
theorem solid_of_mem_splitOnP {part : List Char} (h : part ∈ l.splitOnP isWhitespace) :
    ∀ c ∈ part, isWhitespace c = false := by
  induction l generalizing part with
  | nil =>
      obtain rfl := List.mem_singleton.mp h
      simp
  | cons c l ih =>
      rw [List.splitOnP_cons_eq_if_modifyHead] at h
      split_ifs at h with hc
      · rcases List.mem_cons.mp h with rfl | hrest
        · simp
        · exact ih hrest
      · obtain ⟨first, rest, hsplit⟩ := List.exists_cons_of_ne_nil (List.splitOnP_ne_nil isWhitespace l)
        rw [hsplit] at h ih
        rcases List.mem_cons.mp h with rfl | hrest
        · exact List.forall_mem_cons.mpr ⟨by simpa using hc, ih List.mem_cons_self⟩
        · exact ih (List.mem_cons_of_mem _ hrest)

/-- A text is split into words. -/
theorem isWord_of_mem_splitWhitespace {s w : String} (h : w ∈ splitWhitespace s) : IsWord w := by
  obtain ⟨part, hpart, rfl⟩ := List.mem_map.mp h
  obtain ⟨hmem, hne⟩ := List.mem_filter.mp hpart
  constructor
  · simpa using hne
  · simpa using solid_of_mem_splitOnP hmem

end Words

/-! ## ASCII letters -/

/-- The capital letters are those from 65 to 90. -/
theorem isUpper_iff_toNat (c : Char) : c.isUpper = true ↔ 65 ≤ c.toNat ∧ c.toNat ≤ 90 := by
  show decide (c.val ≥ 'A'.val ∧ c.val ≤ 'Z'.val) = true ↔ _
  simp [UInt32.le_iff_toNat_le]

/-- Lowering moves a capital letter by 32 places and leaves every other character. -/
theorem toNat_toLower (c : Char) :
    c.toLower.toNat = if 65 ≤ c.toNat ∧ c.toNat ≤ 90 then c.toNat + 32 else c.toNat := by
  have hbounds : (c.val ≥ 'A'.val ∧ c.val ≤ 'Z'.val) ↔ 65 ≤ c.toNat ∧ c.toNat ≤ 90 := by
    simp [UInt32.le_iff_toNat_le]
  unfold Char.toLower
  split_ifs with h hc hc
  · have hfits : c.toNat + 32 < 2 ^ 32 := by omega
    show (c.val + ('a'.val - 'A'.val)).toNat = c.toNat + 32
    rw [UInt32.toNat_add]
    exact Nat.mod_eq_of_lt hfits
  · exact absurd (hbounds.mp h) hc
  · exact absurd (hbounds.mpr hc) h
  · rfl

/-- Raising moves a small letter back by 32 places and leaves every other character. -/
theorem toNat_toUpper (c : Char) :
    c.toUpper.toNat = if 97 ≤ c.toNat ∧ c.toNat ≤ 122 then c.toNat - 32 else c.toNat := by
  have hbounds : ('a'.val ≤ c.val ∧ c.val ≤ 'z'.val) ↔ 97 ≤ c.toNat ∧ c.toNat ≤ 122 := by
    simp [UInt32.le_iff_toNat_le]
  unfold Char.toUpper
  split_ifs with h hc hc
  · show (c.val + ('A'.val - 'a'.val)).toNat = c.toNat - 32
    have hshift : ('A'.val - 'a'.val).toNat = 2 ^ 32 - 32 := by decide
    rw [UInt32.toNat_add, hshift]
    show (c.toNat + (2 ^ 32 - 32)) % 2 ^ 32 = c.toNat - 32
    omega
  · exact absurd (hbounds.mp h) hc
  · exact absurd (hbounds.mpr hc) h
  · rfl

/-- A character that is a letter but for its case. -/
theorem toUpper_eq_of_toLower_eq {c d : Char} (hd : d.isUpper = true) (h : c.toLower = d.toLower) :
    c.toNat < 128 ∧ c.toUpper = d := by
  have hletter : 65 ≤ d.toNat ∧ d.toNat ≤ 90 := (isUpper_iff_toNat d).mp hd
  have hsame : c.toLower.toNat = d.toLower.toNat := by rw [h]
  rw [toNat_toLower, toNat_toLower, if_pos hletter] at hsame
  constructor
  · split_ifs at hsame <;> omega
  · apply Char.toNat_inj.mp
    rw [toNat_toUpper]
    split_ifs at hsame ⊢ <;> omega

/-- A text that is one of capital letters but for its case. -/
theorem map_toUpper_eq_of_map_toLower_eq {l m : List Char} (hm : ∀ d ∈ m, d.isUpper = true)
    (h : l.map Char.toLower = m.map Char.toLower) : (∀ c ∈ l, c.toNat < 128) ∧ l.map Char.toUpper = m := by
  induction m generalizing l with
  | nil =>
      obtain rfl := List.map_eq_nil_iff.mp h
      simp
  | cons d m ih =>
      cases l with
      | nil => cases h
      | cons c l =>
          obtain ⟨hfirst, hrest⟩ := List.cons.inj h
          obtain ⟨hascii, hupper⟩ := toUpper_eq_of_toLower_eq (hm d List.mem_cons_self) hfirst
          obtain ⟨hasciis, huppers⟩ := ih (fun e he => hm e (List.mem_cons_of_mem _ he)) hrest
          exact ⟨List.forall_mem_cons.mpr ⟨hascii, hasciis⟩, by rw [List.map_cons, hupper, huppers]⟩

/-! ## Numbers -/

/-- A number that is printed is parsed again. -/
theorem parseUnsigned_repr {bits n : ℕ} (h : n < 2 ^ bits) : parseUnsigned bits n.repr = some n := by
  have hdigit : ∀ c ∈ Nat.toDigits 10 n, c.isDigit = true :=
    fun c hc => Nat.isDigit_of_mem_toDigits (by decide) (by decide) hc
  have hhead : (Nat.toDigits 10 n).head? ≠ some '+' := by
    intro hplus
    have hmem := hdigit '+' (List.mem_of_head? hplus)
    exact absurd hmem (by decide)
  rw [parseUnsigned, Nat.toList_repr]
  dsimp only
  rw [if_neg hhead, if_neg Nat.toDigits_ne_nil, if_pos (List.all_eq_true.mpr hdigit),
    Nat.ofDigitChars_ten_toDigits, if_pos h]

/-- A number in decimal is a word, for it has digits only and at least one. -/
theorem isWord_repr (n : ℕ) : IsWord n.repr where
  ne_nil := by
    rw [Nat.toList_repr]
    exact Nat.toDigits_ne_nil
  solid := by
    intro c hc
    rw [Nat.toList_repr] at hc
    have hdigit : c.isDigit = true := Nat.isDigit_of_mem_toDigits (by decide) (by decide) hc
    have hrange : 48 ≤ c.toNat ∧ c.toNat ≤ 57 := Char.isDigit_iff_toNat.mp hdigit
    simp [isWhitespace]
    omega

/-- A number fits. -/
theorem parseUnsigned_lt {bits n : ℕ} {raw : String} (h : parseUnsigned bits raw = some n) : n < 2 ^ bits := by
  rw [parseUnsigned] at h
  dsimp only at h
  generalize (if raw.toList.head? = some '+' then raw.toList.tail else raw.toList) = digits at h
  split_ifs at h with hne hall hfits
  obtain rfl := Option.some.inj h
  exact hfits

/-- A number has a digit. -/
theorem exists_digit_of_parseUnsigned {bits n : ℕ} {raw : String} (h : parseUnsigned bits raw = some n) :
    ∃ c ∈ raw.toList, c.isDigit = true := by
  rw [parseUnsigned] at h
  dsimp only at h
  generalize hdigits : (if raw.toList.head? = some '+' then raw.toList.tail else raw.toList) = digits at h
  -- The digits are those of the text, and there is one.
  have hmem : ∀ c ∈ digits, c ∈ raw.toList := by
    intro c hc
    rw [← hdigits] at hc
    split_ifs at hc
    · exact List.mem_of_mem_tail hc
    · exact hc
  split_ifs at h with hne hall hfits
  obtain ⟨c, rest, rfl⟩ := List.exists_cons_of_ne_nil hne
  exact ⟨c, hmem c List.mem_cons_self, List.all_eq_true.mp hall c List.mem_cons_self⟩

end LiminalDB
