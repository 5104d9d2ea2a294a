import LiminalDB.Foundations.Decimals
import LiminalDB.Lql.Grammar
import Mathlib.Tactic.NormNum

/-! # The canonical rendering of a query

A filter is printed as one `WHERE` with a condition for each field it has, before `WINDOW` and `EVERY`. What is
printed has each field once, so that the parser gets the query back (`select_subscribe_grammar`). -/

namespace LiminalDB

variable {F : Type} [FloatLike F]

/-! ## The canonical rendering -/

section Rendering

/-- A condition as it is printed. -/
def renderCondition (printF32 : F → String) : Condition F → String
  | .strength x => "strength>=" ++ printF32 x
  | .salience x => "salience>=" ++ printF32 x
  | .adreno value => "adreno=" ++ if value then "true" else "false"

/-- The conditions of a filter. -/
def filterConditions (filter : ViewFilter F) : List (Condition F) :=
  (filter.minStrength.map .strength).toList ++ (filter.minSalience.map .salience).toList ++
    (filter.adreno.map .adreno).toList

/-- A filter as it is printed: nothing without a condition. -/
def renderFilter (printF32 : F → String) (filter : ViewFilter F) : List String :=
  match filterConditions filter with
  | [] => []
  | conditions => "WHERE" :: (conditions.map (renderCondition printF32)).intersperse "AND"

/-- A `WINDOW` or an `EVERY` as it is printed. -/
def renderMillis (keyword : String) : Option UInt32 → List String
  | none => []
  | some ms => [keyword, ms.toNat.repr]

/-- A query as it is printed. -/
def renderQuery (printF32 : F → String) (command pattern : String) (values : ClauseValues F) : String :=
  " ".intercalate (command :: pattern :: (renderFilter printF32 values.filter ++
    (renderMillis "WINDOW" values.windowMs ++ renderMillis "EVERY" values.everyMs)))

/-- A threshold that is printed without white space, and parsed again. -/
structure RoundTrips (lib : LqlLibrary F) (printF32 : F → String) (x : F) : Prop where
  parse_print : lib.parseF32 (printF32 x) = some x
  solid : ∀ c ∈ (printF32 x).toList, isWhitespace c = false

/-- A threshold in `[0, 1]`. -/
def InUnit (x : F) : Prop := 0.0 ≤ x ∧ x ≤ 1.0

/-- The values that a query can have: positive windows, thresholds in `[0, 1]`. -/
structure ClauseValues.Valid (values : ClauseValues F) : Prop where
  window : ∀ ms ∈ values.windowMs, ms ≠ 0
  every : ∀ ms ∈ values.everyMs, ms ≠ 0
  strength : ∀ x ∈ values.filter.minStrength, InUnit x
  salience : ∀ x ∈ values.filter.minSalience, InUnit x

/-- The thresholds of a filter survive printing and parsing. -/
def ViewFilter.RoundTrips (lib : LqlLibrary F) (printF32 : F → String) (filter : ViewFilter F) : Prop :=
  ∀ x, x ∈ filter.minStrength ∨ x ∈ filter.minSalience → LiminalDB.RoundTrips lib printF32 x

variable {lib : LqlLibrary F} {printF32 : F → String} {hasEvery : Bool}

/-- A condition of the filter is read back. -/
theorem readsAs_renderCondition {values : ClauseValues F} (hvalid : values.Valid)
    (hprint : values.filter.RoundTrips lib printF32) {condition : Condition F}
    (h : condition ∈ filterConditions values.filter) :
    ReadsAs lib (renderCondition printF32 condition) condition ∧ IsWord (renderCondition printF32 condition) := by
  have hstrength : IsWord "strength>=" := by decide
  have hsalience : IsWord "salience>=" := by decide
  have hadreno (value : Bool) : IsWord ("adreno=" ++ if value then "true" else "false") := by
    cases value <;> decide
  simp only [filterConditions, List.mem_append, Option.mem_toList, Option.map_eq_some_iff] at h
  rcases h with (⟨x, hx, rfl⟩ | ⟨x, hx, rfl⟩) | ⟨value, -, rfl⟩
  · have hback := hprint x (.inl hx)
    have hunit := hvalid.strength x hx
    exact ⟨.strength hback.parse_print hunit.1 hunit.2, hstrength.append hback.solid⟩
  · have hback := hprint x (.inr hx)
    have hunit := hvalid.salience x hx
    exact ⟨.salience hback.parse_print hunit.1 hunit.2, hsalience.append hback.solid⟩
  · have hlower : lib.toLowercase (if value then "true" else "false") = if value then "true" else "false" := by
      rw [lib.toLowercase_ascii _ (by cases value <;> simp)]
      cases value <;> decide
    exact ⟨.adreno value hlower, hadreno value⟩

/-- Conditions that are each read back are read back with AND between them. -/
theorem conditions_intersperse {conditions : List (Condition F)} (hne : conditions ≠ [])
    (h : ∀ condition ∈ conditions, ReadsAs lib (renderCondition printF32 condition) condition) :
    Conditions lib ((conditions.map (renderCondition printF32)).intersperse "AND") conditions := by
  induction conditions with
  | nil => exact absurd rfl hne
  | cons condition more ih =>
      have hfirst := h condition List.mem_cons_self
      cases more with
      | nil => exact .one hfirst
      | cons next more =>
          have hand : lib.upper "AND" = "AND" := upper_keyword (by decide)
          have hrest := ih (List.cons_ne_nil _ _) fun c hc => h c (List.mem_cons_of_mem _ hc)
          exact .and hfirst hand hrest

/-- A number of milliseconds is read back from its decimal digits, unless it is zero. -/
theorem isMillis_repr {ms : UInt32} (h : ms ≠ 0) : IsMillis ms.toNat.repr ms :=
  ⟨parseUnsigned_repr ms.toNat_lt, h⟩

/-- The clauses of what is printed. -/
def renderedClauses (values : ClauseValues F) : List (Clause F) :=
  (match filterConditions values.filter with
    | [] => []
    | conditions => [.filter conditions]) ++
    ((values.windowMs.map .window).toList ++ (values.everyMs.map .every).toList)

omit [FloatLike F] in
/-- A `WINDOW` and an `EVERY` may stand behind a `WHERE` clause. -/
theorem endsWhere_renderMillis (windowMs everyMs : Option UInt32) :
    EndsWhere lib (renderMillis "WINDOW" windowMs ++ renderMillis "EVERY" everyMs) := by
  intro token htoken
  cases windowMs with
  | some ms =>
      obtain rfl : "WINDOW" = token := Option.some.inj htoken
      exact .inl (upper_keyword (by decide))
  | none =>
      cases everyMs with
      | some ms =>
          obtain rfl : "EVERY" = token := Option.some.inj htoken
          exact .inr (upper_keyword (by decide))
      | none => cases htoken

/-- The times are read back, an `EVERY` where it is allowed. -/
theorem clauses_renderMillis {values : ClauseValues F} (hvalid : values.Valid)
    (hevery : hasEvery = true ∨ values.everyMs = none) :
    Clauses lib hasEvery (renderMillis "WINDOW" values.windowMs ++ renderMillis "EVERY" values.everyMs)
      ((values.windowMs.map Clause.window).toList ++ (values.everyMs.map Clause.every).toList) := by
  have heveryClause : Clauses lib hasEvery (renderMillis "EVERY" values.everyMs)
      (values.everyMs.map Clause.every).toList := by
    cases hms : values.everyMs with
    | none => exact .done
    | some ms =>
        have hallowed : hasEvery = true := hevery.resolve_right (by simp [hms])
        exact .every hallowed (upper_keyword (by decide)) (isMillis_repr (hvalid.every ms hms)) .done
  cases hms : values.windowMs with
  | none => exact heveryClause
  | some ms => exact .window (upper_keyword (by decide)) (isMillis_repr (hvalid.window ms hms)) heveryClause

/-- Clauses that are rendered are read back, if the numbers in them are. -/
theorem clauses_render {values : ClauseValues F} (hvalid : values.Valid)
    (hprint : values.filter.RoundTrips lib printF32) (hevery : hasEvery = true ∨ values.everyMs = none) :
    Clauses lib hasEvery (renderFilter printF32 values.filter ++
      (renderMillis "WINDOW" values.windowMs ++ renderMillis "EVERY" values.everyMs)) (renderedClauses values) := by
  have htail := @clauses_renderMillis _ _ lib hasEvery values hvalid hevery
  rw [renderFilter, renderedClauses]
  cases hconditions : filterConditions values.filter with
  | nil => exact htail
  | cons condition more =>
      have hwhere : lib.upper "WHERE" = "WHERE" := upper_keyword (by decide)
      have hreads : ∀ c ∈ condition :: more, ReadsAs lib (renderCondition printF32 c) c := by
        intro c hc
        rw [← hconditions] at hc
        exact (readsAs_renderCondition hvalid hprint hc).1
      have hmore := conditions_intersperse (List.cons_ne_nil _ _) hreads
      exact .filter hwhere hmore (endsWhere_renderMillis _ _) htail

omit [FloatLike F] in
/-- What is printed has each field once. -/
theorem lastValues_renderedClauses (values : ClauseValues F) : lastValues (renderedClauses values) = values := by
  obtain ⟨window, every, strength, salience, adreno⟩ := values
  cases window <;> cases every <;> cases strength <;> cases salience <;> cases adreno <;> rfl

omit [FloatLike F] in
/-- What stands in an interspersed list is the separator or from the list. -/
theorem mem_intersperse {sep token : String} {tokens : List String} (h : token ∈ tokens.intersperse sep) :
    token = sep ∨ token ∈ tokens := by
  induction tokens with
  | nil => cases h
  | cons first rest ih =>
      cases rest with
      | nil => exact .inr h
      | cons second rest =>
          rw [List.intersperse_cons_cons] at h
          rcases List.mem_cons.mp h with rfl | h
          · exact .inr List.mem_cons_self
          · rcases List.mem_cons.mp h with rfl | h
            · exact .inl rfl
            · exact (ih h).imp_right (List.mem_cons_of_mem _)

omit [FloatLike F] in
/-- What is rendered of a number of milliseconds are words. -/
theorem isWord_of_mem_renderMillis {keyword : String} (hkeyword : IsWord keyword) {ms : Option UInt32} :
    ∀ token ∈ renderMillis keyword ms, IsWord token := by
  intro token htoken
  cases ms with
  | none => cases htoken
  | some ms =>
      rcases List.mem_pair.mp htoken with rfl | rfl
      · exact hkeyword
      · exact isWord_repr _

/-- So is all that is rendered of the clauses. -/
theorem isWord_of_mem_render {values : ClauseValues F} (hvalid : values.Valid)
    (hprint : values.filter.RoundTrips lib printF32) :
    ∀ token ∈ renderFilter printF32 values.filter ++
      (renderMillis "WINDOW" values.windowMs ++ renderMillis "EVERY" values.everyMs), IsWord token := by
  intro token htoken
  rcases List.mem_append.mp htoken with hfilter | hmillis
  · rw [renderFilter] at hfilter
    cases hconditions : filterConditions values.filter with
    | nil =>
        rw [hconditions] at hfilter
        cases hfilter
    | cons condition more =>
        rw [hconditions] at hfilter
        rcases List.mem_cons.mp hfilter with rfl | hmem
        · decide
        · rcases mem_intersperse hmem with rfl | hmem
          · decide
          · obtain ⟨c, hc, rfl⟩ := List.mem_map.mp hmem
            rw [← hconditions] at hc
            exact (readsAs_renderCondition hvalid hprint hc).2
  · rcases List.mem_append.mp hmillis with hwindow | hevery
    · exact isWord_of_mem_renderMillis (by decide) token hwindow
    · exact isWord_of_mem_renderMillis (by decide) token hevery

/-- The words of a printed query. -/
theorem splitWhitespace_renderQuery {values : ClauseValues F} (hvalid : values.Valid)
    (hprint : values.filter.RoundTrips lib printF32) {command pattern : String} (hcommand : IsWord command)
    (hpattern : IsWord pattern) : splitWhitespace (renderQuery printF32 command pattern values) =
      command :: pattern :: (renderFilter printF32 values.filter ++
        (renderMillis "WINDOW" values.windowMs ++ renderMillis "EVERY" values.everyMs)) := by
  refine splitWhitespace_intercalate fun token htoken => ?_
  rcases List.mem_cons.mp htoken with rfl | htoken
  · exact hcommand
  · rcases List.mem_cons.mp htoken with rfl | htoken
    · exact hpattern
    · exact isWord_of_mem_render hvalid hprint token htoken

end Rendering

/-- **SELECT and SUBSCRIBE accept their grammar.** For every list of tokens behind the command, the parser
succeeds exactly when it is a pattern and clauses, and then the query holds the pattern and the last value of
each field. The canonical rendering of a query with a pattern that is a word, and valid values, is parsed to
the query, when its thresholds survive printing and parsing. -/
theorem select_subscribe_grammar (lib : LqlLibrary F) :
    (∀ tokens ast, parseSelect lib tokens = .ok ast ↔
      ∃ pattern rest clauses, tokens = pattern :: rest ∧ Clauses lib false rest clauses ∧
        ast = .select pattern (lastValues clauses).windowMs (lastValues clauses).filter) ∧
    (∀ tokens ast, parseSubscribe lib tokens = .ok ast ↔
      ∃ pattern rest clauses, tokens = pattern :: rest ∧ Clauses lib true rest clauses ∧
        ast = .subscribe pattern (lastValues clauses).windowMs (lastValues clauses).everyMs
          (lastValues clauses).filter) ∧
    ∀ (printF32 : F → String) (pattern : String) (values : ClauseValues F), IsWord pattern → values.Valid →
      values.filter.RoundTrips lib printF32 →
        (values.everyMs = none → parseLql lib (renderQuery printF32 "SELECT" pattern values) =
          .ok (.select pattern values.windowMs values.filter)) ∧
        parseLql lib (renderQuery printF32 "SUBSCRIBE" pattern values) =
          .ok (.subscribe pattern values.windowMs values.everyMs values.filter) := by
  refine ⟨fun tokens ast => parseSelect_eq_ok_iff, fun tokens ast => parseSubscribe_eq_ok_iff, ?_⟩
  intro printF32 pattern values hpattern hvalid hprint
  have hlast := lastValues_renderedClauses values
  constructor
  · intro hnone
    have hcommand : IsWord "SELECT" := by decide
    have hclauses := @clauses_render _ _ lib printF32 false values hvalid hprint (.inr hnone)
    rw [parseLql_of_words (splitWhitespace_renderQuery hvalid hprint hcommand hpattern), upper_keyword (by decide)]
    refine parseSelect_eq_ok_iff.mpr ⟨pattern, _, _, rfl, hclauses, ?_⟩
    rw [hlast]
  · have hcommand : IsWord "SUBSCRIBE" := by decide
    have hclauses := @clauses_render _ _ lib printF32 true values hvalid hprint (.inl rfl)
    rw [parseLql_of_words (splitWhitespace_renderQuery hvalid hprint hcommand hpattern), upper_keyword (by decide)]
    refine parseSubscribe_eq_ok_iff.mpr ⟨pattern, _, _, rfl, hclauses, ?_⟩
    rw [hlast]

/-! ## A library for exact numbers -/

/-- The ASCII part of the case mappings, decimal numbers, and no JSON. -/
def asciiLibrary : LqlLibrary ℚ where
  upperChar c := [c.toUpper]
  upperChar_ascii _ _ := rfl
  toLowercase s := String.ofList (s.toList.map Char.toLower)
  toLowercase_ascii _ _ := rfl
  parseF32 := parseDecimal
  jsonStrings _ := none
  jsonFloats _ := none
  jsonGoals _ := none
  jsonReflexCfg _ := .error "expected value at line 1 column 1"

/-- `SELECT cpu/load WHERE strength>=0.7 WINDOW 1200` -/
theorem select_subscribe_grammar_load :
    parseLql asciiLibrary (renderQuery (fun _ => "0.7") "SELECT" "cpu/load"
        ⟨some 1200, none, some (7 / 10), none, none⟩) =
      .ok (.select "cpu/load" (some 1200) ⟨some (7 / 10), none, none⟩) := by
  have hunit : InUnit (7 / 10 : ℚ) := by
    norm_num [InUnit]
  have hvalid : ClauseValues.Valid (F := ℚ) ⟨some 1200, none, some (7 / 10), none, none⟩ := {
    window := by simp
    every := by simp
    strength := by simpa using hunit
    salience := by simp }
  refine ((select_subscribe_grammar asciiLibrary).2.2 (fun _ => "0.7") "cpu/load" _
    (by decide) hvalid ?_).1 rfl
  rintro x (hx | hx)
  · obtain rfl : 7 / 10 = x := by simpa using hx
    exact ⟨by decide +kernel, IsWord.solid (by decide)⟩
  · simp at hx

end LiminalDB
