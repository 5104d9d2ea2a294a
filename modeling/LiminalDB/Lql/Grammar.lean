import LiminalDB.Lql.Parser

/-! # The grammar of SELECT and SUBSCRIBE

A pattern, and clauses behind it: `WHERE cond (AND cond)*`, `WINDOW n` and, of a subscription, `EVERY n`. The
loops of the parser accept these lists of tokens and no others, and hold the last value of each field
(`parseSelect_eq_ok_iff`, `parseSubscribe_eq_ok_iff`). -/

namespace LiminalDB

variable {F : Type}

/-! ## Keywords -/

/-- The words that the parser compares tokens with. -/
def keywords : List String :=
  ["SELECT", "SUBSCRIBE", "UNSUBSCRIBE", "INTROSPECT", "INTEND", "VARIANTS", "SLIDE", "COMMIT", "PIVOT", "DEFUSE",
    "REFLEX", "ON", "OFF", "STATUS", "TUNE", "MODEL", "INFLUENCE", "TENSION", "EPOCHS", "EPOCH", "TOP", "WHERE",
    "AND", "WINDOW", "EVERY", "TOKENS", "WEIGHTS", "HORIZON", "BUDGET", "LIMIT", "SET", "GOALS", "ETHICS", "REASON",
    "RATE", "DRAIN"]

/-- A keyword, in any case. -/
def LqlLibrary.IsKeyword (lib : LqlLibrary F) (token : String) : Prop := lib.upper token ∈ keywords

/-- The keywords have capital letters only, so that raising the case leaves them. -/
theorem isUpper_of_mem_keywords : ∀ k ∈ keywords, ∀ c ∈ k.toList, c.isUpper = true := by
  have hall : (keywords.all fun k => k.toList.all Char.isUpper) = true := by decide
  simpa only [List.all_eq_true] using hall

section Upper

variable {lib : LqlLibrary F} {token : String}

/-- Raising the case of a text is raising that of its characters, one of which may become several. -/
theorem toList_upper : (lib.upper token).toList = token.toList.flatMap lib.upperChar := by
  simp [LqlLibrary.upper]

/-- For texts of ASCII characters this is what the standard library computes. -/
theorem upper_ascii (h : ∀ c ∈ token.toList, c.toNat < 128) :
    lib.upper token = String.ofList (token.toList.map Char.toUpper) := by
  rw [LqlLibrary.upper]
  congr 1
  generalize token.toList = chars at h
  induction chars with
  | nil => rfl
  | cons c chars ih =>
      rw [List.flatMap_cons, List.map_cons, lib.upperChar_ascii c (h c List.mem_cons_self),
        ih fun d hd => h d (List.mem_cons_of_mem _ hd), List.singleton_append]

/-- A token is a keyword in any case of its letters. -/
theorem isKeyword_of_upper_eq {k : String} (hk : k ∈ keywords) (h : lib.upper token = k) : lib.IsKeyword token := by
  rw [LqlLibrary.IsKeyword, h]
  exact hk

/-- A token with a character that is no letter is no keyword. -/
theorem not_isKeyword_of_mem {c : Char} (hc : c ∈ token.toList) (hascii : c.toNat < 128)
    (hupper : c.toUpper.isUpper = false) : ¬ lib.IsKeyword token := by
  intro hkeyword
  have hmem : c.toUpper ∈ (lib.upper token).toList := by
    rw [toList_upper, List.mem_flatMap]
    exact ⟨c, hc, by rw [lib.upperChar_ascii c hascii]; exact List.mem_singleton.mpr rfl⟩
  rw [isUpper_of_mem_keywords _ hkeyword _ hmem] at hupper
  cases hupper

/-- Keywords are written in upper case. -/
theorem upper_keyword {k : String} (h : k ∈ keywords) : lib.upper k = k := by
  obtain ⟨hascii, hupper⟩ := map_toUpper_eq_of_map_toLower_eq (isUpper_of_mem_keywords k h) rfl
  rw [upper_ascii hascii, hupper, String.ofList_toList]

end Upper

/-- A prefix is stripped off a text exactly if the text starts with it. -/
theorem stripPrefix_eq_some_iff {s pattern rest : String} :
    stripPrefix s pattern = some rest ↔ s = pattern ++ rest := by
  rw [stripPrefix]
  constructor
  · intro h
    split_ifs at h with hprefix
    obtain ⟨tail, htail⟩ := List.isPrefixOf_iff_prefix.mp hprefix
    rw [← htail, List.drop_left] at h
    obtain rfl := Option.some.inj h
    apply String.toList_inj.mp
    rw [String.toList_append, String.toList_ofList, htail]
  · rintro rfl
    simp

/-- What is done to a result is done to its value, and leaves errors alone. -/
theorem map_eq_ok_iff {ε α β : Type} {result : Except ε α} {f : α → β} {b : β} :
    result.map f = .ok b ↔ ∃ a, result = .ok a ∧ f a = b := by
  cases result <;> simp [Except.map]

/-! ## Conditions -/

/-- `cond` -/
inductive Condition (F : Type)
  | strength (x : F)
  | salience (x : F)
  | adreno (value : Bool)

/-- What a condition sets. -/
def Condition.apply (filter : ViewFilter F) : Condition F → ViewFilter F
  | .strength x => { filter with minStrength := some x }
  | .salience x => { filter with minSalience := some x }
  | .adreno value => { filter with adreno := some value }

section Grammar

variable [FloatLike F]

/-- `strength>=x` or `salience>=x` with `x` in `[0, 1]`, or `adreno=true|false` in any case. -/
inductive ReadsAs (lib : LqlLibrary F) : String → Condition F → Prop
  | strength {raw : String} {x : F} (hparse : lib.parseF32 raw = some x) (hlow : 0.0 ≤ x) (hhigh : x ≤ 1.0) :
      ReadsAs lib ("strength>=" ++ raw) (.strength x)
  | salience {raw : String} {x : F} (hparse : lib.parseF32 raw = some x) (hlow : 0.0 ≤ x) (hhigh : x ≤ 1.0) :
      ReadsAs lib ("salience>=" ++ raw) (.salience x)
  | adreno {raw : String} (value : Bool) (hlower : lib.toLowercase raw = if value then "true" else "false") :
      ReadsAs lib ("adreno=" ++ raw) (.adreno value)

/-- `cond (AND cond)*` -/
inductive Conditions (lib : LqlLibrary F) : List String → List (Condition F) → Prop
  | one {token : String} {condition : Condition F} (hreads : ReadsAs lib token condition) :
      Conditions lib [token] [condition]
  | and {token keyword : String} {rest : List String} {condition : Condition F} {more : List (Condition F)}
      (hreads : ReadsAs lib token condition) (hand : lib.upper keyword = "AND") (hrest : Conditions lib rest more) :
      Conditions lib (token :: keyword :: rest) (condition :: more)

/-- A clause. -/
inductive Clause (F : Type)
  | filter (conditions : List (Condition F))
  | window (ms : UInt32)
  | every (ms : UInt32)

/-- What may stand behind a `WHERE` clause: `WINDOW`, `EVERY` or the end. -/
def EndsWhere (lib : LqlLibrary F) (rest : List String) : Prop :=
  ∀ token ∈ rest.head?, lib.upper token = "WINDOW" ∨ lib.upper token = "EVERY"

/-- A positive `u32`. -/
def IsMillis (raw : String) (ms : UInt32) : Prop :=
  parseUnsigned 32 raw = some ms.toNat ∧ ms ≠ 0

/-- The clauses of a query, of a subscription also `EVERY n`. -/
inductive Clauses (lib : LqlLibrary F) (hasEvery : Bool) : List String → List (Clause F) → Prop
  | done : Clauses lib hasEvery [] []
  | filter {keyword : String} {tokens rest : List String} {conditions : List (Condition F)}
      {clauses : List (Clause F)} (hkeyword : lib.upper keyword = "WHERE")
      (hconditions : Conditions lib tokens conditions) (hends : EndsWhere lib rest)
      (hrest : Clauses lib hasEvery rest clauses) :
      Clauses lib hasEvery (keyword :: (tokens ++ rest)) (.filter conditions :: clauses)
  | window {keyword raw : String} {rest : List String} {ms : UInt32} {clauses : List (Clause F)}
      (hkeyword : lib.upper keyword = "WINDOW") (hms : IsMillis raw ms)
      (hrest : Clauses lib hasEvery rest clauses) :
      Clauses lib hasEvery (keyword :: raw :: rest) (.window ms :: clauses)
  | every {keyword raw : String} {rest : List String} {ms : UInt32} {clauses : List (Clause F)}
      (hevery : hasEvery = true) (hkeyword : lib.upper keyword = "EVERY") (hms : IsMillis raw ms)
      (hrest : Clauses lib hasEvery rest clauses) :
      Clauses lib hasEvery (keyword :: raw :: rest) (.every ms :: clauses)

/-! ## The conditions of a WHERE -/

section Where

variable {lib : LqlLibrary F} {token : String} {condition : Condition F} {filter filter' : ViewFilter F}

/-- A threshold is a number from 0 to 1, in the words of the library for its text. -/
theorem parseThreshold_eq_ok_iff {name value : String} {x : F} :
    parseThreshold lib name value = .ok x ↔ lib.parseF32 value = some x ∧ 0.0 ≤ x ∧ x ≤ 1.0 := by
  rw [parseThreshold]
  cases lib.parseF32 value with
  | none => simp
  | some y =>
      dsimp only
      split_ifs with hrange
      · simp only [Except.ok.injEq, Option.some.injEq]
        refine ⟨?_, And.left⟩
        rintro rfl
        exact ⟨rfl, hrange⟩
      · simp only [Option.some.injEq, false_iff]
        rintro ⟨rfl, hx⟩
        exact hrange hx

/-- The parser of conditions reads nothing but what the grammar has. -/
theorem readsAs_of_parseConditionToken (h : parseConditionToken lib token filter = .ok filter') :
    ∃ condition, ReadsAs lib token condition ∧ filter' = condition.apply filter := by
  rw [parseConditionToken] at h
  -- The prefixes are tried one after the other, as the source does.
  cases hstrength : stripPrefix token "strength>=" with
  | some value =>
      obtain rfl := stripPrefix_eq_some_iff.mp hstrength
      rw [hstrength] at h
      obtain ⟨x, hx, rfl⟩ := map_eq_ok_iff.mp h
      obtain ⟨hparse, hlow, hhigh⟩ := parseThreshold_eq_ok_iff.mp hx
      exact ⟨.strength x, .strength hparse hlow hhigh, rfl⟩
  | none =>
      rw [hstrength] at h
      cases hsalience : stripPrefix token "salience>=" with
      | some value =>
          obtain rfl := stripPrefix_eq_some_iff.mp hsalience
          rw [hsalience] at h
          obtain ⟨x, hx, rfl⟩ := map_eq_ok_iff.mp h
          obtain ⟨hparse, hlow, hhigh⟩ := parseThreshold_eq_ok_iff.mp hx
          exact ⟨.salience x, .salience hparse hlow hhigh, rfl⟩
      | none =>
          rw [hsalience] at h
          cases hadreno : stripPrefix token "adreno=" with
          | some value =>
              obtain rfl := stripPrefix_eq_some_iff.mp hadreno
              rw [hadreno] at h
              dsimp only at h
              split_ifs at h with htrue hfalse
              · obtain rfl := Except.ok.inj h
                exact ⟨.adreno true, .adreno true htrue, rfl⟩
              · obtain rfl := Except.ok.inj h
                exact ⟨.adreno false, .adreno false hfalse, rfl⟩
          | none =>
              rw [hadreno] at h
              cases h

/-- It reads all that the grammar has. -/
theorem parseConditionToken_of_readsAs (h : ReadsAs lib token condition) (filter : ViewFilter F) :
    parseConditionToken lib token filter = .ok (condition.apply filter) := by
  cases h with
  | @strength raw x hparse hlow hhigh =>
      have hstrip : stripPrefix ("strength>=" ++ raw) "strength>=" = some raw := stripPrefix_eq_some_iff.mpr rfl
      rw [parseConditionToken, hstrip]
      dsimp only
      rw [parseThreshold_eq_ok_iff.mpr ⟨hparse, hlow, hhigh⟩]
      rfl
  | @salience raw x hparse hlow hhigh =>
      have hstrip : stripPrefix ("salience>=" ++ raw) "salience>=" = some raw := stripPrefix_eq_some_iff.mpr rfl
      have hother : stripPrefix ("salience>=" ++ raw) "strength>=" = none := by
        simp [stripPrefix]
      rw [parseConditionToken, hother]
      dsimp only
      rw [hstrip]
      dsimp only
      rw [parseThreshold_eq_ok_iff.mpr ⟨hparse, hlow, hhigh⟩]
      rfl
  | @adreno raw value hlower =>
      have hstrip : stripPrefix ("adreno=" ++ raw) "adreno=" = some raw := stripPrefix_eq_some_iff.mpr rfl
      have hstrength : stripPrefix ("adreno=" ++ raw) "strength>=" = none := by
        simp [stripPrefix]
      have hsalience : stripPrefix ("adreno=" ++ raw) "salience>=" = none := by
        simp [stripPrefix]
      rw [parseConditionToken, hstrength]
      dsimp only
      rw [hsalience]
      dsimp only
      rw [hstrip]
      cases value <;> simp [hlower, Condition.apply]

/-- A condition is no keyword: it has a `=`. -/
theorem ReadsAs.not_isKeyword (h : ReadsAs lib token condition) : ¬ lib.IsKeyword token := by
  have hequals : '=' ∈ token.toList := by
    cases h <;> simp
  exact not_isKeyword_of_mem hequals (by decide) (by decide)

/-- Behind a condition the loop stops where a `WHERE` clause may end. -/
theorem whereLoop_of_endsWhere {rest : List String} (h : EndsWhere lib rest) (consumed : ℕ)
    (filter : ViewFilter F) : whereLoop lib rest consumed false filter = .ok (consumed, false, filter) := by
  cases rest with
  | nil => rfl
  | cons token rest => rw [whereLoop, if_pos (h token rfl)]

/-- The loop reads a condition. -/
theorem whereLoop_condition (h : ReadsAs lib token condition) (rest : List String) (consumed : ℕ)
    (filter : ViewFilter F) : whereLoop lib (token :: rest) consumed true filter =
      whereLoop lib rest (consumed + 1) false (condition.apply filter) := by
  have hgoes : ¬ (lib.upper token = "WINDOW" ∨ lib.upper token = "EVERY") := by
    rintro (hwindow | hevery)
    · exact h.not_isKeyword (isKeyword_of_upper_eq (by decide) hwindow)
    · exact h.not_isKeyword (isKeyword_of_upper_eq (by decide) hevery)
  rw [whereLoop, if_neg hgoes, if_neg (by simp), parseConditionToken_of_readsAs h]

/-- The loop passes an `AND`. -/
theorem whereLoop_and {keyword : String} (h : lib.upper keyword = "AND") (rest : List String) (consumed : ℕ)
    (filter : ViewFilter F) : whereLoop lib (keyword :: rest) consumed false filter =
      whereLoop lib rest (consumed + 1) true filter := by
  rw [whereLoop, if_neg (by rw [h]; decide), if_pos (by simp), if_pos h]

/-- The loop consumes the conditions. -/
theorem whereLoop_of_conditions {tokens rest : List String} {conditions : List (Condition F)}
    (h : Conditions lib tokens conditions) (hends : EndsWhere lib rest) (consumed : ℕ) (filter : ViewFilter F) :
    whereLoop lib (tokens ++ rest) consumed true filter =
      .ok (consumed + tokens.length, false, conditions.foldl Condition.apply filter) := by
  induction h generalizing consumed filter with
  | one hreads =>
      rw [List.singleton_append, whereLoop_condition hreads]
      exact whereLoop_of_endsWhere hends _ _
  | @and token keyword more condition conditions hreads hand _ ih =>
      have hcount : consumed + 1 + 1 + more.length = consumed + (token :: keyword :: more).length := by
        simp
        omega
      rw [List.cons_append, List.cons_append, whereLoop_condition hreads, whereLoop_and hand, ih, hcount]
      rfl

/-- What the loop may have consumed: conditions, or behind one an `AND` and conditions. -/
def Consumed (lib : LqlLibrary F) (expect : Bool) (tokens : List String) (conditions : List (Condition F)) : Prop :=
  if expect then Conditions lib tokens conditions
  else tokens = [] ∧ conditions = [] ∨
    ∃ keyword rest, tokens = keyword :: rest ∧ lib.upper keyword = "AND" ∧ Conditions lib rest conditions

/-- The loop has consumed conditions when it expects no other one. -/
theorem consumed_of_whereLoop {tokens : List String} {consumed n : ℕ} {expect : Bool}
    (h : whereLoop lib tokens consumed expect filter = .ok (n, false, filter')) :
    ∃ part rest conditions, tokens = part ++ rest ∧ Consumed lib expect part conditions ∧ EndsWhere lib rest ∧
      n = consumed + part.length ∧ filter' = conditions.foldl Condition.apply filter := by
  -- By induction on the tokens: whether a condition is expected changes with each of them.
  induction tokens generalizing consumed expect filter with
  | nil =>
      simp only [whereLoop, Except.ok.injEq, Prod.mk.injEq] at h
      obtain ⟨rfl, rfl, rfl⟩ := h
      exact ⟨[], [], [], rfl, .inl ⟨rfl, rfl⟩, by simp [EndsWhere], rfl, rfl⟩
  | cons token rest ih =>
      rw [whereLoop] at h
      by_cases hstop : lib.upper token = "WINDOW" ∨ lib.upper token = "EVERY"
      · rw [if_pos hstop] at h
        simp only [Except.ok.injEq, Prod.mk.injEq] at h
        obtain ⟨rfl, rfl, rfl⟩ := h
        refine ⟨[], token :: rest, [], rfl, .inl ⟨rfl, rfl⟩, ?_, rfl, rfl⟩
        simpa [EndsWhere] using hstop
      rw [if_neg hstop] at h
      cases expect with
      | false =>
          -- Only an `AND` is passed, and a condition has to follow it.
          rw [if_pos (by simp)] at h
          split_ifs at h with hand
          obtain ⟨part, rest, conditions, rfl, hpart, hends, rfl, rfl⟩ := ih h
          refine ⟨token :: part, rest, conditions, rfl, .inr ⟨token, part, rfl, hand, hpart⟩, hends, ?_, rfl⟩
          rw [List.length_cons]
          omega
      | true =>
          rw [if_neg (by simp)] at h
          cases hparse : parseConditionToken lib token filter with
          | error error =>
              rw [hparse] at h
              cases h
          | ok next =>
              rw [hparse] at h
              obtain ⟨condition, hreads, rfl⟩ := readsAs_of_parseConditionToken hparse
              obtain ⟨part, rest, conditions, rfl, hpart, hends, rfl, rfl⟩ := ih h
              -- The condition is the last one, or an `AND` follows.
              rcases hpart with ⟨rfl, rfl⟩ | ⟨keyword, more, rfl, hand, hmore⟩
              · exact ⟨[token], rest, [condition], rfl, .one hreads, hends, by simp, rfl⟩
              · refine ⟨token :: keyword :: more, rest, condition :: conditions, rfl,
                  .and hreads hand hmore, hends, ?_, rfl⟩
                simp only [List.length_cons]
                omega

/-- `parse_where_conditions` consumes the conditions before a place where a `WHERE` clause may end. -/
theorem parseWhereConditions_of_conditions {tokens rest : List String} {conditions : List (Condition F)}
    (h : Conditions lib tokens conditions) (hends : EndsWhere lib rest) (filter : ViewFilter F) :
    parseWhereConditions lib (tokens ++ rest) filter =
      .ok (tokens.length, conditions.foldl Condition.apply filter) := by
  have hloop := whereLoop_of_conditions h hends 0 filter
  have hpos : 0 < tokens.length := by
    cases h <;> simp
  rw [parseWhereConditions, if_neg (by simp [List.ne_nil_of_length_pos hpos]), hloop]
  dsimp only
  rw [if_neg (by omega), if_neg (by simp), Nat.zero_add]

/-- It accepts nothing else. -/
theorem parseWhereConditions_eq_ok_iff {tokens : List String} {result : ℕ × ViewFilter F} :
    parseWhereConditions lib tokens filter = .ok result ↔
      ∃ part rest conditions, tokens = part ++ rest ∧ Conditions lib part conditions ∧ EndsWhere lib rest ∧
        result = (part.length, conditions.foldl Condition.apply filter) := by
  constructor
  · intro h
    rw [parseWhereConditions] at h
    split_ifs at h
    cases hloop : whereLoop lib tokens 0 true filter with
    | error error =>
        rw [hloop] at h
        cases h
    | ok found =>
        obtain ⟨consumed, expect, next⟩ := found
        rw [hloop] at h
        dsimp only at h
        split_ifs at h with hzero hexpect
        obtain rfl := Except.ok.inj h
        rw [Bool.not_eq_true] at hexpect
        subst hexpect
        obtain ⟨part, rest, conditions, htokens, hpart, hends, rfl, rfl⟩ := consumed_of_whereLoop hloop
        exact ⟨part, rest, conditions, htokens, hpart, hends, by rw [Nat.zero_add]⟩
  · rintro ⟨part, rest, conditions, rfl, hpart, hends, rfl⟩
    exact parseWhereConditions_of_conditions hpart hends filter

end Where

/-! ## The clauses -/

section Clauses

variable {lib : LqlLibrary F} {command : String} {hasEvery : Bool}

/-- A distance or window is accepted exactly if the grammar says that it is a number of milliseconds. -/
theorem parseMillis_eq_ok_iff {keyword raw : String} {ms : UInt32} :
    parseMillis keyword raw = .ok ms ↔ IsMillis raw ms := by
  rw [parseMillis, IsMillis]
  cases hparse : parseUnsigned 32 raw with
  | none => simp
  | some value =>
      have hfits := parseUnsigned_lt hparse
      have hvalue : (UInt32.ofNat value).toNat = value := UInt32.toNat_ofNat_of_lt' hfits
      dsimp only
      split_ifs with hzero
      · subst hzero
        simp only [false_iff, Option.some.injEq, not_and]
        intro hms hne
        exact hne (UInt32.toNat_inj.mp hms.symm)
      · simp only [Except.ok.injEq, Option.some.injEq]
        constructor
        · rintro rfl
          refine ⟨hvalue.symm, fun hms => hzero ?_⟩
          rw [← hvalue, hms]
          rfl
        · rintro ⟨hms, -⟩
          exact UInt32.toNat_inj.mp (hvalue.trans hms)

/-- What a clause sets. -/
def Clause.apply (values : ClauseValues F) : Clause F → ClauseValues F
  | .filter conditions => { values with filter := conditions.foldl Condition.apply values.filter }
  | .window ms => { values with windowMs := some ms }
  | .every ms => { values with everyMs := some ms }

/-- A `WHERE` clause, whatever follows. -/
theorem clauseLoop_where {keyword : String} (h : lib.upper keyword = "WHERE") (rest : List String)
    (values : ClauseValues F) : clauseLoop lib command hasEvery (keyword :: rest) values =
      match parseWhereConditions lib rest values.filter with
      | .error error => .error error
      | .ok result =>
          clauseLoop lib command hasEvery (rest.drop result.1) { values with filter := result.2 } := by
  rw [clauseLoop.eq_def]
  exact if_pos h

/-- A `WINDOW` clause, whatever follows. -/
theorem clauseLoop_window {keyword : String} (h : lib.upper keyword = "WINDOW") (raw : String)
    (rest : List String) (values : ClauseValues F) :
    clauseLoop lib command hasEvery (keyword :: raw :: rest) values =
      match parseMillis "WINDOW" raw with
      | .error error => .error error
      | .ok value => clauseLoop lib command hasEvery rest { values with windowMs := some value } := by
  have hwhere : lib.upper keyword ≠ "WHERE" := by
    rw [h]
    decide
  rw [clauseLoop.eq_def]
  exact (if_neg hwhere).trans (if_pos h)

/-- An `EVERY` clause, whatever follows. -/
theorem clauseLoop_every {keyword : String} (hevery : hasEvery = true) (h : lib.upper keyword = "EVERY")
    (raw : String) (rest : List String) (values : ClauseValues F) :
    clauseLoop lib command hasEvery (keyword :: raw :: rest) values =
      match parseMillis "EVERY" raw with
      | .error error => .error error
      | .ok value => clauseLoop lib command hasEvery rest { values with everyMs := some value } := by
  have hwhere : lib.upper keyword ≠ "WHERE" := by
    rw [h]
    decide
  have hwindow : lib.upper keyword ≠ "WINDOW" := by
    rw [h]
    decide
  rw [clauseLoop.eq_def]
  exact (if_neg hwhere).trans ((if_neg hwindow).trans (if_pos ⟨hevery, h⟩))

/-- Any other token where a clause should begin. -/
theorem clauseLoop_unexpected {token : String} (hwhere : lib.upper token ≠ "WHERE")
    (hwindow : lib.upper token ≠ "WINDOW") (hevery : ¬ (hasEvery = true ∧ lib.upper token = "EVERY"))
    (rest : List String) (values : ClauseValues F) : clauseLoop lib command hasEvery (token :: rest) values =
      .error ⟨"unexpected token in " ++ command ++ ": " ++ lib.upper token⟩ := by
  rw [clauseLoop.eq_def]
  simp only [if_neg hwhere, if_neg hwindow, if_neg hevery]

/-- The loop accepts clauses and holds what they set. -/
theorem clauseLoop_of_clauses {tokens : List String} {clauses : List (Clause F)}
    (h : Clauses lib hasEvery tokens clauses) (values : ClauseValues F) :
    clauseLoop lib command hasEvery tokens values = .ok (clauses.foldl Clause.apply values) := by
  induction h generalizing values with
  | done => rw [clauseLoop]; rfl
  | @filter keyword tokens rest conditions clauses hkeyword hconditions hends _ ih =>
      rw [clauseLoop_where hkeyword, parseWhereConditions_of_conditions hconditions hends]
      dsimp only
      rw [List.drop_left, ih]
      rfl
  | window hkeyword hms _ ih =>
      rw [clauseLoop_window hkeyword, parseMillis_eq_ok_iff.mpr hms]
      exact ih _
  | every hevery hkeyword hms _ ih =>
      rw [clauseLoop_every hevery hkeyword, parseMillis_eq_ok_iff.mpr hms]
      exact ih _

/-- The loop accepts nothing but clauses. -/
theorem clauses_of_clauseLoop {tokens : List String} {values result : ClauseValues F}
    (h : clauseLoop lib command hasEvery tokens values = .ok result) :
    ∃ clauses, Clauses lib hasEvery tokens clauses ∧ result = clauses.foldl Clause.apply values := by
  induction tokens, values using clauseLoop.induct lib hasEvery with
  | case1 values =>
      rw [clauseLoop] at h
      obtain rfl := Except.ok.inj h
      exact ⟨[], .done, rfl⟩
  | case2 values keyword rest hkeyword error hparse =>
      rw [clauseLoop_where hkeyword, hparse] at h
      cases h
  | case3 values keyword rest hkeyword found hparse ih =>
      rw [clauseLoop_where hkeyword, hparse] at h
      obtain ⟨clauses, hclauses, rfl⟩ := ih h
      -- What is dropped are the conditions, so that the clauses begin where they end.
      obtain ⟨part, rest, conditions, rfl, hconditions, hends, rfl⟩ := parseWhereConditions_eq_ok_iff.mp hparse
      rw [List.drop_left] at hclauses
      exact ⟨.filter conditions :: clauses, .filter hkeyword hconditions hends hclauses, rfl⟩
  | case4 values keyword hwhere hkeyword =>
      rw [clauseLoop, if_neg hwhere, if_pos hkeyword] at h
      cases h
  | case5 values keyword hwhere hkeyword raw rest error hparse =>
      rw [clauseLoop_window hkeyword, hparse] at h
      cases h
  | case6 values keyword hwhere hkeyword raw rest ms hparse ih =>
      rw [clauseLoop_window hkeyword, hparse] at h
      obtain ⟨clauses, hclauses, rfl⟩ := ih h
      exact ⟨.window ms :: clauses, .window hkeyword (parseMillis_eq_ok_iff.mp hparse) hclauses, rfl⟩
  | case7 values keyword hwhere hwindow hkeyword =>
      rw [clauseLoop, if_neg hwhere, if_neg hwindow, if_pos hkeyword] at h
      cases h
  | case8 values keyword hwhere hwindow hkeyword raw rest error hparse =>
      rw [clauseLoop_every hkeyword.1 hkeyword.2, hparse] at h
      cases h
  | case9 values keyword hwhere hwindow hkeyword raw rest ms hparse ih =>
      rw [clauseLoop_every hkeyword.1 hkeyword.2, hparse] at h
      obtain ⟨clauses, hclauses, rfl⟩ := ih h
      have hms := parseMillis_eq_ok_iff.mp hparse
      exact ⟨.every ms :: clauses, .every hkeyword.1 hkeyword.2 hms hclauses, rfl⟩
  | case10 values keyword rest hwhere hwindow hevery =>
      rw [clauseLoop_unexpected hwhere hwindow hevery] at h
      cases h

end Clauses

/-! ## The last value of each field -/

section Last

/-- The value of a condition on the strength. -/
def Condition.strength? : Condition F → Option F
  | .strength x => some x
  | _ => none

/-- The value of a condition on the salience. -/
def Condition.salience? : Condition F → Option F
  | .salience x => some x
  | _ => none

/-- The value of a condition on the adrenaline tag. -/
def Condition.adreno? : Condition F → Option Bool
  | .adreno value => some value
  | _ => none

/-- The conditions of a clause. -/
def Clause.conditions : Clause F → List (Condition F)
  | .filter conditions => conditions
  | _ => []

/-- The value of a `WINDOW`. -/
def Clause.window? : Clause F → Option UInt32
  | .window ms => some ms
  | _ => none

/-- The value of an `EVERY`. -/
def Clause.every? : Clause F → Option UInt32
  | .every ms => some ms
  | _ => none

/-- For each field of the filter the value of its last condition. -/
def lastFilter (conditions : List (Condition F)) : ViewFilter F where
  minStrength := (conditions.filterMap Condition.strength?).getLast?
  minSalience := (conditions.filterMap Condition.salience?).getLast?
  adreno := (conditions.filterMap Condition.adreno?).getLast?

/-- For each field the value of its last occurrence. -/
def lastValues (clauses : List (Clause F)) : ClauseValues F where
  windowMs := (clauses.filterMap Clause.window?).getLast?
  everyMs := (clauses.filterMap Clause.every?).getLast?
  filter := lastFilter (clauses.flatMap Clause.conditions)

omit [FloatLike F] in
/-- Conditions that follow others override them field by field. -/
theorem foldl_condition_apply (conditions more : List (Condition F)) :
    more.foldl Condition.apply (lastFilter conditions) = lastFilter (conditions ++ more) := by
  induction more generalizing conditions with
  | nil => rw [List.append_nil, List.foldl_nil]
  | cons condition more ih =>
      have hone : condition.apply (lastFilter conditions) = lastFilter (conditions ++ [condition]) := by
        cases condition <;> simp [Condition.apply, lastFilter, Condition.strength?, Condition.salience?,
          Condition.adreno?]
      rw [List.foldl_cons, hone, ih, List.append_assoc, List.singleton_append]

omit [FloatLike F] in
/-- So do clauses. -/
theorem foldl_clause_apply (clauses more : List (Clause F)) :
    more.foldl Clause.apply (lastValues clauses) = lastValues (clauses ++ more) := by
  induction more generalizing clauses with
  | nil => rw [List.append_nil, List.foldl_nil]
  | cons clause more ih =>
      have hone : clause.apply (lastValues clauses) = lastValues (clauses ++ [clause]) := by
        cases clause with
        | filter conditions =>
            simp [Clause.apply, lastValues, foldl_condition_apply, Clause.conditions, Clause.window?, Clause.every?]
        | window ms => simp [Clause.apply, lastValues, Clause.conditions, Clause.window?, Clause.every?]
        | every ms => simp [Clause.apply, lastValues, Clause.conditions, Clause.window?, Clause.every?]
      rw [List.foldl_cons, hone, ih, List.append_assoc, List.singleton_append]

omit [FloatLike F] in
/-- The values that clauses set one after another are the last ones. -/
theorem foldl_clause_apply_start (clauses : List (Clause F)) :
    clauses.foldl Clause.apply .start = lastValues clauses :=
  foldl_clause_apply [] clauses

end Last

/-! ## The commands -/

section Commands

variable {lib : LqlLibrary F} {tokens : List String} {ast : LqlAst F}

/-- The loop accepts some tokens exactly if they are clauses of the grammar, and ends with the last values of
them. -/
theorem clauseLoop_eq_ok_iff {command : String} {hasEvery : Bool} {values : ClauseValues F} :
    clauseLoop lib command hasEvery tokens .start = .ok values ↔
      ∃ clauses, Clauses lib hasEvery tokens clauses ∧ values = lastValues clauses := by
  constructor
  · intro h
    obtain ⟨clauses, hclauses, rfl⟩ := clauses_of_clauseLoop h
    exact ⟨clauses, hclauses, foldl_clause_apply_start clauses⟩
  · rintro ⟨clauses, hclauses, rfl⟩
    rw [clauseLoop_of_clauses hclauses, foldl_clause_apply_start]

/-- A command that is made of the values of its clauses. -/
theorem map_clauseLoop_eq_ok_iff {command : String} {hasEvery : Bool} {build : ClauseValues F → LqlAst F} :
    (clauseLoop lib command hasEvery tokens .start).map build = .ok ast ↔
      ∃ clauses, Clauses lib hasEvery tokens clauses ∧ ast = build (lastValues clauses) := by
  rw [map_eq_ok_iff]
  constructor
  · rintro ⟨values, hvalues, rfl⟩
    obtain ⟨clauses, hclauses, rfl⟩ := clauseLoop_eq_ok_iff.mp hvalues
    exact ⟨clauses, hclauses, rfl⟩
  · rintro ⟨clauses, hclauses, rfl⟩
    exact ⟨_, clauseLoop_eq_ok_iff.mpr ⟨clauses, hclauses, rfl⟩, rfl⟩

/-- A SELECT is a pattern and clauses without EVERY. -/
theorem parseSelect_eq_ok_iff : parseSelect lib tokens = .ok ast ↔
    ∃ pattern rest clauses, tokens = pattern :: rest ∧ Clauses lib false rest clauses ∧
      ast = .select pattern (lastValues clauses).windowMs (lastValues clauses).filter := by
  cases tokens with
  | nil => simp [parseSelect]
  | cons pattern rest =>
      rw [parseSelect, map_clauseLoop_eq_ok_iff]
      constructor
      · rintro ⟨clauses, hclauses, rfl⟩
        exact ⟨pattern, rest, clauses, rfl, hclauses, rfl⟩
      · rintro ⟨_, _, clauses, ⟨rfl, rfl⟩, hclauses, rfl⟩
        exact ⟨clauses, hclauses, rfl⟩

/-- A SUBSCRIBE is a pattern and clauses, among them EVERY. -/
theorem parseSubscribe_eq_ok_iff : parseSubscribe lib tokens = .ok ast ↔
    ∃ pattern rest clauses, tokens = pattern :: rest ∧ Clauses lib true rest clauses ∧
      ast = .subscribe pattern (lastValues clauses).windowMs (lastValues clauses).everyMs
        (lastValues clauses).filter := by
  cases tokens with
  | nil => simp [parseSubscribe]
  | cons pattern rest =>
      rw [parseSubscribe, map_clauseLoop_eq_ok_iff]
      constructor
      · rintro ⟨clauses, hclauses, rfl⟩
        exact ⟨pattern, rest, clauses, rfl, hclauses, rfl⟩
      · rintro ⟨_, _, clauses, ⟨rfl, rfl⟩, hclauses, rfl⟩
        exact ⟨clauses, hclauses, rfl⟩

/-- A query is parsed as its words. -/
theorem parseLql_of_words {input command : String} {parts : List String}
    (h : splitWhitespace input = command :: parts) :
    parseLql lib input = parseCommand lib (lib.upper command) parts := by
  have hne : trim input ≠ "" := by
    intro hempty
    have hnone := splitWhitespace_trim input
    rw [hempty, h] at hnone
    cases hnone
  rw [parseLql, if_neg hne, splitWhitespace_trim, h]

end Commands

end Grammar

end LiminalDB
