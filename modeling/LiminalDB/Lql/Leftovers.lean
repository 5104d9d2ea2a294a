import LiminalDB.Lql.Rendering

/-! # Words that no clause reads

A word that is no keyword is put at the end of a query that is accepted, or before one of its keywords. Some
parsers of `lql.rs` then fail: they match every token, or take their tokens in pairs. Others stop reading
early. `never_ignores_iff` says which queries are read to their end. -/

namespace LiminalDB

variable {F : Type}

/-! ## One more word -/

/-- A word is put at the end, or before a keyword. -/
inductive Inserted (IsKeyword : String → Prop) (word : String) : List String → List String → Prop
  | atEnd : Inserted IsKeyword word [] [word]
  | before {token : String} {rest : List String} (hkeyword : IsKeyword token) :
      Inserted IsKeyword word (token :: rest) (word :: token :: rest)
  | behind {token : String} {rest edited : List String} (h : Inserted IsKeyword word rest edited) :
      Inserted IsKeyword word (token :: rest) (token :: edited)

/-- A parser fails. -/
def Fails {α : Type} (result : Except LqlError α) : Prop := ∃ error, result = .error error

/-- Every word that is no keyword, at the end of a query or before one of its keywords, makes it an error. -/
def NeverIgnores [FloatLike F] (lib : LqlLibrary F) (query : String) : Prop :=
  ∀ word edited, ¬ lib.IsKeyword word →
    Inserted lib.IsKeyword word (splitWhitespace query) (splitWhitespace edited) → Fails (parseLql lib edited)

/-- The queries that end in free text or JSON: `PIVOT` with a `REASON`, and `REFLEX TUNE`. -/
def EndsInText (lib : LqlLibrary F) : List String → Prop
  | [] => False
  | command :: parts =>
      lib.upper command = "PIVOT" ∧ (behindReason parts).isSome ∨
        lib.upper command = "REFLEX" ∧ ∃ action ∈ parts.head?, lib.upper action = "TUNE"

/-- The queries that are read to their end: those of the commands that match every token, and `VARIANTS`
alone. -/
def ReadToEnd (lib : LqlLibrary F) : List String → Prop
  | [] => False
  | command :: parts =>
      lib.upper command ∈ ["SELECT", "SUBSCRIBE", "UNSUBSCRIBE", "INTROSPECT", "INTEND", "SLIDE"] ∨
        lib.upper command = "VARIANTS" ∧ parts = []

section Inserting

variable {IsKeyword : String → Prop} {word : String} {tokens edited : List String}

/-- The edited query has one word more. -/
theorem Inserted.length_eq (h : Inserted IsKeyword word tokens edited) : edited.length = tokens.length + 1 := by
  induction h with
  | atEnd => rfl
  | before _ => rfl
  | behind _ ih => simp [ih]

/-- Its words are those from before and the new one. -/
theorem Inserted.mem (h : Inserted IsKeyword word tokens edited) {token : String} (hmem : token ∈ edited) :
    token = word ∨ token ∈ tokens := by
  induction h with
  | atEnd => exact .inl (List.mem_singleton.mp hmem)
  | before _ => exact List.mem_cons.mp hmem
  | behind _ ih =>
      rcases List.mem_cons.mp hmem with rfl | hrest
      · exact .inr List.mem_cons_self
      · exact (ih hrest).imp_right (List.mem_cons_of_mem _)

/-- A word may always be put at the end. -/
theorem inserted_append (IsKeyword : String → Prop) (word : String) (tokens : List String) :
    Inserted IsKeyword word tokens (tokens ++ [word]) := by
  induction tokens with
  | nil => exact .atEnd
  | cons token rest ih => exact .behind ih

end Inserting

/-- What fails does so whatever would be made of its value. -/
theorem Fails.map {α β : Type} {result : Except LqlError α} (h : Fails result) (f : α → β) :
    Fails (result.map f) := by
  obtain ⟨error, rfl⟩ := h
  exact ⟨error, rfl⟩

/-- A result that is no value is an error. -/
theorem fails_of_forall_ne {α : Type} {result : Except LqlError α} (h : ∀ value, result ≠ .ok value) :
    Fails result := by
  cases result with
  | error error => exact ⟨error, rfl⟩
  | ok value => exact absurd rfl (h value)

section Keywords

variable {lib : LqlLibrary F} {word : String}

/-- A word that is no keyword does not read as one in upper case. -/
theorem upper_ne (h : ¬ lib.IsKeyword word) {k : String} (hk : k ∈ keywords) : lib.upper word ≠ k := by
  rintro rfl
  exact h hk

/-- A word that equals a keyword up to ASCII case reads as one in upper case. -/
theorem isKeyword_of_eqIgnoreAsciiCase {k : String} (hk : k ∈ keywords) (h : eqIgnoreAsciiCase word k = true) :
    lib.IsKeyword word := by
  have hlower : word.toList.map Char.toLower = k.toList.map Char.toLower := of_decide_eq_true h
  obtain ⟨hascii, hupper⟩ := map_toUpper_eq_of_map_toLower_eq (isUpper_of_mem_keywords k hk) hlower
  rw [LqlLibrary.IsKeyword, upper_ascii hascii, hupper, String.ofList_toList]
  exact hk

/-- A number is no keyword: it has a digit. -/
theorem not_isKeyword_of_parseUnsigned {bits n : ℕ} (h : parseUnsigned bits word = some n) :
    ¬ lib.IsKeyword word := by
  obtain ⟨c, hc, hdigit⟩ := exists_digit_of_parseUnsigned h
  have hrange : 48 ≤ c.toNat ∧ c.toNat ≤ 57 := Char.isDigit_iff_toNat.mp hdigit
  have hupper : c.toUpper.toNat = c.toNat := by
    rw [toNat_toUpper, if_neg (by omega)]
  refine not_isKeyword_of_mem hc (by omega) ?_
  rw [← Bool.not_eq_true, isUpper_iff_toNat, hupper]
  omega

end Keywords

/-! ## SELECT and SUBSCRIBE -/

section Clauses

variable [FloatLike F] {lib : LqlLibrary F} {word : String} {command : String} {hasEvery : Bool}

/-- A list of clauses begins with a keyword. -/
theorem Clauses.isKeyword_head {tokens : List String} {clauses : List (Clause F)}
    (h : Clauses lib hasEvery tokens clauses) : ∀ token ∈ tokens.head?, lib.IsKeyword token := by
  intro token htoken
  cases h with
  | done => cases htoken
  | filter hkeyword _ _ _ =>
      obtain rfl := Option.some.inj htoken
      exact isKeyword_of_upper_eq (by decide) hkeyword
  | window hkeyword _ _ =>
      obtain rfl := Option.some.inj htoken
      exact isKeyword_of_upper_eq (by decide) hkeyword
  | every _ hkeyword _ _ =>
      obtain rfl := Option.some.inj htoken
      exact isKeyword_of_upper_eq (by decide) hkeyword

/-- A token before clauses makes no clause: what follows a keyword is no keyword. -/
theorem Clauses.not_cons {tokens : List String} {clauses more : List (Clause F)} {token : String}
    (h : Clauses lib hasEvery tokens clauses) : ¬ Clauses lib hasEvery (token :: tokens) more := by
  have hhead := h.isKeyword_head
  intro hmore
  cases hmore with
  | filter _ hconditions _ _ =>
      cases hconditions with
      | one hreads => exact hreads.not_isKeyword (hhead _ rfl)
      | and hreads _ _ => exact hreads.not_isKeyword (hhead _ rfl)
  | window _ hms _ => exact not_isKeyword_of_parseUnsigned hms.1 (hhead _ rfl)
  | every _ _ hms _ => exact not_isKeyword_of_parseUnsigned hms.1 (hhead _ rfl)

/-- A word where a clause should begin. -/
theorem fails_clauseLoop_word (hword : ¬ lib.IsKeyword word) (rest : List String) (values : ClauseValues F) :
    Fails (clauseLoop lib command hasEvery (word :: rest) values) :=
  ⟨_, clauseLoop_unexpected (upper_ne hword (by decide)) (upper_ne hword (by decide))
    (fun hevery => upper_ne hword (by decide) hevery.2) rest values⟩

/-- A word where an `AND` should stand. -/
theorem fails_whereLoop_word (hword : ¬ lib.IsKeyword word) (rest : List String) (consumed : ℕ)
    (filter : ViewFilter F) : Fails (whereLoop lib (word :: rest) consumed false filter) := by
  have hstop : ¬ (lib.upper word = "WINDOW" ∨ lib.upper word = "EVERY") :=
    not_or.mpr ⟨upper_ne hword (by decide), upper_ne hword (by decide)⟩
  refine ⟨⟨"expected AND between WHERE clauses"⟩, ?_⟩
  rw [whereLoop, if_neg hstop, if_pos (by simp), if_neg (upper_ne hword (by decide))]

/-- Conditions that cannot be read make the whole `WHERE` an error. -/
theorem fails_parseWhereConditions {tokens : List String} {filter : ViewFilter F}
    (h : Fails (whereLoop lib tokens 0 true filter)) : Fails (parseWhereConditions lib tokens filter) := by
  obtain ⟨error, herror⟩ := h
  rw [parseWhereConditions]
  split_ifs
  · exact ⟨_, rfl⟩
  · rw [herror]
    exact ⟨error, rfl⟩

/-- A word among conditions, or right behind them, makes the loop fail. -/
theorem fails_whereLoop_inserted {tokens rest edited : List String} {conditions : List (Condition F)}
    (h : Conditions lib tokens conditions) (hends : EndsWhere lib rest) (hword : ¬ lib.IsKeyword word)
    (hinserted : Inserted lib.IsKeyword word (tokens ++ rest) edited) (consumed : ℕ) (filter : ViewFilter F) :
    Fails (whereLoop lib edited consumed true filter) ∨
      ∃ more, Inserted lib.IsKeyword word rest more ∧ edited = tokens ++ more ∧ EndsWhere lib more := by
  induction h generalizing edited consumed filter with
  | @one token condition hreads =>
      cases hinserted with
      -- A condition is no keyword, and no word is put before it.
      | before hkeyword => exact absurd hkeyword hreads.not_isKeyword
      | behind hrest =>
          change Inserted lib.IsKeyword word rest _ at hrest
          cases hrest with
          | atEnd =>
              left
              rw [whereLoop_condition hreads]
              exact fails_whereLoop_word hword _ _ _
          | before _ =>
              left
              rw [whereLoop_condition hreads]
              exact fails_whereLoop_word hword _ _ _
          | behind hmore => exact .inr ⟨_, .behind hmore, rfl, hends⟩
  | @and token keyword more condition conditions hreads hand _ ih =>
      cases hinserted with
      | before hkeyword => exact absurd hkeyword hreads.not_isKeyword
      | behind hrest =>
          rw [whereLoop_condition hreads]
          cases hrest with
          | before _ => exact .inl (fails_whereLoop_word hword _ _ _)
          | behind hmore =>
              rw [whereLoop_and hand]
              rcases ih hmore (consumed + 1 + 1) (condition.apply filter) with
                hfails | ⟨others, hothers, rfl, hends⟩
              · exact .inl hfails
              · exact .inr ⟨others, hothers, rfl, hends⟩

/-- By induction over the clauses: wherever the word is put, before a keyword or at the end, the loop comes
upon it and fails. -/
theorem fails_clauseLoop_inserted {tokens edited : List String} {clauses : List (Clause F)}
    (h : Clauses lib hasEvery tokens clauses) (hword : ¬ lib.IsKeyword word)
    (hinserted : Inserted lib.IsKeyword word tokens edited) (values : ClauseValues F) :
    Fails (clauseLoop lib command hasEvery edited values) := by
  induction h generalizing edited values with
  | done =>
      cases hinserted
      exact fails_clauseLoop_word hword _ _
  | @filter keyword tokens rest conditions clauses hkeyword hconditions hends _ ih =>
      cases hinserted with
      | before _ => exact fails_clauseLoop_word hword _ _
      | @behind _ _ edited hrest =>
          -- The word is among the conditions, or in the clauses behind them.
          rw [clauseLoop_where hkeyword]
          rcases fails_whereLoop_inserted hconditions hends hword hrest 0 values.filter with
            hfails | ⟨more, hmore, rfl, hends⟩
          · obtain ⟨error, herror⟩ := fails_parseWhereConditions hfails
            rw [herror]
            exact ⟨error, rfl⟩
          · rw [parseWhereConditions_of_conditions hconditions hends]
            dsimp only
            rw [List.drop_left]
            exact ih hmore _
  | @window keyword raw rest ms clauses hkeyword hms _ ih =>
      cases hinserted with
      | before _ => exact fails_clauseLoop_word hword _ _
      | behind hrest =>
          cases hrest with
          -- Nor is a number.
          | before hraw => exact absurd hraw (not_isKeyword_of_parseUnsigned hms.1)
          | behind hmore =>
              rw [clauseLoop_window hkeyword, parseMillis_eq_ok_iff.mpr hms]
              exact ih hmore _
  | @every keyword raw rest ms clauses hevery hkeyword hms _ ih =>
      cases hinserted with
      | before _ => exact fails_clauseLoop_word hword _ _
      | behind hrest =>
          cases hrest with
          | before hraw => exact absurd hraw (not_isKeyword_of_parseUnsigned hms.1)
          | behind hmore =>
              rw [clauseLoop_every hevery hkeyword, parseMillis_eq_ok_iff.mpr hms]
              exact ih hmore _

/-- A word in front of a pattern becomes the pattern, and the old one is no clause. -/
theorem fails_clauseLoop_pattern {pattern : String} {rest edited : List String} {clauses : List (Clause F)}
    (h : Clauses lib hasEvery rest clauses) (hword : ¬ lib.IsKeyword word)
    (hinserted : Inserted lib.IsKeyword word (pattern :: rest) edited) :
    ∃ first tail, edited = first :: tail ∧ Fails (clauseLoop lib command hasEvery tail .start) := by
  cases hinserted with
  | before _ =>
      refine ⟨word, pattern :: rest, rfl, fails_of_forall_ne fun values hvalues => ?_⟩
      obtain ⟨more, hmore, -⟩ := clauses_of_clauseLoop hvalues
      exact h.not_cons hmore
  | behind hrest => exact ⟨pattern, _, rfl, fails_clauseLoop_inserted h hword hrest _⟩

end Clauses

/-! ## The commands that read to their end -/

section Readers

variable {lib : LqlLibrary F} {word : String} {parts edited : List String} {ast : LqlAst F}

/-- A `SELECT` with one more word fails, be the word put among its clauses or in the place of its pattern. -/
theorem fails_parseSelect [FloatLike F] (h : parseSelect lib parts = .ok ast) (hword : ¬ lib.IsKeyword word)
    (hinserted : Inserted lib.IsKeyword word parts edited) : Fails (parseSelect lib edited) := by
  obtain ⟨pattern, rest, clauses, rfl, hclauses, -⟩ := parseSelect_eq_ok_iff.mp h
  obtain ⟨first, tail, rfl, hfails⟩ := fails_clauseLoop_pattern hclauses hword hinserted
  exact hfails.map _

/-- So does a `SUBSCRIBE`, by the same loop. -/
theorem fails_parseSubscribe [FloatLike F] (h : parseSubscribe lib parts = .ok ast)
    (hword : ¬ lib.IsKeyword word) (hinserted : Inserted lib.IsKeyword word parts edited) :
    Fails (parseSubscribe lib edited) := by
  obtain ⟨pattern, rest, clauses, rfl, hclauses, -⟩ := parseSubscribe_eq_ok_iff.mp h
  obtain ⟨first, tail, rfl, hfails⟩ := fails_clauseLoop_pattern hclauses hword hinserted
  exact hfails.map _

/-- An `UNSUBSCRIBE` takes one id and nothing else. -/
theorem fails_parseUnsubscribe (h : parseUnsubscribe parts = .ok ast)
    (hinserted : Inserted lib.IsKeyword word parts edited) :
    Fails (parseUnsubscribe edited : Except LqlError (LqlAst F)) := by
  match parts, h with
  | [raw], _ =>
      obtain ⟨first, second, rfl⟩ := List.length_eq_two.mp hinserted.length_eq
      exact ⟨_, rfl⟩

/-- Three tokens are too many for a `TOP`. -/
theorem fails_parseTopClause (h : ∃ topN, parseTopClause parts = .ok topN) (hword : ¬ lib.IsKeyword word)
    (hinserted : Inserted lib.IsKeyword word parts edited) : Fails (parseTopClause edited) := by
  obtain ⟨topN, h⟩ := h
  have hlength := hinserted.length_eq
  match parts, h with
  | [], _ =>
      cases hinserted
      have htop : eqIgnoreAsciiCase word "TOP" = false := by
        by_contra htop
        have htoken : "TOP" ∈ keywords := by decide
        exact hword (isKeyword_of_eqIgnoreAsciiCase htoken (by simpa using htop))
      exact ⟨_, by rw [parseTopClause, htop]; rfl⟩
  | [token], h =>
      rw [parseTopClause] at h
      split_ifs at h
  | [token, raw], _ =>
      obtain ⟨first, second, third, rfl⟩ := List.length_eq_three.mp hlength
      rw [parseTopClause]
      split_ifs
      · exact ⟨_, rfl⟩
      · exact ⟨_, rfl⟩
  | token :: _ :: _ :: _, h =>
      rw [parseTopClause] at h
      split_ifs at h

/-- An `INTROSPECT` takes its target and a `TOP` with a number, or one id of an epoch, and fails at any other
word. -/
theorem fails_parseIntrospect (h : parseIntrospect lib parts = .ok ast) (hword : ¬ lib.IsKeyword word)
    (hinserted : Inserted lib.IsKeyword word parts edited) : Fails (parseIntrospect lib edited) := by
  match parts, h with
  | target :: rest, h =>
      cases hinserted with
      | before _ =>
          rw [parseIntrospect.eq_def]
          dsimp only
          split
          case h_6 => exact ⟨_, rfl⟩
          all_goals
            rename_i hupper
            exact absurd hupper (upper_ne hword (by decide))
      | @behind _ _ edited hrest =>
          -- The target stays, and what follows it is one token too many.
          have htop : ∀ f : Option UInt64 → LqlAst F, (parseTopClause rest).map f = .ok ast →
              Fails ((parseTopClause edited).map f) := by
            intro f hmap
            obtain ⟨topN, htopN, -⟩ := map_eq_ok_iff.mp hmap
            exact (fails_parseTopClause ⟨topN, htopN⟩ hword hrest).map f
          rw [parseIntrospect.eq_def] at h ⊢
          dsimp only at h ⊢
          split at h
          case h_5 =>
            match rest, h with
            | [raw], _ =>
                obtain ⟨first, second, rfl⟩ := List.length_eq_two.mp hrest.length_eq
                exact ⟨_, rfl⟩
          case h_6 => cases h
          all_goals exact htop _ h

/-- Fields come in pairs, when a key without a value is an error. -/
theorem even_of_fieldLoop {σ : Type} {field : String → Option String → σ → Except LqlError σ}
    (hnone : ∀ key fields, Fails (field key none fields)) {tokens : List String} {fields result : σ}
    (h : fieldLoop lib field tokens fields = .ok result) : Even tokens.length := by
  induction tokens, fields using fieldLoop.induct lib field with
  | case1 fields => simp
  | case2 key fields =>
      obtain ⟨error, herror⟩ := hnone (lib.upper key) fields
      rw [fieldLoop, herror] at h
      cases h
  | case3 fields key raw rest error hfield =>
      rw [fieldLoop, hfield] at h
      cases h
  | case4 fields key raw rest next hfield ih =>
      rw [fieldLoop, hfield] at h
      simpa [Nat.even_add_one] using ih h

/-- A loop over pairs of key and value fails on an odd number of words, for the last key has no value. -/
theorem fails_fieldLoop {σ : Type} {field : String → Option String → σ → Except LqlError σ}
    (hnone : ∀ key fields, Fails (field key none fields)) {tokens : List String} (hodd : ¬ Even tokens.length)
    (fields : σ) : Fails (fieldLoop lib field tokens fields) :=
  fails_of_forall_ne fun _ h => hodd (even_of_fieldLoop hnone h)

/-- A key of an `INTEND` without a value is an error, whatever key it is. -/
theorem fails_intendField_none (key : String) (fields : IntendFields F) :
    Fails (intendField lib key none fields) := by
  rw [intendField.eq_def]
  split <;> first | exact ⟨_, rfl⟩ | contradiction

/-- So is a key of a `SLIDE`. -/
theorem fails_slideField_none (key : String) (fields : SlideFields) : Fails (slideField lib key none fields) := by
  rw [slideField.eq_def]
  split <;> first | exact ⟨_, rfl⟩ | contradiction

/-- An `INTEND` that was accepted has pairs of words only, and fails with one word more. -/
theorem fails_parseIntend [FloatLike F] (h : parseIntend lib parts = .ok ast)
    (hinserted : Inserted lib.IsKeyword word parts edited) : Fails (parseIntend lib edited) := by
  have heven : Even parts.length := by
    rw [parseIntend] at h
    split_ifs at h
    cases hfields : fieldLoop lib (intendField lib) parts ⟨none, none, none, none⟩ with
    | error error =>
        rw [hfields] at h
        cases h
    | ok fields => exact even_of_fieldLoop fails_intendField_none hfields
  have hodd : ¬ Even edited.length := by
    rw [hinserted.length_eq, Nat.even_add_one]
    exact not_not.mpr heven
  obtain ⟨error, herror⟩ := @fails_fieldLoop _ lib _ _ fails_intendField_none _ hodd ⟨none, none, none, none⟩
  rw [parseIntend]
  split_ifs
  · exact ⟨_, rfl⟩
  · rw [herror]
    exact ⟨error, rfl⟩

/-- So does a `SLIDE`. -/
theorem fails_parseSlide (h : parseSlide lib parts = .ok ast)
    (hinserted : Inserted lib.IsKeyword word parts edited) : Fails (parseSlide lib edited) := by
  have hlength := hinserted.length_eq
  match parts, h with
  | set :: id :: first :: second :: rest, h =>
      rw [parseSlide] at h
      split_ifs at h
      cases hfields : fieldLoop lib (slideField lib) (first :: second :: rest) ⟨[], [], none⟩ with
      | error error =>
          rw [hfields] at h
          cases h
      | ok fields =>
          have heven := even_of_fieldLoop fails_slideField_none hfields
          match edited, hlength with
          | newSet :: newId :: newFirst :: newSecond :: newRest, hlength =>
              -- One token more leaves a key without a value.
              have hodd : ¬ Even (newFirst :: newSecond :: newRest).length := by
                simp only [List.length_cons] at hlength heven ⊢
                rw [show newRest.length = rest.length + 1 by omega]
                simpa [Nat.even_add_one] using heven
              obtain ⟨error, herror⟩ := @fails_fieldLoop _ lib _ _ fails_slideField_none _ hodd ⟨[], [], none⟩
              rw [parseSlide]
              split_ifs
              · exact ⟨_, rfl⟩
              · rw [herror]
                exact ⟨error, rfl⟩

/-- A word behind `VARIANTS` alone. -/
theorem fails_parseVariants_word [FloatLike F] (hword : ¬ lib.IsKeyword word) :
    Fails (parseVariants lib [word]) := by
  refine ⟨⟨"unexpected VARIANTS directive: " ++ word⟩, ?_⟩
  rw [parseVariants, if_neg (upper_ne hword (by decide)), if_neg (upper_ne hword (by decide))]

/-- A command that is no keyword is unknown. -/
theorem fails_parseCommand [FloatLike F] (hword : ¬ lib.IsKeyword word) (parts : List String) :
    Fails (parseCommand lib (lib.upper word) parts) := by
  rw [parseCommand.eq_def]
  split
  case h_12 => exact ⟨_, rfl⟩
  all_goals
    rename_i hupper
    exact absurd hupper (upper_ne hword (by decide))

end Readers

/-! ## The commands that do not -/

section Ignoring

variable {lib : LqlLibrary F} {tokens : List String}

/-- A word that is no keyword. -/
theorem not_isKeyword_zzz : ¬ lib.IsKeyword "zzz" := by
  rw [LqlLibrary.IsKeyword, upper_ascii (by simp)]
  decide

/-- The word `zzz` does not read as a keyword. -/
theorem upper_zzz_ne {k : String} (hk : k ∈ keywords) : lib.upper "zzz" ≠ k := upper_ne not_isKeyword_zzz hk

/-- One more word at the end makes no `REASON` where there was none. -/
theorem behindReason_append (h : behindReason tokens = none) : behindReason (tokens ++ ["zzz"]) = none := by
  induction tokens with
  | nil => decide
  | cons token rest ih =>
      rw [behindReason] at h
      split_ifs at h with hreason
      rw [List.cons_append, behindReason, if_neg hreason, ih h]

variable [FloatLike F] {ast : LqlAst F}

/-- The loop of `VARIANTS SELECT` passes every word that it does not know. -/
theorem variantsLoop_other {key : String} (hwhere : lib.upper key ≠ "WHERE") (hlimit : lib.upper key ≠ "LIMIT")
    (rest : List String) (limit : Option UInt64) (minProbability : Option F) :
    variantsLoop lib (key :: rest) limit minProbability = variantsLoop lib rest limit minProbability := by
  rw [variantsLoop.eq_def]
  simp only [if_neg hwhere, if_neg hlimit]

/-- It passes one behind its clauses. -/
theorem variantsLoop_append {limit : Option UInt64} {minProbability : Option F}
    {result : Option UInt64 × Option F} (h : variantsLoop lib tokens limit minProbability = .ok result) :
    variantsLoop lib (tokens ++ ["zzz"]) limit minProbability = .ok result := by
  induction tokens, limit, minProbability using variantsLoop.induct lib with
  | case1 limit minProbability =>
      -- No token is left, and the new one is passed over.
      rw [List.nil_append, variantsLoop_other (upper_zzz_ne (by decide)) (upper_zzz_ne (by decide))]
      exact h
  | case2 limit minProbability key hkey =>
      -- `WHERE` with nothing behind it
      rw [variantsLoop, if_pos hkey] at h
      cases h
  | case3 limit minProbability key hkey condition rest hstrip =>
      -- a condition that is none
      rw [variantsLoop, if_pos hkey, hstrip] at h
      cases h
  | case4 limit minProbability key hkey condition rest value hstrip hparse =>
      -- a probability that cannot be read
      rw [variantsLoop, if_pos hkey, hstrip] at h
      simp only [hparse] at h
      cases h
  | case5 limit minProbability key hkey condition rest value hstrip parsed hparse ih =>
      rw [variantsLoop, if_pos hkey, hstrip] at h
      simp only [hparse] at h
      rw [List.cons_append, List.cons_append, variantsLoop, if_pos hkey, hstrip]
      simp only [hparse]
      exact ih h
  | case6 limit minProbability key hwhere hkey =>
      -- `LIMIT` with nothing behind it
      rw [variantsLoop, if_neg hwhere, if_pos hkey] at h
      cases h
  | case7 limit minProbability key hwhere hkey value rest hparse =>
      -- a limit that cannot be read
      rw [variantsLoop, if_neg hwhere, if_pos hkey, hparse] at h
      cases h
  | case8 limit minProbability key hwhere hkey value rest hparse =>
      -- a limit of zero
      rw [variantsLoop, if_neg hwhere, if_pos hkey, hparse] at h
      cases h
  | case9 limit minProbability key hwhere hkey value rest parsed hparse hpositive ih =>
      rw [variantsLoop, if_neg hwhere, if_pos hkey, hparse] at h
      rw [List.cons_append, List.cons_append, variantsLoop, if_neg hwhere, if_pos hkey, hparse]
      simp only [if_neg hpositive] at h ⊢
      exact ih h
  | case10 limit minProbability key rest hwhere hkey ih =>
      rw [variantsLoop_other hwhere hkey] at h
      rw [List.cons_append, variantsLoop_other hwhere hkey]
      exact ih h

/-- The parser accepts one more word of a query. -/
def Ignores (lib : LqlLibrary F) (command : String) (parts : List String) : Prop :=
  ∃ edited ast, Inserted lib.IsKeyword "zzz" parts edited ∧ parseCommand lib (lib.upper command) edited = .ok ast

/-- A query of which a word is ignored is not read to its end. -/
theorem not_neverIgnores {query command : String} {parts : List String}
    (hquery : splitWhitespace query = command :: parts) (h : Ignores lib command parts) :
    ¬ NeverIgnores lib query := by
  obtain ⟨edited, ast, hinserted, hok⟩ := h
  have hzzz : IsWord "zzz" := by decide
  -- The edited query, as text.
  have hwords : ∀ token ∈ command :: edited, IsWord token := by
    intro token htoken
    rcases hinserted.behind.mem htoken with rfl | hold
    · exact hzzz
    · exact isWord_of_mem_splitWhitespace (hquery ▸ hold)
  have hsplit := splitWhitespace_intercalate hwords
  intro hnever
  have hfails := hnever "zzz" (" ".intercalate (command :: edited)) not_isKeyword_zzz
  rw [hquery, hsplit] at hfails
  obtain ⟨error, herror⟩ := hfails hinserted.behind
  rw [parseLql_of_words hsplit, hok] at herror
  cases herror

section Commands

variable {command : String} {parts : List String}

/-- What is still accepted with `zzz` at its end ignores a word. -/
theorem ignores_of_append (h : parseCommand lib (lib.upper command) (parts ++ ["zzz"]) = .ok ast) :
    Ignores lib command parts :=
  ⟨_, ast, inserted_append _ _ _, h⟩

/-- `COMMIT` looks at its first word only. -/
theorem ignores_commit (hcommand : lib.upper command = "COMMIT") (h : parseCommit parts = .ok ast) :
    Ignores lib command parts := by
  match parts, h with
  | variantId :: rest, h =>
      apply ignores_of_append
      rw [hcommand]
      exact h

/-- `PIVOT` without a reason looks at its first word only, with the two variants in it. -/
theorem ignores_pivot (hcommand : lib.upper command = "PIVOT") (h : parsePivot parts = .ok ast)
    (hreason : behindReason parts = none) : Ignores lib command parts := by
  match parts, h, hreason with
  | fromTo :: rest, h, hreason =>
      apply ignores_of_append
      have hmore := behindReason_append hreason
      rw [hcommand]
      rw [parsePivot, hreason] at h
      show parsePivot (fromTo :: (rest ++ ["zzz"])) = .ok ast
      rw [List.cons_append] at hmore
      rw [parsePivot, hmore]
      exact h

/-- `DEFUSE` looks at its id and at no more than two words behind it. -/
theorem ignores_defuse (hcommand : lib.upper command = "DEFUSE") (h : parseDefuse lib parts = .ok ast) :
    Ignores lib command parts := by
  match parts, h with
  | [pendulumId], h =>
      apply ignores_of_append
      rw [hcommand]
      exact h
  | [pendulumId, key], h =>
      by_cases hrate : lib.upper key = "RATE" ∨ lib.upper key = "DRAIN"
      · -- A word before the keyword takes its place.
        have hkey : lib.IsKeyword key := by
          rcases hrate with hkey | hkey
          · exact isKeyword_of_upper_eq (by decide) hkey
          · exact isKeyword_of_upper_eq (by decide) hkey
        refine ⟨[pendulumId, "zzz", key], ast, .behind (.before hkey), ?_⟩
        rw [hcommand]
        show parseDefuse lib [pendulumId, "zzz", key] = .ok ast
        rw [parseDefuse, if_neg (not_or.mpr ⟨upper_zzz_ne (by decide), upper_zzz_ne (by decide)⟩)]
        exact h
      · apply ignores_of_append
        rw [hcommand]
        show parseDefuse lib [pendulumId, key, "zzz"] = .ok ast
        rw [parseDefuse, if_neg hrate]
        exact h
  | pendulumId :: key :: raw :: rest, h =>
      apply ignores_of_append
      rw [hcommand]
      exact h

/-- `VARIANTS` with a `TOP` looks at its number only, and with a `SELECT` passes over every word that it does
not know. -/
theorem ignores_variants (hcommand : lib.upper command = "VARIANTS") (h : parseVariants lib parts = .ok ast)
    (hparts : parts ≠ []) : Ignores lib command parts := by
  match parts, h with
  | first :: rest, h =>
      apply ignores_of_append
      rw [hcommand]
      show parseVariants lib (first :: (rest ++ ["zzz"])) = .ok ast
      rw [parseVariants.eq_def] at h ⊢
      dsimp only at h ⊢
      split_ifs at h ⊢ with htop hselect
      · -- `TOP` reads one token behind it, whatever follows.
        match rest, h with
        | raw :: more, h => exact h
      · obtain ⟨result, hresult, rfl⟩ := map_eq_ok_iff.mp h
        rw [variantsLoop_append hresult]
        rfl

/-- `REFLEX` with an action other than `TUNE` looks at this action only. -/
theorem ignores_reflex (hcommand : lib.upper command = "REFLEX") (h : parseReflex lib parts = .ok ast)
    (htune : ∀ action ∈ parts.head?, lib.upper action ≠ "TUNE") : Ignores lib command parts := by
  match parts, h with
  | action :: raw, h =>
      apply ignores_of_append
      rw [hcommand]
      show parseReflex lib (action :: (raw ++ ["zzz"])) = .ok ast
      rw [parseReflex] at h ⊢
      split at h
      case h_4 hupper => exact absurd hupper (htune action rfl)
      all_goals exact h

end Commands

end Ignoring

/-! ## Which queries are read to their end -/

section Main

variable [FloatLike F] {lib : LqlLibrary F} {query : String} {ast : LqlAst F}

/-- A query that is read to its end fails with one more word: one case for each command that matches all of
its words. -/
theorem fails_of_readToEnd {command word : String} {parts edited : List String}
    (hok : parseCommand lib (lib.upper command) parts = .ok ast) (hread : ReadToEnd lib (command :: parts))
    (hword : ¬ lib.IsKeyword word) (hinserted : Inserted lib.IsKeyword word parts edited) :
    Fails (parseCommand lib (lib.upper command) edited) := by
  rcases hread with hcommand | ⟨hcommand, rfl⟩
  · simp only [List.mem_cons, List.not_mem_nil, or_false] at hcommand
    rcases hcommand with hcommand | hcommand | hcommand | hcommand | hcommand | hcommand
    all_goals rw [hcommand] at hok ⊢
    · exact fails_parseSelect hok hword hinserted
    · exact fails_parseSubscribe hok hword hinserted
    · exact fails_parseUnsubscribe hok hinserted
    · exact fails_parseIntrospect hok hword hinserted
    · exact fails_parseIntend hok hinserted
    · exact fails_parseSlide hok hinserted
  · -- The word stands where `TOP` or `SELECT` should.
    cases hinserted
    rw [hcommand]
    exact fails_parseVariants_word hword

/-- A query that is accepted and not read to its end ignores a word: one case for each of the other commands.
-/
theorem ignores_of_not_readToEnd {command : String} {parts : List String}
    (hok : parseCommand lib (lib.upper command) parts = .ok ast) (htext : ¬ EndsInText lib (command :: parts))
    (hread : ¬ ReadToEnd lib (command :: parts)) : Ignores lib command parts := by
  rw [parseCommand.eq_def] at hok
  split at hok
  case h_6 hcommand => exact ignores_variants hcommand hok fun hparts => hread (.inr ⟨hcommand, hparts⟩)
  case h_8 hcommand => exact ignores_commit hcommand hok
  case h_9 hcommand =>
      have hreason : behindReason parts = none := by
        by_contra hreason
        exact htext (.inl ⟨hcommand, Option.isSome_iff_ne_none.mpr hreason⟩)
      exact ignores_pivot hcommand hok hreason
  case h_10 hcommand => exact ignores_defuse hcommand hok
  case h_11 hcommand =>
      apply ignores_reflex hcommand hok
      intro action haction htune
      exact htext (.inr ⟨hcommand, action, haction, htune⟩)
  case h_12 => cases hok
  -- The others are read to their end.
  all_goals
    rename_i hcommand
    refine absurd (.inl ?_) hread
    rw [hcommand]
    decide

/-- **Which queries are read to their end.** Of a query that is accepted, and does not end in free text or
JSON, every word that is no keyword makes an error, at its end and before each keyword, exactly when its
command is `SELECT`, `SUBSCRIBE`, `UNSUBSCRIBE`, `INTROSPECT`, `INTEND` or `SLIDE`, or it is `VARIANTS` alone. -/
theorem never_ignores_iff (hok : parseLql lib query = .ok ast) (htext : ¬ EndsInText lib (splitWhitespace query)) :
    NeverIgnores lib query ↔ ReadToEnd lib (splitWhitespace query) := by
  cases hquery : splitWhitespace query with
  | nil =>
      rw [parseLql, splitWhitespace_trim, hquery] at hok
      split_ifs at hok
  | cons command parts =>
      rw [parseLql_of_words hquery] at hok
      rw [hquery] at htext
      constructor
      · intro hnever
        by_contra hread
        exact not_neverIgnores hquery (ignores_of_not_readToEnd hok htext hread) hnever
      · intro hread word edited hword hinserted
        rw [hquery] at hinserted
        generalize hedited : splitWhitespace edited = tokens at hinserted
        cases hinserted with
        | before _ =>
            rw [parseLql_of_words hedited]
            exact fails_parseCommand hword _
        | behind hrest =>
            rw [parseLql_of_words hedited]
            exact fails_of_readToEnd hok hread hword hrest

end Main

/-- A `SELECT` with two conditions and a window. -/
def windowedQuery : String := "SELECT cpu/load WHERE strength>=0.7 AND adreno=true WINDOW 1200"

/-- Its words. -/
theorem splitWhitespace_windowedQuery : splitWhitespace windowedQuery =
    ["SELECT", "cpu/load", "WHERE", "strength>=0.7", "AND", "adreno=true", "WINDOW", "1200"] := by
  decide +kernel

/-- Its clauses: a `WHERE` with two conditions and a `WINDOW`. -/
theorem clauses_windowedQuery : Clauses asciiLibrary false
    ["WHERE", "strength>=0.7", "AND", "adreno=true", "WINDOW", "1200"]
    [.filter [.strength (7 / 10), .adreno true], .window 1200] := by
  have hstrength : ReadsAs asciiLibrary ("strength>=" ++ "0.7") (.strength (7 / 10)) :=
    .strength (by decide +kernel) (by decide +kernel) (by decide +kernel)
  have hadreno : ReadsAs asciiLibrary ("adreno=" ++ "true") (.adreno true) := .adreno true (by decide +kernel)
  have hconditions : Conditions asciiLibrary ["strength>=0.7", "AND", "adreno=true"]
      [.strength (7 / 10), .adreno true] :=
    .and hstrength (upper_keyword (by decide)) (.one hadreno)
  have hwindow : Clauses asciiLibrary false ["WINDOW", "1200"] [.window 1200] :=
    .window (upper_keyword (by decide)) ⟨by decide +kernel, by decide⟩ .done
  refine .filter (upper_keyword (by decide)) hconditions ?_ hwindow
  rintro token ⟨⟩
  exact .inl (upper_keyword (by decide))

/-- It is read to its end: a word before `WHERE`, before `AND`, before `WINDOW` or at the end is an error. -/
theorem never_ignores_windowedQuery : NeverIgnores asciiLibrary windowedQuery := by
  have hupper : asciiLibrary.upper "SELECT" = "SELECT" := upper_keyword (by decide)
  have hok : parseLql asciiLibrary windowedQuery =
      .ok (.select "cpu/load" (some 1200) ⟨some (7 / 10), none, some true⟩) := by
    rw [parseLql_of_words splitWhitespace_windowedQuery, hupper]
    exact parseSelect_eq_ok_iff.mpr ⟨_, _, _, rfl, clauses_windowedQuery, rfl⟩
  have htext : ¬ EndsInText asciiLibrary (splitWhitespace windowedQuery) := by
    rw [splitWhitespace_windowedQuery, EndsInText, hupper]
    simp
  refine (never_ignores_iff hok htext).mpr ?_
  rw [splitWhitespace_windowedQuery, ReadToEnd, hupper]
  simp

/-- `COMMIT v1` is accepted, and so is `COMMIT v1 zzz`. -/
theorem commit_ignores_word :
    parseLql asciiLibrary "COMMIT v1" = .ok (.commit "v1") ∧
    ¬ EndsInText asciiLibrary (splitWhitespace "COMMIT v1") ∧ ¬ NeverIgnores asciiLibrary "COMMIT v1" := by
  have hquery : splitWhitespace "COMMIT v1" = ["COMMIT", "v1"] := by decide +kernel
  have hupper : asciiLibrary.upper "COMMIT" = "COMMIT" := upper_keyword (by decide)
  have hcommit : parseCommit ["v1"] = (.ok (.commit "v1") : Except LqlError (LqlAst ℚ)) := by
    rw [parseCommit, show trimQuotes "v1" = "v1" by decide +kernel]
  refine ⟨?_, ?_, ?_⟩
  · rw [parseLql_of_words hquery, hupper]
    exact hcommit
  · rw [hquery, EndsInText, hupper]
    simp
  · exact not_neverIgnores hquery (ignores_commit hupper hcommit)

end LiminalDB
