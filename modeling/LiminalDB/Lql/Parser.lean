import LiminalDB.Field.Feedback
import LiminalDB.Field.Lql
import LiminalDB.Foundations.Words

/-! # The query language: `lql.rs`

`parse_lql` splits a query into words, and hands what follows the command to a parser of its own for each
command. Keywords are compared after `to_uppercase`, a few of them with `eq_ignore_ascii_case`. -/

namespace LiminalDB

variable {F : Type}

/-! ## Queries -/

/-- `LqlAst`. A map of goals is the list of its entries. -/
inductive LqlAst (F : Type)
  | select (pattern : String) (windowMs : Option UInt32) (filter : ViewFilter F)
  | subscribe (pattern : String) (windowMs everyMs : Option UInt32) (filter : ViewFilter F)
  | unsubscribe (id : UInt64)
  | introspectModel (topN : Option UInt64)
  | introspectInfluence (topN : Option UInt64)
  | introspectTension (topN : Option UInt64)
  | introspectEpochs (topN : Option UInt64)
  | introspectEpoch (id : UInt64)
  | intend (tokens : List String) (weights : List F) (horizonMs : Option UInt64) (budget : Option F)
  | variants (limit : Option UInt64) (minProbability : Option F)
  | slideSet (id : String) (variants : List String) (goals : List (String × Float))
      (ethicsGuard : Option String)
  | commit (variantId : String)
  | pivot («from» «to» : String) (reason : Option String)
  | defuse (pendulumId : String) (drain : F)
  | reflexOn
  | reflexOff
  | reflexStatus
  | reflexTune (cfg : ReflexCfg F)

/-- `LqlError`: what a query is refused with. -/
structure LqlError where
  message : String
  deriving DecidableEq, Repr

/-- What the parser takes from the standard library and from `serde_json`. Case mappings are those of
Unicode, of which only the ASCII part is fixed here. -/
structure LqlLibrary (F : Type) where
  /-- `char::to_uppercase` -/
  upperChar : Char → List Char
  upperChar_ascii : ∀ c, c.toNat < 128 → upperChar c = [c.toUpper]
  /-- `str::to_lowercase` -/
  toLowercase : String → String
  toLowercase_ascii : ∀ s, (∀ c ∈ s.toList, c.toNat < 128) →
    toLowercase s = String.ofList (s.toList.map Char.toLower)
  /-- `str::parse::<f32>` -/
  parseF32 : String → Option F
  /-- `serde_json::from_str::<Vec<String>>` -/
  jsonStrings : String → Option (List String)
  /-- `serde_json::from_str::<Vec<f32>>` -/
  jsonFloats : String → Option (List F)
  /-- `serde_json::from_str::<HashMap<String, f64>>` -/
  jsonGoals : String → Option (List (String × Float))
  /-- `serde_json::from_str::<ReflexCfg>`, with the text of its error. -/
  jsonReflexCfg : String → Except String (ReflexCfg F)

/-- `str::to_uppercase`: every character by the library's table, which may give more than one for it. -/
def LqlLibrary.upper (lib : LqlLibrary F) (token : String) : String :=
  String.ofList (token.toList.flatMap lib.upperChar)

/-- `ViewFilter::default`: a filter that lets everything pass. -/
def ViewFilter.default : ViewFilter F := ⟨none, none, none⟩

/-- `trim_quotes`: quotes of both kinds are taken off both ends. -/
def trimQuotes (input : String) : String :=
  trimMatches (fun c => c.toNat == 0x22 || c.toNat == 0x27) input

/-! ## Conditions -/

section Conditions

variable [FloatLike F]

/-- A threshold within `0.0..=1.0`, of the name that stands in the errors. -/
def parseThreshold (lib : LqlLibrary F) (name value : String) : Except LqlError F :=
  match lib.parseF32 value with
  | none => .error ⟨"invalid " ++ name ++ " threshold"⟩
  | some x => if 0.0 ≤ x ∧ x ≤ 1.0 then .ok x else .error ⟨name ++ " must be within 0.0..=1.0"⟩

/-- `parse_condition_token`: one condition of a filter, which overrides an earlier one of the same
kind. -/
def parseConditionToken (lib : LqlLibrary F) (token : String) (filter : ViewFilter F) :
    Except LqlError (ViewFilter F) :=
  match stripPrefix token "strength>=" with
  | some value =>
      (parseThreshold lib "strength" value).map fun strength => { filter with minStrength := some strength }
  | none =>
      match stripPrefix token "salience>=" with
      | some value =>
          (parseThreshold lib "salience" value).map fun salience =>
            { filter with minSalience := some salience }
      | none =>
          match stripPrefix token "adreno=" with
          | some value =>
              if lib.toLowercase value = "true" then .ok { filter with adreno := some true }
              else if lib.toLowercase value = "false" then .ok { filter with adreno := some false }
              else .error ⟨"adreno must be true or false"⟩
          | none => .error ⟨"unsupported WHERE clause"⟩

/-- The loop of `parse_where_conditions`: the tokens that it consumed, and whether it expects a condition
where it stops. -/
def whereLoop (lib : LqlLibrary F) : List String → ℕ → Bool → ViewFilter F →
    Except LqlError (ℕ × Bool × ViewFilter F)
  | [], consumed, expect, filter => .ok (consumed, expect, filter)
  | token :: rest, consumed, expect, filter =>
      if lib.upper token = "WINDOW" ∨ lib.upper token = "EVERY" then .ok (consumed, expect, filter)
      else if !expect then
        if lib.upper token = "AND" then whereLoop lib rest (consumed + 1) true filter
        else .error ⟨"expected AND between WHERE clauses"⟩
      else
        match parseConditionToken lib token filter with
        | .error error => .error error
        | .ok filter => whereLoop lib rest (consumed + 1) false filter

/-- `parse_where_conditions`: the conditions behind `WHERE`, with the number of tokens that they take. -/
def parseWhereConditions (lib : LqlLibrary F) (tokens : List String) (filter : ViewFilter F) :
    Except LqlError (ℕ × ViewFilter F) :=
  if tokens = [] then .error ⟨"WHERE requires a condition"⟩
  else
    match whereLoop lib tokens 0 true filter with
    | .error error => .error error
    | .ok (consumed, expect, filter) =>
        if consumed = 0 then .error ⟨"WHERE requires a condition"⟩
        else if expect then .error ⟨"WHERE requires a condition"⟩
        else .ok (consumed, filter)

/-! ## SELECT and SUBSCRIBE -/

/-- The value of a `WINDOW` or an `EVERY`. -/
def parseMillis (keyword raw : String) : Except LqlError UInt32 :=
  match parseUnsigned 32 raw with
  | none => .error ⟨"invalid " ++ keyword ++ " value"⟩
  | some value =>
      if value = 0 then .error ⟨keyword ++ " must be greater than zero"⟩ else .ok (UInt32.ofNat value)

/-- `window_ms`, `every_ms` and `filter` -/
structure ClauseValues (F : Type) where
  windowMs : Option UInt32
  everyMs : Option UInt32
  filter : ViewFilter F

/-- The values before the first clause. -/
def ClauseValues.start : ClauseValues F := ⟨none, none, .default⟩

/-- The loop over the clauses of `parse_select` and, with `EVERY`, of `parse_subscribe`. -/
def clauseLoop (lib : LqlLibrary F) (command : String) (hasEvery : Bool) (tokens : List String)
    (values : ClauseValues F) : Except LqlError (ClauseValues F) :=
  match tokens with
  | [] => .ok values
  | token :: rest =>
      if lib.upper token = "WHERE" then
        match parseWhereConditions lib rest values.filter with
        | .error error => .error error
        | .ok result =>
            clauseLoop lib command hasEvery (rest.drop result.1) { values with filter := result.2 }
      else if lib.upper token = "WINDOW" then
        match rest with
        | [] => .error ⟨"WINDOW requires milliseconds value"⟩
        | raw :: rest =>
            match parseMillis "WINDOW" raw with
            | .error error => .error error
            | .ok value => clauseLoop lib command hasEvery rest { values with windowMs := some value }
      else if hasEvery ∧ lib.upper token = "EVERY" then
        match rest with
        | [] => .error ⟨"EVERY requires milliseconds value"⟩
        | raw :: rest =>
            match parseMillis "EVERY" raw with
            | .error error => .error error
            | .ok value => clauseLoop lib command hasEvery rest { values with everyMs := some value }
      else .error ⟨"unexpected token in " ++ command ++ ": " ++ lib.upper token⟩
termination_by tokens.length
decreasing_by
  all_goals
    simp only [List.length_drop, List.length_cons]
    omega

/-- `parse_select`: a pattern, then its clauses, among which there is no `EVERY`. -/
def parseSelect (lib : LqlLibrary F) : List String → Except LqlError (LqlAst F)
  | [] => .error ⟨"SELECT requires a pattern"⟩
  | pattern :: rest =>
      (clauseLoop lib "SELECT" false rest .start).map fun values =>
        .select pattern values.windowMs values.filter

/-- `parse_subscribe`: a pattern, then its clauses, `EVERY` among them. -/
def parseSubscribe (lib : LqlLibrary F) : List String → Except LqlError (LqlAst F)
  | [] => .error ⟨"SUBSCRIBE requires a pattern"⟩
  | pattern :: rest =>
      (clauseLoop lib "SUBSCRIBE" true rest .start).map fun values =>
        .subscribe pattern values.windowMs values.everyMs values.filter

end Conditions

/-! ## UNSUBSCRIBE, INTROSPECT and REFLEX -/

/-- `parse_unsubscribe`: one number in 64 bits, and nothing behind it. -/
def parseUnsubscribe : List String → Except LqlError (LqlAst F)
  | [] => .error ⟨"UNSUBSCRIBE requires an id"⟩
  | [idRaw] =>
      match parseUnsigned 64 idRaw with
      | none => .error ⟨"invalid view id"⟩
      | some id => .ok (.unsubscribe (UInt64.ofNat id))
  | _ :: _ :: _ => .error ⟨"UNSUBSCRIBE takes exactly one argument"⟩

/-- `parse_top_clause`: an optional `TOP` with a number. -/
def parseTopClause : List String → Except LqlError (Option UInt64)
  | [] => .ok none
  | token :: rest =>
      if !eqIgnoreAsciiCase token "TOP" then .error ⟨"unexpected token in INTROSPECT: " ++ token⟩
      else
        match rest with
        | [] => .error ⟨"TOP requires a numeric value"⟩
        | [raw] =>
            match parseUnsigned 64 raw with
            | none => .error ⟨"TOP requires a positive integer"⟩
            | some value =>
                if value = 0 then .error ⟨"TOP must be greater than zero"⟩ else .ok (some (UInt64.ofNat value))
        | _ :: _ :: _ => .error ⟨"unexpected tokens after TOP clause"⟩

/-- `parse_introspect`: the target says what is introspected, and each target has its own clauses. -/
def parseIntrospect (lib : LqlLibrary F) : List String → Except LqlError (LqlAst F)
  | [] => .error ⟨"INTROSPECT requires a target"⟩
  | target :: rest =>
      match lib.upper target with
      | "MODEL" => (parseTopClause rest).map .introspectModel
      | "INFLUENCE" => (parseTopClause rest).map .introspectInfluence
      | "TENSION" => (parseTopClause rest).map .introspectTension
      | "EPOCHS" => (parseTopClause rest).map .introspectEpochs
      | "EPOCH" =>
          match rest with
          | [] => .error ⟨"INTROSPECT EPOCH requires an id"⟩
          | [raw] =>
              match parseUnsigned 64 raw with
              | none => .error ⟨"INTROSPECT EPOCH id must be numeric"⟩
              | some id => .ok (.introspectEpoch (UInt64.ofNat id))
          | _ :: _ :: _ => .error ⟨"INTROSPECT EPOCH takes a single id"⟩
      | other => .error ⟨"unexpected INTROSPECT target: " ++ other⟩

/-- `parse_reflex`: the subcommand says which of the reflex commands it is. -/
def parseReflex (lib : LqlLibrary F) : List String → Except LqlError (LqlAst F)
  | [] => .error ⟨"REFLEX requires a subcommand"⟩
  | action :: raw =>
      match lib.upper action with
      | "ON" => .ok .reflexOn
      | "OFF" => .ok .reflexOff
      | "STATUS" => .ok .reflexStatus
      | "TUNE" =>
          if raw = [] then .error ⟨"REFLEX TUNE requires a config"⟩
          else
            match lib.jsonReflexCfg (" ".intercalate raw) with
            | .error error => .error ⟨"invalid REFLEX config: " ++ error⟩
            | .ok cfg => .ok (.reflexTune cfg)
      | other => .error ⟨"unknown REFLEX subcommand: " ++ other⟩

/-! ## INTEND and SLIDE -/

/-- The loop of `parse_intend` and `parse_slide`: a key, and what `get` finds behind it. -/
def fieldLoop {σ : Type} (lib : LqlLibrary F) (field : String → Option String → σ → Except LqlError σ) :
    List String → σ → Except LqlError σ
  | [], fields => .ok fields
  | [key], fields => field (lib.upper key) none fields
  | key :: raw :: rest, fields =>
      match field (lib.upper key) (some raw) fields with
      | .error error => .error error
      | .ok fields => fieldLoop lib field rest fields

/-- `parse_string_array`: a JSON array of strings, which the library decodes. -/
def parseStringArray (lib : LqlLibrary F) (raw : String) : Except LqlError (List String) :=
  match lib.jsonStrings raw with
  | none => .error ⟨"expected string array"⟩
  | some values => .ok values

/-- `parse_float_array`: a JSON array of numbers, which the library decodes. -/
def parseFloatArray (lib : LqlLibrary F) (raw : String) : Except LqlError (List F) :=
  match lib.jsonFloats raw with
  | none => .error ⟨"expected numeric array"⟩
  | some values => .ok values

/-- The variables of `parse_intend`. -/
structure IntendFields (F : Type) where
  focusTokens : Option (List String)
  weights : Option (List F)
  horizonMs : Option UInt64
  budget : Option F

/-- One round of `parse_intend`. -/
def intendField (lib : LqlLibrary F) (key : String) (raw : Option String) (fields : IntendFields F) :
    Except LqlError (IntendFields F) :=
  match key, raw with
  | "TOKENS", none => .error ⟨"INTEND TOKENS requires a list"⟩
  | "TOKENS", some raw =>
      (parseStringArray lib raw).map fun tokens => { fields with focusTokens := some tokens }
  | "WEIGHTS", none => .error ⟨"INTEND WEIGHTS requires a list"⟩
  | "WEIGHTS", some raw =>
      (parseFloatArray lib raw).map fun weights => { fields with weights := some weights }
  | "HORIZON", none => .error ⟨"INTEND HORIZON requires milliseconds"⟩
  | "HORIZON", some raw =>
      match parseUnsigned 64 raw with
      | none => .error ⟨"INTEND HORIZON expects a positive integer"⟩
      | some value => .ok { fields with horizonMs := some (UInt64.ofNat value) }
  | "BUDGET", none => .error ⟨"INTEND BUDGET requires a value"⟩
  | "BUDGET", some raw =>
      match lib.parseF32 raw with
      | none => .error ⟨"INTEND BUDGET expects a numeric value"⟩
      | some value => .ok { fields with budget := some value }
  | other, _ => .error ⟨"unexpected INTEND token: " ++ other⟩

/-- `parse_intend`: the fields of an intent, each under its key. -/
def parseIntend [FloatLike F] (lib : LqlLibrary F) (tokens : List String) : Except LqlError (LqlAst F) :=
  if tokens = [] then .error ⟨"INTEND requires arguments"⟩
  else
    match fieldLoop lib (intendField lib) tokens ⟨none, none, none, none⟩ with
    | .error error => .error error
    | .ok fields =>
        match fields.focusTokens with
        | none => .error ⟨"INTEND requires TOKENS"⟩
        | some focusTokens =>
            let weights := fields.weights.getD
              (List.replicate focusTokens.length (1.0 / FloatLike.ofNat focusTokens.length))
            if weights.length ≠ focusTokens.length then
              .error ⟨"INTEND TOKENS and WEIGHTS must have the same length"⟩
            else .ok (.intend focusTokens weights fields.horizonMs fields.budget)

/-- `parse_variant_list`: names between commas, with brackets and quotes taken off and the empty ones
dropped. -/
def parseVariantList (raw : String) : List String :=
  (((trimMatches (fun c => c.toNat == 0x5b || c.toNat == 0x5d) raw).splitOn ",").map fun part =>
    trimQuotes (trim part)).filter (· ≠ "")

/-- The variables of `parse_slide`. -/
structure SlideFields where
  variantIds : List String
  desiredMetrics : List (String × Float)
  ethicsGuard : Option String

/-- One round of `parse_slide`. -/
def slideField (lib : LqlLibrary F) (key : String) (raw : Option String) (fields : SlideFields) :
    Except LqlError SlideFields :=
  match key, raw with
  | "VARIANTS", none => .error ⟨"SLIDE VARIANTS requires a list"⟩
  | "VARIANTS", some raw => .ok { fields with variantIds := parseVariantList raw }
  | "GOALS", none => .error ⟨"SLIDE GOALS requires a map"⟩
  | "GOALS", some raw =>
      match lib.jsonGoals raw with
      | none => .error ⟨"SLIDE GOALS expects a JSON object with numeric values"⟩
      | some goals => .ok { fields with desiredMetrics := goals }
  | "ETHICS", none => .error ⟨"SLIDE ETHICS requires a guard"⟩
  | "ETHICS", some raw => .ok { fields with ethicsGuard := some (trimQuotes raw) }
  | other, _ => .error ⟨"unexpected SLIDE token: " ++ other⟩

/-- `parse_slide`: `SET`, an id, then the fields of a slide. -/
def parseSlide (lib : LqlLibrary F) (tokens : List String) : Except LqlError (LqlAst F) :=
  match tokens with
  | set :: id :: first :: second :: rest =>
      if !eqIgnoreAsciiCase set "SET" then .error ⟨"expected SLIDE SET"⟩
      else
        match fieldLoop lib (slideField lib) (first :: second :: rest) ⟨[], [], none⟩ with
        | .error error => .error error
        | .ok fields =>
            if fields.variantIds = [] then .error ⟨"SLIDE requires at least one variant"⟩
            else .ok (.slideSet (trimQuotes id) fields.variantIds fields.desiredMetrics fields.ethicsGuard)
  | _ => .error ⟨"SLIDE SET requires id and variant list"⟩

/-! ## VARIANTS -/

section Variants

variable [FloatLike F]

/-- The loop of `parse_variants` behind `SELECT`, over `limit` and `min_probability`. -/
def variantsLoop (lib : LqlLibrary F) (tokens : List String) (limit : Option UInt64)
    (minProbability : Option F) : Except LqlError (Option UInt64 × Option F) :=
  match tokens with
  | [] => .ok (limit, minProbability)
  | key :: rest =>
      if lib.upper key = "WHERE" then
        match rest with
        | [] => .error ⟨"VARIANTS WHERE requires a condition like p>=0.5"⟩
        | condition :: rest =>
            match stripPrefix condition "p>=" with
            | none => .error ⟨"unsupported VARIANTS WHERE condition: " ++ condition⟩
            | some value =>
                match lib.parseF32 value with
                | none => .error ⟨"VARIANTS WHERE p>= expects a numeric value"⟩
                | some parsed => variantsLoop lib rest limit (some (FloatLike.clamp parsed 0.0 1.0))
      else if lib.upper key = "LIMIT" then
        match rest with
        | [] => .error ⟨"VARIANTS LIMIT requires a number"⟩
        | value :: rest =>
            match parseUnsigned 64 value with
            | none => .error ⟨"VARIANTS LIMIT expects an integer"⟩
            | some parsed =>
                if parsed = 0 then .error ⟨"VARIANTS LIMIT must be greater than zero"⟩
                else variantsLoop lib rest (some (UInt64.ofNat parsed)) minProbability
      -- every other word is passed
      else variantsLoop lib rest limit minProbability
termination_by tokens.length

/-- `parse_variants`: all variants, the best of them, or those that are named. -/
def parseVariants (lib : LqlLibrary F) (tokens : List String) : Except LqlError (LqlAst F) :=
  match tokens with
  | [] => .ok (.variants none none)
  | first :: rest =>
      if lib.upper first = "TOP" then
        match rest with
        | [] => .error ⟨"VARIANTS TOP requires a number"⟩
        | raw :: _ =>
            match parseUnsigned 64 raw with
            | none => .error ⟨"VARIANTS TOP expects a positive integer"⟩
            | some parsed =>
                if parsed = 0 then .error ⟨"VARIANTS TOP must be greater than zero"⟩
                else .ok (.variants (some (UInt64.ofNat parsed)) none)
      else if lib.upper first = "SELECT" then
        (variantsLoop lib rest none none).map fun result => .variants result.1 result.2
      else .error ⟨"unexpected VARIANTS directive: " ++ first⟩

end Variants

/-! ## COMMIT, PIVOT and DEFUSE -/

/-- `parse_commit`: the first token is the variant, and what follows it is not read. -/
def parseCommit : List String → Except LqlError (LqlAst F)
  | [] => .error ⟨"COMMIT requires a variant id"⟩
  | variantId :: _ => .ok (.commit (trimQuotes variantId))

/-- The tokens behind the first `REASON`. -/
def behindReason : List String → Option (List String)
  | [] => none
  | token :: rest => if eqIgnoreAsciiCase token "REASON" then some rest else behindReason rest

/-- `parse_pivot`: from where to where, and the message behind `REASON`. -/
def parsePivot (tokens : List String) : Except LqlError (LqlAst F) :=
  match tokens with
  | [] => .error ⟨"PIVOT requires arguments"⟩
  | first :: _ =>
      let fromTo := trimQuotes first
      let message := (behindReason tokens).map fun rest => " ".intercalate (rest.map trimQuotes)
      let reason := message.filter (· ≠ "")
      match fromTo.splitOn "->" with
      | [«from», «to»] => .ok (.pivot «from» «to» reason)
      | _ => .error ⟨"PIVOT expects format from->to"⟩

/-- `parse_defuse`: a pendulum, with the rate at which it is drained where one is given. -/
def parseDefuse [FloatLike F] (lib : LqlLibrary F) (tokens : List String) : Except LqlError (LqlAst F) :=
  match tokens with
  | [] => .error ⟨"DEFUSE requires a pendulum id"⟩
  | pendulumId :: key :: raw :: _ =>
      if lib.upper key = "RATE" ∨ lib.upper key = "DRAIN" then
        match lib.parseF32 raw with
        | none => .error ⟨"DEFUSE RATE expects a number"⟩
        | some drain => .ok (.defuse (trimQuotes pendulumId) drain)
      else .ok (.defuse (trimQuotes pendulumId) 0.3)
  | pendulumId :: _ => .ok (.defuse (trimQuotes pendulumId) 0.3)

/-! ## The parser -/

/-- The words of a query: its command, in upper case, and what follows. -/
def parseCommand [FloatLike F] (lib : LqlLibrary F) (command : String) (parts : List String) :
    Except LqlError (LqlAst F) :=
  match command with
  | "SELECT" => parseSelect lib parts
  | "SUBSCRIBE" => parseSubscribe lib parts
  | "UNSUBSCRIBE" => parseUnsubscribe parts
  | "INTROSPECT" => parseIntrospect lib parts
  | "INTEND" => parseIntend lib parts
  | "VARIANTS" => parseVariants lib parts
  | "SLIDE" => parseSlide lib parts
  | "COMMIT" => parseCommit parts
  | "PIVOT" => parsePivot parts
  | "DEFUSE" => parseDefuse lib parts
  | "REFLEX" => parseReflex lib parts
  | other => .error ⟨"unknown LQL command: " ++ other⟩

/-- `parse_lql`: the first word says which command it is, and the rest is left to that command's own
parser. -/
def parseLql [FloatLike F] (lib : LqlLibrary F) (input : String) : Except LqlError (LqlAst F) :=
  let trimmed := trim input
  if trimmed = "" then .error ⟨"empty LQL query"⟩
  else
    match splitWhitespace trimmed with
    | [] => .error ⟨"missing LQL command"⟩
    | command :: parts => parseCommand lib (lib.upper command) parts

end LiminalDB
