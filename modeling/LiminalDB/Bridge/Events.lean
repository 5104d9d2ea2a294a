import LiminalDB.Bridge.Outbox
import LiminalDB.Bridge.StreamCodec
import LiminalDB.Field.Cell
import LiminalDB.Field.Delta
import LiminalDB.Foundations.Decimals
import LiminalDB.Foundations.Separators

/-! # The log of the field as events: `protocol.rs`

The field tells what happens in lines of text, some of them JSON, and the bridge reads the lines back to make
events of them for its host. A line that the field writes about a birth, a death, a cell that falls asleep or
a collective dream gives the event with just its numbers, and so does the answer of a cell to an impulse
(`log_lines_read_back`). -/

namespace LiminalDB

open StreamCodec (JsonNumber JsonValue CborValue)

/-- What the bridge takes from the standard library and from `serde_json`. -/
structure LogLibrary (F G : Type) [Binary64 G] where
  /-- `{:.2}` -/
  fixed2 : F → String
  /-- `str::parse::<f32>` -/
  parseF32 : String → Option F
  /-- What a number is rounded to when it is written with two decimals. -/
  rounded : F → F
  /-- `as f64` -/
  widen : F → G
  /-- `serde_json::from_str` -/
  fromStr : String → Option (JsonValue G)
  /-- The order of the keys of a `serde_cbor` map. -/
  cmp : CborValue G → CborValue G → Ordering

/-- Numbers that are written with two decimals are read again as what they were rounded to, and no bracket,
arrow or white space is written. -/
class LogLibrary.Lawful {F G : Type} [Binary64 G] (lib : LogLibrary F G) : Prop where
  parseF32_fixed2 : ∀ x, lib.parseF32 (lib.fixed2 x) = some (lib.rounded x)
  fixed2_plain : ∀ x, ∀ c ∈ (lib.fixed2 x).toList, c ≠ '>' ∧ c ≠ ')' ∧ isWhitespace c = false

variable {F G : Type} [Binary64 G] (lib : LogLibrary F G)

/-- `str::parse::<u64>`: a number of 64 bits. -/
def parseU64 (raw : String) : Option UInt64 := (parseUnsigned 64 raw).map UInt64.ofNat

/-- `Value::Integer`, of a `u64`. -/
def integerOf (n : ℕ) : CborValue G := .integer n

/-! ## Lines in JSON -/

/-- The number case of `json_to_cbor`. -/
def jsonNumberToCbor (num : JsonNumber G) : CborValue G :=
  match num.asI64, num.asU64, num.asF64 with
  -- What fits an `i64` is read as one; only what is greater is tried as a `u64`.
  | some i, _, _ => .integer i
  | none, some u, _ => .integer u.toNat
  | none, none, some f => .float f
  | none, none, none => .null

mutual

/-- `json_to_cbor`: the same value in CBOR, with the keys as they are. -/
def jsonToCbor : JsonValue G → CborValue G
  | .null => .null
  | .bool b => .bool b
  | .number num => jsonNumberToCbor num
  | .string text => .text text
  | .array items => .array (jsonItemsToCbor items)
  | .object map => .map (jsonEntriesToCbor map [])

/-- The items of an array, one by one. -/
def jsonItemsToCbor : List (JsonValue G) → List (CborValue G)
  | [] => []
  | item :: items => jsonToCbor item :: jsonItemsToCbor items

/-- The entries of an object are collected in the order of their keys. -/
def jsonEntriesToCbor : List (String × JsonValue G) → List (CborValue G × CborValue G) →
    List (CborValue G × CborValue G)
  | [], map => map
  | (key, value) :: rest, map => jsonEntriesToCbor rest (insertEntry lib.cmp (.text key) (jsonToCbor value) map)

end

/-- `json.get(key)`: the value under a key of an object, and none of anything else. -/
def jsonGet (json : JsonValue G) (key : String) : Option (JsonValue G) :=
  match json with
  | .object map => map.lookup key
  | _ => none

/-- `as_str`: the text of a JSON string. -/
def jsonAsStr : JsonValue G → Option String
  | .string text => some text
  | _ => none

/-- `json_value_to_event_id`: a number or a text may name an event. -/
def jsonValueToEventId : JsonValue G → Option EventId
  | .number num => num.asU64.map .num
  | .string text => some (.text text)
  | _ => none

/-- `event_from_json`: the event that an object describes, where it has a name. -/
def eventFromJson (json : JsonValue G) (tickMs : UInt32) : Option (ProtocolEvent (CborValue G)) := do
  let ev ← (jsonGet json "ev").bind jsonAsStr
  -- An event without an id goes by its name.
  let id := ((jsonGet json "id").bind jsonValueToEventId).getD (.text ev)
  let entries := match jsonGet json "meta" with
    | some (.object map) => map
    | _ => []
  return ⟨ev, id, tickMs, entries.foldl (fun acc entry => acc.insert entry.1 (jsonToCbor lib entry.2)) ∅⟩

/-! ## Lines of text -/

/-- What follows `DIVIDE parent=n`. -/
def divideEvent (rest : String) (tickMs : UInt32) : Option (ProtocolEvent (CborValue G)) := do
  let (parentPart, rest) ← splitOnce rest " -> child=n"
  let parentId ← parseU64 parentPart
  let (childPart, rest) ← splitOnce rest " (aff "
  let childId ← parseU64 childPart
  -- What follows the bracket is not looked at.
  let (affPart, _) ← splitOnce rest ")"
  let (affBefore, affAfter) ← splitOnce affPart "->"
  let parentAff ← lib.parseF32 (trim affBefore)
  let childAff ← lib.parseF32 (trim affAfter)
  return ⟨"divide", .num childId, tickMs, ((((∅ : Std.ExtTreeMap String (CborValue G) compare).insert
    "parent" (integerOf parentId.toNat)).insert "child" (integerOf childId.toNat)).insert
    "aff_before" (.float (lib.widen parentAff))).insert "aff_after" (.float (lib.widen childAff))⟩

/-- What follows `SLEEP n` and `DEAD n`. -/
def stateEvent (state rest : String) (tickMs : UInt32) : Option (ProtocolEvent (CborValue G)) :=
  (parseU64 rest).map fun id =>
    ⟨state, .num id, tickMs, (∅ : Std.ExtTreeMap String (CborValue G) compare).insert "state" (.text state)⟩

/-- One word that follows `COLLECTIVE_DREAM`. -/
def dreamChunk (acc : Std.ExtTreeMap String (CborValue G) compare) (chunk : String) :
    Std.ExtTreeMap String (CborValue G) compare :=
  match splitOnce chunk "=" with
  | some (key, raw) =>
      -- A word that holds no number is passed over; the rest of the line counts.
      match parseU64 (trimEndMatches raw "ms") with
      | some value => acc.insert key (integerOf value.toNat)
      | none => acc
  | none => acc

/-- What follows `COLLECTIVE_DREAM`. -/
def dreamEvent (rest : String) (tickMs : UInt32) : ProtocolEvent (CborValue G) :=
  ⟨"collective_dream", .text "collective_dream", tickMs, (splitWhitespace rest).foldl dreamChunk ∅⟩

/-- A line that is not JSON, nor an event in JSON. -/
def eventFromText (trimmed : String) (tickMs : UInt32) : Option (ProtocolEvent (CborValue G)) :=
  match stripPrefix trimmed "DIVIDE parent=n" with
  | some rest => divideEvent lib rest tickMs
  | none =>
      match stripPrefix trimmed "SLEEP n" with
      | some rest => stateEvent "sleep" rest tickMs
      | none =>
          match stripPrefix trimmed "DEAD n" with
          | some rest => stateEvent "dead" rest tickMs
          | none => (stripPrefix trimmed "COLLECTIVE_DREAM ").map fun rest => dreamEvent rest tickMs

/-- `event_from_field_log`: the event of a log line, which is read as an object first and as text
otherwise. -/
def eventFromFieldLog (log : String) (tickMs : UInt32) : Option (ProtocolEvent (CborValue G)) :=
  let trimmed := trim log
  let json := if trimmed.toList.head? = some '\x7b' then
    (lib.fromStr trimmed).bind fun json => eventFromJson lib json tickMs else none
  -- What begins like an object and is no event is still tried as text.
  match json with
  | some event => some event
  | none => eventFromText lib trimmed tickMs

/-- `event_from_impulse_log`: the hint of a line that names a cell by its number. -/
def eventFromImpulseLog (log : String) : Option (ProtocolEvent (CborValue G)) :=
  match stripPrefix (trim log) "n" with
  | some stripped => do
      let (idPart, rest) ← splitOnce stripped " "
      let id ← parseU64 idPart
      return ⟨"hint", .num id, 0, ((∅ : Std.ExtTreeMap String (CborValue G) compare).insert
        "kind" (.text "impulse")).insert "message" (.text (trim rest))⟩
  | none => none

/-! ## What the field writes -/

/-- The lines of text that the field writes and the bridge reads. -/
inductive FieldLine (F : Type)
  | divide (parent child : NodeId) (before after : F)
  | sleep (id : NodeId)
  | dead (id : NodeId)
  | collectiveDream (report : SyncReport)

/-- The line of a birth, as `tick_all` writes it. -/
def divideLine (parent child : NodeId) (before after : F) : String :=
  "DIVIDE parent=n" ++ parent.toNat.repr ++ " -> child=n" ++ child.toNat.repr ++ " (aff " ++
    lib.fixed2 before ++ "->" ++ lib.fixed2 after ++ ")"

/-- The line of a cell that falls asleep. -/
def sleepLine (id : NodeId) : String := "SLEEP n" ++ id.toNat.repr

/-- The line of a cell that dies. -/
def deadLine (id : NodeId) : String := "DEAD n" ++ id.toNat.repr

/-- The line of a collective dream, as the life loop writes it. -/
def collectiveDreamLine (report : SyncReport) : String :=
  "COLLECTIVE_DREAM groups=" ++ report.groups.toNat.repr ++ " shared=" ++ report.shared.toNat.repr ++
    " aligned=" ++ report.aligned.toNat.repr ++ " protected=" ++ report.protectedCells.toNat.repr ++
    " took=" ++ report.tookMs.toNat.repr ++ "ms"

/-- The text of a line, with its numbers in decimal. -/
def FieldLine.text : FieldLine F → String
  | divide parent child before after => divideLine lib parent child before after
  | sleep id => sleepLine id
  | dead id => deadLine id
  | collectiveDream report => collectiveDreamLine report

/-- What a host is meant to learn from a line. -/
def FieldLine.event (tickMs : UInt32) : FieldLine F → ProtocolEvent (CborValue G)
  | divide parent child before after =>
      ⟨"divide", .num child, tickMs, ((((∅ : Std.ExtTreeMap String (CborValue G) compare).insert
        "parent" (integerOf parent.toNat)).insert "child" (integerOf child.toNat)).insert
        "aff_before" (.float (lib.widen (lib.rounded before)))).insert
        "aff_after" (.float (lib.widen (lib.rounded after)))⟩
  | sleep id => ⟨"sleep", .num id, tickMs, (∅ : Std.ExtTreeMap String (CborValue G) compare).insert
      "state" (.text "sleep")⟩
  | dead id => ⟨"dead", .num id, tickMs, (∅ : Std.ExtTreeMap String (CborValue G) compare).insert
      "state" (.text "dead")⟩
  | collectiveDream report =>
      ⟨"collective_dream", .text "collective_dream", tickMs,
        (((((∅ : Std.ExtTreeMap String (CborValue G) compare).insert
        "groups" (integerOf report.groups.toNat)).insert "shared" (integerOf report.shared.toNat)).insert
        "aligned" (integerOf report.aligned.toNat)).insert
        "protected" (integerOf report.protectedCells.toNat)).insert "took" (integerOf report.tookMs.toNat)⟩

/-- What a cell says to an impulse. -/
def answer (imp : Impulse F) : String :=
  match imp.kind with
  | .query => "echoes '" ++ imp.pattern ++ "'?"
  | .write => "records '" ++ imp.pattern ++ "'."
  | .affect => "senses '" ++ imp.pattern ++ "'."

/-- The response of `ingest`, as a line. -/
def answerLine (id : NodeId) (imp : Impulse F) : String := "n" ++ id.toNat.repr ++ " " ++ answer imp

/-- What a host is meant to learn from the response of a cell. -/
def answerEvent (id : NodeId) (imp : Impulse F) : ProtocolEvent (CborValue G) :=
  ⟨"hint", .num id, 0, ((∅ : Std.ExtTreeMap String (CborValue G) compare).insert
    "kind" (.text "impulse")).insert "message" (.text (answer imp))⟩

/-! ## Reading what was written -/

/-- A number that was printed in decimal is read back. -/
@[simp] theorem parseU64_repr (n : UInt64) : parseU64 n.toNat.repr = some n := by
  simp [parseU64, parseUnsigned_repr n.toNat_lt]

/-- The same of a natural number, if it is below 2^64. -/
theorem parseU64_repr_of_lt {n : ℕ} (h : n < 2 ^ 64) : parseU64 n.repr = some (UInt64.ofNat n) := by
  simp [parseU64, parseUnsigned_repr h]

omit [Binary64 G] in
/-- The event of a cell that sleeps or dies is made of its id, which is read back from the text. -/
theorem stateEvent_repr (state : String) (id : NodeId) (tickMs : UInt32) :
    stateEvent (G := G) state id.toNat.repr tickMs =
      some ⟨state, .num id, tickMs,
        (∅ : Std.ExtTreeMap String (CborValue G) compare).insert "state" (.text state)⟩ := by
  simp [stateEvent]

/-- The event of a division is made of the ids of parent and child, which are read back from between the
words, the arrow and the bracket. -/
theorem divideEvent_text [lib.Lawful] (parent child : NodeId) (before after : F) (tickMs : UInt32) :
    divideEvent lib (parent.toNat.repr ++ " -> child=n" ++ (child.toNat.repr ++ " (aff " ++
      (lib.fixed2 before ++ "->" ++ lib.fixed2 after ++ ")" ++ ""))) tickMs =
      some ((FieldLine.divide parent child before after).event lib tickMs) := by
  have hplain (x : F) : '>' ∉ (lib.fixed2 x).toList ∧ ')' ∉ (lib.fixed2 x).toList := by
    constructor
    · intro hmem
      exact (LogLibrary.Lawful.fixed2_plain x _ hmem).1 rfl
    · intro hmem
      exact (LogLibrary.Lawful.fixed2_plain x _ hmem).2.1 rfl
  have hsolid (x : F) : trim (lib.fixed2 x) = lib.fixed2 x :=
    trim_of_solid fun c hc => (LogLibrary.Lawful.fixed2_plain x c hc).2.2
  -- Numbers hold no bracket and no arrow: each separator is first found where it was written.
  have hclosing : ')' ∉ (lib.fixed2 before ++ "->" ++ lib.fixed2 after).toList := by
    simp [hplain]
  rw [divideEvent, splitOnce_of_head (d := ' ') (by decide) (notMem_repr (by decide) _)]
  simp only [Option.bind_eq_bind, Option.bind_some, parseU64_repr]
  rw [splitOnce_of_head (d := ' ') (by decide) (notMem_repr (by decide) _)]
  simp only [Option.bind_some, parseU64_repr]
  rw [splitOnce_of_head (d := ')') (by decide) hclosing]
  simp only [Option.bind_some]
  rw [splitOnce_of_second (d := '-') (e := '>') (by decide) (by decide) (hplain before).1]
  simp only [Option.bind_some, hsolid, LogLibrary.Lawful.parseF32_fixed2]
  rfl

/-! ### Collective dreams -/

/-- A number does not end with a text that has anything but digits. -/
theorem not_suffix_repr {pattern : String} {c : Char} (hmem : c ∈ pattern.toList) (hc : c.isDigit = false)
    (n : ℕ) : ¬ pattern.toList <:+ n.repr.toList := by
  intro hsuffix
  exact notMem_repr hc n (hsuffix.subset hmem)

section Chunks

omit [Binary64 G]

variable {key : String} {n : ℕ} (acc : Std.ExtTreeMap String (CborValue G) compare)

/-- A word with a key, an equals sign and a number enters the number under the key. -/
theorem dreamChunk_number (hkey : '=' ∉ key.toList) (h : n < 2 ^ 64) :
    dreamChunk acc (key ++ "=" ++ n.repr) = acc.insert key (integerOf n) := by
  have hraw : trimEndMatches n.repr "ms" = n.repr :=
    trimEndMatches_eq_self (not_suffix_repr (c := 's') (by decide) (by decide) n)
  rw [dreamChunk, splitOnce_of_head (d := '=') (by decide) hkey]
  dsimp only
  rw [hraw, parseU64_repr_of_lt h]
  dsimp only
  rw [UInt64.toNat_ofNat_of_lt' h]

/-- So does one whose number is followed by `ms`. -/
theorem dreamChunk_millis (hkey : '=' ∉ key.toList) (h : n < 2 ^ 64) :
    dreamChunk acc (key ++ "=" ++ (n.repr ++ "ms")) = acc.insert key (integerOf n) := by
  have hraw : trimEndMatches (n.repr ++ "ms") "ms" = n.repr :=
    trimEndMatches_append (by decide) (not_suffix_repr (c := 's') (by decide) (by decide) n)
  rw [dreamChunk, splitOnce_of_head (d := '=') (by decide) hkey]
  dsimp only
  rw [hraw, parseU64_repr_of_lt h]
  dsimp only
  rw [UInt64.toNat_ofNat_of_lt' h]

end Chunks

/-- The words that follow `COLLECTIVE_DREAM`. -/
def dreamWords (report : SyncReport) : List String :=
  ["groups" ++ "=" ++ report.groups.toNat.repr, "shared" ++ "=" ++ report.shared.toNat.repr,
    "aligned" ++ "=" ++ report.aligned.toNat.repr, "protected" ++ "=" ++ report.protectedCells.toNat.repr,
    "took" ++ "=" ++ (report.tookMs.toNat.repr ++ "ms")]

/-- The words of a report have no blanks in them. -/
theorem isWord_dreamWords (report : SyncReport) : ∀ w ∈ dreamWords report, IsWord w := by
  have hequals : ∀ c ∈ "=".toList, isWhitespace c = false := by simp [isWhitespace]
  have hms : ∀ c ∈ "ms".toList, isWhitespace c = false := by simp [isWhitespace]
  have hnumber (key : String) (hkey : IsWord key) (n : ℕ) : IsWord (key ++ "=" ++ n.repr) :=
    (hkey.append hequals).append (isWord_repr n).solid
  have htook : IsWord ("took" ++ "=" ++ (report.tookMs.toNat.repr ++ "ms")) :=
    (IsWord.append (by decide) hequals).append ((isWord_repr _).append hms).solid
  simp only [dreamWords, List.forall_mem_cons]
  exact ⟨hnumber _ (by decide) _, hnumber _ (by decide) _, hnumber _ (by decide) _, hnumber _ (by decide) _,
    htook, by simp⟩

/-- The text of a collective dream is made of words. -/
theorem dreamText_eq (groups shared aligned protectedCells took : String) :
    "COLLECTIVE_DREAM groups=" ++ groups ++ " shared=" ++ shared ++ " aligned=" ++ aligned ++ " protected=" ++
        protectedCells ++ " took=" ++ took ++ "ms" =
      "COLLECTIVE_DREAM " ++ " ".intercalate ["groups" ++ "=" ++ groups, "shared" ++ "=" ++ shared,
        "aligned" ++ "=" ++ aligned, "protected" ++ "=" ++ protectedCells, "took" ++ "=" ++ (took ++ "ms")] := by
  have hshared : " shared=" = " " ++ "shared" ++ "=" := by simp
  have haligned : " aligned=" = " " ++ "aligned" ++ "=" := by simp
  have hprotected : " protected=" = " " ++ "protected" ++ "=" := by simp
  have htook : " took=" = " " ++ "took" ++ "=" := by simp
  have hgroups : "COLLECTIVE_DREAM groups=" = "COLLECTIVE_DREAM " ++ "groups" ++ "=" := by simp
  rw [hshared, haligned, hprotected, htook, hgroups]
  simp only [String.intercalate_cons_cons, String.intercalate_singleton, String.append_assoc]

/-- A line about a collective dream is its name and then its words, with one blank between any two. -/
theorem collectiveDreamLine_eq (report : SyncReport) :
    collectiveDreamLine report = "COLLECTIVE_DREAM " ++ " ".intercalate (dreamWords report) := by
  exact dreamText_eq _ _ _ _ _

/-- The words of a report are split at the blanks again, and each of them is entered. -/
theorem dreamEvent_words (report : SyncReport) (tickMs : UInt32) :
    dreamEvent (" ".intercalate (dreamWords report)) tickMs =
      (FieldLine.collectiveDream report).event lib tickMs := by
  have hgroups : report.groups.toNat < 2 ^ 64 := report.groups.toNat_lt.trans (by decide)
  have hword (u : UInt32) : u.toNat < 2 ^ 64 := u.toNat_lt.trans (by decide)
  rw [dreamEvent, splitWhitespace_intercalate (isWord_dreamWords report), dreamWords]
  simp only [List.foldl_cons, List.foldl_nil]
  rw [dreamChunk_number _ (by decide) hgroups, dreamChunk_number _ (by decide) (hword _),
    dreamChunk_number _ (by decide) (hword _), dreamChunk_number _ (by decide) (hword _),
    dreamChunk_millis _ (by decide) (hword _)]
  rfl

/-! ### Lines -/

/-- A line that is no JSON. -/
theorem eventFromFieldLog_of_head {line : String} {c : Char} (hhead : line.toList.head? = some c)
    (hc : c ≠ '\x7b') (htrim : trim line = line) (tickMs : UInt32) :
    eventFromFieldLog lib line tickMs = eventFromText lib line tickMs := by
  have hbrace : ¬ line.toList.head? = some '\x7b' := by
    rw [hhead]
    intro h
    exact hc (Option.some.inj h)
  rw [eventFromFieldLog, htrim, if_neg hbrace]

/-- The first character of a text is that of every longer one. -/
theorem head?_append_of_head {s : String} {c : Char} (h : s.toList.head? = some c) (t : String) :
    (s ++ t).toList.head? = some c := by
  rw [String.toList_append, List.head?_append, h]
  rfl

/-- The text of a birth, the way it is taken apart. -/
theorem divideText_eq (parent child before after : String) :
    "DIVIDE parent=n" ++ parent ++ " -> child=n" ++ child ++ " (aff " ++ before ++ "->" ++ after ++ ")" =
      "DIVIDE parent=n" ++ (parent ++ " -> child=n" ++ (child ++ " (aff " ++
        (before ++ "->" ++ after ++ ")" ++ ""))) := by
  simp only [String.append_assoc, String.append_empty]

/-- A line about a division, piece by piece. -/
theorem divideLine_eq (parent child : NodeId) (before after : F) :
    divideLine lib parent child before after =
      "DIVIDE parent=n" ++ (parent.toNat.repr ++ " -> child=n" ++ (child.toNat.repr ++ " (aff " ++
        (lib.fixed2 before ++ "->" ++ lib.fixed2 after ++ ")" ++ ""))) :=
  divideText_eq _ _ _ _

/-- It is read back as the event of this division. -/
theorem eventFromFieldLog_divideLine [lib.Lawful] (parent child : NodeId) (before after : F) (tickMs : UInt32) :
    eventFromFieldLog lib (divideLine lib parent child before after) tickMs =
      some ((FieldLine.divide parent child before after).event lib tickMs) := by
  have hstart : StartsSolid "DIVIDE parent=n" := ⟨'D', by decide, by decide⟩
  have hend : EndsSolid (divideLine lib parent child before after) :=
    EndsSolid.append ⟨')', by decide, by decide⟩ _
  rw [divideLine_eq] at hend ⊢
  rw [eventFromFieldLog_of_head lib (c := 'D') (head?_append_of_head (by decide) _) (by decide)
    (trim_of_ends (hstart.append _) hend), eventFromText, stripPrefix_append]
  exact divideEvent_text lib parent child before after tickMs

/-- A line about a sleep is read back as the event of this cell. -/
theorem eventFromFieldLog_sleepLine (id : NodeId) (tickMs : UInt32) :
    eventFromFieldLog lib (sleepLine id) tickMs = some ((FieldLine.sleep id : FieldLine F).event lib tickMs) := by
  have hstart : StartsSolid "SLEEP n" := ⟨'S', by decide, by decide⟩
  have hend : EndsSolid (sleepLine id) := (isWord_repr _).endsSolid.append _
  rw [sleepLine] at hend ⊢
  rw [eventFromFieldLog_of_head lib (c := 'S') (head?_append_of_head (by decide) _) (by decide)
    (trim_of_ends (hstart.append _) hend), eventFromText,
    stripPrefix_of_head (c := 'S') (d := 'D') (head?_append_of_head (by decide) _) (by decide) (by decide),
    stripPrefix_append]
  exact stateEvent_repr "sleep" id tickMs

/-- A line about a death is read back as the event of this cell. -/
theorem eventFromFieldLog_deadLine (id : NodeId) (tickMs : UInt32) :
    eventFromFieldLog lib (deadLine id) tickMs = some ((FieldLine.dead id : FieldLine F).event lib tickMs) := by
  have hstart : StartsSolid "DEAD n" := ⟨'D', by decide, by decide⟩
  have hend : EndsSolid (deadLine id) := (isWord_repr _).endsSolid.append _
  -- `DEAD` begins like `DIVIDE`, so that here the first letter does not tell the prefixes apart.
  rw [deadLine] at hend ⊢
  rw [eventFromFieldLog_of_head lib (c := 'D') (head?_append_of_head (by decide) _) (by decide)
    (trim_of_ends (hstart.append _) hend), eventFromText,
    stripPrefix_eq_none (by decide) (by decide),
    stripPrefix_of_head (c := 'D') (d := 'S') (head?_append_of_head (by decide) _) (by decide) (by decide),
    stripPrefix_append]
  exact stateEvent_repr "dead" id tickMs

/-- A line about a collective dream is read back as the event with the numbers of its report. -/
theorem eventFromFieldLog_collectiveDreamLine (report : SyncReport) (tickMs : UInt32) :
    eventFromFieldLog lib (collectiveDreamLine report) tickMs =
      some ((FieldLine.collectiveDream report : FieldLine F).event lib tickMs) := by
  have hstart : StartsSolid "COLLECTIVE_DREAM " := ⟨'C', by decide, by decide⟩
  have hend : EndsSolid (collectiveDreamLine report) := EndsSolid.append ⟨'s', by decide, by decide⟩ _
  rw [collectiveDreamLine_eq] at hend ⊢
  rw [eventFromFieldLog_of_head lib (c := 'C') (head?_append_of_head (by decide) _) (by decide)
    (trim_of_ends (hstart.append _) hend), eventFromText,
    stripPrefix_of_head (c := 'C') (d := 'D') (head?_append_of_head (by decide) _) (by decide) (by decide),
    stripPrefix_of_head (c := 'C') (d := 'S') (head?_append_of_head (by decide) _) (by decide) (by decide),
    stripPrefix_of_head (c := 'C') (d := 'D') (head?_append_of_head (by decide) _) (by decide) (by decide),
    stripPrefix_append]
  exact congrArg some (dreamEvent_words lib report tickMs)

/-- An object in JSON gives the event that it holds, if any: it is no line of text. -/
theorem eventFromFieldLog_object (inner : String) (tickMs : UInt32) :
    eventFromFieldLog lib ("\x7b" ++ inner ++ "\x7d") tickMs =
      (lib.fromStr ("\x7b" ++ inner ++ "\x7d")).bind fun json => eventFromJson lib json tickMs := by
  have hhead : ("\x7b" ++ inner ++ "\x7d").toList.head? = some '\x7b' :=
    head?_append_of_head (head?_append_of_head (by decide) _) _
  have hstart : StartsSolid ("\x7b" ++ inner ++ "\x7d") := ⟨'\x7b', hhead, by decide⟩
  have hend : EndsSolid ("\x7b" ++ inner ++ "\x7d") := EndsSolid.append ⟨'\x7d', by decide, by decide⟩ _
  -- No prefix of a line of text begins with a brace.
  have htext : eventFromText lib ("\x7b" ++ inner ++ "\x7d") tickMs = none := by
    rw [eventFromText, stripPrefix_of_head (d := 'D') hhead (by decide) (by decide),
      stripPrefix_of_head (d := 'S') hhead (by decide) (by decide),
      stripPrefix_of_head (d := 'D') hhead (by decide) (by decide),
      stripPrefix_of_head (d := 'C') hhead (by decide) (by decide)]
    rfl
  rw [eventFromFieldLog, trim_of_ends hstart hend, if_pos hhead, htext]
  cases (lib.fromStr ("\x7b" ++ inner ++ "\x7d")).bind fun json => eventFromJson lib json tickMs <;> rfl

/-! ### Answers -/

omit [Binary64 G] in
/-- The text of an answer neither starts nor ends with a blank, so that trimming leaves it. -/
theorem answer_ends (imp : Impulse F) : StartsSolid (answer imp) ∧ EndsSolid (answer imp) := by
  rw [answer]
  cases imp.kind with
  | query => exact ⟨StartsSolid.append (StartsSolid.append ⟨'e', by decide, by decide⟩ _) _,
      EndsSolid.append ⟨'?', by decide, by decide⟩ _⟩
  | write => exact ⟨StartsSolid.append (StartsSolid.append ⟨'r', by decide, by decide⟩ _) _,
      EndsSolid.append ⟨'.', by decide, by decide⟩ _⟩
  | affect => exact ⟨StartsSolid.append (StartsSolid.append ⟨'s', by decide, by decide⟩ _) _,
      EndsSolid.append ⟨'.', by decide, by decide⟩ _⟩

omit [Binary64 G] in
/-- A line about an answer is read back as the hint of this cell with this text. -/
theorem eventFromImpulseLog_answerLine (id : NodeId) (imp : Impulse F) :
    eventFromImpulseLog (G := G) (answerLine id imp) = some (answerEvent id imp) := by
  obtain ⟨hfirst, hlast⟩ := answer_ends imp
  have hline : answerLine id imp = "n" ++ (id.toNat.repr ++ " " ++ answer imp) := by
    simp only [answerLine, String.append_assoc]
  have hstart : StartsSolid "n" := ⟨'n', by decide, by decide⟩
  have hend : EndsSolid ("n" ++ (id.toNat.repr ++ " " ++ answer imp)) := (hlast.append _).append _
  rw [hline, eventFromImpulseLog, trim_of_ends (hstart.append _) hend, stripPrefix_append]
  dsimp only
  rw [splitOnce_of_head (d := ' ') (by decide) (notMem_repr (by decide) _)]
  simp only [Option.bind_eq_bind, Option.bind_some, parseU64_repr, trim_of_ends hfirst hlast]
  rfl

/-- What the field writes is read back: a line of text as the event with its numbers, an object in JSON as the
event it holds, and the response of a cell as a hint. -/
theorem log_lines_read_back [lib.Lawful] :
    (∀ (line : FieldLine F) (tickMs : UInt32),
      eventFromFieldLog lib (line.text lib) tickMs = some (line.event lib tickMs)) ∧
    (∀ (inner : String) (tickMs : UInt32), eventFromFieldLog lib ("\x7b" ++ inner ++ "\x7d") tickMs =
      (lib.fromStr ("\x7b" ++ inner ++ "\x7d")).bind fun json => eventFromJson lib json tickMs) ∧
    (∀ (id : NodeId) (imp : Impulse F),
      eventFromImpulseLog (G := G) (answerLine id imp) = some (answerEvent id imp)) := by
  refine ⟨?_, eventFromFieldLog_object lib, eventFromImpulseLog_answerLine⟩
  intro line tickMs
  cases line with
  | divide parent child before after => exact eventFromFieldLog_divideLine lib parent child before after tickMs
  | sleep id => exact eventFromFieldLog_sleepLine lib id tickMs
  | dead id => exact eventFromFieldLog_deadLine lib id tickMs
  | collectiveDream report => exact eventFromFieldLog_collectiveDreamLine lib report tickMs

/-! ## A library for exact numbers -/

/-- Exact numbers in the place of `f64`. -/
instance : Binary64 ℚ := ⟨fun _ => true, Int.cast⟩

/-- Decimal texts, shorter keys before longer ones, and of JSON the empty object. -/
def exactLibrary : LogLibrary ℚ ℚ where
  fixed2 := Decimal.fixed2
  parseF32 := Decimal.parseSigned
  rounded := Decimal.rounded2
  widen := id
  fromStr text := if text = "\x7b\x7d" then some (.object []) else none
  cmp
    | .text s, .text t => (compare s.utf8ByteSize t.utf8ByteSize).then (compare s t)
    | _, _ => .eq

instance : exactLibrary.Lawful where
  parseF32_fixed2 := Decimal.parseSigned_fixed2
  fixed2_plain x c hc := by
    rcases Decimal.mem_fixed2 hc with hdigit | rfl | rfl
    · have hrange : 48 ≤ c.toNat ∧ c.toNat ≤ 57 := Char.isDigit_iff_toNat.mp hdigit
      refine ⟨?_, ?_, ?_⟩
      · rintro rfl
        exact absurd hrange.2 (by decide)
      · rintro rfl
        exact absurd hrange.1 (by decide)
      · simp [isWhitespace]
        omega
    · decide
    · decide

/-- A birth, whose affinities are 0.625 and 0.7. -/
theorem log_lines_read_back_birth :
    let line : FieldLine ℚ := .divide 1 7 (5 / 8) (7 / 10)
    line.text exactLibrary = "DIVIDE parent=n1 -> child=n7 (aff 0.62->0.70)" ∧
      eventFromFieldLog exactLibrary "DIVIDE parent=n1 -> child=n7 (aff 0.62->0.70)" 200 =
        some (line.event exactLibrary 200) := by
  intro line
  have htext : line.text exactLibrary = "DIVIDE parent=n1 -> child=n7 (aff 0.62->0.70)" := by
    decide +kernel
  have hread := (log_lines_read_back exactLibrary).1 line 200
  rw [htext] at hread
  exact ⟨htext, hread⟩

end LiminalDB
