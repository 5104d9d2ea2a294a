import LiminalDB.Foundations.OrderedEntries
import LiminalDB.Foundations.Text

/-! # The two formats of a stream: `stream_codec`

A message is a JSON value, as text or as CBOR with shortened keys. The CBOR that `json_to_cbor` writes comes
back as the same value unless a key is one that `expand_key` cannot know the long form of, or one that
shortens to another (`carries_iff`), and `cbor_to_json` returns unless it reads an integer that no JSON
number of `serde_json` holds (`cborToJson_returns_iff`). -/

namespace LiminalDB

/-- What a stream does with an `f64`. -/
class Binary64 (F : Type) where
  isFinite : F → Bool
  /-- `as f64` -/
  ofInt : ℤ → F

namespace StreamCodec

/-- `StreamFormat`: the two formats in which a message may come. -/
inductive StreamFormat
  | json
  | cbor
  deriving DecidableEq

/-- The `Message` of `tungstenite`. -/
inductive Message
  | text (text : String)
  | binary (bytes : Bytes)
  | other
  deriving DecidableEq

/-- The `Number` of `serde_json`. -/
inductive JsonNumber (F : Type) [Binary64 F]
  | posInt (u : UInt64)
  | negInt (i : ℤ) (fits : -2 ^ 63 ≤ i ∧ i < 0)
  | float (f : F) (finite : Binary64.isFinite f = true)

/-- The `Value` of `serde_json`. The entries of an object are in the order of their keys. -/
inductive JsonValue (F : Type) [Binary64 F]
  | null
  | bool (b : Bool)
  | number (num : JsonNumber F)
  | string (s : String)
  | array (items : List (JsonValue F))
  | object (map : List (String × JsonValue F))

/-- The `Value` of `serde_cbor`. The entries of a map are in the order of their keys. -/
inductive CborValue (F : Type)
  | null
  | bool (b : Bool)
  | integer (i : ℤ)
  | float (f : F)
  | bytes (bytes : Bytes)
  | text (text : String)
  | array (items : List (CborValue F))
  | map (map : List (CborValue F × CborValue F))
  | tag (tag : UInt64) (inner : CborValue F)

/-- What `serde_json` and `serde_cbor` do: writing and reading values, the order of CBOR keys, and the
`Debug` text of a CBOR value. -/
structure Serde (F : Type) [Binary64 F] where
  toString : JsonValue F → Option String
  fromStr : String → Option (JsonValue F)
  toVec : CborValue F → Option Bytes
  fromSlice : Bytes → Option (CborValue F)
  cmp : CborValue F → CborValue F → Ordering
  debug : CborValue F → String

/-- Why a message does not come out: an `Err`, or a panic. -/
inductive Failure
  | error
  | panic
  deriving DecidableEq

/-! ## Keys -/

/-- `shorten_key`: the key that stands for this one in a CBOR message. -/
def shortenKey (key : String) : String :=
  match key with
  | "command" | "cmd" => "cmd"
  | "query" | "q" => "q"
  | "data" | "d" => "d"
  | "pattern" | "p" => "p"
  | "format" | "f" => "f"
  | "events" | "ev" => "ev"
  | "metrics" | "mt" => "mt"
  | "meta" => "m"
  | "source" | "src" => "src"
  | "id" => "id"
  | "dt" => "dt"
  | other => other

/-- `expand_key`: the key for which a short one stands, which is not always the one it was made from. -/
def expandKey (key : String) : String :=
  match key with
  | "cmd" => "cmd"
  | "q" => "q"
  | "d" => "data"
  | "p" => "pattern"
  | "f" => "format"
  | "ev" => "events"
  | "mt" => "metrics"
  | "m" => "meta"
  | "src" => "source"
  | other => other

/-- The keys that do not come back: two long forms that stay short, and the short forms of the others. -/
def renamedKeys : List String := ["command", "query", "d", "p", "f", "ev", "mt", "m", "src"]

/-- Shortening and then expanding a key gives it back, unless it is one of those that have another name. -/
theorem expandKey_shortenKey {key : String} (h : key ∉ renamedKeys) : expandKey (shortenKey key) = key := by
  simp only [renamedKeys, List.mem_cons, List.not_mem_nil, or_false, not_or] at h
  obtain ⟨hcommand, hquery, hd, hp, hf, hev, hmt, hm, hsrc⟩ := h
  fun_cases shortenKey key
  -- A key that neither table knows stays; the others are read off.
  case case20 => fun_cases expandKey key <;> first | rfl | contradiction
  all_goals first | rfl | contradiction

/-- No key comes out of both tables as one of these. -/
theorem expandKey_shortenKey_not_mem (key : String) : expandKey (shortenKey key) ∉ renamedKeys := by
  by_cases hrenamed : key ∈ renamedKeys
  · simp only [renamedKeys, List.mem_cons, List.not_mem_nil, or_false] at hrenamed
    rcases hrenamed with rfl | rfl | rfl | rfl | rfl | rfl | rfl | rfl | rfl <;> decide
  · rw [expandKey_shortenKey hrenamed]
    exact hrenamed

/-! ## Conversions -/

variable {F : Type} [Binary64 F]

namespace JsonNumber

/-- `as_u64`: the number if it was read as an unsigned one. -/
def asU64 : JsonNumber F → Option UInt64
  | posInt u => some u
  | _ => none

/-- `as_i64`: the number if it is an integer of 64 bits with a sign. -/
def asI64 : JsonNumber F → Option ℤ
  | posInt u => if u.toNat < 2 ^ 63 then some u.toNat else none
  | negInt i _ => some i
  | float _ _ => none

/-- `as_f64`: the number as a float, rounded where it has to be. -/
def asF64 : JsonNumber F → Option F
  | posInt u => some (Binary64.ofInt u.toNat)
  | negInt i _ => some (Binary64.ofInt i)
  | float f _ => some f

/-- The number case of `json_to_cbor`. -/
def toCbor (num : JsonNumber F) : CborValue F :=
  match num.asU64, num.asI64, num.asF64 with
  | some u, _, _ => .integer u.toNat
  | none, some i, _ => .integer i
  | none, none, some f => .float f
  | none, none, none => .null

end JsonNumber

/-- `json!` on an `i128`, unless it panics. -/
def jsonInteger (i : ℤ) : Option (JsonValue F) :=
  if 0 ≤ i ∧ i < 2 ^ 64 then some (.number (.posInt (UInt64.ofNat i.toNat)))
  else if h : -2 ^ 63 ≤ i ∧ i < 0 then some (.number (.negInt i h))
  else none

/-- `json!` on an `f64`. -/
def jsonFloat (f : F) : JsonValue F :=
  if h : Binary64.isFinite f = true then .number (.float f h) else .null

/-- `json!` on a byte. -/
def jsonByte (b : UInt8) : JsonValue F := .number (.posInt b.toUInt64)

variable (serde : Serde F)

mutual

/-- `json_to_cbor`: the same value in CBOR, with its keys shortened. -/
def jsonToCbor : JsonValue F → CborValue F
  | .null => .null
  | .bool b => .bool b
  | .number num => num.toCbor
  | .string s => .text s
  | .array items => .array (itemsToCbor items)
  | .object map => .map (entriesToCbor map [])

/-- The items of an array, each of them converted. -/
def itemsToCbor : List (JsonValue F) → List (CborValue F)
  | [] => []
  | item :: items => jsonToCbor item :: itemsToCbor items

/-- The loop over an object, with the map so far. -/
def entriesToCbor : List (String × JsonValue F) → List (CborValue F × CborValue F) →
    List (CborValue F × CborValue F)
  | [], cborMap => cborMap
  | (key, value) :: map, cborMap =>
      entriesToCbor map (insertEntry serde.cmp (.text (shortenKey key)) (jsonToCbor value) cborMap)

end

/-- The text of a key. -/
def keyStr (debug : CborValue F → String) : CborValue F → String
  | .text text => text
  | other => debug other

mutual

/-- `cbor_to_json`, unless it panics. -/
def cborToJson : CborValue F → Option (JsonValue F)
  | .null => some .null
  | .bool b => some (.bool b)
  | .integer i => jsonInteger i
  | .float f => some (jsonFloat f)
  | .bytes bytes => some (.array (bytes.map jsonByte))
  | .text text => some (.string text)
  | .array items => (itemsToJson items).map .array
  | .map map => (entriesToJson map []).map .object
  | .tag _ inner => cborToJson inner

/-- The items of an array, unless one of them cannot be converted. -/
def itemsToJson : List (CborValue F) → Option (List (JsonValue F))
  | [] => some []
  | item :: items => do
      let first ← cborToJson item
      let rest ← itemsToJson items
      some (first :: rest)

/-- The loop over a map, with the object so far. -/
def entriesToJson : List (CborValue F × CborValue F) → List (String × JsonValue F) →
    Option (List (String × JsonValue F))
  | [], object => some object
  | (key, value) :: map, object => do
      let value ← cborToJson value
      entriesToJson map (insertEntry compare (expandKey (keyStr serde.debug key)) value object)

end

/-- `encode_cbor_json`: the message in the format asked for. -/
def encodeCborJson (value : JsonValue F) : StreamFormat → Except Failure Message
  | .json => (serde.toString value).elim (throw .error) fun text => pure (.text text)
  | .cbor => (serde.toVec (jsonToCbor serde value)).elim (throw .error) fun bytes => pure (.binary bytes)

/-- `decode_cbor_json`: the value of a message and the format it came in. -/
def decodeCborJson : Message → Except Failure (JsonValue F × StreamFormat)
  | .text text => (serde.fromStr text).elim (throw .error) fun value => pure (value, .json)
  | .binary bytes => (serde.fromSlice bytes).elim (throw .error) fun cborValue =>
      (cborToJson serde cborValue).elim (throw .panic) fun jsonValue => pure (jsonValue, .cbor)
  | .other => throw .error

/-! ## Values and their parts -/

/-- What holds of a JSON value if it holds of its items or of the values of its entries holds of every
value. -/
@[elab_as_elim]
theorem JsonValue.induction {P : JsonValue F → Prop} (null : P .null) (bool : ∀ b, P (.bool b))
    (number : ∀ num, P (.number num)) (string : ∀ s, P (.string s))
    (array : ∀ items, (∀ item ∈ items, P item) → P (.array items))
    (object : ∀ map : List (String × JsonValue F), (∀ e ∈ map, P e.2) → P (.object map))
    (v : JsonValue F) : P v := by
  refine @JsonValue.rec F _ P (fun items => ∀ item ∈ items, P item) (fun map => ∀ e ∈ map, P e.2)
    (fun e => P e.2) null bool number string array object ?_ ?_ ?_ ?_ (fun _ _ h => h) v
  · exact List.forall_mem_nil _
  · exact fun item items hitem hitems => List.forall_mem_cons.mpr ⟨hitem, hitems⟩
  · exact List.forall_mem_nil _
  · exact fun e map he hmap => List.forall_mem_cons.mpr ⟨he, hmap⟩

omit [Binary64 F] in
/-- The keys of a map are not part of what the induction is about. -/
@[elab_as_elim]
theorem CborValue.induction {P : CborValue F → Prop} (null : P .null) (bool : ∀ b, P (.bool b))
    (integer : ∀ i, P (.integer i)) (float : ∀ f, P (.float f)) (bytes : ∀ b, P (.bytes b))
    (text : ∀ t, P (.text t)) (array : ∀ items, (∀ item ∈ items, P item) → P (.array items))
    (map : ∀ map : List (CborValue F × CborValue F), (∀ e ∈ map, P e.2) → P (.map map))
    (tag : ∀ t inner, P inner → P (.tag t inner)) (c : CborValue F) : P c := by
  refine @CborValue.rec F P (fun items => ∀ item ∈ items, P item) (fun map => ∀ e ∈ map, P e.2)
    (fun e => P e.2) null bool integer float bytes text array map tag ?_ ?_ ?_ ?_ (fun _ _ _ h => h) c
  · exact List.forall_mem_nil _
  · exact fun item items hitem hitems => List.forall_mem_cons.mpr ⟨hitem, hitems⟩
  · exact List.forall_mem_nil _
  · exact fun e map he hmap => List.forall_mem_cons.mpr ⟨he, hmap⟩

/-- A value is, or is somewhere in, another one. -/
inductive JsonValue.Within : JsonValue F → JsonValue F → Prop
  | self (v : JsonValue F) : Within v v
  | item {v item : JsonValue F} {items : List (JsonValue F)} :
      item ∈ items → Within v item → Within v (.array items)
  | entry {v : JsonValue F} {e : String × JsonValue F} {map : List (String × JsonValue F)} :
      e ∈ map → Within v e.2 → Within v (.object map)

/-- Every object has its keys in order, each once. -/
def JsonValue.Ordered (v : JsonValue F) : Prop :=
  ∀ map, Within (.object map) v → Ascending map

/-- No object has a key that is renamed. -/
def JsonValue.KeepsKeys (v : JsonValue F) : Prop :=
  ∀ map, Within (.object map) v → ∀ e ∈ map, e.1 ∉ renamedKeys

/-- What `cbor_to_json` converts on the way to a value: the value, and its items, inner values and the values
of its entries, but no keys. -/
inductive CborValue.Converted : CborValue F → CborValue F → Prop
  | self (c : CborValue F) : Converted c c
  | item {c item : CborValue F} {items : List (CborValue F)} :
      item ∈ items → Converted c item → Converted c (.array items)
  | entry {c : CborValue F} {e : CborValue F × CborValue F} {map : List (CborValue F × CborValue F)} :
      e ∈ map → Converted c e.2 → Converted c (.map map)
  | inner {c inner : CborValue F} {tag : UInt64} : Converted c inner → Converted c (.tag tag inner)

/-- Every integer that is converted is an `i64` or a `u64`. -/
def CborValue.Representable (c : CborValue F) : Prop :=
  ∀ i, Converted (.integer i) c → -2 ^ 63 ≤ i ∧ i < 2 ^ 64

/-! ## There and back -/

variable {serde}

/-- Converting the items is converting each one on its own. -/
theorem itemsToCbor_eq (items : List (JsonValue F)) :
    itemsToCbor serde items = items.map (jsonToCbor serde) := by
  induction items with
  | nil => rfl
  | cons item items ih => rw [itemsToCbor, ih, List.map_cons]

/-- Converting the entries is inserting them in their order, under shortened keys, so that the later of two
equal keys wins. -/
theorem entriesToCbor_eq (map : List (String × JsonValue F)) (cborMap : List (CborValue F × CborValue F)) :
    entriesToCbor serde map cborMap =
      (map.map fun e => (CborValue.text (shortenKey e.1), jsonToCbor serde e.2)).foldl
        (fun map e => insertEntry serde.cmp e.1 e.2 map) cborMap := by
  induction map generalizing cborMap with
  | nil => rfl
  | cons e map ih => rw [entriesToCbor, ih, List.map_cons, List.foldl_cons]

/-- Items are converted back exactly if each one is, and then one by one. -/
theorem itemsToJson_eq_some_iff {items : List (CborValue F)} {values : List (JsonValue F)} :
    itemsToJson serde items = some values ↔
      List.Forall₂ (fun item value => cborToJson serde item = some value) items values := by
  induction items generalizing values with
  | nil => rw [itemsToJson, List.forall₂_nil_left_iff, Option.some.injEq, eq_comm]
  | cons item items ih =>
      simp only [itemsToJson, Option.bind_eq_bind, Option.bind_eq_some_iff, Option.some.injEq]
      rw [List.forall₂_cons_left_iff]
      constructor
      · rintro ⟨first, hfirst, rest, hrest, rfl⟩
        exact ⟨first, rest, hfirst, ih.mp hrest, rfl⟩
      · rintro ⟨first, rest, hfirst, hrest, rfl⟩
        exact ⟨first, hfirst, rest, ih.mpr hrest, rfl⟩

/-- The loop over a map whose values all convert. -/
theorem entriesToJson_eq {map : List (CborValue F × CborValue F)} {object : List (String × JsonValue F)}
    {g : CborValue F → JsonValue F} (h : ∀ e ∈ map, cborToJson serde e.2 = some (g e.2)) :
    entriesToJson serde map object = some ((map.map fun e => (expandKey (keyStr serde.debug e.1), g e.2)).foldl
      (fun map e => insertEntry compare e.1 e.2 map) object) := by
  induction map generalizing object with
  | nil => rfl
  | cons e map ih =>
      rw [entriesToJson, h e (by simp), List.map_cons, List.foldl_cons]
      exact ih fun e he => h e (List.mem_cons_of_mem _ he)

/-- A natural number is the same number in CBOR. -/
theorem toCbor_posInt (u : UInt64) : (JsonNumber.posInt u : JsonNumber F).toCbor = .integer u.toNat := rfl

/-- Numbers come back. -/
theorem cborToJson_toCbor (num : JsonNumber F) : cborToJson serde num.toCbor = some (.number num) := by
  cases num with
  | posInt u =>
      have hfits : (0 : ℤ) ≤ u.toNat ∧ (u.toNat : ℤ) < 2 ^ 64 := ⟨by omega, by exact_mod_cast u.toNat_lt⟩
      rw [toCbor_posInt, cborToJson, jsonInteger, if_pos hfits, Int.toNat_natCast, UInt64.ofNat_toNat]
  | negInt i fits =>
      have hneg : ¬ (0 ≤ i ∧ i < 2 ^ 64) := fun h => absurd h.1 (not_le.mpr fits.2)
      have hcbor : (JsonNumber.negInt i fits : JsonNumber F).toCbor = .integer i := rfl
      rw [hcbor, cborToJson, jsonInteger, if_neg hneg, dif_pos fits]
  | float f finite =>
      have hcbor : (JsonNumber.float f finite : JsonNumber F).toCbor = .float f := rfl
      rw [hcbor, cborToJson, jsonFloat, dif_pos finite]

/-- A value without renamed keys comes back. -/
theorem cborToJson_jsonToCbor (hcmp : ∀ s t, serde.cmp (.text s) (.text t) = .eq ↔ s = t) {v : JsonValue F}
    (hordered : v.Ordered) (hkeys : v.KeepsKeys) : cborToJson serde (jsonToCbor serde v) = some v := by
  induction v using JsonValue.induction with
  | null => rfl
  | bool b => rfl
  | number num => exact cborToJson_toCbor num
  | string s => rfl
  | array items ih =>
      have hback : ∀ item ∈ items, cborToJson serde (jsonToCbor serde item) = some item := fun item hitem =>
        ih item hitem (fun map h => hordered map (.item hitem h)) fun map h => hkeys map (.item hitem h)
      have hitems : itemsToJson serde (itemsToCbor serde items) = some items := by
        rw [itemsToCbor_eq, itemsToJson_eq_some_iff, List.forall₂_map_left_iff]
        exact List.forall₂_same.mpr hback
      rw [jsonToCbor, cborToJson, hitems]
      rfl
  | object map ih =>
      have hback : ∀ e ∈ map, cborToJson serde (jsonToCbor serde e.2) = some e.2 := fun e he =>
        ih e he (fun inner h => hordered inner (.entry he h)) fun inner h => hkeys inner (.entry he h)
      have hkey : ∀ e ∈ map, expandKey (shortenKey e.1) = e.1 := fun e he =>
        expandKey_shortenKey (hkeys map (.self _) e he)
      have hascending : Ascending map := hordered map (.self _)
      -- The CBOR map has all entries, in the order of their short keys.
      have hperm : (entriesToCbor serde map []).Perm
          (map.map fun e => (CborValue.text (shortenKey e.1), jsonToCbor serde e.2)) := by
        rw [entriesToCbor_eq]
        refine foldl_insertEntry_perm (fun k _ e he => absurd he List.not_mem_nil) (List.pairwise_map.mpr ?_)
        refine hascending.imp_of_mem fun {a b} ha hb hlt heq => hlt.ne ?_
        rw [← hkey a ha, ← hkey b hb, (hcmp _ _).mp heq]
      have hvalues : ∀ e ∈ entriesToCbor serde map [],
          cborToJson serde e.2 = some ((cborToJson serde e.2).getD .null) := by
        intro e he
        obtain ⟨entry, hentry, rfl⟩ := List.mem_map.mp (hperm.mem_iff.mp he)
        rw [hback entry hentry, Option.getD_some]
      -- Expanding puts the keys back, in whatever order the entries come.
      rw [jsonToCbor, cborToJson, entriesToJson_eq (g := fun c => (cborToJson serde c).getD .null) hvalues,
        foldl_insertEntry_eq hascending]
      · rfl
      · refine (hperm.map _).trans (List.Perm.of_eq ?_)
        rw [List.map_map]
        refine (List.map_congr_left fun e he => ?_).trans (List.map_id map)
        show (expandKey (shortenKey e.1), (cborToJson serde (jsonToCbor serde e.2)).getD .null) = e
        rw [hkey e he, hback e he, Option.getD_some]

/-- What holds of the expanded keys and of the converted values holds of the object. -/
theorem forall_entriesToJson {P : String → Prop} {Q : JsonValue F → Prop}
    {map : List (CborValue F × CborValue F)} {object result : List (String × JsonValue F)}
    (hmap : ∀ e ∈ map, P (expandKey (keyStr serde.debug e.1)) ∧ ∀ w, cborToJson serde e.2 = some w → Q w)
    (hobject : ∀ e ∈ object, P e.1 ∧ Q e.2) (h : entriesToJson serde map object = some result) :
    ∀ e ∈ result, P e.1 ∧ Q e.2 := by
  induction map generalizing object with
  | nil =>
      obtain rfl := Option.some.inj h
      exact hobject
  | cons e map ih =>
      obtain ⟨hkey, hvalue⟩ := hmap e (by simp)
      obtain ⟨value, hconverted, hrest⟩ := Option.bind_eq_some_iff.mp h
      exact ih (fun e he => hmap e (List.mem_cons_of_mem _ he))
        (forall_insertEntry hkey (hvalue value hconverted) hobject) hrest

/-- What comes back has no renamed keys. -/
theorem keepsKeys_of_back {v w : JsonValue F} (h : cborToJson serde (jsonToCbor serde v) = some w) :
    w.KeepsKeys := by
  induction v using JsonValue.induction generalizing w with
  | null =>
      obtain rfl := Option.some.inj h
      rintro map ⟨⟩
  | bool b =>
      obtain rfl := Option.some.inj h
      rintro map ⟨⟩
  | number num =>
      obtain rfl := Option.some.inj ((cborToJson_toCbor num).symm.trans h)
      rintro map ⟨⟩
  | string s =>
      obtain rfl := Option.some.inj h
      rintro map ⟨⟩
  | array items ih =>
      obtain ⟨values, hvalues, rfl⟩ := Option.map_eq_some_iff.mp h
      rw [itemsToCbor_eq, itemsToJson_eq_some_iff, List.forall₂_map_left_iff] at hvalues
      rintro map (_ | ⟨hmem, hwithin⟩)
      -- The item at each place comes back from the one at the same place.
      obtain ⟨i, hi, rfl⟩ := List.getElem_of_mem hmem
      obtain ⟨hlength, hget⟩ := List.forall₂_iff_get.mp hvalues
      exact ih _ (List.getElem_mem _) (hget i (hlength ▸ hi) hi) map hwithin
  | object map ih =>
      obtain ⟨result, hresult, rfl⟩ := Option.map_eq_some_iff.mp h
      have hentries := forall_entriesToJson (P := fun key => key ∉ renamedKeys) (Q := JsonValue.KeepsKeys)
        (fun e he => ?_) (fun e he => absurd he List.not_mem_nil) hresult
      · rintro inner (_ | _ | ⟨hmem, hwithin⟩)
        · exact fun e he => (hentries e he).1
        · exact (hentries _ hmem).2 inner hwithin
      · -- Every entry of the CBOR map has a short key and a converted value.
        rw [entriesToCbor_eq] at he
        have hcbor := foldl_forall_insertEntry (P := fun key => ∃ k, key = CborValue.text (shortenKey k))
          (Q := fun value => ∀ w, cborToJson serde value = some w → w.KeepsKeys)
          (fun e he => ?_) (fun e he => absurd he List.not_mem_nil) e he
        · obtain ⟨⟨k, hk⟩, hvalue⟩ := hcbor
          rw [hk]
          exact ⟨expandKey_shortenKey_not_mem k, hvalue⟩
        · obtain ⟨entry, hentry, rfl⟩ := List.mem_map.mp he
          exact ⟨⟨entry.1, rfl⟩, fun w hw => ih entry hentry hw⟩

/-! ## The stream -/

/-- A message in the format comes out as the value and the format. -/
def Carries (serde : Serde F) (value : JsonValue F) (format : StreamFormat) : Prop :=
  ∃ message, encodeCborJson serde value format = .ok message ∧
    decodeCborJson serde message = .ok (value, format)

/-- Where the values of `serde_json` and `serde_cbor` themselves come back, the two formats carry the same if
and only if no key in the value is renamed. -/
theorem carries_iff {v : JsonValue F} (hordered : v.Ordered)
    (hcmp : ∀ s t, serde.cmp (.text s) (.text t) = .eq ↔ s = t)
    (hjson : (serde.toString v).bind serde.fromStr = some v)
    (hcbor : (serde.toVec (jsonToCbor serde v)).bind serde.fromSlice = some (jsonToCbor serde v)) :
    (Carries serde v .cbor ∧ Carries serde v .json) ↔ v.KeepsKeys := by
  obtain ⟨text, htext, hread⟩ := Option.bind_eq_some_iff.mp hjson
  obtain ⟨bytes, hbytes, hslice⟩ := Option.bind_eq_some_iff.mp hcbor
  have hencode : encodeCborJson serde v .cbor = .ok (.binary bytes) := by
    rw [encodeCborJson, hbytes]
    rfl
  constructor
  · rintro ⟨⟨message, hmessage, hdecode⟩, -⟩
    -- What comes back never has a renamed key, so a value that comes back has none.
    obtain rfl := Except.ok.inj (hencode.symm.trans hmessage)
    rw [decodeCborJson, hslice, Option.elim_some] at hdecode
    cases hback : cborToJson serde (jsonToCbor serde v) with
    | none =>
        rw [hback] at hdecode
        cases hdecode
    | some w =>
        rw [hback] at hdecode
        obtain rfl : w = v := congrArg Prod.fst (Except.ok.inj hdecode)
        exact keepsKeys_of_back hback
  · intro hkeys
    refine ⟨⟨.binary bytes, hencode, ?_⟩, ⟨.text text, ?_, ?_⟩⟩
    · rw [decodeCborJson, hslice, Option.elim_some, cborToJson_jsonToCbor hcmp hordered hkeys]
      rfl
    · rw [encodeCborJson, htext]
      rfl
    · rw [decodeCborJson, hread]
      rfl

instance : Binary64 Float := ⟨Float.isFinite, Float.ofInt⟩

/-- What the two libraries do with one value: its text, the bytes of its CBOR, and the order of text keys. -/
def serdeOf (v : JsonValue Float) (text : String) (cborValue : CborValue Float) (bytes : Bytes) : Serde Float where
  toString _ := some text
  fromStr _ := some v
  toVec _ := some bytes
  fromSlice _ := some cborValue
  cmp
    | .text s, .text t => (compare s.utf8ByteSize t.utf8ByteSize).then (compare s t)
    | _, _ => .eq
  debug _ := "CborValue"

/-- The sample library tells keys apart by their texts. -/
theorem serdeOf_cmp_eq_iff {v : JsonValue Float} {text : String} {cborValue : CborValue Float} {bytes : Bytes}
    (s t : String) : (serdeOf v text cborValue bytes).cmp (.text s) (.text t) = .eq ↔ s = t := by
  show (compare s.utf8ByteSize t.utf8ByteSize).then (compare s t) = .eq ↔ s = t
  rw [Ordering.then_eq_eq, compare_eq_iff_eq, compare_eq_iff_eq]
  exact and_iff_right_of_imp fun h => h ▸ rfl

/-- A command with long keys. -/
def evenMessage : JsonValue Float :=
  .object [("cmd", .string "impulse"), ("data", .object [("pattern", .string "cpu/load")])]

/-- What it is as CBOR. -/
def evenCbor : CborValue Float :=
  .map [(.text "d", .map [(.text "p", .text "cpu/load")]), (.text "cmd", .text "impulse")]

/-- What the libraries do with it. -/
def evenSerde : Serde Float :=
  serdeOf evenMessage
    "\x7b\"cmd\":\"impulse\",\"data\":\x7b\"pattern\":\"cpu/load\"\x7d\x7d" evenCbor
    [0xA2, 0x61, 0x64, 0xA1, 0x61, 0x70, 0x68, 0x63, 0x70, 0x75, 0x2F, 0x6C, 0x6F, 0x61, 0x64, 0x63, 0x63, 0x6D,
      0x64, 0x67, 0x69, 0x6D, 0x70, 0x75, 0x6C, 0x73, 0x65]

/-- The objects in it. -/
theorem within_evenMessage {map : List (String × JsonValue Float)}
    (h : JsonValue.Within (.object map) evenMessage) :
    map = [("cmd", .string "impulse"), ("data", .object [("pattern", .string "cpu/load")])] ∨
      map = [("pattern", .string "cpu/load")] := by
  rcases h with _ | _ | ⟨hmem, hwithin⟩
  · exact Or.inl rfl
  · rcases List.mem_cons.mp hmem with rfl | hmem
    · cases hwithin
    · obtain rfl := List.mem_singleton.mp hmem
      rcases hwithin with _ | _ | ⟨hmem, hwithin⟩
      · exact Or.inr rfl
      · obtain rfl := List.mem_singleton.mp hmem
        cases hwithin

/-- For the sample message the conditions on the library hold, so that both formats carry it exactly if its
keys are kept. -/
theorem carries_iff_evenMessage :
    (Carries evenSerde evenMessage .cbor ∧ Carries evenSerde evenMessage .json) ↔ evenMessage.KeepsKeys := by
  refine carries_iff (fun map h => ?_) serdeOf_cmp_eq_iff rfl ?_
  · rcases within_evenMessage h with rfl | rfl
    · exact List.pairwise_pair.mpr (by decide)
    · exact List.pairwise_singleton ..
  · rfl

/-- Two entries that have one short key: the first one is lost. -/
theorem not_carries_doubled : ¬ ∀ (serde : Serde Float) (v : JsonValue Float), v.Ordered →
    (∀ s t, serde.cmp (.text s) (.text t) = .eq ↔ s = t) →
    (serde.toString v).bind serde.fromStr = some v →
    (serde.toVec (jsonToCbor serde v)).bind serde.fromSlice = some (jsonToCbor serde v) →
    Carries serde v .cbor ∧ Carries serde v .json := by
  intro hclaim
  have hordered : (JsonValue.object [("d", .null), ("data", .bool true)] : JsonValue Float).Ordered := by
    rintro map (_ | _ | ⟨hmem, hwithin⟩)
    · exact List.pairwise_pair.mpr (by decide)
    · rcases List.mem_cons.mp hmem with rfl | hmem
      · cases hwithin
      · obtain rfl := List.mem_singleton.mp hmem
        cases hwithin
  obtain ⟨⟨message, hmessage, hdecode⟩, -⟩ := hclaim
    (serdeOf (.object [("d", .null), ("data", .bool true)]) "\x7b\"d\":null,\"data\":true\x7d"
      (.map [(.text "d", .bool true)]) [0xA1, 0x61, 0x64, 0xF5]) _ hordered serdeOf_cmp_eq_iff rfl rfl
  obtain rfl := Except.ok.inj hmessage
  have hobject : (JsonValue.object [("data", .bool true)] : JsonValue Float) =
      .object [("d", .null), ("data", .bool true)] := congrArg Prod.fst (Except.ok.inj hdecode)
  exact absurd (congrArg List.length (JsonValue.object.inj hobject)) (by decide)

/-! ## Panics -/

/-- An integer has a JSON number if it fits into 64 bits, with a sign or without. -/
theorem jsonInteger_isSome_iff {i : ℤ} :
    (∃ v : JsonValue F, jsonInteger i = some v) ↔ -2 ^ 63 ≤ i ∧ i < 2 ^ 64 := by
  unfold jsonInteger
  split
  · exact iff_of_true ⟨_, rfl⟩ (by omega)
  · split
    · exact iff_of_true ⟨_, rfl⟩ (by omega)
    · exact iff_of_false (by simp) (by omega)

/-- Converting items returns if it does for each of them. -/
theorem itemsToJson_returns_iff {items : List (CborValue F)} :
    (∃ values, itemsToJson serde items = some values) ↔
      ∀ item ∈ items, ∃ v, cborToJson serde item = some v := by
  induction items with
  | nil => exact iff_of_true ⟨[], rfl⟩ (List.forall_mem_nil _)
  | cons item items ih =>
      rw [List.forall_mem_cons, ← ih]
      simp only [itemsToJson, Option.bind_eq_bind, Option.bind_eq_some_iff, Option.some.injEq]
      constructor
      · rintro ⟨values, first, hfirst, rest, hrest, -⟩
        exact ⟨⟨first, hfirst⟩, rest, hrest⟩
      · rintro ⟨⟨first, hfirst⟩, rest, hrest⟩
        exact ⟨first :: rest, first, hfirst, rest, hrest, rfl⟩

/-- Converting entries returns if it does for the value of each; a key of any kind becomes a text. -/
theorem entriesToJson_returns_iff {map : List (CborValue F × CborValue F)}
    {object : List (String × JsonValue F)} : (∃ result, entriesToJson serde map object = some result) ↔
      ∀ e ∈ map, ∃ v, cborToJson serde e.2 = some v := by
  induction map generalizing object with
  | nil => exact iff_of_true ⟨object, rfl⟩ (List.forall_mem_nil _)
  | cons e map ih =>
      rw [List.forall_mem_cons]
      simp only [entriesToJson, Option.bind_eq_bind, Option.bind_eq_some_iff]
      constructor
      · rintro ⟨result, value, hvalue, hrest⟩
        exact ⟨⟨value, hvalue⟩, ih.mp ⟨result, hrest⟩⟩
      · rintro ⟨⟨value, hvalue⟩, hrest⟩
        obtain ⟨result, hresult⟩ := ih.mpr hrest
        exact ⟨result, value, hvalue, hresult⟩

/-- `cbor_to_json` returns if and only if every integer it converts is an `i64` or a `u64`. -/
theorem cborToJson_returns_iff (serde : Serde F) (c : CborValue F) :
    (∃ v, cborToJson serde c = some v) ↔ c.Representable := by
  induction c using CborValue.induction with
  | null => exact iff_of_true ⟨_, rfl⟩ (by rintro i ⟨⟩)
  | bool b => exact iff_of_true ⟨_, rfl⟩ (by rintro i ⟨⟩)
  | integer i =>
      refine jsonInteger_isSome_iff.trans ⟨?_, fun h => h i (.self _)⟩
      rintro h _ ⟨⟩
      exact h
  | float f => exact iff_of_true ⟨_, rfl⟩ (by rintro i ⟨⟩)
  | bytes bytes => exact iff_of_true ⟨_, rfl⟩ (by rintro i ⟨⟩)
  | text text => exact iff_of_true ⟨_, rfl⟩ (by rintro i ⟨⟩)
  | array items ih =>
      simp only [cborToJson, Option.map_eq_some_iff]
      constructor
      · rintro ⟨_, values, hvalues, rfl⟩ i (_ | ⟨hmem, hconverted⟩)
        exact (ih _ hmem).mp (itemsToJson_returns_iff.mp ⟨values, hvalues⟩ _ hmem) i hconverted
      · intro h
        obtain ⟨values, hvalues⟩ := itemsToJson_returns_iff.mpr fun item hitem =>
          (ih item hitem).mpr fun i hi => h i (.item hitem hi)
        exact ⟨_, values, hvalues, rfl⟩
  | map map ih =>
      simp only [cborToJson, Option.map_eq_some_iff]
      constructor
      -- Only the values of a map are converted; a key is written out as it is.
      · rintro ⟨_, result, hresult, rfl⟩ i (_ | _ | ⟨hmem, hconverted⟩)
        exact (ih _ hmem).mp (entriesToJson_returns_iff.mp ⟨result, hresult⟩ _ hmem) i hconverted
      · intro h
        obtain ⟨result, hresult⟩ := entriesToJson_returns_iff.mpr fun e he =>
          (ih e he).mpr fun i hi => h i (.entry he hi)
        exact ⟨_, result, hresult, rfl⟩
  | tag tag inner ih =>
      rw [cborToJson, ih]
      constructor
      · rintro h i (_ | _ | _ | hconverted)
        exact h i hconverted
      · exact fun h i hi => h i (.inner hi)

/-- A negative integer of CBOR that is no `i64`. -/
theorem not_returns_negative : ¬ ∀ i : ℤ, -2 ^ 64 ≤ i → i < 2 ^ 64 →
    ∃ v : JsonValue Float, cborToJson (serdeOf .null "null" .null [0xF6]) (.integer i) = some v := by
  intro hclaim
  obtain ⟨v, hv⟩ := hclaim (-2 ^ 63 - 1) (by decide) (by decide)
  cases hv

end StreamCodec

end LiminalDB
