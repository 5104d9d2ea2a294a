import LiminalDB.Foundations.Text
import Mathlib.Data.Nat.Digits.Defs
import Mathlib.Data.Nat.Digits.Lemmas
import Std.Data.ExtTreeMap

/-! # CBOR

The part of CBOR that a derived serializer writes for records of strings, numbers, options,
sequences, string-keyed maps and field-less variants: definite lengths, shortest heads, fields in
declaration order under text keys, a variant as its name, `None` as null.

A `Codec` carries its round trip: a decoder that recovers every encoded value in front of any further
input. Codecs are built from the combinators below, so that the round trip of a record is by
construction. The decoders read what these encoders write; they do not accept the other spellings
that a general CBOR reader would (reordered fields, indefinite lengths). -/

namespace LiminalDB

/-- An encoder with a decoder that undoes it in front of any further input. -/
structure Codec (α : Type) where
  /-- The bytes of a value. -/
  enc : α → Bytes
  /-- A value from the front of the input, and the input after it. -/
  dec : Bytes → Option (α × Bytes)
  /-- The decoder undoes the encoder. -/
  dec_enc : ∀ a rest, dec (enc a ++ rest) = some (a, rest)

variable {α β : Type}

/-! ## Numbers in a head -/

/-- The low `k` bytes of a number, highest first. -/
def toBeBytes : Nat → Nat → Bytes
  | 0, _ => []
  | k + 1, n => toBeBytes k (n / 256) ++ [UInt8.ofNat n]

/-- The number with the given bytes, highest first. -/
def fromBeBytes (bytes : Bytes) : Nat := bytes.foldl (fun n b => n * 256 + b.toNat) 0

/-- A number takes as many bytes as it was asked to. -/
@[simp] theorem length_toBeBytes (k n : Nat) : (toBeBytes k n).length = k := by
  induction k generalizing n with
  | zero => rfl
  | succ k ih => simp [toBeBytes, ih]

/-- A number that fits into its bytes is read back from them. -/
theorem fromBeBytes_toBeBytes {k n : Nat} (h : n < 256 ^ k) : fromBeBytes (toBeBytes k n) = n := by
  induction k generalizing n with
  | zero =>
      rw [Nat.pow_zero, Nat.lt_one_iff] at h
      rw [h]; rfl
  | succ k ih =>
      have hdiv : n / 256 < 256 ^ k := by
        rw [Nat.div_lt_iff_lt_mul (by decide), ← Nat.pow_succ]; exact h
      have hrec := ih hdiv
      unfold fromBeBytes at hrec ⊢
      rw [toBeBytes, List.foldl_append, hrec]
      simp only [List.foldl_cons, List.foldl_nil, UInt8.toNat_ofNat']
      omega

/-- A fixed number of bytes that hold a number, and the input after them. -/
def decBe (k : Nat) (bytes : Bytes) : Option (Nat × Bytes) :=
  if k ≤ bytes.length then some (fromBeBytes (bytes.take k), bytes.drop k) else none

/-- The same in front of other bytes, which are left. -/
theorem decBe_toBeBytes {k n : Nat} (h : n < 256 ^ k) (rest : Bytes) :
    decBe k (toBeBytes k n ++ rest) = some (n, rest) := by
  rw [decBe, if_pos (by simp), List.take_left' (length_toBeBytes k n),
    List.drop_left' (length_toBeBytes k n), fromBeBytes_toBeBytes h]

/-- A number of any size: base-255 digits, lowest first, ended by the byte 255. -/
def encDigits (n : Nat) : Bytes := (Nat.digits 255 n).map UInt8.ofNat ++ [255]

/-- Read such a number. -/
def decDigits (bytes : Bytes) : Option (Nat × Bytes) :=
  match bytes.dropWhile (· ≠ 255) with
  | [] => none
  | _ :: rest => some (Nat.ofDigits 255 ((bytes.takeWhile (· ≠ 255)).map UInt8.toNat), rest)

/-- A number written as digits of base 255 and an end mark is read back, and what follows is left. -/
theorem decDigits_encDigits (n : Nat) (rest : Bytes) :
    decDigits (encDigits n ++ rest) = some (n, rest) := by
  have hdigit : ∀ d ∈ Nat.digits 255 n, (UInt8.ofNat d).toNat = d := by
    intro d hd
    have hlt := Nat.digits_lt_base (by decide) hd
    rw [UInt8.toNat_ofNat', Nat.mod_eq_of_lt (by omega)]
  have hback : ((Nat.digits 255 n).map UInt8.ofNat).map UInt8.toNat = Nat.digits 255 n := by
    rw [List.map_map]
    exact (List.map_congr_left hdigit).trans (List.map_id _)
  -- no digit is the byte that ends them
  have hne : ∀ b ∈ (Nat.digits 255 n).map UInt8.ofNat, decide (b ≠ 255) = true := by
    intro b hb
    obtain ⟨d, hd, rfl⟩ := List.mem_map.mp hb
    have hlt := Nat.digits_lt_base (by decide) hd
    rw [decide_eq_true_iff]
    rintro heq
    have hnat := hdigit d hd
    rw [heq] at hnat
    simp at hnat
    omega
  unfold decDigits encDigits
  rw [List.append_assoc, List.takeWhile_append_of_pos hne, List.dropWhile_append_of_pos hne]
  simp [hback, Nat.ofDigits_digits]

/-- The head of an item: its major type and a number, in the shortest of the five forms. The last
form is not CBOR. It stands for the numbers that no `u64` holds, so that the codec of an unbounded
number is total. -/
def encHead (major : Nat) (n : Nat) : Bytes :=
  if n < 24 then [UInt8.ofNat (major * 32 + n)]
  else if n < 2 ^ 8 then UInt8.ofNat (major * 32 + 24) :: toBeBytes 1 n
  else if n < 2 ^ 16 then UInt8.ofNat (major * 32 + 25) :: toBeBytes 2 n
  else if n < 2 ^ 32 then UInt8.ofNat (major * 32 + 26) :: toBeBytes 4 n
  else if n < 2 ^ 64 then UInt8.ofNat (major * 32 + 27) :: toBeBytes 8 n
  else UInt8.ofNat (major * 32 + 28) :: encDigits n

/-- The head of a `u64` takes at most nine bytes. -/
theorem length_encHead_le {n : Nat} (h : n < 2 ^ 64) (major : Nat) : (encHead major n).length ≤ 9 := by
  unfold encHead
  rw [if_pos h]
  split_ifs <;> simp

/-- The head of a number from 2^64 on is as long as its digits, with the initial byte and the end mark. -/
theorem length_encHead_of_le {n : Nat} (h : 2 ^ 64 ≤ n) (major : Nat) :
    (encHead major n).length = (Nat.digits 255 n).length + 2 := by
  unfold encHead
  rw [if_neg (by omega), if_neg (by omega), if_neg (by omega), if_neg (by omega), if_neg (by omega)]
  simp [encDigits]

/-- A greater number has no shorter head. -/
theorem length_encHead_mono {n m : Nat} (h : n ≤ m) (major : Nat) :
    (encHead major n).length ≤ (encHead major m).length := by
  by_cases hm : m < 2 ^ 64
  · unfold encHead
    split_ifs <;> first | omega | simp
  · rw [length_encHead_of_le (not_lt.mp hm)]
    by_cases hn : n < 2 ^ 64
    · have hlong : 8 < (Nat.digits 255 m).length := by
        refine (Nat.lt_digits_length_iff (by decide) m).mpr (le_trans ?_ (not_lt.mp hm))
        norm_num
      have hshort := length_encHead_le hn major
      omega
    · rw [length_encHead_of_le (not_lt.mp hn)]
      exact Nat.add_le_add_right (Nat.le_length_digits_le 255 n m h) 2

/-- The number that follows a first byte with the given low five bits. -/
def decNumber (info : Nat) (rest : Bytes) : Option (Nat × Bytes) :=
  match info with
  | 24 => decBe 1 rest
  | 25 => decBe 2 rest
  | 26 => decBe 4 rest
  | 27 => decBe 8 rest
  | 28 => decDigits rest
  | n => if n < 24 then some (n, rest) else none

/-- The number of a head of the given major type. -/
def decHead (major : Nat) : Bytes → Option (Nat × Bytes)
  | [] => none
  | b :: rest => if b.toNat / 32 = major then decNumber (b.toNat % 32) rest else none

/-- The first byte gives back the major type and the form of the number. -/
theorem decHead_cons {major info : Nat} (hmajor : major < 8) (hinfo : info < 32) (rest : Bytes) :
    decHead major (UInt8.ofNat (major * 32 + info) :: rest) = decNumber info rest := by
  have hbyte : (UInt8.ofNat (major * 32 + info)).toNat = major * 32 + info := by
    rw [UInt8.toNat_ofNat', Nat.mod_eq_of_lt (by omega)]
  rw [decHead, hbyte, if_pos (by omega)]
  congr 1
  omega

/-- A number below 24 is in the initial byte itself. -/
theorem decNumber_of_lt {n : Nat} (h : n < 24) (rest : Bytes) : decNumber n rest = some (n, rest) := by
  unfold decNumber
  split
  all_goals first | omega | rw [if_pos h]

/-- Every head is read back, whatever bytes follow it. -/
theorem decHead_encHead {major : Nat} (hmajor : major < 8) (n : Nat) (rest : Bytes) :
    decHead major (encHead major n ++ rest) = some (n, rest) := by
  -- one case for each width of the number behind the head byte
  unfold encHead
  by_cases h₁ : n < 24
  · rw [if_pos h₁, List.singleton_append, decHead_cons hmajor (by omega), decNumber_of_lt h₁]
  rw [if_neg h₁]
  by_cases h₂ : n < 2 ^ 8
  · rw [if_pos h₂, List.cons_append, decHead_cons hmajor (by omega)]
    exact decBe_toBeBytes (by omega) rest
  rw [if_neg h₂]
  by_cases h₃ : n < 2 ^ 16
  · rw [if_pos h₃, List.cons_append, decHead_cons hmajor (by omega)]
    exact decBe_toBeBytes (by omega) rest
  rw [if_neg h₃]
  by_cases h₄ : n < 2 ^ 32
  · rw [if_pos h₄, List.cons_append, decHead_cons hmajor (by omega)]
    exact decBe_toBeBytes (by omega) rest
  rw [if_neg h₄]
  by_cases h₅ : n < 2 ^ 64
  · rw [if_pos h₅, List.cons_append, decHead_cons hmajor (by omega)]
    exact decBe_toBeBytes (by omega) rest
  rw [if_neg h₅, List.cons_append, decHead_cons hmajor (by omega)]
  exact decDigits_encDigits n rest

/-- The first byte of a head shows its major type. -/
theorem encHead_eq_cons {major : Nat} (hmajor : major < 8) (n : Nat) :
    ∃ b bytes, encHead major n = b :: bytes ∧ b.toNat / 32 = major := by
  have hbyte : ∀ info < 32, (UInt8.ofNat (major * 32 + info)).toNat / 32 = major := by
    intro info hinfo
    rw [UInt8.toNat_ofNat', Nat.mod_eq_of_lt (by omega)]
    omega
  unfold encHead
  split_ifs
  all_goals exact ⟨_, _, rfl, hbyte _ (by omega)⟩

namespace Codec

/-! ## Items -/

/-- Major type 0: an unsigned number. -/
def uint : Codec Nat where
  enc := encHead 0
  dec := decHead 0
  dec_enc := decHead_encHead (by decide)

/-- The UTF-8 bytes of a string determine it. -/
theorem fromUTF8?_asBytes (s : String) : String.fromUTF8? (asBytes s).toByteArray = some s := by
  have hbytes : (asBytes s).toByteArray = s.toByteArray := by
    have h := @String.toByteArray_ofList s.toList
    rw [String.ofList_toList] at h
    rw [h, asBytes_eq]
    rfl
  rw [hbytes, String.fromUTF8?, dif_pos s.isValidUTF8]
  rfl

/-- Major type 3: a text. -/
def text : Codec String where
  enc s := encHead 3 (asBytes s).length ++ asBytes s
  dec bytes := do
    let (n, rest) ← decHead 3 bytes
    if n ≤ rest.length then
      let s ← String.fromUTF8? (rest.take n).toByteArray
      return (s, rest.drop n)
    else none
  dec_enc := by
    intro s rest
    rw [List.append_assoc, decHead_encHead (by decide)]
    simp [fromUTF8?_asBytes]

/-- A value behind fixed bytes. -/
def behind (mark : Bytes) (c : Codec α) : Codec α where
  enc a := mark ++ c.enc a
  dec bytes := if mark.isPrefixOf bytes then c.dec (bytes.drop mark.length) else none
  dec_enc := by
    intro a rest
    rw [if_pos (by simp), List.append_assoc, List.drop_left, c.dec_enc]

/-- Two values, one after the other. -/
def pair (c : Codec α) (d : Codec β) : Codec (α × β) where
  enc p := c.enc p.1 ++ d.enc p.2
  dec bytes := do
    let (a, rest) ← c.dec bytes
    let (b, rest) ← d.dec rest
    return ((a, b), rest)
  dec_enc := by
    intro p rest
    rw [List.append_assoc, c.dec_enc]
    simp [d.dec_enc]

/-- A value through another type that determines it. -/
def via (c : Codec β) (f : α → β) (g : β → α) (h : ∀ a, g (f a) = a) : Codec α where
  enc a := c.enc (f a)
  dec bytes := (c.dec bytes).map fun (b, rest) => (g b, rest)
  dec_enc := by
    intro a rest
    rw [c.dec_enc]
    simp [h a]

/-- `true` and `false`. -/
def bool : Codec Bool where
  enc b := [if b then 0xf5 else 0xf4]
  dec
    | 0xf5 :: rest => some (true, rest)
    | 0xf4 :: rest => some (false, rest)
    | _ => none
  dec_enc := by
    rintro (_ | _) rest <;> rfl

/-- No encoding starts like null. -/
def NotNull (c : Codec α) : Prop := ∀ a, ∃ b bytes, c.enc a = b :: bytes ∧ b ≠ 0xf6

/-- An optional value: null, or the value itself. -/
def option (c : Codec α) (h : c.NotNull) : Codec (Option α) where
  enc
    | none => [0xf6]
    | some a => c.enc a
  dec bytes :=
    match bytes with
    | [] => none
    | b :: rest => if b = 0xf6 then some (none, rest)
        else (c.dec (b :: rest)).map fun (a, rest) => (some a, rest)
  dec_enc := by
    rintro (_ | a) rest
    · rfl
    · obtain ⟨b, bytes, henc, hb⟩ := h a
      have hdec := c.dec_enc a rest
      rw [henc, List.cons_append] at hdec
      simp only [henc, List.cons_append, if_neg hb, hdec, Option.map_some]

/-- `n` values in a row. -/
def decMany (c : Codec α) : Nat → Bytes → Option (List α × Bytes)
  | 0, bytes => some ([], bytes)
  | n + 1, bytes => do
      let (a, rest) ← c.dec bytes
      let (as, rest) ← decMany c n rest
      return (a :: as, rest)

/-- By induction over the items, as many as were written are read back. -/
theorem decMany_flatMap (c : Codec α) (as : List α) (rest : Bytes) :
    c.decMany as.length (as.flatMap c.enc ++ rest) = some (as, rest) := by
  induction as with
  | nil => rfl
  | cons a as ih =>
      rw [List.length_cons, decMany, List.flatMap_cons, List.append_assoc, c.dec_enc]
      simp [ih]

/-- A head with a count, and that many values: a sequence, or the entries of a map. -/
def counted (major : Nat) (hmajor : major < 8) (c : Codec α) : Codec (List α) where
  enc as := encHead major as.length ++ as.flatMap c.enc
  dec bytes := do
    let (n, rest) ← decHead major bytes
    c.decMany n rest
  dec_enc := by
    intro as rest
    rw [List.append_assoc, decHead_encHead hmajor]
    exact decMany_flatMap c as rest

/-- Major type 4: a sequence. -/
def list (c : Codec α) : Codec (List α) := counted 4 (by decide) c

/-- A map from a list of its entries. -/
theorem ofList_toList (m : Std.ExtTreeMap String α compare) :
    Std.ExtTreeMap.ofList m.toList compare = m := by
  refine Std.ExtTreeMap.ext_getElem? fun k => ?_
  cases hk : m[k]? with
  | none =>
      refine Std.ExtTreeMap.getElem?_ofList_of_contains_eq_false ?_
      rw [Std.ExtTreeMap.map_fst_toList_eq_keys, Std.ExtTreeMap.contains_keys,
        ← Bool.not_eq_true, Std.ExtTreeMap.contains_iff_mem,
        Std.ExtTreeMap.mem_iff_isSome_getElem?, hk]
      exact Bool.false_ne_true
  | some v =>
      refine Std.ExtTreeMap.getElem?_ofList_of_mem Std.ReflCmp.compare_self
        m.distinct_keys_toList ?_
      rwa [Std.ExtTreeMap.mem_toList_iff_getElem?_eq_some]

/-- Major type 5: a map with text keys, in the order of the keys. -/
def map (c : Codec α) : Codec (Std.ExtTreeMap String α compare) :=
  (counted 5 (by decide) (text.pair c)).via (·.toList) (Std.ExtTreeMap.ofList · compare)
    ofList_toList

/-- A field of a record: its name and its value. -/
def field (name : String) (c : Codec α) : Codec α := c.behind (text.enc name)

/-- The head of a record with `n` fields. -/
def record (n : Nat) (fields : Codec α) : Codec α := fields.behind (encHead 5 n)

/-- A variant without fields, written as its name. -/
def variant (name : α → String) (all : List α)
    (h : ∀ a, all.find? (fun b => name b == name a) = some a) : Codec α where
  enc a := text.enc (name a)
  dec bytes := do
    let (s, rest) ← text.dec bytes
    let a ← all.find? fun b => name b == s
    return (a, rest)
  dec_enc := by
    intro a rest
    rw [text.dec_enc]
    simp [h a]

/-- A value whose type depends on the value in front of it. -/
def sigma {ι : Type} {α : ι → Type} (c : Codec ι) (d : ∀ i, Codec (α i)) : Codec (Σ i, α i) where
  enc p := c.enc p.1 ++ (d p.1).enc p.2
  dec bytes := do
    let (i, rest) ← c.dec bytes
    let (a, rest) ← (d i).dec rest
    return (⟨i, a⟩, rest)
  dec_enc := by
    intro p rest
    rw [List.append_assoc, c.dec_enc]
    simp [(d p.1).dec_enc]

/-- A variant with fields: a map from its name alone to the record of its fields. -/
def tagged {ι : Type} {α : ι → Type} (tag : Codec ι) (fields : ∀ i, Codec (α i)) :
    Codec (Σ i, α i) :=
  record 1 (sigma tag fields)

/-- Major types 0 and 1: a signed number. -/
def int : Codec Int where
  enc
    | .ofNat n => encHead 0 n
    | .negSucc n => encHead 1 n
  dec bytes :=
    match decHead 0 bytes with
    | some (n, rest) => some (.ofNat n, rest)
    | none => (decHead 1 bytes).map fun (n, rest) => (.negSucc n, rest)
  dec_enc := by
    rintro (n | n) rest
    · simp only [decHead_encHead (by decide : 0 < 8)]
    · -- the major type of the head tells the signs apart
      obtain ⟨b, bytes, hhead, hb⟩ := encHead_eq_cons (by decide : 1 < 8) n
      have hother : decHead 0 (encHead 1 n ++ rest) = none := by
        rw [hhead, List.cons_append, decHead, if_neg (by omega)]
      simp only [hother, decHead_encHead (by decide : 1 < 8), Option.map_some]

/-! ## What is not null -/

/-- What begins with a head of a major type below seven is not taken for null. -/
theorem notNull_of_head {major : Nat} (hmajor : major < 7) {c : Codec α}
    (h : ∀ a, ∃ n bytes, c.enc a = encHead major n ++ bytes) : c.NotNull := by
  intro a
  obtain ⟨n, bytes, henc⟩ := h a
  obtain ⟨b, more, hhead, hb⟩ := encHead_eq_cons (show major < 8 by omega) n
  refine ⟨b, more ++ bytes, by rw [henc, hhead, List.cons_append], ?_⟩
  rintro rfl
  have : (0xf6 : UInt8).toNat / 32 = 7 := rfl
  omega

/-- A text is not taken for null. -/
theorem notNull_text : text.NotNull :=
  notNull_of_head (by decide : 3 < 7) fun _ => ⟨_, _, rfl⟩

/-- Nor is a record, which begins as a map does. -/
theorem notNull_record (n : Nat) (fields : Codec α) : (record n fields).NotNull :=
  notNull_of_head (by decide : 5 < 7) fun _ => ⟨_, _, rfl⟩

/-- Nor is a truth value, although it is of the major type of null. -/
theorem notNull_bool : bool.NotNull := by
  rintro (_ | _)
  · exact ⟨0xf4, [], rfl, by decide⟩
  · exact ⟨0xf5, [], rfl, by decide⟩

/-! ## Truncated input

A decoder that never looks beyond what it consumes cannot read a cut off encoding: it would read the
same value from the whole one and leave the missing end over. -/

/-- Further input changes nothing but what is left over. -/
def Stable (dec : Bytes → Option (α × Bytes)) : Prop :=
  ∀ ⦃bytes a rest⦄, dec bytes = some (a, rest) → ∀ more, dec (bytes ++ more) = some (a, rest ++ more)

/-- Reading a number of so many bytes does not depend on what follows them. -/
theorem stable_decBe (k : Nat) : Stable (decBe k) := by
  intro bytes n rest h more
  unfold decBe at h ⊢
  split at h
  · rename_i hle
    cases h
    rw [if_pos (by simp; omega), List.take_append_of_le_length hle,
      List.drop_append_of_le_length hle]
  · cases h

/-- Nor does reading digits up to their end mark. -/
theorem stable_decDigits : Stable decDigits := by
  intro bytes n rest h more
  unfold decDigits at h ⊢
  split at h
  · cases h
  · rename_i b rest' hdrop
    cases h
    -- the byte that ends the digits is in the input already
    have hlen : (bytes.takeWhile (· ≠ 255)).length ≠ bytes.length := by
      have hsplit := congrArg List.length
        (List.takeWhile_append_dropWhile (p := (· ≠ (255 : UInt8))) (l := bytes))
      rw [List.length_append, hdrop, List.length_cons] at hsplit
      omega
    rw [List.takeWhile_append, if_neg hlen, List.dropWhile_append, hdrop]
    rfl

/-- Nor does reading the number of a head. -/
theorem stable_decNumber (info : Nat) : Stable (decNumber info) := by
  intro bytes n rest h more
  unfold decNumber at h ⊢
  split at h
  · exact stable_decBe 1 h more
  · exact stable_decBe 2 h more
  · exact stable_decBe 4 h more
  · exact stable_decBe 8 h more
  · exact stable_decDigits h more
  · split at h
    · rename_i hlt
      cases h
      exact if_pos hlt
    · cases h

/-- Nor does reading a whole head. -/
theorem stable_decHead (major : Nat) : Stable (decHead major) := by
  intro bytes n rest h more
  cases bytes with
  | nil => cases h
  | cons b bytes =>
      rw [decHead] at h
      rw [List.cons_append, decHead]
      by_cases hb : b.toNat / 32 = major
      · rw [if_pos hb] at h ⊢
        exact stable_decNumber _ h more
      · rw [if_neg hb] at h
        cases h

/-- Nor does reading a text, whose length is in its head. -/
theorem stable_text : Stable text.dec := by
  intro bytes s rest h more
  obtain ⟨⟨n, rest'⟩, hhead, h⟩ := Option.bind_eq_some_iff.mp h
  show Option.bind (decHead 3 (bytes ++ more)) _ = _
  rw [stable_decHead 3 hhead more, Option.bind_some]
  dsimp only at h ⊢
  split at h
  · rename_i hle
    rw [if_pos (by simp; omega), List.take_append_of_le_length hle,
      List.drop_append_of_le_length hle]
    obtain ⟨s', hs', h⟩ := Option.bind_eq_some_iff.mp h
    cases h
    show Option.bind _ _ = _
    rw [hs']
    rfl
  · cases h

/-- A mark in front of what is stable makes no difference. -/
theorem stable_behind {c : Codec α} (hc : Stable c.dec) (mark : Bytes) :
    Stable (c.behind mark).dec := by
  intro bytes a rest h more
  simp only [behind] at h ⊢
  split at h
  · rename_i hmark
    obtain ⟨bytes', rfl⟩ := List.isPrefixOf_iff_prefix.mp hmark
    rw [List.drop_left] at h
    rw [if_pos (by simp), List.append_assoc, List.drop_left]
    exact hc h more
  · cases h

/-- Two stable decoders, one behind the other, are stable. -/
theorem stable_pair {c : Codec α} {d : Codec β} (hc : Stable c.dec) (hd : Stable d.dec) :
    Stable (c.pair d).dec := by
  intro bytes p rest h more
  obtain ⟨⟨a, rest₁⟩, ha, h⟩ := Option.bind_eq_some_iff.mp h
  obtain ⟨⟨b, rest₂⟩, hb, h⟩ := Option.bind_eq_some_iff.mp h
  cases h
  show Option.bind (c.dec (bytes ++ more)) _ = _
  rw [hc ha more, Option.bind_some]
  show Option.bind (d.dec (rest₁ ++ more)) _ = _
  rw [hd hb more]
  rfl

/-- What is read through a change of type is as stable as what is read without it. -/
theorem stable_via {c : Codec β} (hc : Stable c.dec) {f : α → β} {g : β → α}
    (hfg : ∀ a, g (f a) = a) : Stable (c.via f g hfg).dec := by
  intro bytes a rest h more
  obtain ⟨⟨b, rest'⟩, hb, h⟩ := Option.map_eq_some_iff.mp h
  cases h
  show Option.map _ (c.dec (bytes ++ more)) = _
  rw [hc hb more]
  rfl

/-- A truth value is one byte, and what follows is not looked at. -/
theorem stable_bool : Stable bool.dec := by
  intro bytes b rest h more
  simp only [bool] at h
  split at h
  · cases h; rfl
  · cases h; rfl
  · cases h

/-- Null or a value that is not taken for it: either way what follows is not looked at. -/
theorem stable_option {c : Codec α} (hc : Stable c.dec) (hnull : c.NotNull) :
    Stable (c.option hnull).dec := by
  intro bytes o rest h more
  cases bytes with
  | nil => cases h
  | cons b bytes =>
      simp only [option] at h
      simp only [option, List.cons_append]
      by_cases hb : b = 0xf6
      · rw [if_pos hb] at h ⊢
        cases h
        rfl
      · rw [if_neg hb] at h ⊢
        obtain ⟨⟨a, rest'⟩, ha, h⟩ := Option.map_eq_some_iff.mp h
        cases h
        have hmore := hc ha more
        rw [List.cons_append] at hmore
        rw [hmore]
        rfl

/-- By induction over their number, items are stable if each of them is. -/
theorem stable_decMany {c : Codec α} (hc : Stable c.dec) (n : Nat) : Stable (c.decMany n) := by
  induction n with
  | zero =>
      intro bytes as rest h more
      cases h
      rfl
  | succ n ih =>
      intro bytes as rest h more
      obtain ⟨⟨a, rest₁⟩, ha, h⟩ := Option.bind_eq_some_iff.mp h
      obtain ⟨⟨as', rest₂⟩, has, h⟩ := Option.bind_eq_some_iff.mp h
      cases h
      rw [decMany]
      show Option.bind (c.dec (bytes ++ more)) _ = _
      rw [hc ha more, Option.bind_some]
      show Option.bind (c.decMany n (rest₁ ++ more)) _ = _
      rw [ih has more]
      rfl

/-- So are items behind a head with their number. -/
theorem stable_counted {major : Nat} (hmajor : major < 8) {c : Codec α} (hc : Stable c.dec) :
    Stable (counted major hmajor c).dec := by
  intro bytes as rest h more
  obtain ⟨⟨n, rest'⟩, hhead, h⟩ := Option.bind_eq_some_iff.mp h
  show Option.bind (decHead major (bytes ++ more)) _ = _
  rw [stable_decHead major hhead more, Option.bind_some]
  exact stable_decMany hc n h more

/-- The name of a variant is a text, and as stable as one. -/
theorem stable_variant {name : α → String} {all : List α}
    (hname : ∀ a, all.find? (fun b => name b == name a) = some a) :
    Stable (variant name all hname).dec := by
  intro bytes a rest h more
  obtain ⟨⟨s, rest'⟩, hs, h⟩ := Option.bind_eq_some_iff.mp h
  obtain ⟨a', ha, h⟩ := Option.bind_eq_some_iff.mp h
  cases h
  show Option.bind (text.dec (bytes ++ more)) _ = _
  rw [stable_text hs more, Option.bind_some]
  show Option.bind (all.find? _) _ = _
  rw [ha]
  rfl

/-- No value is read from a cut off encoding with nothing left over. -/
theorem dec_ne_of_prefix {c : Codec α} (hc : Stable c.dec) {a b : α} {written : Bytes}
    (h : written <+: c.enc a) (hne : written ≠ c.enc a) : c.dec written ≠ some (b, []) := by
  intro hdec
  obtain ⟨missing, hmissing⟩ := h
  have hmore := hc hdec missing
  have hall := c.dec_enc a []
  rw [List.append_nil, ← hmissing, hmore, List.nil_append] at hall
  cases hall
  rw [List.append_nil] at hmissing
  exact hne hmissing

end Codec

end LiminalDB
