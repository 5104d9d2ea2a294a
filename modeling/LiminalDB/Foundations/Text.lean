import Mathlib.Data.List.Destutter
import Mathlib.Data.List.DropRight
import Mathlib.Data.List.Sort
import Mathlib.Data.String.Basic
import Mathlib.Tactic.IntervalCases

/-! # Text and vector operations of the standard library

Rust's `str::trim`, `str::as_bytes`, lower-case hex formatting and the `sort`-then-`dedup` idiom, as
executable definitions with the few laws their callers need. Lean's own `String.trim` only strips
ASCII blanks, so `trim` is stated here over the Unicode `White_Space` property. -/

namespace LiminalDB

/-- A byte string: file contents, encoded records, hash inputs. -/
abbrev Bytes : Type := List UInt8

/-! ## Trimming -/

/-- `char::is_whitespace`: the characters with the Unicode `White_Space` property. -/
def isWhitespace (c : Char) : Bool :=
  (0x09 ≤ c.toNat && c.toNat ≤ 0x0D) || c.toNat == 0x20 || c.toNat == 0x85 || c.toNat == 0xA0
    || c.toNat == 0x1680 || (0x2000 ≤ c.toNat && c.toNat ≤ 0x200A) || c.toNat == 0x2028
    || c.toNat == 0x2029 || c.toNat == 0x202F || c.toNat == 0x205F || c.toNat == 0x3000

/-- `str::trim`: strip white space from both ends. -/
def trim (s : String) : String :=
  String.ofList ((s.toList.dropWhile isWhitespace).rdropWhile isWhitespace)

/-- Stripping the right end of a list whose head stays does not expose a new head. -/
theorem dropWhile_rdropWhile_dropWhile {α : Type*} (p : α → Bool) (l : List α) :
    ((l.dropWhile p).rdropWhile p).dropWhile p = (l.dropWhile p).rdropWhile p := by
  rw [List.dropWhile_eq_self_iff]
  intro hpos
  have hpre := List.rdropWhile_prefix p (l := l.dropWhile p)
  have hlen : 0 < (l.dropWhile p).length := lt_of_lt_of_le hpos hpre.length_le
  rw [hpre.getElem hpos]
  exact List.dropWhile_get_zero_not p l hlen

/-- Trimming twice is trimming once: a trimmed identifier is canonical. -/
@[simp] theorem trim_trim (s : String) : trim (trim s) = trim s := by
  unfold trim
  rw [String.toList_ofList, dropWhile_rdropWhile_dropWhile, List.rdropWhile_idempotent]

/-- Drop a prefix as often as it is there, at most the given number of times. -/
def dropPrefixes (pattern : List Char) : Nat → List Char → List Char
  | 0, chars => chars
  | n + 1, chars =>
      if pattern.isPrefixOf chars then dropPrefixes pattern n (chars.drop pattern.length) else chars

/-- `str::trim_start_matches`, for a pattern that is not empty: each prefix takes a character. -/
def trimStartMatches (value pattern : String) : String :=
  String.ofList (dropPrefixes pattern.toList value.toList.length value.toList)

/-! ## Bytes of a string and hexadecimal digits -/

/-- `str::as_bytes`: the UTF-8 encoding. -/
def asBytes (s : String) : Bytes := s.toByteArray.data.toList

/-- The encoding goes character by character. -/
theorem asBytes_eq (s : String) : asBytes s = s.toList.flatMap String.utf8EncodeChar := by
  have h := @String.toByteArray_ofList s.toList
  rw [String.ofList_toList] at h
  rw [asBytes, h, List.utf8Encode, List.toList_data_toByteArray]

/-- The bytes of two texts are those of the first and then those of the second. -/
theorem asBytes_append (s t : String) : asBytes (s ++ t) = asBytes s ++ asBytes t := by
  rw [asBytes_eq, asBytes_eq, asBytes_eq, String.toList_append, List.flatMap_append]

/-- One lower-case hexadecimal digit. -/
def hexDigit (n : Nat) : Char := "0123456789abcdef".toList.getD n '0'

/-- `{byte:02x}`: a byte as two lower-case hexadecimal digits. -/
def hexByte (b : UInt8) : List Char := [hexDigit (b.toNat / 16), hexDigit (b.toNat % 16)]

/-- The byte patterns `b'0'..=b'9' | b'a'..=b'f'`. -/
def isLowerHex (b : UInt8) : Bool := (0x30 ≤ b && b ≤ 0x39) || (0x61 ≤ b && b ≤ 0x66)

/-- A hexadecimal digit is one byte, and that byte is a lower-case hexadecimal digit. -/
theorem utf8EncodeChar_hexDigit {n : Nat} (h : n < 16) :
    ∃ b, String.utf8EncodeChar (hexDigit n) = [b] ∧ isLowerHex b = true := by
  interval_cases n <;> exact ⟨_, rfl, by decide⟩

/-- Formatting `bs` in hexadecimal gives two bytes per byte, all of them lower-case digits. -/
theorem asBytes_hex (bs : Bytes) :
    ((bs.flatMap hexByte).flatMap String.utf8EncodeChar).length = 2 * bs.length ∧
      ((bs.flatMap hexByte).flatMap String.utf8EncodeChar).all isLowerHex = true := by
  induction bs with
  | nil => simp
  | cons b rest ih =>
      have hb := b.toNat_lt
      obtain ⟨hi, hhi, dhi⟩ := utf8EncodeChar_hexDigit (n := b.toNat / 16) (by omega)
      obtain ⟨lo, hlo, dlo⟩ := utf8EncodeChar_hexDigit (n := b.toNat % 16) (by omega)
      obtain ⟨ihLen, ihAll⟩ := ih
      simp only [List.flatMap_cons, hexByte, List.cons_append, List.nil_append, hhi, hlo]
      refine ⟨?_, ?_⟩
      · simp only [List.length_cons, ihLen]; omega
      · simp only [List.all_cons, dhi, dlo, ihAll, Bool.true_and]

/-- `encode_hex`: two lower-case digits per byte. -/
def encodeHex (bytes : Bytes) : String := String.ofList (bytes.flatMap hexByte)

/-- Hex digits are two to a byte. -/
theorem length_asBytes_encodeHex (bs : Bytes) : (asBytes (encodeHex bs)).length = 2 * bs.length := by
  rw [asBytes_eq, encodeHex, String.toList_ofList]
  exact (asBytes_hex bs).1

/-- `u8::is_ascii_hexdigit`: digits of either case. -/
def isAsciiHexdigit (b : UInt8) : Bool := isLowerHex b || (0x41 ≤ b && b ≤ 0x46)

/-- The value of a hexadecimal digit. -/
def hexValue (b : UInt8) : Nat :=
  if b ≤ 0x39 then b.toNat - 0x30 else if b ≤ 0x46 then b.toNat - 0x41 + 10 else b.toNat - 0x61 + 10

/-- Two digits to the byte: `u8::from_str_radix(_, 16)` along a string of digits. -/
def decodePairs : Bytes → Bytes
  | high :: low :: rest => UInt8.ofNat (hexValue high * 16 + hexValue low) :: decodePairs rest
  | _ => []

/-- The body of `decode_hex`: an even number of hexadecimal digits, of either case. -/
def decodeHexBytes (value : String) : Option Bytes :=
  let digits := asBytes value
  if digits.length % 2 ≠ 0 ∨ digits.all isAsciiHexdigit = false then none
  else some (decodePairs digits)

/-- The digit of a number below 16 is one byte, which is read back as the number. -/
theorem hexValue_hexDigit {n : Nat} (h : n < 16) :
    ∃ b, String.utf8EncodeChar (hexDigit n) = [b] ∧ hexValue b = n := by
  interval_cases n <;> exact ⟨_, rfl, by decide⟩

/-- Bytes are read back from their hex digits, two by two. -/
theorem decodePairs_hex (bs : Bytes) :
    decodePairs ((bs.flatMap hexByte).flatMap String.utf8EncodeChar) = bs := by
  induction bs with
  | nil => rfl
  | cons b rest ih =>
      have hb := b.toNat_lt
      obtain ⟨hi, hhi, vhi⟩ := hexValue_hexDigit (n := b.toNat / 16) (by omega)
      obtain ⟨lo, hlo, vlo⟩ := hexValue_hexDigit (n := b.toNat % 16) (by omega)
      simp only [List.flatMap_cons, hexByte, List.cons_append, List.nil_append, hhi, hlo,
        decodePairs, ih, vhi, vlo]
      rw [Nat.div_add_mod', UInt8.ofNat_toNat]

/-- Decoding undoes encoding. -/
@[simp] theorem decodeHexBytes_encodeHex (bs : Bytes) :
    decodeHexBytes (encodeHex bs) = some bs := by
  obtain ⟨hlen, hall⟩ := asBytes_hex bs
  have hbytes : asBytes (encodeHex bs) = (bs.flatMap hexByte).flatMap String.utf8EncodeChar := by
    rw [asBytes_eq, encodeHex, String.toList_ofList]
  have hdigits : (asBytes (encodeHex bs)).all isAsciiHexdigit = true := by
    rw [hbytes, List.all_eq_true]
    intro b hb
    rw [isAsciiHexdigit, List.all_eq_true.mp hall b hb, Bool.true_or]
  unfold decodeHexBytes
  rw [if_neg (by rw [hdigits, hbytes, hlen]; simp), hbytes, decodePairs_hex]

/-! ## Sorting and removing duplicates -/

section SortDedup

variable {α : Type*} [LinearOrder α]

/-- `v.sort(); v.dedup()`: sort, then drop every element equal to its predecessor. -/
def sortDedup (l : List α) : List α := (l.insertionSort (· ≤ ·)).destutter (· ≠ ·)

/-- On a sorted list dropping equal neighbours drops every repetition. -/
theorem sortDedup_eq_dedup (l : List α) : sortDedup l = (l.insertionSort (· ≤ ·)).dedup :=
  (List.pairwise_insertionSort (· ≤ ·) l).destutter_eq_dedup

/-- The result is strictly increasing. -/
theorem sortDedup_pairwise (l : List α) : (sortDedup l).Pairwise (· < ·) := by
  have hle : (sortDedup l).Pairwise (· ≤ ·) :=
    List.Pairwise.sublist (List.destutter_sublist _ _) (List.pairwise_insertionSort (· ≤ ·) l)
  have hne : (sortDedup l).Pairwise (· ≠ ·) := by
    rw [sortDedup_eq_dedup]
    exact List.nodup_dedup _
  exact (hle.and hne).imp fun h => lt_of_le_of_ne h.1 h.2

/-- `sort`-then-`dedup` leaves a list alone exactly when it is already strictly increasing. -/
theorem sortDedup_eq_self_iff {l : List α} : sortDedup l = l ↔ l.Pairwise (· < ·) := by
  constructor
  · intro h
    rw [← h]
    exact sortDedup_pairwise l
  · intro h
    have hsort : l.insertionSort (· ≤ ·) = l := (h.imp le_of_lt).insertionSort_eq
    have hchain : l.IsChain (· ≠ ·) := (List.isChain_iff_pairwise.mpr h).imp fun _ _ => ne_of_lt
    rw [sortDedup, hsort, List.destutter_of_isChain _ _ hchain]

/-- A list that is sorted and without duplicates is left as it is. -/
@[simp] theorem sortDedup_sortDedup (l : List α) : sortDedup (sortDedup l) = sortDedup l :=
  sortDedup_eq_self_iff.mpr (sortDedup_pairwise l)

/-- No element is lost: the set of elements is unchanged. -/
@[simp] theorem mem_sortDedup {l : List α} {a : α} : a ∈ sortDedup l ↔ a ∈ l := by
  rw [sortDedup_eq_dedup, List.mem_dedup, List.mem_insertionSort]

end SortDedup

end LiminalDB
