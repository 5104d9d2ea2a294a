import LiminalDB.Foundations.Cbor
import Mathlib.Data.Vector.Basic

/-! # SHA-256

The hash of FIPS 180-4 on byte strings. `digestNat` computes it on numbers, where each intermediate word is
a literal before it is used; `toList_digest` says that this is the hash, so a digest can be evaluated in a
proof. -/

namespace LiminalDB

namespace Sha256

/-- The round constants. -/
def roundConstants : List UInt32 :=
  [0x428a2f98, 0x71374491, 0xb5c0fbcf, 0xe9b5dba5, 0x3956c25b, 0x59f111f1, 0x923f82a4, 0xab1c5ed5,
   0xd807aa98, 0x12835b01, 0x243185be, 0x550c7dc3, 0x72be5d74, 0x80deb1fe, 0x9bdc06a7, 0xc19bf174,
   0xe49b69c1, 0xefbe4786, 0x0fc19dc6, 0x240ca1cc, 0x2de92c6f, 0x4a7484aa, 0x5cb0a9dc, 0x76f988da,
   0x983e5152, 0xa831c66d, 0xb00327c8, 0xbf597fc7, 0xc6e00bf3, 0xd5a79147, 0x06ca6351, 0x14292967,
   0x27b70a85, 0x2e1b2138, 0x4d2c6dfc, 0x53380d13, 0x650a7354, 0x766a0abb, 0x81c2c92e, 0x92722c85,
   0xa2bfe8a1, 0xa81a664b, 0xc24b8b70, 0xc76c51a3, 0xd192e819, 0xd6990624, 0xf40e3585, 0x106aa070,
   0x19a4c116, 0x1e376c08, 0x2748774c, 0x34b0bcb5, 0x391c0cb3, 0x4ed8aa4a, 0x5b9cca4f, 0x682e6ff3,
   0x748f82ee, 0x78a5636f, 0x84c87814, 0x8cc70208, 0x90befffa, 0xa4506ceb, 0xbef9a3f7, 0xc67178f2]

/-- The eight working variables. -/
structure Words where
  a : UInt32
  b : UInt32
  c : UInt32
  d : UInt32
  e : UInt32
  f : UInt32
  g : UInt32
  h : UInt32

/-- The initial hash value. -/
def initial : Words :=
  ⟨0x6a09e667, 0xbb67ae85, 0x3c6ef372, 0xa54ff53a, 0x510e527f, 0x9b05688c, 0x1f83d9ab, 0x5be0cd19⟩

/-- Rotate right. -/
def rotr (x : UInt32) (n : UInt32) : UInt32 := (x >>> n) ||| (x <<< (32 - n))

/-- One round, with its constant and its schedule word. -/
def round (s : Words) (k w : UInt32) : Words :=
  let s1 := rotr s.e 6 ^^^ rotr s.e 11 ^^^ rotr s.e 25
  let ch := (s.e &&& s.f) ^^^ (~~~ s.e &&& s.g)
  let t1 := s.h + s1 + ch + k + w
  let s0 := rotr s.a 2 ^^^ rotr s.a 13 ^^^ rotr s.a 22
  let maj := (s.a &&& s.b) ^^^ (s.a &&& s.c) ^^^ (s.b &&& s.c)
  ⟨t1 + (s0 + maj), s.a, s.b, s.c, s.d + t1, s.e, s.f, s.g⟩

/-- The next word of the message schedule, from the last sixteen. -/
def nextWord (window : List UInt32) : UInt32 :=
  let w0 := window.getD 0 0
  let w1 := window.getD 1 0
  let w9 := window.getD 9 0
  let w14 := window.getD 14 0
  let s0 := rotr w1 7 ^^^ rotr w1 18 ^^^ (w1 >>> 3)
  let s1 := rotr w14 17 ^^^ rotr w14 19 ^^^ (w14 >>> 10)
  w0 + s0 + w9 + s1

/-- The rounds of a block: each takes the oldest word of the window and adds the next one. -/
def rounds : List UInt32 → List UInt32 → Words → Words
  | [], _, s => s
  | k :: ks, window, s =>
      rounds ks (window.tail ++ [nextWord window]) (round s k (window.headD 0))

/-- The compression function on the sixteen words of a block. -/
def compress (s : Words) (block : List UInt32) : Words :=
  let t := rounds roundConstants block s
  ⟨s.a + t.a, s.b + t.b, s.c + t.c, s.d + t.d, s.e + t.e, s.f + t.f, s.g + t.g, s.h + t.h⟩

/-- The message with its padding: a one bit, zeros to 56 bytes modulo 64, and the length in bits. -/
def pad (message : Bytes) : Bytes :=
  message ++ 0x80 :: List.replicate ((119 - message.length % 64) % 64) 0
    ++ toBeBytes 8 (message.length * 8)

/-- Bytes as big-endian words. -/
def words : Bytes → List UInt32
  | b₀ :: b₁ :: b₂ :: b₃ :: rest =>
      UInt32.ofNat (fromBeBytes [b₀, b₁, b₂, b₃]) :: words rest
  | _ => []

/-- The whole message, block by block. -/
def hashWords : List (List UInt32) → Words → Words
  | [], s => s
  | block :: rest, s => hashWords rest (compress s block)

/-- The digest of a byte string. -/
def digest (message : Bytes) : List.Vector UInt8 32 :=
  let s := hashWords ((words (pad message)).toChunks 16) initial
  ⟨[s.a, s.b, s.c, s.d, s.e, s.f, s.g, s.h].flatMap fun w => toBeBytes 4 w.toNat, by simp⟩

/-! ## On numbers -/

/-- Hands on a number as a literal: the recursion makes it be computed first. -/
def force {α : Type} (n : Nat) (k : Nat → α) : α := Nat.rec (k 0) (fun m _ => k m.succ) n

/-- Forcing a number before it is used does not change what it is used for. -/
@[simp] theorem force_eq {α : Type} (n : Nat) (k : Nat → α) : force n k = k n := by
  cases n <;> rfl

/-- `rotr` on numbers. -/
def rotrNat (x n : Nat) : Nat := x >>> n ||| x <<< (32 - n) % 2 ^ 32

/-- A word is rotated as the natural number that it is. -/
theorem toNat_rotr (x n : UInt32) (hn : 0 < n.toNat) (hn' : n.toNat < 32) :
    (rotr x n).toNat = rotrNat x.toNat n.toNat := by
  have hsub : (32 - n).toNat = 32 - n.toNat := by
    rw [UInt32.toNat_sub_of_le]
    · rfl
    · rw [UInt32.le_iff_toNat_le]
      exact hn'.le
  have hlt : 32 - n.toNat < 32 := by omega
  rw [rotr, UInt32.toNat_or, UInt32.toNat_shiftRight, UInt32.toNat_shiftLeft, hsub, Nat.mod_eq_of_lt hn',
    Nat.mod_eq_of_lt hlt, rotrNat]

/-- The numbers of eight working variables, for what takes them one by one. -/
def Words.uncurry {α : Type} (s : Words) (k : Nat → Nat → Nat → Nat → Nat → Nat → Nat → Nat → α) : α :=
  k s.a.toNat s.b.toNat s.c.toNat s.d.toNat s.e.toNat s.f.toNat s.g.toNat s.h.toNat

/-- `nextWord` on numbers. -/
def nextWordNat (w0 w1 w9 w14 : Nat) : Nat :=
  (w0 + (rotrNat w1 7 ^^^ rotrNat w1 18 ^^^ w1 >>> 3) + w9 +
    (rotrNat w14 17 ^^^ rotrNat w14 19 ^^^ w14 >>> 10)) % 2 ^ 32

/-- The next word of a schedule is that number. -/
theorem toNat_nextWord (w0 w1 w2 w3 w4 w5 w6 w7 w8 w9 w10 w11 w12 w13 w14 w15 : UInt32) :
    (nextWord [w0, w1, w2, w3, w4, w5, w6, w7, w8, w9, w10, w11, w12, w13, w14, w15]).toNat =
      nextWordNat w0.toNat w1.toNat w9.toNat w14.toNat := by
  have h1 := toNat_rotr w1 7 (by decide) (by decide)
  have h1' := toNat_rotr w1 18 (by decide) (by decide)
  have h14 := toNat_rotr w14 17 (by decide) (by decide)
  have h14' := toNat_rotr w14 19 (by decide) (by decide)
  simp [nextWord, nextWordNat, h1, h1', h14, h14']

/-- The first sum of a round. -/
def firstSum (e f g h k w : Nat) : Nat :=
  h + (rotrNat e 6 ^^^ rotrNat e 11 ^^^ rotrNat e 25) + ((e &&& f) ^^^ ((2 ^ 32 - 1 - e) &&& g)) + k + w

/-- The second sum of a round. -/
def secondSum (a b c : Nat) : Nat :=
  (rotrNat a 2 ^^^ rotrNat a 13 ^^^ rotrNat a 22) + ((a &&& b) ^^^ (a &&& c) ^^^ (b &&& c))

/-- `rounds` on numbers, with the sixteen words of the window one by one. -/
def roundsNat {α : Type} : List Nat → Nat → Nat → Nat → Nat → Nat → Nat → Nat → Nat → Nat → Nat → Nat → Nat →
    Nat → Nat → Nat → Nat → Nat → Nat → Nat → Nat → Nat → Nat → Nat → Nat →
    (Nat → Nat → Nat → Nat → Nat → Nat → Nat → Nat → α) → α
  | [], _, _, _, _, _, _, _, _, _, _, _, _, _, _, _, _, a, b, c, d, e, f, g, h, result => result a b c d e f g h
  | k :: ks, w0, w1, w2, w3, w4, w5, w6, w7, w8, w9, w10, w11, w12, w13, w14, w15, a, b, c, d, e, f, g, h,
      result =>
      force (nextWordNat w0 w1 w9 w14) fun next =>
      force (firstSum e f g h k w0) fun t1 =>
      force ((t1 + secondSum a b c) % 2 ^ 32) fun a' =>
      force ((d + t1) % 2 ^ 32) fun e' =>
      roundsNat ks w1 w2 w3 w4 w5 w6 w7 w8 w9 w10 w11 w12 w13 w14 w15 next a' a b c e' e f g result

/-- The rounds over natural numbers are those over words. -/
theorem roundsNat_eq {α : Type} (result : Nat → Nat → Nat → Nat → Nat → Nat → Nat → Nat → α)
    (ks : List UInt32) (w0 w1 w2 w3 w4 w5 w6 w7 w8 w9 w10 w11 w12 w13 w14 w15 : UInt32) (s : Words) :
    s.uncurry (fun a b c d e f g h =>
        roundsNat (ks.map UInt32.toNat) w0.toNat w1.toNat w2.toNat w3.toNat w4.toNat w5.toNat w6.toNat
          w7.toNat w8.toNat w9.toNat w10.toNat w11.toNat w12.toNat w13.toNat w14.toNat w15.toNat
          a b c d e f g h result) =
      (rounds ks [w0, w1, w2, w3, w4, w5, w6, w7, w8, w9, w10, w11, w12, w13, w14, w15] s).uncurry
        result := by
  induction ks generalizing w0 w1 w2 w3 w4 w5 w6 w7 w8 w9 w10 w11 w12 w13 w14 w15 s with
  | nil => rfl
  | cons k ks ih =>
      rw [rounds, List.tail_cons, List.headD_cons]
      simp only [List.cons_append, List.nil_append]
      rw [← ih]
      simp only [Words.uncurry, List.map_cons, roundsNat, force_eq, toNat_nextWord, round, UInt32.toNat_add]
      -- the six rotations of a round
      have he₁ := toNat_rotr s.e 6 (by decide) (by decide)
      have he₂ := toNat_rotr s.e 11 (by decide) (by decide)
      have he₃ := toNat_rotr s.e 25 (by decide) (by decide)
      have ha₁ := toNat_rotr s.a 2 (by decide) (by decide)
      have ha₂ := toNat_rotr s.a 13 (by decide) (by decide)
      have ha₃ := toNat_rotr s.a 22 (by decide) (by decide)
      simp only [UInt32.toNat_xor, UInt32.toNat_and, UInt32.toNat_not, he₁, he₂, he₃, ha₁, ha₂, ha₃,
        firstSum, secondSum]
      congr 1 <;> simp [Nat.add_mod]

/-- `hashWords` on numbers. The blocks of a padded message have sixteen words; others are compressed as they
are. -/
def hashWordsNat : List (List UInt32) → Nat → Nat → Nat → Nat → Nat → Nat → Nat → Nat → List Nat
  | [], a, b, c, d, e, f, g, h => [a, b, c, d, e, f, g, h]
  | [w0, w1, w2, w3, w4, w5, w6, w7, w8, w9, w10, w11, w12, w13, w14, w15] :: rest, a, b, c, d, e, f, g, h =>
      roundsNat (roundConstants.map UInt32.toNat) w0.toNat w1.toNat w2.toNat w3.toNat w4.toNat w5.toNat
        w6.toNat w7.toNat w8.toNat w9.toNat w10.toNat w11.toNat w12.toNat w13.toNat w14.toNat w15.toNat
        a b c d e f g h fun a' b' c' d' e' f' g' h' =>
        force ((a + a') % 2 ^ 32) fun a => force ((b + b') % 2 ^ 32) fun b =>
        force ((c + c') % 2 ^ 32) fun c => force ((d + d') % 2 ^ 32) fun d =>
        force ((e + e') % 2 ^ 32) fun e => force ((f + f') % 2 ^ 32) fun f =>
        force ((g + g') % 2 ^ 32) fun g => force ((h + h') % 2 ^ 32) fun h =>
        hashWordsNat rest a b c d e f g h
  | block :: rest, a, b, c, d, e, f, g, h =>
      (compress ⟨.ofNat a, .ofNat b, .ofNat c, .ofNat d, .ofNat e, .ofNat f, .ofNat g, .ofNat h⟩
        block).uncurry (hashWordsNat rest)

/-- The first block is compressed before the others. -/
theorem hashWords_cons (block : List UInt32) (rest : List (List UInt32)) (s : Words) :
    hashWords (block :: rest) s = hashWords rest (compress s block) := by
  delta hashWords hashWords._f
  -- the kernel is not to run the compression function
  generalize compress = compress
  rfl

/-- Hashing on numbers is hashing on words. -/
theorem hashWordsNat_eq (blocks : List (List UInt32)) (s : Words) :
    s.uncurry (hashWordsNat blocks) =
      (hashWords blocks s).uncurry fun a b c d e f g h => [a, b, c, d, e, f, g, h] := by
  induction blocks generalizing s with
  | nil => rfl
  | cons block rest ih =>
      rw [hashWords_cons, ← ih, Words.uncurry, hashWordsNat.eq_def]
      split
      · contradiction
      · rename_i w0 w1 w2 w3 w4 w5 w6 w7 w8 w9 w10 w11 w12 w13 w14 w15 _ heq
        obtain ⟨rfl, rfl⟩ := List.cons_eq_cons.mp heq
        have hblock := roundsNat_eq (fun a' b' c' d' e' f' g' h' =>
          hashWordsNat rest
            ((s.a.toNat + a') % 2 ^ 32) ((s.b.toNat + b') % 2 ^ 32) ((s.c.toNat + c') % 2 ^ 32)
            ((s.d.toNat + d') % 2 ^ 32) ((s.e.toNat + e') % 2 ^ 32) ((s.f.toNat + f') % 2 ^ 32)
            ((s.g.toNat + g') % 2 ^ 32) ((s.h.toNat + h') % 2 ^ 32)) roundConstants
          w0 w1 w2 w3 w4 w5 w6 w7 w8 w9 w10 w11 w12 w13 w14 w15 s
        simp only [Words.uncurry, force_eq] at hblock ⊢
        rw [hblock, compress]
        simp only [UInt32.toNat_add]
      · rename_i heq
        obtain ⟨rfl, rfl⟩ := List.cons_eq_cons.mp heq
        simp only [UInt32.ofNat_toNat]

/-- The words of a digest, computed on numbers. -/
def digestNat (message : Bytes) : List Nat :=
  initial.uncurry (hashWordsNat ((words (pad message)).toChunks 16))

/-- The digest is that of the numbers. -/
theorem toList_digest (message : Bytes) :
    (digest message).toList = (digestNat message).flatMap (toBeBytes 4) := by
  have hwords : ∀ s : Words, ([s.a, s.b, s.c, s.d, s.e, s.f, s.g, s.h].flatMap fun w =>
      toBeBytes 4 w.toNat) = (s.uncurry fun a b c d e f g h => [a, b, c, d, e, f, g, h]).flatMap
        (toBeBytes 4) := by
    intro s
    simp [Words.uncurry]
  rw [digestNat, hashWordsNat_eq]
  exact hwords (hashWords ((words (pad message)).toChunks 16) initial)

/-- Two digests are different if they are on numbers. -/
theorem digest_ne {message message' : Bytes}
    (h : (digestNat message).flatMap (toBeBytes 4) ≠ (digestNat message').flatMap (toBeBytes 4)) :
    digest message ≠ digest message' := fun heq => h (by rw [← toList_digest, ← toList_digest, heq])

-- the test vector of the standard: the text abc
example : (digest [0x61, 0x62, 0x63]).toList =
    [0xba, 0x78, 0x16, 0xbf, 0x8f, 0x01, 0xcf, 0xea, 0x41, 0x41, 0x40, 0xde, 0x5d, 0xae, 0x22, 0x23,
     0xb0, 0x03, 0x61, 0xa3, 0x96, 0x17, 0x7a, 0x9c, 0xb4, 0x10, 0xff, 0x61, 0xf2, 0x00, 0x15, 0xad] := by
  decide +kernel

end Sha256

end LiminalDB
