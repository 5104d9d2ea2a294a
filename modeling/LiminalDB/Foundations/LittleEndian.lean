import LiminalDB.Foundations.Text

/-! # Little-endian 32-bit words

`u32::to_le_bytes` and `u32::from_le_bytes` over byte lists, with the round trip. A length that does
not fit is truncated by the `as u32` cast, so the writer side takes a `Nat` and keeps it modulo
`2 ^ 32`. -/

namespace LiminalDB

/-- `(n as u32).to_le_bytes()`: the four low bytes of `n`, lowest first. -/
def toLeBytes (n : Nat) : Bytes :=
  [UInt8.ofNat n, UInt8.ofNat (n / 2 ^ 8), UInt8.ofNat (n / 2 ^ 16), UInt8.ofNat (n / 2 ^ 24)]

/-- `u32::from_le_bytes`, on the first four bytes of the list. -/
def fromLeBytes : Bytes → Nat
  | b₀ :: b₁ :: b₂ :: b₃ :: _ =>
      b₀.toNat + 2 ^ 8 * b₁.toNat + 2 ^ 16 * b₂.toNat + 2 ^ 24 * b₃.toNat
  | _ => 0

/-- A number of 32 bits takes four bytes. -/
@[simp] theorem length_toLeBytes (n : Nat) : (toLeBytes n).length = 4 := rfl

/-- Reading back a written word gives it modulo `2 ^ 32`: the cast truncates. -/
theorem fromLeBytes_toLeBytes_append (n : Nat) (rest : Bytes) :
    fromLeBytes (toLeBytes n ++ rest) = n % 2 ^ 32 := by
  simp only [toLeBytes, List.cons_append, List.nil_append, fromLeBytes, UInt8.toNat_ofNat']
  omega

/-- It is read back up to what is beyond 32 bits. -/
theorem fromLeBytes_toLeBytes (n : Nat) : fromLeBytes (toLeBytes n) = n % 2 ^ 32 := by
  simpa using fromLeBytes_toLeBytes_append n []

/-- What is read from four bytes has 32 bits. -/
theorem fromLeBytes_lt (bs : Bytes) : fromLeBytes bs < 2 ^ 32 := by
  match bs with
  | b₀ :: b₁ :: b₂ :: b₃ :: more =>
      have h₀ := b₀.toNat_lt
      have h₁ := b₁.toNat_lt
      have h₂ := b₂.toNat_lt
      have h₃ := b₃.toNat_lt
      simp only [fromLeBytes]
      omega
  | [] | [_] | [_, _] | [_, _, _] => exact Nat.two_pow_pos 32

/-- Only the first four bytes matter. -/
theorem fromLeBytes_append {bs : Bytes} (h : 4 ≤ bs.length) (rest : Bytes) :
    fromLeBytes (bs ++ rest) = fromLeBytes bs := by
  match bs, h with
  | b₀ :: b₁ :: b₂ :: b₃ :: more, _ => simp [fromLeBytes]

end LiminalDB
