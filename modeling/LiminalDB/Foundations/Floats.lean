import Mathlib.Algebra.Order.Field.Rat
import Mathlib.Algebra.Order.Floor.Ring
import Mathlib.Data.List.Sort
import Mathlib.Data.Rat.Floor

/-! # Floating-point arithmetic

The operations of a float type that a program written over `f32` uses, without any law: results are
rounded, and a NaN compares with nothing. What is proved of a program over an arbitrary `FloatLike`
type holds of its `f32` runs. The rationals are an instance, for statements about exact numbers, and so
is `Float32`, whose logical model is IEEE 754 binary32. -/

namespace LiminalDB

/-- A float type: arithmetic, comparisons, decimal literals, and conversions from and to integers. -/
class FloatLike (F : Type) extends Add F, Sub F, Mul F, Div F, Neg F, LT F, LE F, OfScientific F where
  /-- Comparisons are computed, and are false of a NaN. -/
  decLt : DecidableLT F
  decLe : DecidableLE F
  abs : F → F
  /-- An unsigned integer, rounded. -/
  ofNat : ℕ → F
  /-- To the nearest integer, halves away from zero. -/
  round : F → F
  /-- `as usize`: towards zero, from zero on, and zero for a NaN. -/
  toNat : F → ℕ

namespace FloatLike

variable {F : Type} [FloatLike F]

instance : DecidableLT F := decLt

instance : DecidableLE F := decLe

/-- `f32::clamp`. A NaN stays one. -/
def clamp (x low high : F) : F :=
  let x := if x < low then low else x
  if high < x then high else x

/-- A number is comparable with itself. -/
def isNan (x : F) : Bool := !decide (x ≤ x)

/-- `f32::max`: a NaN gives way. -/
def max (x y : F) : F := if x < y || isNan x then y else x

/-- `f32::min`: a NaN gives way. -/
def min (x y : F) : F := if y < x || isNan x then y else x

/-- `partial_cmp` with `Equal` for the incomparable. -/
def partialCmp (x y : F) : Ordering :=
  if x < y then .lt else if y < x then .gt else .eq

/-- `f32::EPSILON` -/
def epsilon : F := 1.1920929e-7

end FloatLike

/-- `sort_by`: stable. -/
def sortBy {α : Type} (cmp : α → α → Ordering) (l : List α) : List α :=
  l.insertionSort fun a b => (cmp a b).isLE

/-- Sorting rearranges. -/
theorem sortBy_perm {α : Type} (cmp : α → α → Ordering) (l : List α) : (sortBy cmp l).Perm l :=
  List.perm_insertionSort _ l

/-- Exact numbers. -/
instance : FloatLike ℚ where
  decLt := inferInstance
  decLe := inferInstance
  abs x := if x < 0 then -x else x
  ofNat n := n
  round x := if x < 0 then -(⌊-x + 1 / 2⌋ : ℚ) else ⌊x + 1 / 2⌋
  toNat x := ⌊x⌋.toNat

/-- IEEE 754 binary32. -/
instance : FloatLike Float32 where
  decLt := inferInstance
  decLe := inferInstance
  abs := Float32.abs
  ofNat := Float32.ofNat
  round := Float32.round
  toNat x := x.toUInt64.toNat

/-- An order in which the entries of a hash map are visited: any arrangement of them. -/
structure Order (α : Type) where
  arrange : List α → List α
  perm : ∀ l, (arrange l).Perm l

namespace Order

variable {α : Type}

/-- The entries as they are listed. -/
def listed : Order α := ⟨id, fun _ => List.Perm.refl _⟩

/-- So does an order in which things are visited. -/
@[simp] theorem mem_arrange (order : Order α) {l : List α} {a : α} : a ∈ order.arrange l ↔ a ∈ l :=
  (order.perm l).mem_iff

end Order

end LiminalDB
