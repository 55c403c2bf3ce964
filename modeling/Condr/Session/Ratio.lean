import Mathlib.Algebra.Order.Round
import Mathlib.Data.Rat.Floor

/-!
# Split ratios

The layout code computes with `f32`. Its functions are written here over a class
of number types, so that one definition serves the machine's numbers (`F32`,
rounded to the nearest representable value after every operation) and the exact
rationals.
-/

namespace Condr

/-- The operations the layout code uses on `f32` values. -/
class RatioNumber (R : Type) extends Add R, Sub R, Mul R, Neg R where
  /-- A decimal literal of the source. -/
  literal : ℚ → R
  isFinite : R → Bool
  /-- The IEEE comparisons: all of them fail on NaN. -/
  eq : R → R → Bool
  lt : R → R → Bool
  le : R → R → Bool
  abs : R → R
  /-- `f32::min`: the other argument when one is NaN. -/
  min : R → R → R
  /-- `f32::total_cmp` is not `Greater`. -/
  totalLe : R → R → Bool

namespace RatioNumber

variable {R : Type} [RatioNumber R]

/-- `f32::clamp`, which leaves NaN as it is. -/
def clamp (value low high : R) : R :=
  if lt value low then low else if lt high value then high else value

end RatioNumber

/-- An `f32`: a finite value read as the rational it denotes, an infinity or NaN. The two
zeros are one value here. -/
inductive F32 where
  | finite (value : ℚ)
  | infinite (negative : Bool)
  | nan
deriving DecidableEq

namespace F32

/-- The nearest integer, ties to even. -/
def roundEven (value : ℚ) : ℤ :=
  let down := value.floor
  let rest := value - down
  if rest < 1 / 2 then down
  else if 1 / 2 < rest then down + 1
  else if down % 2 = 0 then down else down + 1

/-- The exponent of the leading binary digit of a nonzero value. -/
def exponent (value : ℚ) : ℤ :=
  let estimate := (Nat.log2 value.num.natAbs : ℤ) - (Nat.log2 value.den : ℤ)
  if |value| < (2 : ℚ) ^ estimate then estimate - 1 else estimate

/-- The representable value nearest to an exact result: a 24 bit significand, exponents down
to -126, gradual underflow below and infinity above. -/
def round (value : ℚ) : F32 :=
  if value = 0 then finite 0
  else
    let quantum := (2 : ℚ) ^ (max (exponent value) (-126) - 23)
    let rounded := roundEven (value / quantum) * quantum
    if (2 : ℚ) ^ (128 : ℤ) ≤ |rounded| then infinite (rounded < 0) else finite rounded

def neg : F32 → F32
  | finite value => finite (-value)
  | infinite negative => infinite (!negative)
  | nan => nan

def add : F32 → F32 → F32
  | finite left, finite right => round (left + right)
  | infinite left, infinite right => if left = right then infinite left else nan
  | infinite left, finite _ => infinite left
  | finite _, infinite right => infinite right
  | _, _ => nan

/-- The product of an infinity and a finite value: NaN for zero, else signed. -/
def scaleInfinite (negative : Bool) (value : ℚ) : F32 :=
  if value = 0 then nan else infinite (negative != (value < 0))

def mul : F32 → F32 → F32
  | finite left, finite right => round (left * right)
  | infinite left, infinite right => infinite (left != right)
  | infinite left, finite right => scaleInfinite left right
  | finite left, infinite right => scaleInfinite right left
  | _, _ => nan

def isFinite : F32 → Bool
  | finite _ => true
  | _ => false

def lt : F32 → F32 → Bool
  | finite left, finite right => left < right
  | infinite left, infinite right => left && !right
  | infinite left, finite _ => left
  | finite _, infinite right => !right
  | _, _ => false

def eq : F32 → F32 → Bool
  | nan, _ => false
  | left, right => left = right

def le (left right : F32) : Bool :=
  lt left right || eq left right

def abs : F32 → F32
  | finite value => finite |value|
  | infinite _ => infinite false
  | nan => nan

def min (left right : F32) : F32 :=
  match left, right with
  | nan, other => other
  | other, nan => other
  | left, right => if lt right left then right else left

/-- The total order of `total_cmp`, with every NaN above infinity. -/
def totalLe (left right : F32) : Bool :=
  match left, right with
  | _, nan => true
  | nan, _ => false
  | left, right => le left right

instance : RatioNumber F32 where
  add := add
  sub left right := add left (neg right)
  mul := mul
  neg := neg
  literal := round
  isFinite := isFinite
  eq := eq
  lt := lt
  le := le
  abs := abs
  min := min
  totalLe := totalLe

end F32

/-- The exact reading of the ratios. -/
instance : RatioNumber ℚ where
  add := (· + ·)
  sub := (· - ·)
  mul := (· * ·)
  neg := (- ·)
  literal := id
  isFinite _ := true
  eq left right := left = right
  lt left right := left < right
  le left right := left ≤ right
  abs value := |value|
  min left right := if left ≤ right then left else right
  totalLe left right := left ≤ right

open RatioNumber in
/-- The check `validate` makes of a stored ratio. -/
def ratioInRange {R : Type} [RatioNumber R] (ratio : R) : Bool :=
  isFinite ratio && (le (literal (1 / 10)) ratio && le ratio (literal (9 / 10)))

open RatioNumber in
/-- `valid_split_ratio`. -/
def validSplitRatio {R : Type} [RatioNumber R] (ratio : R) : R :=
  if isFinite ratio then clamp ratio (literal (1 / 10)) (literal (9 / 10))
  else literal (1 / 2)

namespace F32

theorem round_tenth : round (1 / 10) = finite (13421773 / 134217728) := by
  decide +kernel

theorem round_half : round (1 / 2) = finite (1 / 2) := by
  decide +kernel

theorem round_nineTenths : round (9 / 10) = finite (7549747 / 8388608) := by
  decide +kernel

@[simp]
theorem le_finite (left right : ℚ) : le (finite left) (finite right) = decide (left ≤ right) := by
  rw [Bool.eq_iff_iff]
  simp [le, lt, eq, le_iff_lt_or_eq]

end F32

theorem ratioInRange_finite (value : ℚ) :
    ratioInRange (F32.finite value) =
      (decide (13421773 / 134217728 ≤ value) && decide (value ≤ 7549747 / 8388608)) := by
  change (true && (F32.le (F32.round (1 / 10)) (F32.finite value) &&
    F32.le (F32.finite value) (F32.round (9 / 10)))) = _
  rw [F32.round_tenth, F32.round_nineTenths, F32.le_finite, F32.le_finite, Bool.true_and]

theorem validSplitRatio_finite (value : ℚ) :
    validSplitRatio (F32.finite value) =
      if value < 13421773 / 134217728 then F32.finite (13421773 / 134217728)
      else if 7549747 / 8388608 < value then F32.finite (7549747 / 8388608)
      else F32.finite value := by
  change (if F32.lt (F32.finite value) (F32.round (1 / 10)) then F32.round (1 / 10)
    else if F32.lt (F32.round (9 / 10)) (F32.finite value) then F32.round (9 / 10)
    else F32.finite value) = _
  simp only [F32.round_tenth, F32.round_nineTenths, F32.lt, decide_eq_true_eq]

/-- The ratio `move_pane` splits with. -/
theorem F32.ratioInRange_half : ratioInRange (RatioNumber.literal (1 / 2) : F32) = true := by
  change ratioInRange (F32.round (1 / 2)) = true
  rw [F32.round_half, ratioInRange_finite]
  norm_num

/-- Whatever it is given, the clamp yields a ratio that `validate` accepts. -/
theorem ratioInRange_validSplitRatio (ratio : F32) : ratioInRange (validSplitRatio ratio) = true := by
  cases ratio with
  | finite value =>
      rw [validSplitRatio_finite]
      split_ifs with below above
      · rw [ratioInRange_finite]
        norm_num
      · rw [ratioInRange_finite]
        norm_num
      · simpa [ratioInRange_finite] using ⟨not_lt.mp below, not_lt.mp above⟩
  | infinite negative => exact F32.ratioInRange_half
  | nan => exact F32.ratioInRange_half

end Condr
