import Mathlib.Data.Rat.Floor
import Mathlib.Algebra.Order.Field.Basic
import Mathlib.Tactic.FieldSimp
import Mathlib.Tactic.Linarith

/-!
# Doubles over exact rationals

A `double` is a rational number, an infinity or a NaN. Finite arithmetic is exact: rounding,
overflow of a finite result and the sign of zero are not represented (`mulRounded` is the product
with a rounding as a parameter). Comparison, products and
quotients with the special values follow IEEE 754, and so do the conversions to integers, which
truncate toward zero.
-/

/-- A double without its rounding: a rational, an infinity or a NaN. The zeros are one number. -/
inductive Double where
  | fin (q : ℚ)
  | inf (neg : Bool)
  | nan
  deriving DecidableEq

namespace Double

instance : Inhabited Double := ⟨fin 0⟩

/-- An integer as a double. -/
def ofInt (z : Int) : Double := fin z

/-- `isnan`. -/
def isNan : Double → Bool
  | nan => true
  | _ => false

/-- `a < b`, false as soon as one side is a NaN. -/
def lt : Double → Double → Bool
  | fin a, fin b => decide (a < b)
  | fin _, inf neg => !neg
  | inf neg, fin _ => neg
  | inf n, inf m => n && !m
  | _, _ => false

/-- What compares as less is a number, on both sides. -/
theorem isNan_of_lt {a b : Double} (h : a.lt b = true) : a.isNan = false ∧ b.isNan = false := by
  cases a with
  | nan => cases b <;> cases h
  | fin _ | inf _ =>
    cases b with
    | nan => cases h
    | fin _ | inf _ => exact ⟨rfl, rfl⟩

/-- `a == 0.0`. -/
def isZero : Double → Bool
  | fin q => decide (q = 0)
  | _ => false

/-- `a + b`; the exact sum when both are finite. -/
def add : Double → Double → Double
  | fin a, fin b => fin (a + b)
  | fin _, inf n => inf n
  | inf n, fin _ => inf n
  | inf n, inf m => if n = m then inf n else nan
  | _, _ => nan

/-- `a * b`; the exact product when both are finite. -/
def mul : Double → Double → Double
  | fin a, fin b => fin (a * b)
  | fin a, inf n => if a = 0 then nan else inf (xor (decide (a < 0)) n)
  | inf n, fin b => if b = 0 then nan else inf (xor n (decide (b < 0)))
  | inf n, inf m => inf (xor n m)
  | _, _ => nan

/-- `a * b` where a finite product is rounded, to a neighbour or, on overflow, to an infinity. -/
def mulRounded (round : ℚ → Double) : Double → Double → Double
  | fin a, fin b => round (a * b)
  | a, b => a.mul b

/-- A finite factor keeps a product from being a NaN if the other one is finite too, however the
product is rounded. -/
theorem isNan_mulRounded_fin {round : ℚ → Double} (hround : ∀ q, (round q).isNan = false)
    (a b : ℚ) : ((fin a).mulRounded round (fin b)).isNan = false :=
  hround (a * b)

/-- `a / b`; the exact quotient when both are finite and `b` is not zero. -/
def div : Double → Double → Double
  | fin a, fin b =>
    if b = 0 then (if a = 0 then nan else inf (decide (a < 0))) else fin (a / b)
  | fin _, inf _ => fin 0
  | inf n, fin b => inf (xor n (decide (b < 0)))
  | _, _ => nan

/-- The integer part, toward zero. -/
def trunc (q : ℚ) : Int :=
  if 0 ≤ q then ⌊q⌋ else ⌈q⌉

/-- `(long)x` for a finite `x`. Out of the range of `long` the conversion is undefined in C; the
x86-64 instruction gives `LONG_MIN`. -/
def toLong (q : ℚ) : Int :=
  if -(2 : Int) ^ 63 ≤ trunc q ∧ trunc q < (2 : Int) ^ 63 then trunc q else -(2 : Int) ^ 63

/-! ## Truncation

A cast to an integer type drops the fraction. -/

@[simp] theorem trunc_intCast (z : Int) : trunc (z : ℚ) = z := by
  unfold trunc
  split <;> simp

/-- Which numbers are truncated into an interval around zero. -/
theorem trunc_mem_iff {lo hi : Int} (hlo : lo ≤ 0) (hhi : 0 ≤ hi) (q : ℚ) :
    (lo ≤ trunc q ∧ trunc q ≤ hi) ↔ (lo : ℚ) - 1 < q ∧ q < hi + 1 := by
  have hloq : (lo : ℚ) ≤ 0 := by exact_mod_cast hlo
  have hhiq : (0 : ℚ) ≤ hi := by exact_mod_cast hhi
  unfold trunc
  by_cases hq : 0 ≤ q
  · have hbound : ⌊q⌋ ≤ hi ↔ q < hi + 1 := by
      rw [← Int.lt_add_one_iff, Int.floor_lt, Int.cast_add, Int.cast_one]
    rw [if_pos hq, hbound]
    exact and_congr_left fun _ =>
      ⟨fun _ => by linarith, fun _ => hlo.trans (Int.floor_nonneg.mpr hq)⟩
  · have hbound : lo ≤ ⌈q⌉ ↔ (lo : ℚ) - 1 < q := by
      rw [← Int.sub_one_lt_iff, Int.lt_ceil, Int.cast_sub, Int.cast_one]
    have hnonpos : ⌈q⌉ ≤ 0 := Int.ceil_le.mpr (by push_cast; linarith)
    rw [if_neg hq, hbound]
    exact and_congr_right fun _ => ⟨fun _ => by linarith, fun _ => hnonpos.trans hhi⟩

/-- Adding a half away from zero and truncating an integer gives the integer back. -/
theorem trunc_half_away (z : Int) :
    trunc (if (0 : ℚ) ≤ z then (z : ℚ) + 1 / 2 else (z : ℚ) - 1 / 2) = z := by
  by_cases hz : (0 : ℚ) ≤ z
  · rw [if_pos hz, trunc, if_pos (by linarith)]
    rw [Int.floor_eq_iff]
    constructor <;> linarith
  · have hneg : (z : ℚ) < 0 := lt_of_not_ge hz
    rw [if_neg hz, trunc, if_neg (by linarith)]
    rw [Int.ceil_eq_iff]
    constructor <;> linarith

/-- Adding a half away from zero and truncating goes to a nearest integer. -/
theorem abs_trunc_half_away_sub_le (q : ℚ) :
    |(trunc (if 0 ≤ q then q + 1 / 2 else q - 1 / 2) : ℚ) - q| ≤ 1 / 2 := by
  by_cases hq : 0 ≤ q
  · have hlow := Int.sub_one_lt_floor (q + 1 / 2)
    have hhigh := Int.floor_le (q + 1 / 2)
    rw [if_pos hq, trunc, if_pos (by linarith), abs_le]
    constructor <;> linarith
  · have hlow := Int.le_ceil (q - 1 / 2)
    have hhigh := Int.ceil_lt_add_one (q - 1 / 2)
    rw [if_neg hq, trunc, if_neg (by linarith), abs_le]
    constructor <;> linarith

/-- Which numbers are rounded into an interval around zero: the half-way cases go outward. -/
theorem trunc_half_away_mem_iff {lo hi : Int} (hlo : lo ≤ 0) (hhi : 0 ≤ hi) (q : ℚ) :
    (lo ≤ trunc (if 0 ≤ q then q + 1 / 2 else q - 1 / 2) ∧
        trunc (if 0 ≤ q then q + 1 / 2 else q - 1 / 2) ≤ hi) ↔
      (lo : ℚ) - 1 / 2 < q ∧ q < hi + 1 / 2 := by
  have hloq : (lo : ℚ) ≤ 0 := by exact_mod_cast hlo
  have hhiq : (0 : ℚ) ≤ hi := by exact_mod_cast hhi
  by_cases hq : 0 ≤ q
  · rw [if_pos hq, trunc, if_pos (by linarith)]
    -- a floor from zero on, so only the upper bound can fail
    have hnonneg : 0 ≤ ⌊q + 1 / 2⌋ := Int.floor_nonneg.mpr (by linarith)
    have hbound : ⌊q + 1 / 2⌋ ≤ hi ↔ q < hi + 1 / 2 := by
      rw [← Int.lt_add_one_iff, Int.floor_lt]
      push_cast
      constructor <;> intro h <;> linarith
    rw [hbound]
    exact and_congr_left fun _ => ⟨fun _ => by linarith, fun _ => hlo.trans hnonneg⟩
  · rw [if_neg hq, trunc, if_neg (by linarith)]
    -- a ceiling up to zero, so only the lower bound can fail
    have hnonpos : ⌈q - 1 / 2⌉ ≤ 0 := Int.ceil_le.mpr (by push_cast; linarith)
    have hbound : lo ≤ ⌈q - 1 / 2⌉ ↔ (lo : ℚ) - 1 / 2 < q := by
      rw [← Int.sub_one_lt_iff, Int.lt_ceil]
      push_cast
      constructor <;> intro h <;> linarith
    rw [hbound]
    exact and_congr_right fun _ => ⟨fun _ => by linarith, fun _ => hnonpos.trans hhi⟩

end Double
