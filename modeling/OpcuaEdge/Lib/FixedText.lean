import OpcuaEdge.Lib.DecimalText
import Mathlib.Data.Nat.Log

/-!
# The text of `%.3f`

How many characters `printf("%.3f")` writes, as a number: a sign, the digits before the point,
the point and three digits after it (`length_formatFixed3`). None of them is a blank
(`blank_not_mem_formatFixed3`), so a number is a word of the text it is printed into.
-/

namespace CStr

/-- The decimal digits of `n`, one for 0. -/
def digitCount (n : Nat) : Nat := Nat.log 10 n + 1

theorem length_decimal (n : Nat) : (decimal n).length = digitCount n := by
  have hbound : ∀ k, 0 < k → ((decimal n).length ≤ k ↔ digitCount n ≤ k) := by
    intro k hk
    unfold decimal digitCount
    rw [List.length_map, Nat.length_toDigits_le_iff (by decide) hk, Nat.add_one_le_iff]
    by_cases hn : n = 0
    · subst hn
      simp [hk]
    · exact (Nat.log_lt_iff_lt_pow (by decide) hn).symm
  have hpos : 0 < (decimal n).length := by
    unfold decimal
    rw [List.length_map]
    exact Nat.length_toDigits_pos
  exact Nat.le_antisymm ((hbound _ (Nat.succ_pos _)).mpr le_rfl) ((hbound _ hpos).mp le_rfl)

/-- A minus sign takes one byte. -/
def signWidth (neg : Bool) : Nat := if neg then 1 else 0

/-- The characters of `%.3f`. The number is rounded to three digits first, so it can be one digit
longer than its integer part. -/
def fixed3Width : Double → Nat
  | .fin q => signWidth (q < 0) + digitCount (roundHalfEven (|q| * 1000) / 1000) + 4
  | .inf neg => signWidth neg + 3
  | .nan => 3

theorem length_formatFixed3 (d : Double) : (formatFixed3 d).length = fixed3Width d := by
  have hsign : ∀ neg : Bool, (if neg then lit "-" else []).length = signWidth neg := by decide
  cases d with
  | fin q =>
    set n := roundHalfEven (|q| * 1000) with hn
    -- a remainder modulo 1000 has at most three digits, and the padding fills them up
    have hfrac : (decimal (n % 1000)).length ≤ 3 := by
      unfold decimal
      rw [List.length_map, Nat.length_toDigits_le_iff (by decide) (by decide)]
      exact Nat.mod_lt n (by decide)
    have hneg : (if q < 0 then lit "-" else []).length = signWidth (q < 0) := by
      rw [← hsign]
      simp only [decide_eq_true_eq]
    unfold formatFixed3 fixed3Width
    simp only [← hn, List.length_append, List.length_replicate, hneg, length_decimal (n / 1000)]
    have hpoint : (lit ".").length = 1 := by decide
    omega
  | inf neg =>
    unfold formatFixed3 fixed3Width
    rw [List.length_append, hsign]
    rfl
  | nan => rfl

/-! ## No blanks

A text of a double is one word: nothing that splits a line at blanks splits it. -/

theorem blank_not_mem_decimal (n : Nat) : (32 : UInt8) ∉ decimal n := fun h =>
  absurd (isDigit_of_mem_decimal h) (by decide)

/-- Digits, a sign, a point and the letters of `inf` and `nan` are all that is printed. -/
theorem blank_not_mem_formatFixed3 (d : Double) : (32 : UInt8) ∉ formatFixed3 d := by
  have hsign : ∀ neg : Bool, (32 : UInt8) ∉ (if neg then lit "-" else []) := by decide
  cases d with
  | fin q =>
    have hneg : (32 : UInt8) ∉ (if q < 0 then lit "-" else []) := by
      simpa only [decide_eq_true_eq] using hsign (decide (q < 0))
    have hpoint : (32 : UInt8) ∉ lit "." := by decide
    have hpad (k : Nat) : (32 : UInt8) ∉ List.replicate k 48 := fun h =>
      absurd (List.eq_of_mem_replicate h) (by decide)
    unfold formatFixed3
    simp only [List.mem_append, not_or]
    exact ⟨⟨⟨⟨hneg, blank_not_mem_decimal _⟩, hpoint⟩, hpad _⟩, blank_not_mem_decimal _⟩
  | inf neg => cases neg <;> decide
  | nan => decide

end CStr
