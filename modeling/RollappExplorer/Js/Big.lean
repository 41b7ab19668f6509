/-
  The package `big.js`: decimal numbers of any length.

  The package is a parameter.  Sums, differences and products are exact; a quotient is rounded
  to 20 decimals, half up.  Texts are without exponents, as for numbers within `Big.PE` and
  `Big.NE`.

  * `roundHalfUp`: the nearest number with some decimals; of two the one that is farther from zero;
  * `BigJs`: what the package offers, and what is known of it;
  * `Decimal`: an integer in units of a power of ten; the instance of `BigJs` for decimals.
-/
import Mathlib.Algebra.Order.Round
import Mathlib.Data.Rat.Floor
import Mathlib.Tactic.Linarith
import Mathlib.Tactic.NormNum
import RollappExplorer.Text.Numeral

namespace Js

open Text

/-! ## Rounding -/

/-- The nearest integer, in units of `10 ^ -dp`. -/
def roundUnits (dp : ℕ) (q : ℚ) : ℤ :=
  if 0 ≤ q then round (q * 10 ^ dp) else -round (-q * 10 ^ dp)

/-- `roundHalfUp` with `dp` decimals -/
def roundHalfUp (dp : ℕ) (q : ℚ) : ℚ := roundUnits dp q / 10 ^ dp

variable {dp : ℕ} {q : ℚ}

/-- A number with few enough decimals is not changed. -/
theorem roundHalfUp_eq_self (h : ∃ n : ℤ, q * 10 ^ dp = n) : roundHalfUp dp q = q := by
  obtain ⟨n, hn⟩ := h
  have hunits : (roundUnits dp q : ℚ) = q * 10 ^ dp := by
    unfold roundUnits
    rw [neg_mul, hn, ← Int.cast_neg, round_intCast, round_intCast, neg_neg, ite_self]
  rw [roundHalfUp, hunits, mul_div_cancel_right₀ q (by positivity)]

theorem roundHalfUp_of_nonneg (h : 0 ≤ q) : roundHalfUp dp q = round (q * 10 ^ dp) / 10 ^ dp := by
  rw [roundHalfUp, roundUnits, if_pos h]

theorem roundHalfUp_nonneg (dp : ℕ) (h : 0 ≤ q) : 0 ≤ roundHalfUp dp q := by
  have hround : 0 ≤ round (q * 10 ^ dp) := by
    rw [round_eq]
    exact Int.floor_nonneg.2 (by positivity)
  rw [roundHalfUp_of_nonneg h]
  positivity

/-- Rounding changes a number by half a unit at most. -/
theorem abs_roundHalfUp_sub_le (dp : ℕ) (h : 0 ≤ q) :
    |roundHalfUp dp q - q| ≤ 1 / 2 / 10 ^ dp := by
  have hpow : (0 : ℚ) < 10 ^ dp := by positivity
  have hdiff : roundHalfUp dp q - q = -((q * 10 ^ dp - round (q * 10 ^ dp)) / 10 ^ dp) := by
    rw [roundHalfUp_of_nonneg h]
    field_simp
    ring
  rw [hdiff, abs_neg, abs_div, abs_of_pos hpow]
  exact div_le_div_of_nonneg_right (abs_sub_round _) hpow.le

theorem roundHalfUp_mono {r : ℚ} (h : 0 ≤ q) (hle : q ≤ r) :
    roundHalfUp dp q ≤ roundHalfUp dp r := by
  rw [roundHalfUp_of_nonneg h, roundHalfUp_of_nonneg (h.trans hle), round_eq, round_eq]
  have hfloor : ⌊q * 10 ^ dp + 1 / 2⌋ ≤ ⌊r * 10 ^ dp + 1 / 2⌋ := by
    refine Int.floor_le_floor ?_
    gcongr
  gcongr

/-! ## The package -/

/-- What is used of `big.js`; a failure is an error that is thrown. -/
structure BigJs where
  Big : Type
  /-- The number that a `Big` stands for. -/
  val : Big → ℚ
  /-- `new Big(s)` -/
  ofString : String → Option Big
  /-- `new Big(n)` -/
  ofNat : ℕ → Big
  /-- `new Big(10 ** d)` -/
  tenPow : ℕ → Option Big
  add : Big → Big → Big
  sub : Big → Big → Big
  mul : Big → Big → Big
  div : Big → Big → Option Big
  round : ℕ → Big → Big
  gt : Big → Big → Bool
  eq : Big → Big → Bool
  toString : Big → String
  ofString_digits : ∀ s, isDigits s = true → ∃ b, ofString s = some b ∧
    val b = readDigits 10 s.toList
  val_ofNat : ∀ n < 2 ^ 53, val (ofNat n) = n
  tenPow_eq : ∀ d ≤ 20, ∃ b, tenPow d = some b ∧ val b = 10 ^ d
  val_add : ∀ a b, val (add a b) = val a + val b
  val_sub : ∀ a b, val (sub a b) = val a - val b
  val_mul : ∀ a b, val (mul a b) = val a * val b
  div_eq : ∀ a b, val b ≠ 0 → ∃ c, div a b = some c ∧ val c = roundHalfUp 20 (val a / val b)
  val_round : ∀ dp a, val (round dp a) = roundHalfUp dp (val a)
  gt_iff : ∀ a b, gt a b = true ↔ val b < val a
  eq_iff : ∀ a b, eq a b = true ↔ val a = val b
  toString_eq : ∀ b, ∃ n : Numeral, n.Canonical ∧ toString b = n.text ∧ n.value = val b

/-! ## Decimals -/

/-- An integer in units of `10 ^ -dp`, with no zero at the end of the fraction. -/
structure Decimal where
  coeff : ℤ
  dp : ℕ
  normal : dp = 0 ∨ ¬ (10 : ℤ) ∣ coeff

namespace Decimal

def val (a : Decimal) : ℚ := a.coeff / 10 ^ a.dp

/-- The zeros at the end of the fraction are left out. -/
def ofScaled (coeff : ℤ) : ℕ → Decimal
  | 0 => ⟨coeff, 0, .inl rfl⟩
  | dp + 1 => if h : (10 : ℤ) ∣ coeff then ofScaled (coeff / 10) dp else ⟨coeff, dp + 1, .inr h⟩

theorem val_ofScaled (coeff : ℤ) (dp : ℕ) : (ofScaled coeff dp).val = coeff / 10 ^ dp := by
  induction dp generalizing coeff with
  | zero => rfl
  | succ dp ih =>
    unfold ofScaled
    split_ifs with h
    · obtain ⟨k, rfl⟩ := h
      rw [ih, Int.mul_ediv_cancel_left k (by decide), Int.cast_mul, Int.cast_ofNat, pow_succ']
      exact (mul_div_mul_left _ _ (by norm_num)).symm
    · rfl

def round (dp : ℕ) (q : ℚ) : Decimal := ofScaled (roundUnits dp q) dp

theorem val_round (dp : ℕ) (q : ℚ) : (round dp q).val = roundHalfUp dp q :=
  val_ofScaled _ dp

/-- A number with the decimals of a product. -/
theorem val_ofScaled_eq {coeff : ℤ} (h : (coeff : ℚ) = q * 10 ^ dp) :
    (ofScaled coeff dp).val = q := by
  rw [val_ofScaled, h, mul_div_cancel_right₀ q (by positivity)]

theorem coeff_eq (a : Decimal) : (a.coeff : ℚ) = a.val * 10 ^ a.dp :=
  (div_mul_cancel₀ _ (by positivity)).symm

/-- The decimals as `big.js`; of the texts, only those without a sign, a point or an exponent are
    read. -/
def bigJs : BigJs where
  Big := Decimal
  val := val
  ofString s := if isDigits s then some (ofScaled (readDigits 10 s.toList) 0) else none
  ofNat n := ofScaled n 0
  tenPow d := some (ofScaled (10 ^ d) 0)
  add a b := ofScaled (a.coeff * 10 ^ b.dp + b.coeff * 10 ^ a.dp) (a.dp + b.dp)
  sub a b := ofScaled (a.coeff * 10 ^ b.dp - b.coeff * 10 ^ a.dp) (a.dp + b.dp)
  mul a b := ofScaled (a.coeff * b.coeff) (a.dp + b.dp)
  div a b := if b.val = 0 then none else some (round 20 (a.val / b.val))
  round dp a := round dp a.val
  gt a b := decide (b.val < a.val)
  eq a b := decide (a.val = b.val)
  toString a := (Text.ofScaled a.coeff a.dp).text
  ofString_digits s hs := by
    refine ⟨_, if_pos hs, ?_⟩
    rw [val_ofScaled, pow_zero, div_one, Int.cast_natCast]
  val_ofNat n _ := by
    rw [val_ofScaled, pow_zero, div_one, Int.cast_natCast]
  tenPow_eq d _ := by
    refine ⟨_, rfl, ?_⟩
    rw [val_ofScaled, pow_zero, div_one, Int.cast_pow, Int.cast_ofNat]
  val_add a b := by
    refine val_ofScaled_eq ?_
    push_cast
    rw [coeff_eq a, coeff_eq b]
    ring
  val_sub a b := by
    refine val_ofScaled_eq ?_
    push_cast
    rw [coeff_eq a, coeff_eq b]
    ring
  val_mul a b := by
    refine val_ofScaled_eq ?_
    push_cast
    rw [coeff_eq a, coeff_eq b]
    ring
  div_eq a b hb := ⟨_, if_neg hb, val_round 20 _⟩
  val_round dp a := val_round dp a.val
  gt_iff _ _ := decide_eq_true_iff
  eq_iff _ _ := decide_eq_true_iff
  toString_eq a := ⟨_, canonical_ofScaled a.normal, rfl, value_ofScaled _ _⟩

end Decimal

instance : Inhabited BigJs := ⟨Decimal.bigJs⟩

end Js
