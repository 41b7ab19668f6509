/-
  Decimal notation of numbers with finitely many decimals.

  * `Numeral`: a sign, the digits in front of the point, and those behind it; its `text` and its
    `value`;
  * `Numeral.Canonical`: there are no superfluous zeros or signs;
  * `Numeral.value_unique`: a text has one value;
  * `ofScaled`: the numeral of an integer in units of a power of ten; `value_ofScaled`,
    `canonical_ofScaled`.
-/
import Mathlib.Algebra.Order.Field.Rat
import Mathlib.Data.Nat.Digits.Defs
import Mathlib.Tactic.FieldSimp
import Mathlib.Tactic.Positivity
import Mathlib.Tactic.Ring
import RollappExplorer.Text.Digits

namespace Text

/-- A sign, the digits of the integer part, and those of the fraction. -/
structure Numeral where
  negative : Bool
  int : List Char
  frac : List Char
  int_ne_nil : int ≠ []
  int_digits : ∀ c ∈ int, c.isDigit = true
  frac_digits : ∀ c ∈ frac, c.isDigit = true

namespace Numeral

/-- The fraction with its point. -/
def fraction (n : Numeral) : List Char := if n.frac = [] then [] else '.' :: n.frac

def sign (n : Numeral) : List Char := if n.negative then ['-'] else []

def text (n : Numeral) : String := String.ofList (n.sign ++ n.int ++ n.fraction)

def magnitude (n : Numeral) : ℚ :=
  readDigits 10 n.int + readDigits 10 n.frac / 10 ^ n.frac.length

def value (n : Numeral) : ℚ := if n.negative then -n.magnitude else n.magnitude

/-- No zero in front of the integer part or at the end of the fraction, and no sign of zero. -/
structure Canonical (n : Numeral) : Prop where
  int : n.int = ['0'] ∨ n.int.head? ≠ some '0'
  frac : n.frac.getLast? ≠ some '0'
  sign : n.negative = true → n.value ≠ 0

variable {n : Numeral}

theorem toList_text (n : Numeral) : n.text.toList = n.sign ++ n.int ++ n.fraction :=
  String.toList_ofList

theorem magnitude_nonneg (n : Numeral) : 0 ≤ n.magnitude := by
  unfold magnitude
  positivity

/-- What the characters of a fraction are. -/
theorem mem_fraction {c : Char} (hc : c ∈ n.fraction) : c = '.' ∨ c.isDigit = true := by
  unfold fraction at hc
  split_ifs at hc with h
  · cases hc
  · rcases List.mem_cons.1 hc with rfl | hc
    · exact .inl rfl
    · exact .inr (n.frac_digits c hc)

theorem mem_sign {c : Char} (hc : c ∈ n.sign) : c = '-' := by
  unfold sign at hc
  split_ifs at hc
  · exact List.mem_singleton.1 hc
  · cases hc

/-- What the characters of a numeral are. -/
theorem mem_text {c : Char} (hc : c ∈ n.text.toList) : c.isDigit = true ∨ c = '-' ∨ c = '.' := by
  rw [toList_text, List.mem_append, List.mem_append] at hc
  rcases hc with (hc | hc) | hc
  · exact .inr (.inl (mem_sign hc))
  · exact .inl (n.int_digits c hc)
  · exact (mem_fraction hc).symm.imp_right .inr

/-- The digits in front of the point can be read off. -/
theorem takeWhile_int (n : Numeral) : (n.int ++ n.fraction).takeWhile Char.isDigit = n.int := by
  rw [List.takeWhile_append_of_pos n.int_digits]
  unfold fraction
  split_ifs
  · rw [List.takeWhile_nil, List.append_nil]
  · rw [List.takeWhile_cons_of_neg (by decide), List.append_nil]

theorem frac_of_fraction {n' : Numeral} (h : n.fraction = n'.fraction) : n.frac = n'.frac := by
  unfold fraction at h
  split_ifs at h with h₁ h₂ h₂
  · rw [h₁, h₂]
  · exact (List.cons.inj h).2

/-- A minus sign is no digit. -/
theorem ne_minus_cons {l : List Char} : n.int ++ n.fraction ≠ '-' :: l := by
  obtain ⟨c, digits, hint⟩ := List.exists_cons_of_ne_nil n.int_ne_nil
  intro h
  rw [hint] at h
  have hc := n.int_digits c (hint ▸ List.mem_cons_self)
  rw [(List.cons.inj h).1] at hc
  exact absurd hc (by decide)

/-- **A text has one value.** -/
theorem value_unique {n' : Numeral} (h : n.text = n'.text) : n.value = n'.value := by
  have hlist := congrArg String.toList h
  rw [toList_text, toList_text, List.append_assoc, List.append_assoc] at hlist
  have hparts : n.negative = n'.negative ∧ n.int ++ n.fraction = n'.int ++ n'.fraction := by
    unfold sign at hlist
    cases hneg : n.negative with
    | false =>
      cases hneg' : n'.negative with
      | false =>
        rw [hneg, hneg'] at hlist
        exact ⟨rfl, hlist⟩
      | true =>
        rw [hneg, hneg'] at hlist
        exact absurd hlist ne_minus_cons
    | true =>
      cases hneg' : n'.negative with
      | false =>
        rw [hneg, hneg'] at hlist
        exact absurd hlist.symm ne_minus_cons
      | true =>
        rw [hneg, hneg'] at hlist
        exact ⟨rfl, (List.cons.inj hlist).2⟩
  obtain ⟨hneg, hrest⟩ := hparts
  have hint : n.int = n'.int := by rw [← takeWhile_int n, hrest, takeWhile_int n']
  have hfrac : n.frac = n'.frac := by
    rw [hint] at hrest
    exact frac_of_fraction (List.append_cancel_left hrest)
  rw [value, value, magnitude, magnitude, hneg, hint, hfrac]

theorem sign_of_value_nonneg (h : n.Canonical) (hvalue : 0 ≤ n.value) : n.negative = false := by
  rw [Bool.eq_false_iff]
  intro hneg
  have hne := h.sign hneg
  have hmagnitude := n.magnitude_nonneg
  rw [value, if_pos hneg] at hvalue hne
  exact hne (le_antisymm (neg_nonpos.2 hmagnitude) hvalue)

end Numeral

/-! ## Scaled integers -/

/-- The lowest digits, with zeros in front. -/
def lowDigits (dp m : ℕ) : List Char :=
  if dp = 0 then [] else List.leftpad dp '0' (Nat.toDigits 10 (m % 10 ^ dp))

theorem length_lowDigits (dp m : ℕ) : (lowDigits dp m).length = dp := by
  unfold lowDigits
  split_ifs with h
  · exact h.symm
  · rw [List.length_leftpad]
    exact max_eq_left ((Nat.length_toDigits_le_iff (by decide) (Nat.pos_of_ne_zero h)).2
      (Nat.mod_lt _ (Nat.pow_pos (by decide))))

theorem isDigit_of_mem_lowDigits {dp m : ℕ} {c : Char} (hc : c ∈ lowDigits dp m) :
    c.isDigit = true := by
  unfold lowDigits at hc
  split_ifs at hc
  · cases hc
  · rcases List.mem_append.1 hc with hc | hc
    · rw [List.eq_of_mem_replicate hc]
      rfl
    · exact Nat.isDigit_of_mem_toDigits (by decide) (by decide) hc

theorem readDigits_lowDigits (dp m : ℕ) : readDigits 10 (lowDigits dp m) = m % 10 ^ dp := by
  rw [readDigits_ten_eq fun c hc => isDigit_of_mem_lowDigits hc]
  unfold lowDigits
  split_ifs with h
  · rw [h, Nat.pow_zero, Nat.mod_one]
    rfl
  · rw [List.leftpad, Nat.ofDigitChars_append, Nat.ofDigitChars_replicate_zero, Nat.mul_zero,
      Nat.ofDigitChars_ten_toDigits]

/-- The last digit is the remainder of the division by ten. -/
theorem getLast?_toDigits (m : ℕ) :
    (Nat.toDigits 10 m).getLast? = some (Nat.digitChar (m % 10)) := by
  rw [Nat.toDigits_eq_if (by decide)]
  split_ifs with h
  · rw [Nat.mod_eq_of_lt h]
    rfl
  · exact List.getLast?_concat

theorem digitChar_ne_zero {d : ℕ} (hlt : d < 10) (hd : d ≠ 0) : Nat.digitChar d ≠ '0' := by
  intro h
  refine hd ?_
  have hval := Nat.toNat_digitChar_sub_48_of_lt_ten hlt
  rw [h] at hval
  exact hval.symm

/-- Without a zero at the end of the number, there is none at the end of its lowest digits. -/
theorem getLast?_lowDigits {dp m : ℕ} (h : dp = 0 ∨ ¬ 10 ∣ m) :
    (lowDigits dp m).getLast? ≠ some '0' := by
  unfold lowDigits
  split_ifs with hdp
  · exact nofun
  · have hmod : m % 10 ^ dp % 10 = m % 10 :=
      Nat.mod_mod_of_dvd m (dvd_pow_self 10 hdp)
    rw [List.leftpad, List.getLast?_append_of_ne_nil _ Nat.toDigits_ne_nil, getLast?_toDigits,
      hmod]
    intro heq
    have hm := h.resolve_left hdp
    exact digitChar_ne_zero (Nat.mod_lt _ (by decide)) (mt Nat.dvd_of_mod_eq_zero hm)
      (Option.some.inj heq)

/-- The digits of a number do not begin with a zero. -/
theorem head?_toDigits {m : ℕ} (h : 0 < m) : (Nat.toDigits 10 m).head? ≠ some '0' := by
  induction m using Nat.strong_induction_on with
  | _ m ih =>
    rw [Nat.toDigits_eq_if (by decide)]
    split_ifs with hlt
    · intro heq
      exact digitChar_ne_zero hlt h.ne' (Option.some.inj heq)
    · rw [List.head?_append_of_ne_nil _ Nat.toDigits_ne_nil]
      exact ih (m / 10) (Nat.div_lt_self h (by decide)) (by omega)

/-- The numeral of an integer in units of a power of ten. -/
def ofScaled (coeff : ℤ) (dp : ℕ) : Numeral where
  negative := decide (coeff < 0)
  int := Nat.toDigits 10 (coeff.natAbs / 10 ^ dp)
  frac := lowDigits dp coeff.natAbs
  int_ne_nil := Nat.toDigits_ne_nil
  int_digits _ hc := Nat.isDigit_of_mem_toDigits (by decide) (by decide) hc
  frac_digits _ hc := isDigit_of_mem_lowDigits hc

theorem magnitude_ofScaled (coeff : ℤ) (dp : ℕ) :
    (ofScaled coeff dp).magnitude = coeff.natAbs / 10 ^ dp := by
  have hint : readDigits 10 (Nat.toDigits 10 (coeff.natAbs / 10 ^ dp)) =
      coeff.natAbs / 10 ^ dp := by
    rw [readDigits_ten_eq fun c hc => Nat.isDigit_of_mem_toDigits (by decide) (by decide) hc]
    exact Nat.ofDigitChars_ten_toDigits
  have hpow : (10 : ℚ) ^ dp ≠ 0 := by positivity
  have hdivmod : (coeff.natAbs : ℚ) =
      (coeff.natAbs / 10 ^ dp : ℕ) * 10 ^ dp + (coeff.natAbs % 10 ^ dp : ℕ) := by
    exact_mod_cast (Nat.div_add_mod' coeff.natAbs (10 ^ dp)).symm
  show (readDigits 10 (Nat.toDigits 10 _) : ℚ) +
    readDigits 10 (lowDigits _ _) / 10 ^ (lowDigits _ _).length = _
  rw [hint, readDigits_lowDigits, length_lowDigits]
  rw [hdivmod]
  field_simp

/-- **The value of a scaled integer.** -/
theorem value_ofScaled (coeff : ℤ) (dp : ℕ) : (ofScaled coeff dp).value = coeff / 10 ^ dp := by
  unfold Numeral.value
  rw [magnitude_ofScaled, show (ofScaled coeff dp).negative = decide (coeff < 0) from rfl]
  by_cases hneg : coeff < 0
  · have habs : ((coeff.natAbs : ℕ) : ℚ) = -coeff := by
      rw [Nat.cast_natAbs, abs_of_neg hneg, Int.cast_neg]
    rw [if_pos (decide_eq_true hneg), habs]
    ring
  · have habs : ((coeff.natAbs : ℕ) : ℚ) = coeff := by
      rw [Nat.cast_natAbs, abs_of_nonneg (not_lt.1 hneg)]
    rw [if_neg (by rwa [decide_eq_true_eq]), habs]

/-- **A scaled integer is canonical** if its last digit is not a zero behind the point. -/
theorem canonical_ofScaled {coeff : ℤ} {dp : ℕ} (h : dp = 0 ∨ ¬ (10 : ℤ) ∣ coeff) :
    (ofScaled coeff dp).Canonical where
  int := by
    show Nat.toDigits 10 _ = _ ∨ (Nat.toDigits 10 _).head? ≠ _
    rcases Nat.eq_zero_or_pos (coeff.natAbs / 10 ^ dp) with hzero | hpos
    · rw [hzero]
      exact .inl rfl
    · exact .inr (head?_toDigits hpos)
  frac := getLast?_lowDigits (h.imp_right fun hdvd hm =>
    hdvd (Int.natCast_dvd.2 hm))
  sign hneg hzero := by
    have hlt : coeff < 0 := of_decide_eq_true hneg
    rw [value_ofScaled, div_eq_zero_iff] at hzero
    rcases hzero with hzero | hzero
    · exact hlt.ne (Int.cast_eq_zero.1 hzero)
    · exact pow_ne_zero dp (by norm_num : (10 : ℚ) ≠ 0) hzero

end Text
