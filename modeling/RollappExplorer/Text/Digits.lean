/-
  Digits.

  * `hexDigit`: the value of a hexadecimal digit, in either case;
  * `readDigits`: the number that digits of a base denote, the most significant one first;
  * `two_mul_readDigits_lt`: what hexadecimal digits denote, if decimal ones are their beginning;
  * `isDigits`: a text of decimal digits; `readDigits_toString`: the text of a number denotes it.
-/
import Mathlib.Data.List.Basic
import Mathlib.Data.List.Induction
import Mathlib.Tactic.Common

namespace Text

/-- The value of a hexadecimal digit. -/
def hexDigit (c : Char) : Option ℕ :=
  if c.isDigit then some (c.toNat - '0'.toNat)
  else if 'a' ≤ c ∧ c ≤ 'f' then some (c.toNat - 'a'.toNat + 10)
  else if 'A' ≤ c ∧ c ≤ 'F' then some (c.toNat - 'A'.toNat + 10)
  else none

/-- `[\da-fA-F]` -/
def isHexDigit (c : Char) : Bool := (hexDigit c).isSome

theorem isHexDigit_lt {c : Char} (h : isHexDigit c = true) : c.toNat < 128 := by
  obtain ⟨v, hv⟩ := Option.isSome_iff_exists.1 h
  unfold hexDigit at hv
  split_ifs at hv with hdigit hlower hupper
  · exact Nat.lt_of_le_of_lt (Char.isDigit_iff_toNat.1 hdigit).2 (by decide)
  · exact Nat.lt_of_le_of_lt (show c.toNat ≤ 'f'.toNat from hlower.2) (by decide)
  · exact Nat.lt_of_le_of_lt (show c.toNat ≤ 'F'.toNat from hupper.2) (by decide)

/-- The number that digits denote; other characters count as zeros. -/
def readDigits (base : ℕ) (l : List Char) : ℕ :=
  l.foldl (fun n c => base * n + (hexDigit c).getD 0) 0

/-! ## Digits of a base -/

variable {base v : ℕ} {c : Char} {l l' : List Char}

/-- A digit of a base up to 16. -/
def isDigitOf (base : ℕ) (c : Char) : Bool := (hexDigit c).any fun v => v < base

theorem hexDigit_eq_some (h : hexDigit c = some v) :
    c.isDigit = true ∧ v < 10 ∨ c.isDigit = false ∧ 10 ≤ v ∧ v < 16 := by
  unfold hexDigit at h
  split_ifs at h with hdigit hlower hupper
  · obtain ⟨hlo, hhi⟩ := Char.isDigit_iff_toNat.1 hdigit
    have hval := Option.some.inj h
    have hzero : '0'.toNat = 48 := rfl
    have hnine : '9'.toNat = 57 := rfl
    exact .inl ⟨hdigit, by omega⟩
  · have hlo : 'a'.toNat ≤ c.toNat := hlower.1
    have hhi : c.toNat ≤ 'f'.toNat := hlower.2
    have hval := Option.some.inj h
    have ha : 'a'.toNat = 97 := rfl
    have hf : 'f'.toNat = 102 := rfl
    exact .inr ⟨Bool.eq_false_iff.2 hdigit, by omega, by omega⟩
  · have hlo : 'A'.toNat ≤ c.toNat := hupper.1
    have hhi : c.toNat ≤ 'F'.toNat := hupper.2
    have hval := Option.some.inj h
    have ha : 'A'.toNat = 65 := rfl
    have hf : 'F'.toNat = 70 := rfl
    exact .inr ⟨Bool.eq_false_iff.2 hdigit, by omega, by omega⟩

theorem isDigitOf_ten (c : Char) : isDigitOf 10 c = c.isDigit := by
  unfold isDigitOf
  cases h : hexDigit c with
  | none =>
    symm
    rw [Option.any_none, Bool.eq_false_iff]
    intro hdigit
    rw [hexDigit, if_pos hdigit] at h
    cases h
  | some v =>
    rcases hexDigit_eq_some h with ⟨hdigit, hv⟩ | ⟨hdigit, hv, -⟩
    · rw [hdigit]
      exact decide_eq_true hv
    · rw [hdigit]
      exact decide_eq_false (Nat.not_lt.2 hv)

theorem isDigitOf_sixteen (c : Char) : isDigitOf 16 c = isHexDigit c := by
  unfold isDigitOf isHexDigit
  cases h : hexDigit c with
  | none => rfl
  | some v =>
    have hv : v < 16 := by
      rcases hexDigit_eq_some h with ⟨-, hv⟩ | ⟨-, -, hv⟩
      · omega
      · exact hv
    exact decide_eq_true hv

theorem readDigits_concat (base : ℕ) (l : List Char) (c : Char) :
    readDigits base (l ++ [c]) = base * readDigits base l + (hexDigit c).getD 0 := by
  rw [readDigits, List.foldl_append]
  rfl

theorem readDigits_le_append (hb : 0 < base) (l l' : List Char) :
    readDigits base l ≤ readDigits base (l ++ l') := by
  induction l' using List.reverseRecOn with
  | nil => exact Nat.le_of_eq (congrArg (readDigits base) (List.append_nil l).symm)
  | append_singleton l' c ih =>
    rw [← List.append_assoc, readDigits_concat]
    have hmul := Nat.le_mul_of_pos_left (readDigits base (l ++ l')) hb
    omega

theorem readDigits_ten_le_sixteen (l : List Char) : readDigits 10 l ≤ readDigits 16 l := by
  induction l using List.reverseRecOn with
  | nil => exact Nat.le_refl 0
  | append_singleton l c ih =>
    rw [readDigits_concat, readDigits_concat]
    omega

/-- With a further letter, the hexadecimal digits denote more than twice the decimal ones. -/
theorem two_mul_readDigits_lt (h : isHexDigit c = true) (hc : c.isDigit = false)
    (l l' : List Char) : 2 * readDigits 10 l < readDigits 16 (l ++ c :: l') := by
  obtain ⟨v, hv⟩ := Option.isSome_iff_exists.1 h
  have hten : 10 ≤ v := by
    rcases hexDigit_eq_some hv with ⟨hdigit, -⟩ | ⟨-, hv, -⟩
    · rw [hdigit] at hc
      cases hc
    · exact hv
  have hle := readDigits_le_append (show 0 < 16 by decide) (l ++ [c]) l'
  rw [readDigits_concat, hv, Option.getD_some, List.append_assoc, List.singleton_append] at hle
  have hbase := readDigits_ten_le_sixteen l
  omega

/-! ## Decimal digits -/

/-- `/^\d+$/` -/
def isDigits (s : String) : Bool := s.toList ≠ [] && s.toList.all Char.isDigit

theorem readDigits_ten_eq (h : ∀ c ∈ l, c.isDigit = true) :
    readDigits 10 l = Nat.ofDigitChars 10 l 0 := by
  rw [readDigits, Nat.ofDigitChars_eq_foldl]
  refine List.foldl_ext _ _ _ fun n c hc => ?_
  rw [hexDigit, if_pos (h c hc), Option.getD_some]

theorem isDigit_of_mem_toString {n : ℕ} (hc : c ∈ (toString n).toList) :
    c.isDigit = true := by
  rw [Nat.toString_eq_repr, Nat.toList_repr] at hc
  exact Nat.isDigit_of_mem_toDigits (by decide) (by decide) hc

theorem isDigits_toString (n : ℕ) : isDigits (toString n) = true := by
  refine Bool.and_eq_true_iff.2 ⟨decide_eq_true ?_, ?_⟩
  · rw [Nat.toString_eq_repr, Nat.toList_repr]
    exact Nat.toDigits_ne_nil
  · exact List.all_eq_true.2 fun c hc => isDigit_of_mem_toString hc

/-- The text of a number denotes it. -/
theorem readDigits_toString (n : ℕ) : readDigits 10 (toString n).toList = n := by
  rw [readDigits_ten_eq fun c hc => isDigit_of_mem_toString hc, Nat.toString_eq_repr,
    Nat.toList_repr]
  exact Nat.ofDigitChars_ten_toDigits

end Text
