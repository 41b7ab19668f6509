/-
  Integers as numbers of JavaScript.

  A number is a double: an integer is rounded to the nearest one, and of two that are equally near
  to the one with an even significand.

  * `IsDouble`: the natural numbers that doubles represent; `toDouble`: the nearest one;
  * `toDouble_eq_self_iff`: the number is not changed iff a double represents it;
  * `parseInt`: the integer at the beginning of a text; `parseInt_eq`: of one without a sign;
  * `toBigInt`: the integer that a text denotes, of any size; `toBigInt_hex`.
-/
import Mathlib.Data.Nat.Log
import Mathlib.Tactic.Common
import Mathlib.Tactic.Ring
import RollappExplorer.Js.Text
import RollappExplorer.Text.Digits

namespace Js

open Text

/-! ## Doubles -/

/-- A double represents the number: it has at most 53 significant bits. -/
def IsDouble (n : ℕ) : Prop := n < 2 ^ 1024 ∧ ∃ m e, m < 2 ^ 53 ∧ n = m * 2 ^ e

/-- The nearest double, or `none` if it is infinite. -/
def toDouble (n : ℕ) : Option ℕ :=
  let e := n.log2 - 52
  let q := n / 2 ^ e
  let r := n % 2 ^ e
  let q := if 2 * r < 2 ^ e ∨ 2 * r = 2 ^ e ∧ q % 2 = 0 then q else q + 1
  if q * 2 ^ e < 2 ^ 1024 then some (q * 2 ^ e) else none

variable {n v e : ℕ}

/-- The result is a neighbour of the number among the multiples of a power of two. -/
theorem toDouble_eq_some (h : toDouble n = some v) :
    v = n / 2 ^ (n.log2 - 52) * 2 ^ (n.log2 - 52) ∨
      n % 2 ^ (n.log2 - 52) ≠ 0 ∧ v = (n / 2 ^ (n.log2 - 52) + 1) * 2 ^ (n.log2 - 52) := by
  unfold toDouble at h
  dsimp only at h
  have hpos : 0 < 2 ^ (n.log2 - 52) := Nat.two_pow_pos _
  split_ifs at h with hround hlt hlt
  · exact .inl (Option.some.inj h).symm
  · refine .inr ⟨fun hzero => hround (.inl ?_), (Option.some.inj h).symm⟩
    rw [hzero]
    omega

/-- The doubles of the size of a number are multiples of a power of two. -/
theorem IsDouble.dvd (h : IsDouble n) : 2 ^ (n.log2 - 52) ∣ n := by
  obtain ⟨-, m, e, hm, he⟩ := h
  rcases Nat.eq_zero_or_pos n with hzero | hpos
  · rw [hzero]
    exact Nat.dvd_zero _
  · have hlow : 2 ^ n.log2 ≤ n := Nat.log2_self_le hpos.ne'
    have hhigh : n < 2 ^ (53 + e) := by
      rw [he, Nat.pow_add]
      exact Nat.mul_lt_mul_of_pos_right hm (Nat.two_pow_pos e)
    have hexp : n.log2 < 53 + e :=
      (Nat.pow_lt_pow_iff_right (by decide)).1 (hlow.trans_lt hhigh)
    rw [he]
    refine Nat.dvd_trans (Nat.pow_dvd_pow 2 ?_) (Nat.dvd_mul_left _ _)
    rw [← he]
    omega

theorem div_lt_significand (n : ℕ) : n / 2 ^ (n.log2 - 52) < 2 ^ 53 := by
  rw [Nat.div_lt_iff_lt_mul (Nat.two_pow_pos _), ← Nat.pow_add]
  refine (Nat.lt_log2_self (n := n)).trans_le (Nat.pow_le_pow_right (by decide) ?_)
  omega

/-- **Rounding changes nothing** iff a double represents the number. -/
theorem toDouble_eq_self_iff : toDouble n = some n ↔ IsDouble n := by
  have hdivmod := Nat.div_add_mod' n (2 ^ (n.log2 - 52))
  constructor
  · intro h
    have hlt : n < 2 ^ 1024 := by
      unfold toDouble at h
      dsimp only at h
      split_ifs at h with hround hlt hlt
      · exact Option.some.inj h ▸ hlt
      · exact Option.some.inj h ▸ hlt
    refine ⟨hlt, n / 2 ^ (n.log2 - 52), n.log2 - 52, div_lt_significand n, ?_⟩
    rcases toDouble_eq_some h with heq | ⟨-, heq⟩
    · exact heq
    · have hmod : n % 2 ^ (n.log2 - 52) < 2 ^ (n.log2 - 52) := Nat.mod_lt _ (Nat.two_pow_pos _)
      rw [Nat.succ_mul] at heq
      omega
  · intro h
    have hmod : n % 2 ^ (n.log2 - 52) = 0 := Nat.mod_eq_zero_of_dvd h.dvd
    have heq : n / 2 ^ (n.log2 - 52) * 2 ^ (n.log2 - 52) = n := by omega
    have hround : 2 * (n % 2 ^ (n.log2 - 52)) < 2 ^ (n.log2 - 52) := by
      rw [hmod]
      exact Nat.two_pow_pos _
    unfold toDouble
    simp only [hround, true_or, if_true, heq, h.1]

/-- A double is at most twice as large as the number. -/
theorem toDouble_le_two_mul (h : toDouble n = some v) : v ≤ 2 * n := by
  have hdivmod := Nat.div_add_mod' n (2 ^ (n.log2 - 52))
  rcases toDouble_eq_some h with heq | ⟨hmod, heq⟩
  · omega
  · have hle : 2 ^ (n.log2 - 52) ≤ n := by
      by_contra hlt
      rw [not_le] at hlt
      refine hmod ?_
      have hsmall : n.log2 - 52 = 0 := by
        by_contra hne
        have hpos : n ≠ 0 := by
          rintro rfl
          exact hne (by decide)
        have hself := Nat.log2_self_le hpos
        have hpow : 2 ^ (n.log2 - 52) ≤ 2 ^ n.log2 :=
          Nat.pow_le_pow_right (by decide) (Nat.sub_le _ _)
        omega
      rw [hsmall, Nat.pow_zero, Nat.mod_one]
    rw [Nat.succ_mul] at heq
    omega

/-! ## `parseInt` -/

/-- The integers among the numbers, with the infinities and `NaN`. -/
inductive Number where
  | nan
  | int (n : ℤ)
  | infinity (negative : Bool)
  deriving DecidableEq

def Number.ofNat (n : ℕ) : Number := (toDouble n).elim (.infinity false) fun v => .int v

def Number.neg : Number → Number
  | nan => nan
  | int n => int (-n)
  | infinity negative => infinity !negative

/-- `n >= x` for a `bigint` `n` -/
def Number.leInt : Number → ℤ → Bool
  | nan, _ => false
  | int m, n => m ≤ n
  | infinity negative, _ => negative

/-- A sign at the beginning of a text, which is negative or not. -/
def takeSign : List Char → Bool × List Char
  | '-' :: l => (true, l)
  | '+' :: l => (false, l)
  | l => (false, l)

/-- The base that the beginning of a text stands for. -/
def takeRadix : List Char → ℕ × List Char
  | '0' :: 'x' :: l | '0' :: 'X' :: l => (16, l)
  | l => (10, l)

/-- `parseInt` without a radix.  An engine may take the decimal digits behind the 20th as zeros;
    here all are read. -/
def parseInt (s : String) : Number :=
  let (negative, l) := takeSign (s.toList.dropWhile isWhiteSpace)
  let (radix, l) := takeRadix l
  let digits := l.takeWhile (isDigitOf radix)
  if digits = [] then .nan
  else
    let x := Number.ofNat (readDigits radix digits)
    if negative then x.neg else x

variable {s : String} {c : Char} {l : List Char} {radix : ℕ}

theorem Number.ofNat_eq_int_iff : Number.ofNat n = .int n ↔ IsDouble n := by
  rw [← toDouble_eq_self_iff]
  unfold Number.ofNat
  cases h : toDouble n with
  | none => exact ⟨nofun, nofun⟩
  | some v =>
    rw [Option.elim_some, Number.int.injEq, Option.some.injEq, Nat.cast_inj]

/-- Rounding does not double a number. -/
theorem Number.ofNat_ne_int {m : ℕ} (h : 2 * n < m) : Number.ofNat n ≠ .int m := by
  intro he
  unfold Number.ofNat at he
  cases hround : toDouble n with
  | none =>
    rw [hround] at he
    cases he
  | some v =>
    rw [hround, Option.elim_some, Number.int.injEq, Nat.cast_inj] at he
    have hle := toDouble_le_two_mul hround
    omega

/-- A hexadecimal digit is neither white space nor a sign. -/
theorem isHexDigit_ne (h : isHexDigit c = true) :
    isWhiteSpace c = false ∧ c ≠ '-' ∧ c ≠ '+' := by
  obtain ⟨v, hv⟩ := Option.isSome_iff_exists.1 h
  unfold hexDigit at hv
  split_ifs at hv with hdigit hlower hupper
  · obtain ⟨hlo, hhi⟩ := Char.isDigit_iff_toNat.1 hdigit
    have hzero : '0' ≤ c := hlo
    have hnine : c ≤ '9' := hhi
    exact forall_range (P := fun c => isWhiteSpace c = false ∧ c ≠ '-' ∧ c ≠ '+')
      hzero hnine (by decide)
  · exact forall_range (P := fun c => isWhiteSpace c = false ∧ c ≠ '-' ∧ c ≠ '+')
      hlower.1 hlower.2 (by decide)
  · exact forall_range (P := fun c => isWhiteSpace c = false ∧ c ≠ '-' ∧ c ≠ '+')
      hupper.1 hupper.2 (by decide)

/-- A text that begins with a hexadecimal digit has no white space or sign in front. -/
theorem parseInt_eq (hs : s.toList = c :: l) (hc : isHexDigit c = true)
    {digits : List Char} (hr : takeRadix (c :: l) = (radix, digits)) :
    parseInt s = if digits.takeWhile (isDigitOf radix) = [] then .nan
      else Number.ofNat (readDigits radix (digits.takeWhile (isDigitOf radix))) := by
  obtain ⟨hspace, hminus, hplus⟩ := isHexDigit_ne hc
  have hdrop : s.toList.dropWhile isWhiteSpace = c :: l := by
    rw [hs, List.dropWhile_cons_of_neg (by rw [hspace]; decide)]
  have hsign : takeSign (c :: l) = (false, c :: l) := by
    unfold takeSign
    split
    · next he => exact absurd (List.cons.inj he).1 hminus
    · next he => exact absurd (List.cons.inj he).1 hplus
    · rfl
  unfold parseInt
  rw [hdrop, hsign]
  dsimp only
  rw [hr]
  rfl

/-! ## `BigInt` -/

/-- Digits of the base, at least one. -/
def readBase (base : ℕ) (l : List Char) : Option ℤ :=
  if l ≠ [] ∧ l.all (isDigitOf base) then some (readDigits base l) else none

/-- `BigInt(s)`, or `none` if it is no integer.  Only decimal digits may have a sign. -/
def toBigInt (s : String) : Option ℤ :=
  match (trim s).toList with
  | [] => some 0
  | '0' :: 'x' :: l | '0' :: 'X' :: l => readBase 16 l
  | '0' :: 'o' :: l | '0' :: 'O' :: l => readBase 8 l
  | '0' :: 'b' :: l | '0' :: 'B' :: l => readBase 2 l
  | '-' :: l => (readBase 10 l).map fun n => -n
  | '+' :: l => readBase 10 l
  | l => readBase 10 l

/-- A text with no white space at its ends is not changed. -/
theorem trim_eq_self (hhead : ∀ c ∈ s.toList.head?, isWhiteSpace c = false)
    (hlast : ∀ c ∈ s.toList.getLast?, isWhiteSpace c = false) : trim s = s := by
  have hkeep : ∀ {l : List Char}, (∀ c ∈ l.head?, isWhiteSpace c = false) →
      l.dropWhile isWhiteSpace = l := by
    intro l hl
    cases l with
    | nil => rfl
    | cons c l => exact List.dropWhile_cons_of_neg (by rw [hl c rfl]; exact Bool.false_ne_true)
  rw [trim, hkeep hhead, hkeep (by rwa [List.head?_reverse]), List.reverse_reverse,
    String.ofList_toList]

/-- **Hexadecimal digits behind `0x`** are read as the integer that they denote. -/
theorem toBigInt_hex (hs : s.toList = '0' :: 'x' :: l) (hl : l ≠ [])
    (hdigits : ∀ c ∈ l, isHexDigit c = true) : toBigInt s = some (readDigits 16 l) := by
  have htrim : trim s = s := by
    refine trim_eq_self ?_ ?_
    · intro c hc
      rw [hs] at hc
      obtain rfl := Option.some.inj hc
      decide
    · intro c hc
      have hend : (['0', 'x'] ++ l).getLast? = l.getLast? := List.getLast?_append_of_ne_nil _ hl
      have hc' : c ∈ (['0', 'x'] ++ l).getLast? := by rwa [hs] at hc
      rw [hend] at hc'
      exact (isHexDigit_ne (hdigits c (List.mem_of_mem_getLast? hc'))).1
  have hbase : readBase 16 l = some (readDigits 16 l) :=
    if_pos ⟨hl, List.all_eq_true.2 fun c hc => by rw [isDigitOf_sixteen, hdigits c hc]⟩
  unfold toBigInt
  rw [htrim, hs]
  exact hbase

end Js
