/-
  The texts that `strconv.ParseInt` reads as the same number.

  * `significantDigits`: the text without a plus sign and without leading zeros;
  * `significantDigits_eq`: it is the decimal notation of the number;
  * `significantDigits_eq_iff`: two texts denote one number iff these are the same;
  * `parseInt64_toString`: the text of an integer is read as this integer.
-/
import Mathlib.Algebra.Group.Int.Defs
import RollappExplorer.Go.Strings

namespace Go

/-- The text without a plus sign. -/
def unsigned : List Char → List Char
  | '+' :: l => l
  | l => l

/-- The text without a plus sign and without leading zeros. -/
def significantDigits (s : String) : List Char := (unsigned s.toList).dropWhile (· = '0')

theorem digit_sub_lt {c : Char} (h : c.isDigit = true) : c.toNat - '0'.toNat < 10 := by
  obtain ⟨-, hhigh⟩ := Char.isDigit_iff_toNat.1 h
  have hnine : '9'.toNat = '0'.toNat + 9 := rfl
  omega

/-- A digit is the character of its value. -/
theorem digitChar_sub {c : Char} (h : c.isDigit = true) :
    (c.toNat - '0'.toNat).digitChar = c := by
  obtain ⟨hlow, -⟩ := Char.isDigit_iff_toNat.1 h
  have hval : ∀ n < 10, n.digitChar.toNat = '0'.toNat + n := by decide
  refine Char.toNat_inj.1 ?_
  rw [hval _ (digit_sub_lt h)]
  omega

/-- Further digits are read after those of the number so far. -/
theorem toDigits_ofDigitChars {l : List Char} (hl : ∀ c ∈ l, c.isDigit = true) {n : ℕ}
    (hn : 0 < n) : Nat.toDigits 10 (Nat.ofDigitChars 10 l n) = Nat.toDigits 10 n ++ l := by
  induction l generalizing n with
  | nil => rw [Nat.ofDigitChars_nil, List.append_nil]
  | cons c l ih =>
    have hc := hl c List.mem_cons_self
    have hlt := digit_sub_lt hc
    rw [Nat.ofDigitChars_cons, ih (fun d hd => hl d (List.mem_cons_of_mem _ hd)) (by omega),
      ← Nat.toDigits_append_toDigits (by decide) hn hlt, Nat.toDigits_of_lt_base hlt,
      digitChar_sub hc, List.append_assoc, List.singleton_append]

/-- Digits are the decimal notation of their value, up to leading zeros. -/
theorem dropWhile_eq_toDigits {l : List Char} {n : ℕ} (h : digitsValue l = some n) (hn : 0 < n) :
    l.dropWhile (· = '0') = Nat.toDigits 10 n := by
  unfold digitsValue at h
  split_ifs at h with hdigits
  obtain ⟨-, hall⟩ := hdigits
  have hl := List.all_eq_true.1 hall
  have hvalue : Nat.ofDigitChars 10 l 0 = n := Option.some.inj h
  clear h hall
  induction l with
  | nil => exact absurd hvalue hn.ne
  | cons c l ih =>
    have hl' : ∀ d ∈ l, d.isDigit = true := fun d hd => hl d (List.mem_cons_of_mem _ hd)
    have hc := hl c List.mem_cons_self
    rw [Nat.ofDigitChars_cons, Nat.mul_zero, Nat.zero_add] at hvalue
    by_cases hzero : c = '0'
    · rw [hzero, Nat.sub_self] at hvalue
      rw [List.dropWhile_cons_of_pos (by simpa using hzero)]
      exact ih hl' hvalue
    · obtain ⟨hlow, -⟩ := Char.isDigit_iff_toNat.1 hc
      have hne : c.toNat ≠ '0'.toNat := fun he => hzero (Char.toNat_inj.1 he)
      have hlt := digit_sub_lt hc
      rw [List.dropWhile_cons_of_neg (by simpa using hzero), ← hvalue,
        toDigits_ofDigitChars hl' (by omega), Nat.toDigits_of_lt_base hlt, digitChar_sub hc,
        List.singleton_append]

theorem toDigits_inj {m n : ℕ} (h : Nat.toDigits 10 m = Nat.toDigits 10 n) : m = n := by
  have hvalue := congrArg (Nat.ofDigitChars 10 · 0) h
  simpa only [Nat.ofDigitChars_ten_toDigits] using hvalue

/-- **The significant digits** of a positive number are its decimal notation. -/
theorem significantDigits_eq {s : String} {n : ℤ} (h : parseInt64 s = some n) (hn : 0 < n) :
    significantDigits s = Nat.toDigits 10 n.toNat := by
  have hread : ∀ l, ((digitsValue l).bind fun m => if m < 2 ^ 63 then some (m : ℤ) else none) =
      some n → l.dropWhile (· = '0') = Nat.toDigits 10 n.toNat := by
    intro l hl
    obtain ⟨m, hm, hl⟩ := Option.bind_eq_some_iff.1 hl
    split_ifs at hl
    obtain rfl := Option.some.inj hl
    exact dropWhile_eq_toDigits hm (by omega)
  unfold parseInt64 at h
  rw [significantDigits]
  split at h
  case h_1 l _ =>
    obtain ⟨m, -, h⟩ := Option.bind_eq_some_iff.1 h
    split_ifs at h
    have := Option.some.inj h
    omega
  case h_2 l hl =>
    rw [hl]
    exact hread l h
  case h_3 hplus =>
    have hunsigned : unsigned s.toList = s.toList := by
      unfold unsigned
      split
      case h_1 l' hl' => exact absurd hl' (hplus l')
      case h_2 => rfl
    rw [hunsigned]
    exact hread _ h

/-- **Two texts of positive numbers** denote the same one iff their significant digits are
    the same. -/
theorem significantDigits_eq_iff {s s' : String} {n n' : ℤ} (h : parseInt64 s = some n)
    (h' : parseInt64 s' = some n') (hn : 0 < n) (hn' : 0 < n') :
    significantDigits s = significantDigits s' ↔ n = n' := by
  rw [significantDigits_eq h hn, significantDigits_eq h' hn']
  constructor
  · intro he
    have hnat := toDigits_inj he
    omega
  · intro he
    rw [he]

/-! ## Decimal notation -/

theorem digitsValue_toDigits (n : ℕ) : digitsValue (Nat.toDigits 10 n) = some n := by
  have hall : (Nat.toDigits 10 n).all Char.isDigit = true :=
    List.all_eq_true.2 fun _ hc => Nat.isDigit_of_mem_toDigits (by decide) (by decide) hc
  unfold digitsValue
  rw [if_pos ⟨Nat.toDigits_ne_nil, hall⟩]
  exact congrArg some Nat.ofDigitChars_ten_toDigits

/-- The text of an integer. -/
theorem toList_toString (n : ℤ) : (toString n).toList =
    if n < 0 then '-' :: Nat.toDigits 10 n.natAbs else Nat.toDigits 10 n.natAbs := by
  cases n with
  | ofNat n =>
    rw [if_neg (by simp)]
    exact Nat.toList_repr
  | negSucc n =>
    rw [if_pos (Int.negSucc_lt_zero n)]
    show ("-" ++ (n + 1).repr).toList = _
    rw [String.toList_append, Nat.toList_repr]
    rfl

theorem mem_toString {n : ℤ} {c : Char} (hc : c ∈ (toString n).toList) :
    c.isDigit = true ∨ c = '-' := by
  rw [toList_toString] at hc
  have hdigit : ∀ {m : ℕ}, c ∈ Nat.toDigits 10 m → c.isDigit = true := fun hm =>
    Nat.isDigit_of_mem_toDigits (by decide) (by decide) hm
  split_ifs at hc
  · rcases List.mem_cons.1 hc with rfl | hc
    · exact .inr rfl
    · exact .inl (hdigit hc)
  · exact .inl (hdigit hc)

/-- Integers have different texts. -/
theorem toString_inj {n n' : ℤ} (h : toString n = toString n') : n = n' := by
  have hdash : ∀ m, '-' ∉ Nat.toDigits 10 m := fun m hm =>
    absurd (Nat.isDigit_of_mem_toDigits (by decide) (by decide) hm) (by decide)
  have hlist := congrArg String.toList h
  rw [toList_toString, toList_toString] at hlist
  split_ifs at hlist with hn hn' hn'
  · have habs := toDigits_inj (List.cons.inj hlist).2
    omega
  · exact absurd (hlist ▸ List.mem_cons_self) (hdash _)
  · exact absurd (hlist ▸ List.mem_cons_self) (hdash _)
  · have habs := toDigits_inj hlist
    omega

/-- **The text of an integer** is read as this integer, if that is an `int64`. -/
theorem parseInt64_toString (n : ℤ) :
    parseInt64 (toString n) = if -2 ^ 63 ≤ n ∧ n < 2 ^ 63 then some n else none := by
  by_cases hneg : n < 0
  · have hlist : (toString n).toList = '-' :: Nat.toDigits 10 n.natAbs := by
      rw [toList_toString, if_pos hneg]
    have habs : -(n.natAbs : ℤ) = n := by omega
    unfold parseInt64
    rw [hlist]
    show (digitsValue _).bind _ = _
    rw [digitsValue_toDigits, Option.bind_some, habs]
    exact if_congr (by omega) rfl rfl
  · have hlist : (toString n).toList = Nat.toDigits 10 n.natAbs := by
      rw [toList_toString, if_neg hneg]
    have hdigit : ∀ c ∈ (toString n).toList, c.isDigit = true := fun c hc =>
      Nat.isDigit_of_mem_toDigits (by decide) (by decide) (hlist ▸ hc)
    have habs : (n.natAbs : ℤ) = n := by omega
    unfold parseInt64
    split
    case h_1 l hl => exact absurd (hdigit '-' (hl ▸ List.mem_cons_self)) (by decide)
    case h_2 l hl => exact absurd (hdigit '+' (hl ▸ List.mem_cons_self)) (by decide)
    case h_3 =>
      rw [hlist, digitsValue_toDigits, Option.bind_some, habs]
      exact if_congr (by omega) rfl rfl

end Go
