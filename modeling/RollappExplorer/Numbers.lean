/-
  Numbers and amounts as texts (`utils/number.ts`).

  * `formatNumberString`: commas in the integer part of a text; `Grouped`: a comma in front of
    every group of three digits;
  * `formatBlockchainAmount`: an amount of a token with some decimals; `hexToDec`;
  * `formatBlockchainAmount_exact`: of an integer with up to 20 decimals, the text is exact.
-/
import RollappExplorer.Js.Big
import RollappExplorer.Js.Number

namespace RollappExplorer

open Js Text

/-! ## `number.ts` -/

/-- `\w` -/
def isWordCharacter (c : Char) : Bool := c.isAlphanum || c == '_'

/-- `replace(/\B(?=(\d{3})+$)/g, ',')` behind the character `prev`. -/
def insertCommas (prev : Option Char) : List Char → List Char
  | [] => []
  | c :: l =>
    -- `\B`: the characters at both sides are of `\w`, or neither is.
    if prev.any isWordCharacter = isWordCharacter c ∧ (c :: l).all Char.isDigit ∧
        (c :: l).length % 3 = 0 then
      ',' :: c :: insertCommas (some c) l
    else c :: insertCommas (some c) l

def formatNumberString (value : String) : String :=
  match value.toList.splitOn '.' with
  | [] => ""
  | [int] => String.ofList (insertCommas none int)
  | int :: splitted => String.ofList (['.'].intercalate (insertCommas none int :: splitted))

/-- `hexStr` begins with `0x`. -/
def hexToDec (hexStr : String) : Option String :=
  let hexStr :=
    if length hexStr % 2 ≠ 0 then "0x0" ++ String.ofList (hexStr.toList.drop 2) else hexStr
  (toBigInt hexStr).map toString

variable (J : BigJs)

/-- `value instanceof Big ? value : new Big(value)` -/
def toBig : J.Big ⊕ String → Option J.Big
  | .inl value => some value
  | .inr value => J.ofString value

def formatNumber (value : J.Big ⊕ String) : Option String := do
  let value ← toBig J value
  return formatNumberString (J.toString value)

def divideAmountByDecimals (amount : J.Big ⊕ String) (decimals : ℕ) : Option J.Big := do
  let amount ← toBig J amount
  J.div amount (← J.tenPow decimals)

/-- An argument is `none` if it is undefined. -/
def formatBlockchainAmount (value : Option (J.Big ⊕ String)) (decimals fixed : Option ℕ) :
    Option String := do
  let result ← divideAmountByDecimals J (value.getD (.inl (J.ofNat 0))) (decimals.getD 0)
  formatNumber J (.inl (match fixed with
    | none => result
    | some fixed => J.round fixed result))

/-! ## Groups of digits -/

/-- One to three digits, and groups of three digits with a comma in front of each. -/
inductive Grouped : List Char → Prop
  | head {l : List Char} (hpos : 1 ≤ l.length) (hle : l.length ≤ 3)
      (hdigits : ∀ c ∈ l, c.isDigit = true) : Grouped l
  | group {l : List Char} {a b c : Char} (hl : Grouped l) (ha : a.isDigit = true)
      (hb : b.isDigit = true) (hc : c.isDigit = true) : Grouped (l ++ [',', a, b, c])

/-- The numeral with commas in its integer part. -/
def IsDisplay (s : String) (n : Numeral) : Prop :=
  ∃ int, Grouped int ∧ int.filter (· ≠ ',') = n.int ∧ s.toList = n.sign ++ int ++ n.fraction

/-- The text is the numeral of the number, with commas. -/
def Displays (s : String) (q : ℚ) : Prop :=
  ∃ n : Numeral, n.Canonical ∧ IsDisplay s n ∧ n.value = q

variable {l g : List Char} {a b c p : Char} {n : Numeral} {s : String}

theorem isWordCharacter_of_isDigit (h : c.isDigit = true) : isWordCharacter c = true := by
  rw [isWordCharacter, Char.isAlphanum, h, Bool.or_true, Bool.true_or]

theorem ne_of_isDigit (h : c.isDigit = true) : c ≠ ',' ∧ c ≠ '.' ∧ c ≠ '-' := by
  refine ⟨?_, ?_, ?_⟩
  all_goals
    rintro rfl
    exact absurd h (by decide)

/-- Only commas are inserted. -/
theorem filter_insertCommas (prev : Option Char) (h : ∀ c ∈ l, c.isDigit = true) :
    (insertCommas prev l).filter (· ≠ ',') = l := by
  induction l generalizing prev with
  | nil => rfl
  | cons c l ih =>
    obtain ⟨hc, hl⟩ := List.forall_mem_cons.1 h
    have hne : decide (c ≠ ',') = true := decide_eq_true (ne_of_isDigit hc).1
    unfold insertCommas
    split_ifs
    · simp only [List.filter_cons, hne, if_true, ih _ hl]
      rfl
    · simp only [List.filter_cons, hne, if_true, ih _ hl]

/-- A digit behind a digit has a comma in front iff it begins a group. -/
theorem insertCommas_digit (hp : p.isDigit = true) (h : ∀ d ∈ c :: l, d.isDigit = true) :
    insertCommas (some p) (c :: l) =
      (if (c :: l).length % 3 = 0 then [','] else []) ++ c :: insertCommas (some c) l := by
  have hword : isWordCharacter p = isWordCharacter c := by
    rw [isWordCharacter_of_isDigit hp, isWordCharacter_of_isDigit (h c List.mem_cons_self)]
  have hall : (c :: l).all Char.isDigit = true := List.all_eq_true.2 h
  rw [insertCommas, Option.any_some]
  by_cases hlen : (c :: l).length % 3 = 0
  · rw [if_pos ⟨hword, hall, hlen⟩, if_pos hlen]
    rfl
  · rw [if_neg fun h => hlen h.2.2, if_neg hlen]
    rfl

/-- Whole groups behind grouped digits. -/
theorem grouped_append_insertCommas (k : ℕ) (hp : p.isDigit = true) (hg : Grouped g)
    (h : ∀ c ∈ l, c.isDigit = true) (hlen : l.length = 3 * k) :
    Grouped (g ++ insertCommas (some p) l) := by
  induction k generalizing p g l with
  | zero =>
    obtain rfl := List.length_eq_zero_iff.1 hlen
    rwa [insertCommas, List.append_nil]
  | succ k ih =>
    match l, hlen with
    | a :: b :: c :: l, hlen =>
      have hlen' : l.length = 3 * k := by
        simp only [List.length_cons] at hlen
        omega
      obtain ⟨ha, hbcl⟩ := List.forall_mem_cons.1 h
      obtain ⟨hb, hcl⟩ := List.forall_mem_cons.1 hbcl
      obtain ⟨hc, hl⟩ := List.forall_mem_cons.1 hcl
      have hgroup := ih hc (hg.group ha hb hc) hl hlen'
      rw [insertCommas_digit hp h, insertCommas_digit ha hbcl, insertCommas_digit hb hcl,
        if_pos (by simp only [List.length_cons]; omega),
        if_neg (by simp only [List.length_cons]; omega),
        if_neg (by simp only [List.length_cons]; omega)]
      simpa only [List.append_assoc, List.cons_append, List.nil_append] using hgroup

/-- **Digits are grouped**, and there is no comma in front, if no `\w` stands there. -/
theorem grouped_insertCommas {prev : Option Char} (hprev : prev.any isWordCharacter = false)
    (hne : l ≠ []) (h : ∀ c ∈ l, c.isDigit = true) : Grouped (insertCommas prev l) := by
  obtain ⟨a, l, rfl⟩ := List.exists_cons_of_ne_nil hne
  obtain ⟨ha, hl⟩ := List.forall_mem_cons.1 h
  have hfirst : insertCommas prev (a :: l) = a :: insertCommas (some a) l := by
    rw [insertCommas, hprev, isWordCharacter_of_isDigit ha, if_neg fun h => nomatch h.1]
  rw [hfirst]
  -- The first group has one, two or three digits.
  rcases (by omega : l.length % 3 = 0 ∨ l.length % 3 = 1 ∨ l.length % 3 = 2) with hmod | hmod | hmod
  · have hhead : Grouped [a] := .head (by simp) (by simp) (by simpa using ha)
    have hlen : l.length = 3 * (l.length / 3) := by omega
    exact grouped_append_insertCommas _ ha hhead hl hlen
  · have hpos : 0 < l.length := by omega
    obtain ⟨b, l, rfl⟩ := List.exists_cons_of_ne_nil (List.ne_nil_of_length_pos hpos)
    obtain ⟨hb, hl'⟩ := List.forall_mem_cons.1 hl
    have hhead : Grouped [a, b] := .head (by simp) (by simp) (by simpa using ⟨ha, hb⟩)
    rw [List.length_cons] at hmod
    rw [insertCommas_digit ha hl, if_neg (by rw [List.length_cons]; omega)]
    exact grouped_append_insertCommas (l.length / 3) hb hhead hl' (by omega)
  · match l, hmod with
    | b :: c :: l, hmod =>
      obtain ⟨hb, hcl⟩ := List.forall_mem_cons.1 hl
      obtain ⟨hc, hl'⟩ := List.forall_mem_cons.1 hcl
      have hhead : Grouped [a, b, c] :=
        .head (by simp) (by simp) (by simpa using ⟨ha, hb, hc⟩)
      simp only [List.length_cons] at hmod
      rw [insertCommas_digit ha hl, if_neg (by simp only [List.length_cons]; omega),
        insertCommas_digit hb hcl, if_neg (by simp only [List.length_cons]; omega)]
      exact grouped_append_insertCommas (l.length / 3) hc hhead hl' (by omega)

/-- What follows the point is not split further. -/
theorem splitOn_text (n : Numeral) : n.text.toList.splitOn '.' =
    if n.frac = [] then [n.sign ++ n.int] else [n.sign ++ n.int, n.frac] := by
  have hint : '.' ∉ n.sign ++ n.int := by
    intro hc
    rcases List.mem_append.1 hc with hc | hc
    · exact absurd (Numeral.mem_sign hc) (by decide)
    · exact (ne_of_isDigit (n.int_digits _ hc)).2.1 rfl
  have hfrac : '.' ∉ n.frac := fun hc => (ne_of_isDigit (n.frac_digits _ hc)).2.1 rfl
  rw [Numeral.toList_text, Numeral.fraction]
  split_ifs with h
  · rw [List.append_nil, List.splitOn_eq_singleton hint]
  · rw [List.splitOn_append_cons_self_of_not_mem hint, List.splitOn_eq_singleton hfrac]

/-- The sign is no digit, and no comma follows it. -/
theorem insertCommas_sign (n : Numeral) : ∃ int, Grouped int ∧ int.filter (· ≠ ',') = n.int ∧
    insertCommas none (n.sign ++ n.int) = n.sign ++ int := by
  unfold Numeral.sign
  split_ifs
  · have hsign : insertCommas none ('-' :: n.int) = '-' :: insertCommas (some '-') n.int := by
      rw [insertCommas, if_neg fun h => by simp at h]
    exact ⟨_, grouped_insertCommas (by decide) n.int_ne_nil n.int_digits,
      filter_insertCommas _ n.int_digits, hsign⟩
  · exact ⟨_, grouped_insertCommas rfl n.int_ne_nil n.int_digits,
      filter_insertCommas _ n.int_digits, rfl⟩

/-- **Formatting a numeral** inserts the commas of its integer part, and nothing else. -/
theorem formatNumberString_text (n : Numeral) : IsDisplay (formatNumberString n.text) n := by
  obtain ⟨int, hgrouped, hfilter, hint⟩ := insertCommas_sign n
  refine ⟨int, hgrouped, hfilter, ?_⟩
  unfold formatNumberString
  rw [splitOn_text, Numeral.fraction]
  split_ifs
  · rw [List.append_nil, ← hint]
    exact String.toList_ofList
  · rw [← hint]
    show (String.ofList (['.'].intercalate [insertCommas none (n.sign ++ n.int), n.frac])).toList =
      insertCommas none (n.sign ++ n.int) ++ '.' :: n.frac
    rw [String.toList_ofList]
    simp [List.intercalate]

theorem comma_notMem_fraction (n : Numeral) : ',' ∉ n.fraction := fun hc => by
  rcases Numeral.mem_fraction hc with h | h
  · exact absurd h (by decide)
  · exact (ne_of_isDigit h).1 rfl

/-- Without its commas, the text is that of the numeral. -/
theorem IsDisplay.filter (h : IsDisplay s n) : s.toList.filter (· ≠ ',') = n.text.toList := by
  obtain ⟨int, -, hint, hs⟩ := h
  have hsign : n.sign.filter (· ≠ ',') = n.sign := List.filter_eq_self.2 fun c hc => by
    rw [Numeral.mem_sign hc]
    rfl
  have hfraction : n.fraction.filter (· ≠ ',') = n.fraction :=
    List.filter_eq_self.2 fun c hc =>
      decide_eq_true (ne_of_mem_of_not_mem hc (comma_notMem_fraction n))
  rw [hs, List.filter_append, List.filter_append, hint, hsign, hfraction, Numeral.toList_text]

/-- A text displays one number. -/
theorem Displays.unique {q q' : ℚ} (h : Displays s q) (h' : Displays s q') : q = q' := by
  obtain ⟨n, -, hn, rfl⟩ := h
  obtain ⟨n', -, hn', rfl⟩ := h'
  refine Numeral.value_unique (String.toList_injective ?_)
  rw [← hn.filter, hn'.filter]

/-! ## Amounts -/

variable {J}

/-- The text of a `Big` displays its value. -/
theorem formatNumber_big (b : J.Big) : ∃ s, formatNumber J (.inl b) = some s ∧
    Displays s (J.val b) := by
  obtain ⟨n, hcanonical, htext, hvalue⟩ := J.toString_eq b
  refine ⟨_, rfl, n, hcanonical, ?_, hvalue⟩
  rw [htext]
  exact formatNumberString_text n

/-- An integer with up to 20 decimals is divided without a remainder. -/
theorem roundHalfUp_scaled (k : ℕ) {d : ℕ} (hd : d ≤ 20) :
    roundHalfUp 20 ((k : ℚ) / 10 ^ d) = k / 10 ^ d := by
  refine roundHalfUp_eq_self ⟨k * 10 ^ (20 - d), ?_⟩
  have hpow : (10 : ℚ) ^ 20 = 10 ^ (20 - d) * 10 ^ d := by
    rw [← pow_add, Nat.sub_add_cancel hd]
  rw [hpow]
  push_cast
  field_simp

/-- **Division by a power of ten** is exact. -/
theorem divideAmountByDecimals_eq {amount : String} {d : ℕ} (ha : isDigits amount = true)
    (hd : d ≤ 20) : ∃ b, divideAmountByDecimals J (.inr amount) d = some b ∧
      J.val b = readDigits 10 amount.toList / 10 ^ d := by
  obtain ⟨a, hamount, hval⟩ := J.ofString_digits amount ha
  obtain ⟨p, hpow, hpval⟩ := J.tenPow_eq d hd
  have hne : J.val p ≠ 0 := by
    rw [hpval]
    positivity
  obtain ⟨b, hdiv, hquot⟩ := J.div_eq a p hne
  refine ⟨b, ?_, ?_⟩
  · rw [divideAmountByDecimals, toBig, hamount, hpow]
    exact hdiv
  · rw [hquot, hval, hpval, roundHalfUp_scaled _ hd]

/-- The text of an amount displays it in units of its decimals. -/
theorem formatBlockchainAmount_displays {amount : String} {d : ℕ} (ha : isDigits amount = true)
    (hd : d ≤ 20) : ∃ s, formatBlockchainAmount J (some (.inr amount)) (some d) none = some s ∧
      Displays s (readDigits 10 amount.toList / 10 ^ d) := by
  obtain ⟨b, hdiv, hval⟩ := divideAmountByDecimals_eq (J := J) ha hd
  obtain ⟨s, hformat, hdisplays⟩ := formatNumber_big b
  refine ⟨s, ?_, hval ▸ hdisplays⟩
  rw [formatBlockchainAmount, Option.getD_some, Option.getD_some, hdiv]
  exact hformat

/-- **Amounts are exact**: without its commas, the text of an integer amount with up to 20 decimals
    is the numeral of the amount; the commas are those of the groups of three digits of its integer
    part. -/
theorem formatBlockchainAmount_exact (J : BigJs) (amount : String) (d : ℕ)
    (ha : isDigits amount = true) (hd : d ≤ 20) :
    ∃ s, formatBlockchainAmount J (some (.inr amount)) (some d) none = some s ∧
      ∃ (n : Numeral) (int : List Char), n.Canonical ∧
        n.value = readDigits 10 amount.toList / 10 ^ d ∧
        s.toList.filter (· ≠ ',') = n.text.toList ∧
        s.toList = int ++ n.fraction ∧ Grouped int ∧ ',' ∉ n.fraction := by
  obtain ⟨s, hformat, n, hcanonical, hdisplay, hvalue⟩ :=
    formatBlockchainAmount_displays (J := J) ha hd
  obtain ⟨int, hgrouped, -, hs⟩ := id hdisplay
  have hnonneg : 0 ≤ n.value := by
    rw [hvalue]
    positivity
  have hsign : n.sign = [] := by
    rw [Numeral.sign, Numeral.sign_of_value_nonneg hcanonical hnonneg]
    rfl
  refine ⟨s, hformat, n, int, hcanonical, hvalue, hdisplay.filter, ?_, hgrouped,
    comma_notMem_fraction n⟩
  rw [hs, hsign, List.nil_append]

example : formatBlockchainAmount default (some (.inr "1234567")) (some 2) none =
    some "12,345.67" := by decide +kernel

/-- An amount of seven digits with two decimals. -/
theorem formatBlockchainAmount_exact_two :
    ∃ s, formatBlockchainAmount default (some (.inr "1234567")) (some 2) none = some s ∧
      ∃ n : Numeral, n.value = 12345.67 ∧ s.toList.filter (· ≠ ',') = n.text.toList := by
  obtain ⟨s, hs, n, -, -, hvalue, hfilter, -⟩ :=
    formatBlockchainAmount_exact default "1234567" 2 (by decide +kernel) (by decide)
  have hread : readDigits 10 "1234567".toList = 1234567 := by decide +kernel
  refine ⟨s, hs, n, ?_, hfilter⟩
  rw [hvalue, hread]
  norm_num

end RollappExplorer
