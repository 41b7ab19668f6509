/-
  The tokens of a JSON text.

  The lexer is a state machine over the characters that emits tokens: numbers and the key words
  are words, strings have escapes, and no control character stands in a string.

  * `lex`: the tokens of a text, if it ends well;
  * `run_append`: texts are read piece by piece;
  * `unescape`: the string between two quotes;
  * `run_quoted`: a quoted text without a quote in it is a string, or leaves the lexer in the
    middle of one;
  * `unescape_eq_self_iff`: a text is its own content iff it has neither a backslash nor a control
    character.
-/
import Mathlib.Algebra.Field.Rat
import RollappExplorer.Go.Numerals
import RollappExplorer.Text.Digits

namespace Json

/-! ## Tokens -/

inductive Token where
  | punct (c : Char)
  | string (s : String)
  | number (q : ℚ)
  | bool (b : Bool)
  | null
  deriving DecidableEq

def isBlank (c : Char) : Bool := c == ' ' || c == '\t' || c == '\n' || c == '\r'

def isPunct (c : Char) : Bool :=
  c == '{' || c == '}' || c == '[' || c == ']' || c == ',' || c == ':'

/-- A character of a number or of a key word. -/
def isWordChar (c : Char) : Bool := c.isAlphanum || c == '+' || c == '-' || c == '.'

/-- The digits before the fraction, without a leading zero. -/
def wholePart (l : List Char) : Option ℕ :=
  if l.head? = some '0' ∧ l.length ≠ 1 then none else Go.digitsValue l

/-- The fraction with its point, or nothing. -/
def fraction : List Char → Option ℚ
  | [] => some 0
  | _ :: l => (Go.digitsValue l).map fun n => (n : ℚ) / 10 ^ l.length

/-- The exponent with its letter, or nothing. -/
def exponent : List Char → Option ℤ
  | [] => some 0
  | _ :: '+' :: l => (Go.digitsValue l).map fun n => (n : ℤ)
  | _ :: '-' :: l => (Go.digitsValue l).map fun n => -(n : ℤ)
  | _ :: l => (Go.digitsValue l).map fun n => (n : ℤ)

/-- A number without its sign. -/
def unsignedNumber (l : List Char) : Option ℚ := do
  let isExponent := fun c : Char => c == 'e' || c == 'E'
  let mantissa := l.takeWhile fun c => !isExponent c
  let n ← wholePart (mantissa.takeWhile (· ≠ '.'))
  let f ← fraction (mantissa.dropWhile (· ≠ '.'))
  let e ← exponent (l.dropWhile fun c => !isExponent c)
  return (n + f) * 10 ^ e

def readNumber : List Char → Option ℚ
  | '-' :: l => (unsignedNumber l).map fun q => -q
  | l => unsignedNumber l

/-- The token of a word. -/
def wordToken (l : List Char) : Option Token :=
  if l = "true".toList then some (.bool true)
  else if l = "false".toList then some (.bool false)
  else if l = "null".toList then some .null
  else (readNumber l).map .number

/-! ## Strings -/

/-- The character of a code point or of half a surrogate pair, which stands for none. -/
def unitChar (n : ℕ) : Char := if n.isValidChar then Char.ofNat n else '\uFFFD'

def isHighSurrogate (n : ℕ) : Bool := 0xD800 ≤ n && n < 0xDC00

def isLowSurrogate (n : ℕ) : Bool := 0xDC00 ≤ n && n < 0xE000

/-- The characters of code points and of halves of surrogate pairs. -/
def decodeUnits : List ℕ → List Char
  | [] => []
  | [n] => [unitChar n]
  | high :: low :: l =>
    if isHighSurrogate high && isLowSurrogate low then
      unitChar (0x10000 + 0x400 * (high - 0xD800) + (low - 0xDC00)) :: decodeUnits l
    else unitChar high :: decodeUnits (low :: l)

/-- The character that a letter after a backslash stands for. -/
def escaped (c : Char) : Option ℕ :=
  if c = '"' ∨ c = '\\' ∨ c = '/' then some c.toNat
  else if c = 'b' then some 8
  else if c = 'f' then some 12
  else if c = 'n' then some 10
  else if c = 'r' then some 13
  else if c = 't' then some 9
  else none

/-! ## The machine -/

inductive Mode where
  | blank
  | word (text : List Char)
  | literal (units : List ℕ)
  /-- a backslash in a string -/
  | escape (units : List ℕ)
  /-- the hexadecimal digits after `\u` in a string -/
  | unicode (units : List ℕ) (digits : List Char)
  | failed
  deriving DecidableEq

/-- The first character of a token. -/
def beginToken (c : Char) : List Token × Mode :=
  if isBlank c then ([], .blank)
  else if isPunct c then ([.punct c], .blank)
  else if isWordChar c then ([], .word [c])
  else if c = '"' then ([], .literal [])
  else ([], .failed)

/-- The tokens a character completes, and the mode after it. -/
def step : Mode → Char → List Token × Mode
  | .blank, c => beginToken c
  | .word text, c =>
    if isWordChar c then ([], .word (text ++ [c]))
    else match wordToken text with
      | some token => (token :: (beginToken c).1, (beginToken c).2)
      | none => ([], .failed)
  | .literal units, c =>
    if c < ' ' then ([], .failed)
    else if c = '"' then ([.string (String.ofList (decodeUnits units))], .blank)
    else if c = '\\' then ([], .escape units)
    else ([], .literal (units ++ [c.toNat]))
  | .escape units, c =>
    if c = 'u' then ([], .unicode units [])
    else match escaped c with
      | some n => ([], .literal (units ++ [n]))
      | none => ([], .failed)
  | .unicode units digits, c =>
    if Text.isHexDigit c then
      if digits.length = 3 then
        ([], .literal (units ++ [Text.readDigits 16 (digits ++ [c])]))
      else ([], .unicode units (digits ++ [c]))
    else ([], .failed)
  | .failed, _ => ([], .failed)

/-- The tokens that characters complete, and the mode after them. -/
def run : Mode → List Char → List Token × Mode
  | mode, [] => ([], mode)
  | mode, c :: l =>
    let (tokens, mode) := step mode c
    let (tokens', mode) := run mode l
    (tokens ++ tokens', mode)

/-- The tokens at the end of a text. -/
def finish (tokens : List Token) : Mode → Option (List Token)
  | .blank => some tokens
  | .word text => (wordToken text).map fun token => tokens ++ [token]
  | .literal _ | .escape _ | .unicode _ _ | .failed => none

/-- The tokens of a text. -/
def lex (s : String) : Option (List Token) :=
  finish (run .blank s.toList).1 (run .blank s.toList).2

/-- The content of a string that is written as `s` between its quotes. -/
def unescape (s : String) : Option String :=
  match (run (.literal []) s.toList).2 with
  | .literal units => some (String.ofList (decodeUnits units))
  | _ => none

/-! ## Reading piece by piece -/

variable {mode : Mode} {c : Char} {l s : List Char} {units : List ℕ}

theorem run_cons (mode : Mode) (c : Char) (l : List Char) :
    run mode (c :: l) =
      ((step mode c).1 ++ (run (step mode c).2 l).1, (run (step mode c).2 l).2) := rfl

theorem run_singleton (mode : Mode) (c : Char) : run mode [c] = step mode c := by
  rw [run_cons]
  show ((step mode c).1 ++ [], _) = _
  rw [List.append_nil]
  rfl

theorem run_append (mode : Mode) (l l' : List Char) :
    run mode (l ++ l') =
      ((run mode l).1 ++ (run (run mode l).2 l').1, (run (run mode l).2 l').2) := by
  induction l generalizing mode with
  | nil => rfl
  | cons c l ih =>
    rw [List.cons_append, run_cons, ih, run_cons, List.append_assoc]

/-- A text that goes on after a piece that has been read. -/
theorem run_append_of {tokens : List Token} {mode' : Mode} (h : run mode l = (tokens, mode'))
    (l' : List Char) :
    run mode (l ++ l') = (tokens ++ (run mode' l').1, (run mode' l').2) := by
  rw [run_append, h]

theorem mode_append (mode : Mode) (l l' : List Char) :
    (run mode (l ++ l')).2 = (run (run mode l).2 l').2 := by
  rw [run_append]

theorem mode_failed (l : List Char) : (run .failed l).2 = .failed := by
  induction l with
  | nil => rfl
  | cons c l ih => exact ih

/-- What a step keeps is kept by the characters of a text. -/
theorem mode_induct {P : Mode → Prop} (h : P mode)
    (hstep : ∀ m, ∀ c ∈ l, P m → P (step m c).2) : P (run mode l).2 := by
  induction l generalizing mode with
  | nil => exact h
  | cons c l ih =>
    exact ih (hstep mode c List.mem_cons_self h) fun m d hd =>
      hstep m d (List.mem_cons_of_mem _ hd)

/-! ## Quoted texts -/

/-- In a string. -/
def Mode.Inside : Mode → Prop
  | .literal _ | .escape _ | .unicode _ _ | .failed => True
  | .blank | .word _ => False

/-- Not in a string. -/
def Mode.Outside : Mode → Prop
  | .blank | .word _ | .failed => True
  | .literal _ | .escape _ | .unicode _ _ => False

/-- In a string where a text begins, or behind an error. -/
def Mode.Misplaced : Mode → Prop
  | .literal _ | .failed => True
  | .blank | .word _ | .escape _ | .unicode _ _ => False

/-- The number of units of the string that is read. -/
def Mode.count : Mode → ℕ
  | .literal units | .escape units | .unicode units _ => units.length
  | .blank | .word _ | .failed => 0

/-- A character in a string emits no token, and adds one unit at most. -/
theorem Mode.Inside.step_spec (h : mode.Inside) (hc : c ≠ '"') :
    (step mode c).1 = [] ∧ (step mode c).2.Inside ∧
      (step mode c).2.count ≤ mode.count + 1 := by
  have hadd : ∀ (units : List ℕ) n, (Mode.literal (units ++ [n])).count ≤ units.length + 1 :=
    fun units n => List.length_append.le
  cases mode with
  | blank | word => exact h.elim
  | failed => exact ⟨rfl, trivial, Nat.zero_le _⟩
  | literal units =>
    rw [step]
    split_ifs
    · exact ⟨rfl, trivial, Nat.zero_le _⟩
    · exact ⟨rfl, trivial, Nat.le_succ _⟩
    · exact ⟨rfl, trivial, hadd _ _⟩
  | escape units =>
    rw [step]
    split_ifs
    · exact ⟨rfl, trivial, Nat.le_succ _⟩
    · cases escaped c with
      | some n => exact ⟨rfl, trivial, hadd _ _⟩
      | none => exact ⟨rfl, trivial, Nat.zero_le _⟩
  | unicode units digits =>
    rw [step]
    split_ifs
    · exact ⟨rfl, trivial, hadd _ _⟩
    · exact ⟨rfl, trivial, Nat.le_succ _⟩
    · exact ⟨rfl, trivial, Nat.zero_le _⟩

/-- A string goes on until the next quote. -/
theorem Mode.Inside.run_spec (h : mode.Inside) (hl : '"' ∉ l) :
    (run mode l).1 = [] ∧ (run mode l).2.Inside ∧
      (run mode l).2.count ≤ mode.count + l.length := by
  induction l generalizing mode with
  | nil => exact ⟨rfl, h, le_rfl⟩
  | cons c l ih =>
    obtain ⟨hc, hl⟩ := not_or.1 (mt List.mem_cons.2 hl)
    obtain ⟨htokens, hmode, hcount⟩ := h.step_spec (Ne.symm hc)
    obtain ⟨htokens', hmode', hcount'⟩ := ih hmode hl
    have hlength : mode.count + (c :: l).length = mode.count + 1 + l.length := by
      rw [List.length_cons]
      omega
    rw [run_cons, htokens, htokens', hlength]
    exact ⟨rfl, hmode', hcount'.trans (Nat.add_le_add_right hcount _)⟩

theorem Mode.Outside.step_plain (h : mode.Outside) (hc : c ≠ '"') : (step mode c).2.Outside := by
  have hbegin : (beginToken c).2.Outside := by
    unfold beginToken
    split_ifs
    · trivial
    · trivial
    · trivial
    · trivial
  cases mode with
  | literal | escape | unicode => exact h.elim
  | failed => exact trivial
  | blank => exact hbegin
  | word text =>
    rw [step]
    split_ifs
    · trivial
    · cases wordToken text with
      | some token => exact hbegin
      | none => exact trivial

theorem Mode.Outside.step_quote (h : mode.Outside) : (step mode '"').2.Misplaced := by
  cases mode with
  | literal | escape | unicode => exact h.elim
  | failed => exact trivial
  | blank => exact trivial
  | word text =>
    show (match wordToken text with
      | some token => (token :: (beginToken '"').1, (beginToken '"').2)
      | none => ([], Mode.failed)).2.Misplaced
    cases wordToken text with
    | some token => exact trivial
    | none => exact trivial

/-- A plain text in a string does not end it. -/
theorem Mode.Misplaced.run_plain (h : mode.Misplaced)
    (hl : ∀ c ∈ l, ¬ c < ' ' ∧ c ≠ '"' ∧ c ≠ '\\') : (run mode l).2.Misplaced := by
  refine mode_induct h fun m c hc hm => ?_
  obtain ⟨hcontrol, hquote, hbackslash⟩ := hl c hc
  cases m with
  | blank | word | escape | unicode => exact hm.elim
  | failed => exact trivial
  | literal units =>
    rw [step, if_neg hcontrol, if_neg hquote, if_neg hbackslash]
    trivial

/-- A quoted text in a string: its first quote ends the string, and its second one begins
    another. -/
theorem Mode.Misplaced.run_quoted (h : mode.Misplaced) (hs : '"' ∉ s) :
    (run mode ('"' :: s ++ ['"'])).2.Misplaced := by
  have hfirst : (step mode '"').2.Outside := by
    cases mode with
    | blank | word | escape | unicode => exact h.elim
    | failed | literal => exact trivial
  have hlast : (run (step mode '"').2 s).2.Outside :=
    mode_induct hfirst fun m c hc hm => hm.step_plain fun he => hs (he ▸ hc)
  rw [List.cons_append, run_cons, mode_append, run_singleton]
  exact hlast.step_quote

/-- **A quoted text** without a quote in it is a string, or leaves the lexer in the middle of
    one. -/
theorem run_quoted {s : String} (hs : '"' ∉ s.toList) :
    (∃ t, unescape s = some t ∧ run .blank ('"' :: s.toList ++ ['"']) = ([.string t], .blank)) ∨
      (unescape s = none ∧ (run .blank ('"' :: s.toList ++ ['"'])).2.Misplaced) := by
  have hinside : (Mode.literal []).Inside := trivial
  obtain ⟨htokens, hmode, -⟩ := hinside.run_spec hs
  have hrun : run .blank ('"' :: s.toList ++ ['"']) =
      step (run (.literal []) s.toList).2 '"' := by
    show run (.literal []) (s.toList ++ ['"']) = _
    rw [run_append, htokens, run_singleton]
    rfl
  rw [hrun]
  unfold unescape
  cases hend : (run (.literal []) s.toList).2 with
  | blank | word => exact (hend ▸ hmode).elim
  | literal units => exact .inl ⟨_, rfl, rfl⟩
  | escape units | unicode units digits | failed => exact .inr ⟨rfl, trivial⟩

/-! ## Texts that are their own content -/

theorem run_literal_plain (hl : ∀ c ∈ l, ¬ c < ' ' ∧ c ≠ '"' ∧ c ≠ '\\') :
    run (.literal units) l = ([], .literal (units ++ l.map Char.toNat)) := by
  induction l generalizing units with
  | nil => rw [List.map_nil, List.append_nil]; rfl
  | cons c l ih =>
    obtain ⟨⟨hcontrol, hquote, hbackslash⟩, hl⟩ := List.forall_mem_cons.1 hl
    have hstep : step (.literal units) c = ([], .literal (units ++ [c.toNat])) := by
      rw [step, if_neg hcontrol, if_neg hquote, if_neg hbackslash]
    rw [run_cons, hstep, ih hl, List.append_assoc]
    rfl

theorem unitChar_toNat (c : Char) : unitChar c.toNat = c := by
  unfold unitChar
  rw [if_pos (show c.toNat.isValidChar from c.valid), Char.ofNat_toNat]

theorem decodeUnits_toNat (l : List Char) : decodeUnits (l.map Char.toNat) = l := by
  have hnot : ∀ c : Char, isHighSurrogate c.toNat = false := by
    intro c
    have hv : c.toNat < 0xd800 ∨ 0xdfff < c.toNat ∧ c.toNat < 0x110000 := c.valid
    unfold isHighSurrogate
    rw [Bool.and_eq_false_iff, decide_eq_false_iff_not, decide_eq_false_iff_not]
    omega
  induction l with
  | nil => rfl
  | cons c l ih =>
    cases l with
    | nil => exact congrArg (· :: []) (unitChar_toNat c)
    | cons d l =>
      rw [List.map_cons] at ih
      rw [List.map_cons, List.map_cons, decodeUnits, hnot, Bool.false_and,
        if_neg Bool.false_ne_true, ih, unitChar_toNat]

theorem length_decodeUnits_le (units : List ℕ) : (decodeUnits units).length ≤ units.length := by
  induction units using decodeUnits.induct with
  | case1 => exact le_rfl
  | case2 n => exact le_rfl
  | case3 high low l hpair ih =>
    rw [decodeUnits, if_pos hpair]
    exact (Nat.succ_le_succ ih).trans (Nat.le_succ _)
  | case4 high low l hpair ih =>
    rw [decodeUnits, if_neg hpair]
    exact Nat.succ_le_succ ih

/-- A character of a string that is not plain costs more than the unit it adds. -/
theorem run_literal_cases (units : List ℕ) (hl : '"' ∉ l) : (∀ c ∈ l, ¬ c < ' ' ∧ c ≠ '\\') ∨
    (run (.literal units) l).2 = .failed ∨
      (run (.literal units) l).2.count < units.length + l.length := by
  induction l generalizing units with
  | nil => exact .inl fun _ h => nomatch h
  | cons c l ih =>
    obtain ⟨hc, hl⟩ := not_or.1 (mt List.mem_cons.2 hl)
    by_cases hcontrol : c < ' '
    · refine .inr (.inl ?_)
      rw [run_cons, step, if_pos hcontrol]
      exact mode_failed l
    by_cases hbackslash : c = '\\'
    · refine .inr (.inr ?_)
      rw [run_cons, step, if_neg hcontrol, if_neg (Ne.symm hc), if_pos hbackslash]
      have hinside : (Mode.escape units).Inside := trivial
      exact Nat.lt_succ_of_le (hinside.run_spec hl).2.2
    · rw [run_cons, step, if_neg hcontrol, if_neg (Ne.symm hc), if_neg hbackslash]
      rcases ih (units ++ [c.toNat]) hl with hplain | hfailed | hlt
      · exact .inl (List.forall_mem_cons.2 ⟨⟨hcontrol, hbackslash⟩, hplain⟩)
      · exact .inr (.inl hfailed)
      · refine .inr (.inr (hlt.trans_eq ?_))
        rw [List.length_append, List.length_singleton, List.length_cons]
        omega

/-- **A text is its own content** iff it has neither a backslash nor a control character. -/
theorem unescape_eq_self_iff {s : String} (hs : '"' ∉ s.toList) :
    unescape s = some s ↔ ∀ c ∈ s.toList, ¬ c < ' ' ∧ c ≠ '\\' := by
  constructor
  · intro h
    rcases run_literal_cases [] hs with hplain | hfailed | hlt
    · exact hplain
    · unfold unescape at h
      rw [hfailed] at h
      cases h
    · unfold unescape at h
      cases hend : (run (.literal []) s.toList).2 with
      | blank | word | escape | unicode | failed =>
        rw [hend] at h
        cases h
      | literal units =>
        rw [hend] at h hlt
        have hlist := congrArg String.toList (Option.some.inj h)
        have hle := length_decodeUnits_le units
        rw [String.toList_ofList] at hlist
        rw [hlist] at hle
        exact absurd (hle.trans_lt hlt) (by simp)
  · intro h
    have hplain : ∀ c ∈ s.toList, ¬ c < ' ' ∧ c ≠ '"' ∧ c ≠ '\\' := fun c hc =>
      ⟨(h c hc).1, fun he => hs (he ▸ hc), (h c hc).2⟩
    unfold unescape
    rw [run_literal_plain hplain, List.nil_append]
    show some (String.ofList (decodeUnits _)) = _
    rw [decodeUnits_toNat, String.ofList_toList]

end Json
