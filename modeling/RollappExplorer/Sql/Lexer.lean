/-
  The tokens of the text of a statement.

  The lexer is a state machine over the characters: key words, identifiers and numbers are
  words, string constants have doubled quotes, comments go to the end of their line, and every
  other character is a token.

  * `lex`: the tokens of a text, if it ends well;
  * `run_append`, `finish_run_eq`: texts are read piece by piece, and tokens are only added;
  * `run_word`, `run_literal`: how a word and a string constant are read;
  * `tokensWeight_le`: tokens take at least as many characters as they weigh;
  * `finish_run_nul`: a text with the character NUL has no tokens.
-/
import Mathlib.Data.List.Count
import Mathlib.Tactic.Common

namespace Sql

/-! ## Tokens -/

inductive Token where
  | word (text : List Char)
  | literal (value : List Char)
  | symbol (c : Char)
  deriving DecidableEq

/-- White space. -/
def isBlank (c : Char) : Bool := c == ' ' || ('\t' ≤ c && c ≤ '\r')

/-- The end of a line. -/
def isNewline (c : Char) : Bool := c == '\n' || c == '\r'

/-- A character of an identifier. -/
def isWordChar (c : Char) : Bool := c.isAlphanum || c == '_' || c == '$' || 128 ≤ c.toNat

/-! ## The machine -/

inductive Mode where
  | blank
  | word (text : List Char)
  | literal (value : List Char)
  /-- a quote in a string constant: its end, unless another quote follows -/
  | quote (value : List Char)
  /-- white space after a string constant, which goes on if there is a new line in it -/
  | gap (value : List Char) (newline : Bool)
  /-- a minus sign, or the beginning of a comment -/
  | dash
  | comment
  | failed
  deriving DecidableEq

/-- The tokens so far, and what is being read. -/
structure LexState where
  tokens : List Token
  mode : Mode
  deriving DecidableEq

/-- The first character of a token. -/
def beginToken (tokens : List Token) (c : Char) : LexState :=
  if c = '\x00' then ⟨tokens, .failed⟩
  else if isBlank c then ⟨tokens, .blank⟩
  else if isWordChar c then ⟨tokens, .word [c]⟩
  else if c = '\'' then ⟨tokens, .literal []⟩
  else if c = '-' then ⟨tokens, .dash⟩
  else ⟨tokens ++ [.symbol c], .blank⟩

def LexState.step : LexState → Char → LexState
  | ⟨tokens, .blank⟩, c => beginToken tokens c
  | ⟨tokens, .word text⟩, c =>
    if isWordChar c then ⟨tokens, .word (text ++ [c])⟩ else beginToken (tokens ++ [.word text]) c
  | ⟨tokens, .literal value⟩, c =>
    if c = '\x00' then ⟨tokens, .failed⟩
    else if c = '\'' then ⟨tokens, .quote value⟩
    else ⟨tokens, .literal (value ++ [c])⟩
  | ⟨tokens, .quote value⟩, c =>
    if c = '\'' then ⟨tokens, .literal (value ++ [c])⟩
    else if isBlank c then ⟨tokens, .gap value (isNewline c)⟩
    else beginToken (tokens ++ [.literal value]) c
  | ⟨tokens, .gap value newline⟩, c =>
    if isBlank c then ⟨tokens, .gap value (newline || isNewline c)⟩
    else if c = '\'' ∧ newline then ⟨tokens, .literal value⟩
    else beginToken (tokens ++ [.literal value]) c
  | ⟨tokens, .dash⟩, c =>
    if c = '-' then ⟨tokens, .comment⟩ else beginToken (tokens ++ [.symbol '-']) c
  | ⟨tokens, .comment⟩, c =>
    if c = '\x00' then ⟨tokens, .failed⟩
    else if isNewline c then ⟨tokens, .blank⟩
    else ⟨tokens, .comment⟩
  | ⟨tokens, .failed⟩, _ => ⟨tokens, .failed⟩

def LexState.run (s : LexState) (l : List Char) : LexState := l.foldl step s

/-- The tokens at the end of a text. -/
def LexState.finish : LexState → Option (List Token)
  | ⟨tokens, .blank⟩ | ⟨tokens, .comment⟩ => some tokens
  | ⟨tokens, .word text⟩ => some (tokens ++ [.word text])
  | ⟨tokens, .quote value⟩ | ⟨tokens, .gap value _⟩ => some (tokens ++ [.literal value])
  | ⟨tokens, .dash⟩ => some (tokens ++ [.symbol '-'])
  | ⟨_, .literal _⟩ | ⟨_, .failed⟩ => none

/-- The tokens of a text. -/
def lex (s : String) : Option (List Token) := LexState.finish (LexState.run ⟨[], .blank⟩ s.toList)

/-! ## Reading piece by piece -/

namespace LexState

variable {s : LexState} {tokens tokens' : List Token} {l l' text value : List Char} {c : Char}

theorem run_append (s : LexState) (l l' : List Char) : s.run (l ++ l') = (s.run l).run l' :=
  List.foldl_append

theorem run_append_of {s' : LexState} (h : s.run l = s') (l' : List Char) :
    s.run (l ++ l') = s'.run l' := by
  rw [run_append, h]

theorem run_cons (s : LexState) (c : Char) (l : List Char) : s.run (c :: l) = (s.step c).run l :=
  rfl

/-- A state after other tokens. -/
def prepend (tokens : List Token) (s : LexState) : LexState := ⟨tokens ++ s.tokens, s.mode⟩

theorem beginToken_prepend (tokens tokens' : List Token) (c : Char) :
    beginToken (tokens ++ tokens') c = (beginToken tokens' c).prepend tokens := by
  unfold beginToken prepend
  split_ifs <;> simp

theorem step_prepend (tokens : List Token) (s : LexState) (c : Char) :
    (s.prepend tokens).step c = (s.step c).prepend tokens := by
  obtain ⟨tokens', mode⟩ := s
  cases mode with
  | blank => exact beginToken_prepend _ _ _
  | failed => rfl
  | word text | dash =>
    show (if _ then _ else _) = prepend _ (if _ then _ else _)
    rw [List.append_assoc, beginToken_prepend]
    split_ifs <;> rfl
  | quote value | gap value newline =>
    show (if _ then _ else if _ then _ else _) = prepend _ (if _ then _ else if _ then _ else _)
    rw [List.append_assoc, beginToken_prepend]
    split_ifs <;> rfl
  | literal value | comment =>
    show (if _ then _ else if _ then _ else _) = prepend _ (if _ then _ else if _ then _ else _)
    split_ifs <;> rfl

/-- The tokens before are not looked at. -/
theorem run_prepend (tokens : List Token) (s : LexState) (l : List Char) :
    (s.prepend tokens).run l = (s.run l).prepend tokens := by
  induction l generalizing s with
  | nil => rfl
  | cons c l ih => rw [run_cons, step_prepend, ih, run_cons]

theorem finish_prepend (tokens : List Token) (s : LexState) :
    (s.prepend tokens).finish = s.finish.map (tokens ++ ·) := by
  obtain ⟨tokens', mode⟩ := s
  cases mode <;> simp [finish, prepend]

theorem eq_prepend (tokens : List Token) (mode : Mode) :
    (⟨tokens, mode⟩ : LexState) = prepend tokens ⟨[], mode⟩ := by
  rw [prepend, List.append_nil]

/-- **Tokens are only added.** -/
theorem finish_run_eq {mode : Mode} (h : (run ⟨tokens, mode⟩ l).finish = some tokens') :
    ∃ more, (run ⟨[], mode⟩ l).finish = some more ∧ tokens' = tokens ++ more := by
  rw [eq_prepend, run_prepend, finish_prepend, Option.map_eq_some_iff] at h
  obtain ⟨more, hmore, rfl⟩ := h
  exact ⟨more, hmore, rfl⟩

/-- A text that has been read without tokens before is read in the same way after some. -/
theorem run_of_nil {mode mode' : Mode} {more : List Token} (h : run ⟨[], mode⟩ l = ⟨more, mode'⟩)
    (tokens : List Token) : run ⟨tokens, mode⟩ l = ⟨tokens ++ more, mode'⟩ := by
  rw [eq_prepend, run_prepend, h]
  rfl

/-! ## Words and string constants -/

theorem run_word_chars (h : ∀ c ∈ l, isWordChar c = true) :
    run ⟨tokens, .word text⟩ l = ⟨tokens, .word (text ++ l)⟩ := by
  induction l generalizing text with
  | nil => rw [List.append_nil]; rfl
  | cons c l ih =>
    obtain ⟨hc, hl⟩ := List.forall_mem_cons.1 h
    show run (if _ then _ else _) l = _
    rw [if_pos hc, ih hl, List.append_assoc, List.singleton_append]

theorem le_of_isAlphanum (h : c.isAlphanum = true) : 48 ≤ c.toNat := by
  have hcases : ((c.isUpper || c.isLower) || c.isDigit) = true := h
  rw [Bool.or_eq_true, Bool.or_eq_true] at hcases
  rcases hcases with (hupper | hlower) | hdigit
  · exact Nat.le_trans (by decide) (show 65 ≤ c.toNat from (of_decide_eq_true hupper).1)
  · have hlow := of_decide_eq_true (Bool.and_eq_true_iff.1 hlower).1
    exact Nat.le_trans (by decide) (show 97 ≤ c.toNat from hlow)
  · exact (Char.isDigit_iff_toNat.1 hdigit).1

theorem dollar_le_of_isWordChar (h : isWordChar c = true) : 36 ≤ c.toNat := by
  unfold isWordChar at h
  rw [Bool.or_eq_true, Bool.or_eq_true, Bool.or_eq_true] at h
  rcases h with ((h | h) | h) | h
  · exact Nat.le_trans (by decide) (le_of_isAlphanum h)
  · rw [eq_of_beq h]
    decide
  · rw [eq_of_beq h]
    decide
  · exact Nat.le_trans (by decide) (of_decide_eq_true h)

/-- A character of a word is neither NUL nor white space. -/
theorem of_isWordChar (h : isWordChar c = true) : c ≠ '\x00' ∧ isBlank c = false := by
  have hle := dollar_le_of_isWordChar h
  constructor
  · rintro rfl
    exact absurd hle (by decide)
  · have hspace : c ≠ ' ' := by
      rintro rfl
      exact absurd hle (by decide)
    have hreturn : ¬ c ≤ '\r' := fun hcr =>
      absurd (Nat.le_trans hle (show c.toNat ≤ 13 from hcr)) (by decide)
    simp [isBlank, hspace, hreturn]

/-- **A word** is read up to a blank. -/
theorem run_word (hne : l ≠ []) (h : ∀ c ∈ l, isWordChar c = true) :
    run ⟨tokens, .blank⟩ (l ++ [' ']) = ⟨tokens ++ [.word l], .blank⟩ := by
  cases l with
  | nil => exact absurd rfl hne
  | cons c l =>
    obtain ⟨hc, hl⟩ := List.forall_mem_cons.1 h
    obtain ⟨hnul, hblank⟩ := of_isWordChar hc
    have hbegin : step ⟨tokens, .blank⟩ c = ⟨tokens, .word [c]⟩ := by
      show beginToken tokens c = _
      rw [beginToken, if_neg hnul, hblank, if_neg Bool.false_ne_true, if_pos hc]
    rw [List.cons_append, run_cons, hbegin, run_append, run_word_chars hl]
    rfl

/-- **A string constant** is read up to a character that cannot go on with it. -/
theorem run_literal (h : ∀ c ∈ l, c ≠ '\'' ∧ c ≠ '\x00') :
    run ⟨tokens, .literal value⟩ (l ++ ['\'']) = ⟨tokens, .quote (value ++ l)⟩ := by
  induction l generalizing value with
  | nil => rw [List.append_nil]; rfl
  | cons c l ih =>
    obtain ⟨⟨hquote, hnul⟩, hl⟩ := List.forall_mem_cons.1 h
    rw [List.cons_append, run_cons]
    show run (if _ then _ else if _ then _ else _) _ = _
    rw [if_neg hnul, if_neg hquote, ih hl, List.append_assoc, List.singleton_append]

/-! ## Weights -/

/-- The characters that a string constant takes, less the first quote. -/
def literalWeight (value : List Char) : ℕ := value.length + value.count '\''

/-- The characters that a token takes at least. -/
def tokenWeight : Token → ℕ
  | .word text => text.length
  | .literal value => literalWeight value + 1
  | .symbol _ => 1

def tokensWeight : List Token → ℕ
  | [] => 0
  | token :: tokens => tokenWeight token + tokensWeight tokens

def modeWeight : Mode → ℕ
  | .blank | .comment | .failed => 0
  | .word text => text.length
  | .literal value => literalWeight value
  | .quote value | .gap value _ => literalWeight value + 1
  | .dash => 1

def weight (s : LexState) : ℕ := tokensWeight s.tokens + modeWeight s.mode

theorem tokensWeight_append (tokens tokens' : List Token) :
    tokensWeight (tokens ++ tokens') = tokensWeight tokens + tokensWeight tokens' := by
  induction tokens with
  | nil => simp [tokensWeight]
  | cons token tokens ih => rw [List.cons_append, tokensWeight, tokensWeight, ih, Nat.add_assoc]

theorem literalWeight_concat (value : List Char) (c : Char) :
    literalWeight (value ++ [c]) = literalWeight value + if c = '\'' then 2 else 1 := by
  unfold literalWeight
  rw [List.length_append, List.count_append, List.count_singleton]
  split_ifs <;> simp_all <;> omega

theorem weight_beginToken_le (tokens : List Token) (c : Char) :
    weight (beginToken tokens c) ≤ tokensWeight tokens + 1 := by
  unfold beginToken weight
  split_ifs <;> simp [modeWeight, tokensWeight_append, tokensWeight, tokenWeight, literalWeight]

/-- A character adds at most one to the weight. -/
theorem weight_step_le (s : LexState) (c : Char) : (s.step c).weight ≤ s.weight + 1 := by
  obtain ⟨tokens, mode⟩ := s
  have hafter : ∀ token, (beginToken (tokens ++ [token]) c).weight ≤
      tokensWeight tokens + tokenWeight token + 1 := by
    intro token
    have hbegin := weight_beginToken_le (tokens ++ [token]) c
    rwa [tokensWeight_append, tokensWeight, tokensWeight, Nat.add_zero] at hbegin
  cases mode with
  | blank => exact weight_beginToken_le tokens c
  | failed => exact Nat.le_succ _
  | word text =>
    show weight (if _ then _ else _) ≤ tokensWeight tokens + text.length + 1
    split_ifs
    · simp [weight, modeWeight, Nat.add_assoc]
    · exact hafter (.word text)
  | literal value =>
    show weight (if _ then _ else if _ then _ else _) ≤
      tokensWeight tokens + literalWeight value + 1
    split_ifs with hnul hquote
    · simp [weight, modeWeight, Nat.add_assoc]
    · exact Nat.le_refl _
    · show tokensWeight tokens + literalWeight (value ++ [c]) ≤ _
      rw [literalWeight_concat, if_neg hquote]
      omega
  | quote value =>
    show weight (if _ then _ else if _ then _ else _) ≤
      tokensWeight tokens + (literalWeight value + 1) + 1
    split_ifs with hquote
    · show tokensWeight tokens + literalWeight (value ++ [c]) ≤ _
      rw [literalWeight_concat, if_pos hquote]
      omega
    · exact Nat.le_succ _
    · exact hafter (.literal value)
  | gap value newline =>
    show weight (if _ then _ else if _ then _ else _) ≤
      tokensWeight tokens + (literalWeight value + 1) + 1
    split_ifs
    · exact Nat.le_succ _
    · show tokensWeight tokens + literalWeight value ≤ _
      omega
    · exact hafter (.literal value)
  | dash =>
    show weight (if _ then _ else _) ≤ tokensWeight tokens + 1 + 1
    split_ifs
    · show tokensWeight tokens + 0 ≤ _
      omega
    · exact hafter (.symbol '-')
  | comment =>
    show weight (if _ then _ else if _ then _ else _) ≤ tokensWeight tokens + 0 + 1
    split_ifs <;> exact Nat.le_succ _

theorem weight_run_le (s : LexState) (l : List Char) : (s.run l).weight ≤ s.weight + l.length := by
  induction l generalizing s with
  | nil => exact Nat.le_refl _
  | cons c l ih =>
    have hstep := weight_step_le s c
    have hrun := ih (s.step c)
    rw [run_cons, List.length_cons]
    omega

theorem weight_of_finish (h : s.finish = some tokens) : tokensWeight tokens ≤ s.weight := by
  obtain ⟨tokens', mode⟩ := s
  cases mode with
  | literal value | failed => cases h
  | blank | comment =>
    obtain rfl := Option.some.inj h
    exact Nat.le_refl _
  | word text | quote value | gap value newline | dash =>
    obtain rfl := Option.some.inj h
    rw [tokensWeight_append]
    exact Nat.le_refl _

/-- **A string constant takes its characters,** a quote twice. -/
theorem tokensWeight_le {more : List Token} (h : (run ⟨[], .literal []⟩ l).finish = some more) :
    tokensWeight more ≤ l.length := by
  have hfinish := weight_of_finish h
  have hrun := weight_run_le ⟨[], .literal []⟩ l
  have hzero : weight ⟨[], .literal []⟩ = 0 := rfl
  omega

/-! ## The character NUL -/

theorem beginToken_nul (tokens : List Token) : (beginToken tokens '\x00').mode = .failed := by
  rw [beginToken, if_pos rfl]

theorem step_nul (s : LexState) : (s.step '\x00').mode = .failed := by
  obtain ⟨tokens, mode⟩ := s
  cases mode with
  | failed => rfl
  | literal value | comment => rfl
  | blank | word text | quote value | gap value newline | dash => exact beginToken_nul _

theorem run_failed (h : s.mode = .failed) (l : List Char) : s.run l = s := by
  obtain ⟨tokens, mode⟩ := s
  obtain rfl : mode = .failed := h
  induction l with
  | nil => rfl
  | cons c l ih => exact ih

/-- **A text with the character NUL** is not a statement. -/
theorem finish_run_nul (s : LexState) (h : '\x00' ∈ l) : (s.run l).finish = none := by
  obtain ⟨before, after, rfl⟩ := List.append_of_mem h
  rw [run_append, run_cons, run_failed (step_nul _)]
  have hfailed := step_nul (s.run before)
  generalize (s.run before).step '\x00' = s' at hfailed
  obtain ⟨tokens, mode⟩ := s'
  obtain rfl : mode = .failed := hfailed
  rfl

end LexState

end Sql
