/-
  Texts of values, put together to the text of an array.

  A text without a quote in its strings may still end in the middle of a string, if a backslash
  stands before the quote that should end it.  From then on the quotes are taken the other way
  round, until an error or the end.

  * `readNumber_toString`: the text of an integer is read as this integer;
  * `Reads`: the text of a value is read as the value, or is misplaced;
  * `Reads.quoted`, `Reads.integer`, `Reads.array`: strings, integers, and arrays of such texts.
-/
import RollappExplorer.Json.Parser

namespace Json

variable {l text : List Char} {c : Char} {v : Option Value}

/-! ## Integers -/

/-- The digits of a number begin with a zero only if it is zero. -/
theorem wholePart_toDigits (n : ℕ) : wholePart (Nat.toDigits 10 n) = some n := by
  have hzero : ¬ ((Nat.toDigits 10 n).head? = some '0' ∧ (Nat.toDigits 10 n).length ≠ 1) := by
    rintro ⟨hhead, hlength⟩
    rcases Nat.eq_zero_or_pos n with rfl | hn
    · exact hlength rfl
    have hdrop := Go.dropWhile_eq_toDigits (Go.digitsValue_toDigits n) hn
    cases hl : Nat.toDigits 10 n with
    | nil => exact Nat.toDigits_ne_nil hl
    | cons c l =>
      rw [hl] at hhead hdrop
      obtain rfl : c = '0' := Option.some.inj hhead
      have hle := (List.dropWhile_sublist (l := l) fun c => decide (c = '0')).length_le
      rw [List.dropWhile_cons_of_pos (by simp)] at hdrop
      rw [hdrop, List.length_cons] at hle
      omega
  unfold wholePart
  rw [if_neg hzero, Go.digitsValue_toDigits]

theorem unsignedNumber_toDigits (n : ℕ) : unsignedNumber (Nat.toDigits 10 n) = some (n : ℚ) := by
  have hdigit : ∀ c ∈ Nat.toDigits 10 n, c.isDigit = true := fun c hc =>
    Nat.isDigit_of_mem_toDigits (by decide) (by decide) hc
  have hexponent : ∀ c ∈ Nat.toDigits 10 n, (!(c == 'e' || c == 'E')) = true := by
    intro c hc
    have hd := hdigit c hc
    by_cases he : c = 'e'
    · rw [he] at hd; cases hd
    by_cases hE : c = 'E'
    · rw [hE] at hd; cases hd
    · simp [he, hE]
  have hpoint : ∀ c ∈ Nat.toDigits 10 n, decide (c ≠ '.') = true := by
    intro c hc
    refine decide_eq_true fun he => ?_
    have hd := hdigit c hc
    rw [he] at hd
    cases hd
  unfold unsignedNumber
  simp only [List.takeWhile_eq_self_iff.2 hexponent, List.dropWhile_eq_nil_iff.2 hexponent,
    List.takeWhile_eq_self_iff.2 hpoint, List.dropWhile_eq_nil_iff.2 hpoint, wholePart_toDigits,
    fraction, exponent, Option.bind_eq_bind, Option.bind_some, add_zero, zpow_zero, mul_one]
  rfl

/-- **The text of an integer** is read as this integer. -/
theorem readNumber_toString (n : ℤ) : readNumber (toString n).toList = some (n : ℚ) := by
  rw [Go.toList_toString]
  split_ifs with hn
  · show (unsignedNumber _).map _ = _
    have habs : (n.natAbs : ℤ) = -n := by omega
    rw [unsignedNumber_toDigits, Option.map_some, ← Int.cast_natCast, habs, Int.cast_neg, neg_neg]
  · have habs : (n.natAbs : ℤ) = n := by omega
    unfold readNumber
    split
    case h_1 l hl =>
      have hdash : '-' ∈ Nat.toDigits 10 n.natAbs := hl ▸ List.mem_cons_self
      exact absurd (Nat.isDigit_of_mem_toDigits (by decide) (by decide) hdash) (by decide)
    case h_2 => rw [unsignedNumber_toDigits, ← Int.cast_natCast, habs]

/-! ## Words -/

theorem run_word {text : List Char} (hl : ∀ c ∈ l, isWordChar c = true) :
    run (.word text) l = ([], .word (text ++ l)) := by
  induction l generalizing text with
  | nil => rw [List.append_nil]; rfl
  | cons c l ih =>
    obtain ⟨hc, hl⟩ := List.forall_mem_cons.1 hl
    rw [run_cons, step, if_pos hc, ih hl, List.append_assoc]
    rfl

theorem isBlank_of_isWordChar (hc : isWordChar c = true) : isBlank c = false := by
  refine Bool.eq_false_iff.2 fun hb => ?_
  unfold isBlank at hb
  simp only [Bool.or_eq_true, beq_iff_eq] at hb
  rcases hb with ((rfl | rfl) | rfl) | rfl <;> revert hc <;> decide

theorem isPunct_of_isWordChar (hc : isWordChar c = true) : isPunct c = false := by
  refine Bool.eq_false_iff.2 fun hp => ?_
  unfold isPunct at hp
  simp only [Bool.or_eq_true, beq_iff_eq] at hp
  rcases hp with ((((rfl | rfl) | rfl) | rfl) | rfl) | rfl <;> revert hc <;> decide

/-- A character that ends a word. -/
def IsSeparator (c : Char) : Prop := c = ',' ∨ c = ']'

theorem IsSeparator.step (hc : IsSeparator c) : step .blank c = ([.punct c], .blank) := by
  rcases hc with rfl | rfl
  · rfl
  · rfl

theorem IsSeparator.plain (hc : IsSeparator c) : ¬ c < ' ' ∧ c ≠ '"' ∧ c ≠ '\\' := by
  rcases hc with rfl | rfl
  · decide
  · decide

/-- A word before a separator is a token of its own. -/
theorem run_wordToken {token : Token} (hne : l ≠ []) (hl : ∀ c ∈ l, isWordChar c = true)
    (ht : wordToken l = some token) (hc : IsSeparator c) :
    run .blank (l ++ [c]) = ([token, .punct c], .blank) := by
  have hnot : ¬ isWordChar c = true := by
    rcases hc with rfl | rfl
    · decide
    · decide
  cases l with
  | nil => exact absurd rfl hne
  | cons d l =>
    obtain ⟨hd, hl⟩ := List.forall_mem_cons.1 hl
    have hbegin : step .blank d = ([], .word [d]) := by
      show beginToken d = _
      unfold beginToken
      rw [isBlank_of_isWordChar hd, isPunct_of_isWordChar hd, if_neg Bool.false_ne_true,
        if_neg Bool.false_ne_true, if_pos hd]
    have hlast : step (.word (d :: l)) c = ([token, .punct c], .blank) := by
      rw [step, if_neg hnot, ht]
      show (token :: (step .blank c).1, (step .blank c).2) = _
      rw [hc.step]
    rw [List.cons_append, run_cons, hbegin, run_append_of (run_word hl), run_singleton]
    show ([] ++ ([] ++ (step (.word (d :: l)) c).1), (step (.word (d :: l)) c).2) = _
    rw [hlast]
    rfl

/-! ## Pieces -/

/-- The text before a separator is read as the value, or else it misplaces what comes after it.
    What is misplaced already stays so. -/
structure Reads (text : List Char) (v : Option Value) : Prop where
  value : ∀ a ∈ v, ∀ c, IsSeparator c →
    run .blank (text ++ [c]) = (a.tokens ++ [.punct c], .blank)
  misplaces : v = none → ∀ c, IsSeparator c → (run .blank (text ++ [c])).2.Misplaced
  misplaced : ∀ mode : Mode, mode.Misplaced → (run mode text).2.Misplaced

theorem Reads.quoted {s : String} (hs : '"' ∉ s.toList) :
    Reads ('"' :: s.toList ++ ['"']) ((unescape s).map .str) := by
  refine ⟨?_, ?_, fun mode hm => hm.run_quoted hs⟩
  · intro a ha c hc
    obtain ⟨t, ht, rfl⟩ := Option.map_eq_some_iff.1 ha
    rcases run_quoted hs with ⟨t', ht', hrun⟩ | ⟨hnone, -⟩
    · obtain rfl := Option.some.inj (ht.symm.trans ht')
      rw [run_append_of hrun, run_singleton, hc.step, Value.tokens]
    · rw [hnone] at ht
      cases ht
  · intro hnone c hc
    rcases run_quoted hs with ⟨t, ht, -⟩ | ⟨-, hm⟩
    · rw [ht] at hnone
      cases hnone
    · rw [mode_append]
      exact hm.run_plain fun d hd => List.mem_singleton.1 hd ▸ hc.plain

theorem Reads.integer (n : ℤ) : Reads (toString n).toList (some (.num n)) := by
  have hchars : ∀ c ∈ (toString n).toList,
      isWordChar c = true ∧ ¬ c < ' ' ∧ c ≠ '"' ∧ c ≠ '\\' := by
    intro c hc
    have hdigits : ∀ i < 10, isWordChar i.digitChar = true ∧ ¬ i.digitChar < ' ' ∧
        i.digitChar ≠ '"' ∧ i.digitChar ≠ '\\' := by decide
    rcases Go.mem_toString hc with hd | rfl
    · rw [← Go.digitChar_sub hd]
      exact hdigits _ (Go.digit_sub_lt hd)
    · decide
  refine ⟨?_, nofun, fun mode hm => hm.run_plain fun c hc => (hchars c hc).2⟩
  rintro a ha c hc
  obtain rfl := Option.some.inj ha
  have hne : (toString n).toList ≠ [] := by
    rw [Go.toList_toString]
    split_ifs
    · exact List.cons_ne_nil _ _
    · exact Nat.toDigits_ne_nil
  have hword : wordToken (toString n).toList = some (.number n) := by
    have hkey : ∀ word : List Char, (∃ c ∈ word, c.isDigit = false ∧ c ≠ '-') →
        (toString n).toList ≠ word := by
      rintro word ⟨c, hc, hdigit, hdash⟩ rfl
      rcases Go.mem_toString hc with hd | rfl
      · rw [hd] at hdigit
        cases hdigit
      · exact hdash rfl
    unfold wordToken
    rw [if_neg (hkey _ ⟨'t', by decide⟩), if_neg (hkey _ ⟨'f', by decide⟩),
      if_neg (hkey _ ⟨'n', by decide⟩), readNumber_toString]
    rfl
  rw [run_wordToken hne (fun c hc => (hchars c hc).1) hword hc, Value.tokens]
  rfl

/-! ## Arrays -/

theorem mapM_id_cons {values : List (Option Value)} {items : List Value} :
    (v :: values).mapM id = some items ↔
      ∃ a more, v = some a ∧ values.mapM id = some more ∧ items = a :: more := by
  rw [List.mapM_cons]
  constructor
  · intro h
    obtain ⟨a, ha, h⟩ := Option.bind_eq_some_iff.1 h
    obtain ⟨more, hmore, h⟩ := Option.bind_eq_some_iff.1 h
    exact ⟨a, more, ha, hmore, (Option.some.inj h).symm⟩
  · rintro ⟨a, more, rfl, hmore, rfl⟩
    rw [hmore]
    rfl

theorem mapM_id_eq_some_iff {values : List (Option Value)} {items : List Value} :
    values.mapM id = some items ↔ values = items.map some := by
  induction values generalizing items with
  | nil =>
    cases items with
    | nil => exact ⟨fun _ => rfl, fun _ => rfl⟩
    | cons a more => exact ⟨nofun, nofun⟩
  | cons v values ih =>
    rw [mapM_id_cons]
    constructor
    · rintro ⟨a, more, rfl, hmore, rfl⟩
      rw [ih.1 hmore, List.map_cons]
    · intro h
      cases items with
      | nil => cases h
      | cons a more =>
        obtain ⟨hv, hvalues⟩ := List.cons.inj h
        exact ⟨a, more, hv, ih.2 hvalues, rfl⟩

theorem intercalate_close (text text' : List Char) (texts : List (List Char)) :
    [','].intercalate (text :: text' :: texts) ++ [']'] =
      (text ++ [',']) ++ ([','].intercalate (text' :: texts) ++ [']']) := by
  rw [List.intercalate_cons_cons, List.append_assoc]

theorem Mode.Misplaced.run_separator {mode : Mode} {c : Char} (hm : mode.Misplaced)
    (hc : IsSeparator c) : (run mode [c]).2.Misplaced :=
  hm.run_plain fun _ hd => List.mem_singleton.1 hd ▸ hc.plain

/-- The items of an array behind its opening bracket, each with its value. -/
theorem run_items {texts : List (List Char)} {values : List (Option Value)} {a : Value}
    {more : List Value} (h : Reads text v) (hs : List.Forall₂ Reads texts values)
    (ha : v = some a) (hmore : values.mapM id = some more) :
    run .blank ([','].intercalate (text :: texts) ++ [']']) =
      (a.tokens ++ (moreItems more ++ [.punct ']']), .blank) := by
  induction hs generalizing text v a more with
  | nil =>
    obtain rfl := Option.some.inj hmore
    rw [List.intercalate_singleton]
    exact h.value a ha _ (.inr rfl)
  | @cons text' v' texts values h' hs ih =>
    obtain ⟨a', more', rfl, hmore', rfl⟩ := mapM_id_cons.1 hmore
    rw [intercalate_close, run_append_of (h.value a ha _ (.inl rfl)), ih h' rfl hmore', moreItems]
    simp

/-- Items behind a misplaced text. -/
theorem run_items_misplaced {texts : List (List Char)} {values : List (Option Value)} {mode : Mode}
    (h : Reads text v) (hs : List.Forall₂ Reads texts values) (hm : mode.Misplaced) :
    (run mode ([','].intercalate (text :: texts) ++ [']'])).2.Misplaced := by
  induction hs generalizing text v mode with
  | nil =>
    rw [List.intercalate_singleton, mode_append]
    exact (h.misplaced mode hm).run_separator (.inr rfl)
  | cons h' hs ih =>
    have hstart := (h.misplaced mode hm).run_separator (c := ',') (.inl rfl)
    rw [← mode_append] at hstart
    rw [intercalate_close, mode_append]
    exact ih h' hstart

/-- Items of which one has no value. -/
theorem run_items_misplaces {texts : List (List Char)} {values : List (Option Value)}
    (h : Reads text v) (hs : List.Forall₂ Reads texts values)
    (hnone : (v :: values).mapM id = none) :
    (run .blank ([','].intercalate (text :: texts) ++ [']'])).2.Misplaced := by
  induction hs generalizing text v with
  | nil =>
    rw [List.intercalate_singleton]
    refine h.misplaces ?_ _ (.inr rfl)
    cases v with
    | none => rfl
    | some a => cases hnone
  | @cons text' v' texts values h' hs ih =>
    rw [intercalate_close, mode_append]
    cases hv : v with
    | none => exact run_items_misplaced h' hs (h.misplaces hv _ (.inl rfl))
    | some a =>
      rw [h.value a hv _ (.inl rfl)]
      refine ih h' ?_
      cases hvalues : (v' :: values).mapM id with
      | none => rfl
      | some items =>
        rw [mapM_id_cons.2 ⟨a, items, hv, hvalues, rfl⟩] at hnone
        cases hnone

theorem Reads.array {texts : List (List Char)} {values : List (Option Value)}
    (h : List.Forall₂ Reads texts values) :
    Reads ('[' :: ([','].intercalate texts ++ [']'])) ((values.mapM id).map .arr) := by
  have hopen : ∀ mode : Mode, mode.Misplaced → (step mode '[').2.Misplaced := by
    intro mode hm
    have hrun := hm.run_plain (l := ['[']) fun d hd => by
      rw [List.mem_singleton.1 hd]
      decide
    rwa [run_singleton] at hrun
  cases h with
  | nil =>
    refine ⟨?_, nofun, fun mode hm => ?_⟩
    · rintro a ha c hc
      obtain rfl := Option.some.inj ha
      show run .blank (['[', ']'] ++ [c]) = _
      have hempty : run .blank ['[', ']'] = ((Value.arr []).tokens, .blank) := rfl
      rw [run_append_of hempty, run_singleton, hc.step]
      rfl
    · refine Mode.Misplaced.run_plain (l := ['[', ']']) hm fun d hd => ?_
      rcases List.mem_pair.1 hd with rfl | rfl
      · decide
      · decide
  | @cons text v texts values h hs =>
    refine ⟨?_, fun hnone c hc => ?_, fun mode hm => ?_⟩
    · rintro a ha c hc
      obtain ⟨items, hitems, rfl⟩ := Option.map_eq_some_iff.1 ha
      obtain ⟨a, more, hv, hmore, rfl⟩ := mapM_id_cons.1 hitems
      have hbegin : step .blank '[' = ([.punct '['], .blank) := rfl
      rw [List.cons_append, run_cons, hbegin, run_append_of (run_items h hs hv hmore),
        run_singleton, hc.step, Value.tokens]
      rfl
    · rw [List.cons_append, run_cons, mode_append]
      exact (run_items_misplaces h hs (Option.map_eq_none_iff.1 hnone)).run_separator hc
    · exact run_items_misplaced h hs (hopen mode hm)

end Json
