/-
  The functions of Go's packages `strings` and `strconv` the program uses, on
  strings of Unicode text.

  * `toLower`, `toUpper`, `trimSpace`, `contains`, `split`: package `strings`;
    `len` is the number of bytes of a string;
  * `parseInt64`: `strconv.ParseInt` in base 10 for 64 bits;
  * `toLower_trimSpace_idem`: trimming and lower-casing is a normal form.
-/
import Mathlib.Algebra.Group.Nat.Defs
import Mathlib.Data.List.DropRight
import Mathlib.Data.List.Infix
import Mathlib.Tactic.Common
import RollappExplorer.Go.Unicode

namespace Go

/-- `len(s)`, in bytes. -/
def len (s : String) : ℕ := s.utf8ByteSize

/-- `strings.ToLower`. -/
def toLower (s : String) : String := String.ofList (s.toList.map toLowerRune)

/-- `strings.ToUpper`. -/
def toUpper (s : String) : String := String.ofList (s.toList.map toUpperRune)

/-- The text of `strings.TrimSpace`. -/
def trim (l : List Char) : List Char := (l.dropWhile isSpace).rdropWhile isSpace

/-- `strings.TrimSpace`. -/
def trimSpace (s : String) : String := String.ofList (trim s.toList)

/-- `strings.Contains`. -/
def contains (s sub : String) : Bool := decide (sub.toList <:+: s.toList)

/-- `strings.Split` for a separator of one character. -/
def split (s : String) (sep : Char) : List String := (s.toList.splitOn sep).map String.ofList

/-! ## `strconv.ParseInt(s, 10, 64)` -/

/-- The value of a non-empty list of decimal digits. -/
def digitsValue (l : List Char) : Option ℕ :=
  if l ≠ [] ∧ l.all Char.isDigit then
    some (l.foldl (fun n c => 10 * n + (c.toNat - '0'.toNat)) 0)
  else none

/-- `strconv.ParseInt(s, 10, 64)`: an optional sign and decimal digits, in the
    range of `int64`. -/
def parseInt64 (s : String) : Option ℤ :=
  match s.toList with
  | '-' :: l => (digitsValue l).bind fun n => if n ≤ 2 ^ 63 then some (-(n : ℤ)) else none
  | '+' :: l => (digitsValue l).bind fun n => if n < 2 ^ 63 then some (n : ℤ) else none
  | l => (digitsValue l).bind fun n => if n < 2 ^ 63 then some (n : ℤ) else none

/-- Every character takes at least one byte. -/
theorem length_le_len (l : List Char) : l.length ≤ len (String.ofList l) := by
  induction l with
  | nil => exact Nat.zero_le _
  | cons c l ih =>
    have hc : 0 < c.utf8Size := c.utf8Size_pos
    rw [String.ofList_cons, len, String.utf8ByteSize_append, String.utf8ByteSize_singleton,
      List.length_cons]
    unfold len at ih
    omega

/-- What stands in front of the first separator, and what follows it. -/
theorem append_separator_inj {α : Type} {sep : α} {l l' r r' : List α} (hl : sep ∉ l)
    (hl' : sep ∉ l') (h : l ++ sep :: r = l' ++ sep :: r') : l = l' ∧ r = r' := by
  induction l generalizing l' with
  | nil =>
    cases l' with
    | nil => exact ⟨rfl, (List.cons.inj h).2⟩
    | cons a l' => exact absurd ((List.cons.inj h).1 ▸ List.mem_cons_self) hl'
  | cons a l ih =>
    cases l' with
    | nil => exact absurd ((List.cons.inj h).1 ▸ List.mem_cons_self) hl
    | cons b l' =>
      obtain ⟨rfl, htail⟩ := List.cons.inj h
      obtain ⟨rfl, hr⟩ := ih (mt (List.mem_cons_of_mem _) hl)
        (mt (List.mem_cons_of_mem _) hl') htail
      exact ⟨rfl, hr⟩

/-! ## Normal forms -/

@[simp] theorem toList_toLower (s : String) : (toLower s).toList = s.toList.map toLowerRune :=
  String.toList_ofList

@[simp] theorem toList_trimSpace (s : String) : (trimSpace s).toList = trim s.toList :=
  String.toList_ofList

theorem trim_sublist (l : List Char) : (trim l).Sublist l :=
  (List.rdropWhile_prefix _ _).sublist.trans (List.dropWhile_sublist _)

/-- Trimming keeps every character that is not white space. -/
theorem mem_trim {l : List Char} {c : Char} (hc : c ∈ l) (hs : isSpace c = false) :
    c ∈ trim l := by
  have hdrop : ∀ l : List Char, c ∈ l → c ∈ l.dropWhile isSpace := by
    intro l
    induction l with
    | nil => intro h; exact h
    | cons d l ih =>
      intro h
      rw [List.dropWhile_cons]
      split_ifs with hd
      · rcases List.mem_cons.1 h with rfl | h
        · rw [hs] at hd; cases hd
        · exact ih h
      · exact h
  rw [trim, List.rdropWhile, List.mem_reverse]
  exact hdrop _ (List.mem_reverse.2 (hdrop l hc))

/-- A trimmed text neither begins nor ends with white space. -/
theorem trim_ends (l : List Char) :
    (∀ c ∈ (trim l).head?, isSpace c = false) ∧ ∀ c ∈ (trim l).getLast?, isSpace c = false := by
  have hhead : ∀ c ∈ (l.dropWhile isSpace).head?, isSpace c = false := by
    intro c hc
    have h := List.head?_dropWhile_not isSpace l
    rw [Option.mem_def] at hc
    rw [hc] at h
    simpa using h
  refine ⟨fun c hc => hhead c ?_, fun c hc => ?_⟩
  · -- a non-empty prefix begins with the same character
    obtain ⟨r, hr⟩ := List.rdropWhile_prefix isSpace (l.dropWhile isSpace)
    rw [Option.mem_def] at hc ⊢
    rw [← hr, List.head?_append,
      show ((l.dropWhile isSpace).rdropWhile isSpace).head? = some c from hc]
    rfl
  · have hne : trim l ≠ [] := by rintro h; simp [h] at hc
    have h := List.rdropWhile_last_not isSpace (l.dropWhile isSpace) hne
    rw [Option.mem_def, List.getLast?_eq_some_getLast hne, Option.some.injEq] at hc
    rw [← hc]
    simpa [trim] using h

/-- A text that neither begins nor ends with white space is trimmed. -/
theorem trim_eq_self {l : List Char} (hh : ∀ c ∈ l.head?, isSpace c = false)
    (hl : ∀ c ∈ l.getLast?, isSpace c = false) : trim l = l := by
  have h₁ : l.dropWhile isSpace = l := by
    cases l with
    | nil => rfl
    | cons c l => simp [hh c rfl]
  rw [trim, h₁, List.rdropWhile_eq_self_iff]
  intro hne
  simp [hl _ (by rw [Option.mem_def, List.getLast?_eq_some_getLast hne])]

/-- White space around a trimmed text is trimmed. -/
theorem trim_append {pre l post : List Char} (hpre : ∀ c ∈ pre, isSpace c = true)
    (hpost : ∀ c ∈ post, isSpace c = true) (hh : ∀ c ∈ l.head?, isSpace c = false)
    (hl : ∀ c ∈ l.getLast?, isSpace c = false) : trim (pre ++ l ++ post) = l := by
  rw [trim, List.append_assoc, List.dropWhile_append_of_pos hpre]
  cases l with
  | nil =>
    have hnil : post.dropWhile isSpace = [] := List.dropWhile_eq_nil_iff.2 hpost
    rw [List.nil_append, hnil, List.rdropWhile_nil]
  | cons c l =>
    have hself : (c :: l).rdropWhile isSpace = c :: l := by
      have h := trim_eq_self hh hl
      rwa [trim, List.dropWhile_cons_of_neg (by simp [hh c rfl])] at h
    have hrev : ∀ c ∈ post.reverse, isSpace c = true := fun c hc => hpost c (List.mem_reverse.1 hc)
    rw [List.cons_append, List.dropWhile_cons_of_neg (by simp [hh c rfl]), ← List.cons_append,
      List.rdropWhile, List.reverse_append, List.dropWhile_append_of_pos hrev]
    exact hself

/-- Lower-casing a trimmed text leaves nothing to trim. -/
theorem trimSpace_toLower_trimSpace (s : String) :
    trimSpace (toLower (trimSpace s)) = toLower (trimSpace s) := by
  apply String.toList_injective
  simp only [toList_toLower, toList_trimSpace]
  obtain ⟨hh, hl⟩ := trim_ends s.toList
  refine trim_eq_self (fun c hc => ?_) (fun c hc => ?_)
  · rw [List.head?_map, Option.mem_def, Option.map_eq_some_iff] at hc
    obtain ⟨d, hd, rfl⟩ := hc
    rw [isSpace_toLowerRune]; exact hh d hd
  · rw [List.getLast?_map, Option.mem_def, Option.map_eq_some_iff] at hc
    obtain ⟨d, hd, rfl⟩ := hc
    rw [isSpace_toLowerRune]; exact hl d hd

/-- **Trimming and lower-casing a normal form changes nothing.** -/
theorem toLower_trimSpace_idem (s : String) :
    toLower (trimSpace (toLower (trimSpace s))) = toLower (trimSpace s) := by
  rw [trimSpace_toLower_trimSpace]
  apply String.toList_injective
  simp only [toList_toLower, List.map_map]
  exact List.map_congr_left fun c _ => toLowerRune_idem c

end Go
