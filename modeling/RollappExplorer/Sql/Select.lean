/-
  `SELECT` of joined rows by a condition that may fail.

  * `integer`: a value of the type `INT`; `castInteger`: the cast of a text;
  * `leftJoin`: `LEFT JOIN … ON`; `selectWhere`: the rows that a `WHERE` clause keeps;
  * `exists_selectWhere_iff`: when no row makes the condition fail;
  * `mem_selectWhere`: which rows are kept;
  * `castInteger_toString_ok_iff`: the cast of a decimal numeral is its value.
-/
import RollappExplorer.Go.Error
import RollappExplorer.Go.Numerals
import RollappExplorer.Sql.Lexer
import RollappExplorer.Sql.Logic

namespace Sql

open Go

/-! ## Integers -/

/-- A value of the type `INT`. -/
def integer (n : ℤ) : Except Error ℤ := do
  failIf (n < -2147483648 ∨ 2147483647 < n) "integer out of range"
  return n

/-- The cast of a text to `INT`: an optional sign and decimal digits, with white space around. -/
def castInteger (s : String) : Except Error ℤ :=
  match parseInt64 (String.ofList ((s.toList.dropWhile isBlank).rdropWhile isBlank)) with
  | none => .error s!"invalid input syntax for type integer: \"{s}\""
  | some n => integer n

theorem integer_ok_iff {n m : ℤ} :
    integer n = .ok m ↔ m = n ∧ -2147483648 ≤ n ∧ n ≤ 2147483647 := by
  rw [integer, bind_unit_ok_iff, failIf_ok_iff, not_or, Int.not_lt, Int.not_lt]
  constructor
  · rintro ⟨hrange, h⟩
    exact ⟨(Except.ok.inj h).symm, hrange⟩
  · rintro ⟨rfl, hrange⟩
    exact ⟨hrange, rfl⟩

/-- A character of a numeral is not white space. -/
theorem isBlank_of_mem_toString {c : Char} (h : c.isDigit = true ∨ c = '-') :
    isBlank c = false := by
  rcases h with h | rfl
  · have hword : isWordChar c = true := by simp [isWordChar, Char.isAlphanum, h]
    exact (LexState.of_isWordChar hword).2
  · rfl

/-- **The cast of a decimal numeral** is its value, if that is an `INT`. -/
theorem castInteger_toString_ok_iff {n m : ℤ} :
    castInteger (toString n) = .ok m ↔ m = n ∧ -2147483648 ≤ n ∧ n ≤ 2147483647 := by
  have hblank : ∀ c ∈ (toString n).toList, isBlank c = false := fun c hc =>
    isBlank_of_mem_toString (mem_toString hc)
  have hleft : (toString n).toList.dropWhile isBlank = (toString n).toList := by
    refine List.dropWhile_eq_self_iff.2 fun hlt => ?_
    rw [hblank _ (List.getElem_mem hlt)]
    exact Bool.false_ne_true
  have hright : (toString n).toList.rdropWhile isBlank = (toString n).toList := by
    refine List.rdropWhile_eq_self_iff.2 fun hne => ?_
    rw [hblank _ (List.getLast_mem hne)]
    exact Bool.false_ne_true
  rw [castInteger, hleft, hright, String.ofList_toList, parseInt64_toString]
  split_ifs with hrange
  · exact integer_ok_iff
  · exact iff_of_false (fun h => by cases h) fun h => hrange (by omega)

/-! ## Joins -/

variable {α β : Type}

/-- `LEFT JOIN … ON`: a row without a match is joined with `NULL`. -/
def leftJoin (on : α → β → Truth) (rows : List α) (others : List β) : List (α × Option β) :=
  rows.flatMap fun row =>
    let matching := others.filter fun other => (on row other).passes
    if matching = [] then [(row, none)] else matching.map fun other => (row, some other)

theorem mem_leftJoin {on : α → β → Truth} {rows : List α} {others : List β} {row : α}
    {other : β} : (row, some other) ∈ leftJoin on rows others ↔
      row ∈ rows ∧ other ∈ others ∧ (on row other).passes = true := by
  have hrow : ∀ row' : α, (row, some other) ∈
      (let matching := others.filter fun other => (on row' other).passes
       if matching = [] then [(row', none)] else matching.map fun other => (row', some other)) ↔
      row' = row ∧ other ∈ others ∧ (on row other).passes = true := by
    intro row'
    rw [← List.mem_filter (p := fun other => (on row other).passes)]
    constructor
    · intro h
      dsimp only at h
      split_ifs at h
      · cases List.mem_singleton.1 h
      · obtain ⟨other', hm, he⟩ := List.mem_map.1 h
        obtain ⟨rfl, hother⟩ := Prod.mk.inj he
        exact ⟨rfl, Option.some.inj hother ▸ hm⟩
    · rintro ⟨rfl, hm⟩
      dsimp only
      rw [if_neg (List.ne_nil_of_mem hm)]
      exact List.mem_map.2 ⟨other, hm, rfl⟩
  unfold leftJoin
  rw [List.mem_flatMap]
  constructor
  · rintro ⟨row', hm, h⟩
    obtain ⟨rfl, h⟩ := (hrow row').1 h
    exact ⟨hm, h⟩
  · rintro ⟨hm, h⟩
    exact ⟨row, hm, (hrow row).2 ⟨rfl, h⟩⟩

/-! ## Conditions that may fail -/

/-- `WHERE`: the rows that the condition is true of. -/
def selectWhere (condition : α → Except Error Truth) : List α → Except Error (List α)
  | [] => .ok []
  | row :: rows => do
    let truth ← condition row
    let selected ← selectWhere condition rows
    return if truth.passes then row :: selected else selected

section
variable {condition : α → Except Error Truth} {rows selected : List α}

/-- A query succeeds iff the condition fails for no row. -/
theorem exists_selectWhere_iff : (∃ selected, selectWhere condition rows = .ok selected) ↔
    ∀ row ∈ rows, ∃ truth, condition row = .ok truth := by
  induction rows with
  | nil => exact ⟨fun _ _ h => absurd h List.not_mem_nil, fun _ => ⟨[], rfl⟩⟩
  | cons row rows ih =>
    rw [List.forall_mem_cons, ← ih]
    constructor
    · rintro ⟨selected, h⟩
      obtain ⟨truth, htruth, h⟩ := bind_ok_iff.1 h
      obtain ⟨selected', hselected, -⟩ := bind_ok_iff.1 h
      exact ⟨⟨truth, htruth⟩, selected', hselected⟩
    · rintro ⟨⟨truth, htruth⟩, selected, hselected⟩
      rw [selectWhere, htruth, ok_bind, hselected]
      exact ⟨_, rfl⟩

/-- **The rows of a query** are those that the condition is true of. -/
theorem mem_selectWhere (h : selectWhere condition rows = .ok selected) {row : α} :
    row ∈ selected ↔ row ∈ rows ∧ ∃ truth, condition row = .ok truth ∧ truth.passes = true := by
  induction rows generalizing selected with
  | nil =>
    obtain rfl : [] = selected := Except.ok.inj h
    simp
  | cons row' rows ih =>
    obtain ⟨truth, htruth, h⟩ := bind_ok_iff.1 h
    obtain ⟨selected', hselected, h⟩ := bind_ok_iff.1 h
    obtain rfl := (Except.ok.inj h).symm
    by_cases hpasses : truth.passes = true
    · rw [if_pos hpasses, List.mem_cons, List.mem_cons, ih hselected, or_and_right]
      refine or_congr_left ⟨?_, And.left⟩
      rintro rfl
      exact ⟨rfl, truth, htruth, hpasses⟩
    · rw [if_neg hpasses, List.mem_cons, ih hselected, or_and_right]
      refine (or_iff_right ?_).symm
      rintro ⟨rfl, truth', htruth', hpasses'⟩
      exact hpasses (Except.ok.inj (htruth.symm.trans htruth') ▸ hpasses')

end

end Sql
