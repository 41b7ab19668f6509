/-
  The three-valued logic of SQL.

  A truth value is true, false or unknown (`NULL`), and a comparison with `NULL` is
  unknown; a `WHERE` clause keeps the rows, and an `IF` takes the branch, whose
  condition is true.

  * `passes_conj`, `passes_disj`: such a condition is read as one of two-valued logic.
-/
import Mathlib.Tactic.Common

namespace Sql

/-- A truth value; `none` is unknown. -/
abbrev Truth := Option Bool

variable {α : Type}

/-- `a AND b` -/
def Truth.and : Truth → Truth → Truth
  | some false, _ | _, some false => some false
  | some true, b => b
  | a, some true => a
  | none, none => none

/-- `a OR b` -/
def Truth.or : Truth → Truth → Truth
  | some true, _ | _, some true => some true
  | some false, b => b
  | a, some false => a
  | none, none => none

/-- A conjunction. -/
def conj (l : List Truth) : Truth := l.foldr Truth.and (some true)

/-- A disjunction. -/
def disj (l : List Truth) : Truth := l.foldr Truth.or (some false)

/-- The condition is true. -/
def Truth.passes (a : Truth) : Bool := a == some true

/-- A comparison of a nullable value. -/
def compare (p : α → Bool) (a : Option α) : Truth := a.map p

/-- `a IS NULL` -/
def isNull (a : Option α) : Truth := some a.isNone

/-- `a IS TRUE` -/
def isTrue (a : Truth) : Truth := some (a == some true)

/-- `a IS NOT TRUE` -/
def isNotTrue (a : Truth) : Truth := some (a != some true)

@[simp] theorem passes_and (a b : Truth) : (a.and b).passes = (a.passes && b.passes) := by
  rcases a with _ | _ | _ <;> rcases b with _ | _ | _ <;> rfl

@[simp] theorem passes_or (a b : Truth) : (a.or b).passes = (a.passes || b.passes) := by
  rcases a with _ | _ | _ <;> rcases b with _ | _ | _ <;> rfl

@[simp] theorem passes_conj (l : List Truth) : (conj l).passes = l.all Truth.passes := by
  induction l with
  | nil => rfl
  | cons a l ih =>
    show ((Truth.and a (conj l)).passes) = _
    rw [passes_and, ih, List.all_cons]

@[simp] theorem passes_disj (l : List Truth) : (disj l).passes = l.any Truth.passes := by
  induction l with
  | nil => rfl
  | cons a l ih =>
    show ((Truth.or a (disj l)).passes) = _
    rw [passes_or, ih, List.any_cons]

@[simp] theorem passes_compare (p : α → Bool) (a : Option α) :
    (compare p a).passes = a.any p := by
  cases a with
  | none => rfl
  | some a => cases h : p a <;> simp [compare, Truth.passes, h]

@[simp] theorem passes_isNull (a : Option α) : (isNull a).passes = a.isNone := by
  cases a <;> rfl

@[simp] theorem passes_isNotTrue (a : Truth) : (isNotTrue a).passes = (a != some true) := by
  rcases a with _ | _ | _ <;> rfl

end Sql
