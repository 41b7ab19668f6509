/-
  The greatest values of a column.

  `orderByDesc` is `ORDER BY … DESC`, `limit` is `LIMIT`.

  * `le_countP_of_not_mem_limit`: a value that is cut off by the limit `n` is smaller than
    `n` others.
-/
import Mathlib.Data.List.Sort

namespace Sql

variable {α : Type}

/-- `LIMIT n`; there is none if `n` is `NULL`. -/
def limit (n : Option ℤ) (l : List α) : List α :=
  match n with
  | none => l
  | some n => l.take n.toNat

theorem length_limit_le {n : ℤ} (hn : 0 ≤ n) (l : List α) :
    ((limit (some n) l).length : ℤ) ≤ n := by
  have hle : (l.take n.toNat).length ≤ n.toNat := List.length_take_le _ _
  show ((l.take n.toNat).length : ℤ) ≤ n
  omega

variable [LinearOrder α]

/-- `ORDER BY … DESC` -/
def orderByDesc (l : List α) : List α := l.insertionSort (· ≥ ·)

theorem orderByDesc_perm (l : List α) : (orderByDesc l).Perm l := List.perm_insertionSort _ l

theorem orderByDesc_pairwise (l : List α) : (orderByDesc l).Pairwise (· ≥ ·) :=
  List.pairwise_insertionSort _ l

/-- A value that is cut off is smaller than all that are not. -/
theorem lt_of_mem_limit {n : Option ℤ} {l : List α} {a b : α} (ha : a ∈ l)
    (hna : a ∉ limit n (orderByDesc l)) (hb : b ∈ limit n (orderByDesc l)) : a < b := by
  have hmem : a ∈ orderByDesc l := (orderByDesc_perm l).mem_iff.2 ha
  cases n with
  | none => exact absurd hmem hna
  | some n =>
    have hdrop : a ∈ (orderByDesc l).drop n.toNat := by
      rw [← List.take_append_drop n.toNat (orderByDesc l), List.mem_append] at hmem
      exact hmem.resolve_left hna
    have hsplit := orderByDesc_pairwise l
    rw [← List.take_append_drop n.toNat (orderByDesc l), List.pairwise_append] at hsplit
    refine lt_of_le_of_ne (hsplit.2.2 b hb a hdrop) ?_
    rintro rfl
    exact hna hb

/-- **What is cut off by a limit** is smaller than as many values as the limit says. -/
theorem le_countP_of_not_mem_limit {n : ℤ} {l : List α} {a : α} (ha : a ∈ l)
    (hna : a ∉ limit (some n) (orderByDesc l)) : n ≤ l.countP (a < ·) := by
  have hlt : n.toNat < (orderByDesc l).length := by
    by_contra hle
    refine hna ?_
    show a ∈ (orderByDesc l).take n.toNat
    rw [List.take_of_length_le (Nat.not_lt.1 hle)]
    exact (orderByDesc_perm l).mem_iff.2 ha
  have hall : ((orderByDesc l).take n.toNat).countP (a < ·) = n.toNat := by
    refine (List.countP_eq_length.2 fun b hb => ?_).trans ?_
    · exact decide_eq_true (lt_of_mem_limit ha hna hb)
    · rw [List.length_take, Nat.min_eq_left hlt.le]
  have hle : ((orderByDesc l).take n.toNat).countP (a < ·) ≤ l.countP (a < ·) := by
    rw [← (orderByDesc_perm l).countP_eq]
    exact (List.take_sublist _ _).countP_le
  omega

end Sql
