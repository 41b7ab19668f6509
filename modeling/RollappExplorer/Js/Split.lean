/-
  Splitting a text by a regular expression with a group (`String.prototype.split`).

  The expression is a sequence of classes of characters, a group of one or more characters of a
  class, and a sequence of classes again, the first of which has no character of the group.  So
  its matches at a position are determined by the text.

  * `Pattern`: such an expression; `exec_eq_some_iff`: it finds its matches;
  * `Pattern.split`: the texts between the matches, with the groups;
  * `splitFrom_clear`, `splitFrom_marker`: a text is split piece by piece.
-/
import Mathlib.Data.List.Forall2
import Mathlib.Data.List.TakeWhile
import Mathlib.Tactic.Common

namespace Js

variable {α : Type}

/-! ## Classes of characters -/

/-- The characters are of the classes. -/
def Fits (classes : List (α → Bool)) (l : List α) : Prop :=
  List.Forall₂ (fun p a => p a = true) classes l

/-- The text behind characters of the classes. -/
def takeFits : List (α → Bool) → List α → Option (List α)
  | [], l => some l
  | _ :: _, [] => none
  | p :: classes, a :: l => if p a then takeFits classes l else none

theorem takeFits_eq_some_iff {classes : List (α → Bool)} {l rest : List α} :
    takeFits classes l = some rest ↔ ∃ x, Fits classes x ∧ l = x ++ rest := by
  induction classes generalizing l with
  | nil =>
    constructor
    · intro h
      exact ⟨[], .nil, Option.some.inj h⟩
    · rintro ⟨x, hx, rfl⟩
      cases hx
      rfl
  | cons p classes ih =>
    cases l with
    | nil =>
      refine ⟨nofun, ?_⟩
      rintro ⟨x, hx, hl⟩
      cases hx
      cases hl
    | cons a l =>
      rw [takeFits]
      split_ifs with hp
      · rw [ih]
        constructor
        · rintro ⟨x, hx, rfl⟩
          exact ⟨a :: x, .cons hp hx, rfl⟩
        · rintro ⟨x, hx, hl⟩
          cases hx with
          | cons _ hx =>
            obtain ⟨rfl, rfl⟩ := List.cons.inj hl
            exact ⟨_, hx, rfl⟩
      · refine ⟨nofun, ?_⟩
        rintro ⟨x, hx, hl⟩
        cases hx with
        | cons hq hx =>
          obtain ⟨rfl, -⟩ := List.cons.inj hl
          exact absurd hq hp

/-! ## Patterns -/

/-- `before(group+)close after`. -/
structure Pattern (α : Type) where
  before : List (α → Bool)
  group : α → Bool
  close : α → Bool
  after : List (α → Bool)
  disjoint : ∀ a, group a = true → close a = false

/-- The pattern matches the text, and captures the group. -/
def Pattern.Matches (P : Pattern α) (l captured : List α) : Prop :=
  ∃ x c y, l = x ++ (captured ++ c :: y) ∧ Fits P.before x ∧ captured ≠ [] ∧
    (∀ a ∈ captured, P.group a = true) ∧ P.close c = true ∧ Fits P.after y

/-- What the pattern captures at the beginning of the text, and the text behind the match. -/
def Pattern.exec (P : Pattern α) (l : List α) : Option (List α × List α) := do
  let l ← takeFits P.before l
  let captured := l.takeWhile P.group
  if captured.isEmpty then none
  else do
    let rest ← takeFits (P.close :: P.after) (l.dropWhile P.group)
    return (captured, rest)

variable {P : Pattern α} {l rest captured : List α}

theorem Pattern.takeWhile_captured {c : α} {y : List α} (hg : ∀ a ∈ captured, P.group a = true)
    (hc : P.close c = true) : (captured ++ c :: y).takeWhile P.group = captured ∧
      (captured ++ c :: y).dropWhile P.group = c :: y := by
  have hnot : P.group c = false := by
    refine Bool.eq_false_iff.2 fun h => ?_
    rw [P.disjoint c h] at hc
    cases hc
  rw [List.takeWhile_append_of_pos hg, List.dropWhile_append_of_pos hg,
    List.takeWhile_cons_of_neg (by simp [hnot]), List.dropWhile_cons_of_neg (by simp [hnot]),
    List.append_nil]
  exact ⟨rfl, rfl⟩

/-- **The pattern finds its matches.** -/
theorem Pattern.exec_eq_some_iff :
    P.exec l = some (captured, rest) ↔ ∃ m, P.Matches m captured ∧ l = m ++ rest := by
  constructor
  · intro h
    obtain ⟨l', hbefore, hgroup⟩ := Option.bind_eq_some_iff.1 h
    obtain ⟨x, hx, rfl⟩ := takeFits_eq_some_iff.1 hbefore
    dsimp only at hgroup
    split_ifs at hgroup with hempty
    obtain ⟨rest', hafter, hresult⟩ := Option.bind_eq_some_iff.1 hgroup
    obtain ⟨rfl, rfl⟩ := Prod.mk.inj (Option.some.inj hresult)
    obtain ⟨z, hz, hdrop⟩ := takeFits_eq_some_iff.1 hafter
    cases hz with
    | @cons _ c _ y hc hy =>
      refine ⟨x ++ (l'.takeWhile P.group ++ c :: y), ⟨x, c, y, rfl, hx, ?_, ?_, hc, hy⟩, ?_⟩
      · exact fun he => hempty (by rw [he]; rfl)
      · exact fun a ha => List.mem_takeWhile_imp ha
      · rw [List.append_assoc, List.append_assoc, ← hdrop, List.takeWhile_append_dropWhile]
  · rintro ⟨m, ⟨x, c, y, rfl, hx, hne, hg, hc, hy⟩, rfl⟩
    have hbefore : takeFits P.before (x ++ (captured ++ c :: y) ++ rest) =
        some (captured ++ c :: (y ++ rest)) :=
      takeFits_eq_some_iff.2 ⟨x, hx, by simp⟩
    have hafter : takeFits (P.close :: P.after) (c :: (y ++ rest)) = some rest :=
      takeFits_eq_some_iff.2 ⟨c :: y, .cons hc hy, rfl⟩
    obtain ⟨htake, hdrop⟩ := P.takeWhile_captured (y := y ++ rest) hg hc
    unfold exec
    rw [hbefore, Option.bind_eq_bind, Option.bind_some, htake, hdrop,
      if_neg (by simpa using hne), hafter]
    rfl

/-- A text that is a match. -/
theorem Pattern.matches_of_exec (h : P.exec l = some (captured, [])) : P.Matches l captured := by
  obtain ⟨m, hm, rfl⟩ := Pattern.exec_eq_some_iff.1 h
  rwa [List.append_nil]

theorem Pattern.length_exec_lt (h : P.exec l = some (captured, rest)) :
    rest.length < l.length := by
  obtain ⟨m, ⟨x, c, y, rfl, -⟩, rfl⟩ := Pattern.exec_eq_some_iff.1 h
  simp only [List.length_append, List.length_cons]
  omega

/-! ## Splitting -/

/-- The texts between the matches and the captured groups, when `piece` has been read since the
    last match. -/
def Pattern.splitFrom (P : Pattern α) (piece : List α) (l : List α) : List (List α) :=
  match l with
  | [] => [piece]
  | a :: l =>
    match _h : P.exec (a :: l) with
    | some (captured, rest) => piece :: captured :: P.splitFrom [] rest
    | none => P.splitFrom (piece ++ [a]) l
termination_by l.length
decreasing_by
  · exact Pattern.length_exec_lt _h
  · exact Nat.lt_succ_self _

/-- `split` -/
def Pattern.split (P : Pattern α) (l : List α) : List (List α) := P.splitFrom [] l

/-- No match begins in the text when `rest` comes behind it. -/
def Pattern.Clear (P : Pattern α) (text rest : List α) : Prop :=
  ∀ a b, text = a ++ b → b ≠ [] → P.exec (b ++ rest) = none

theorem Pattern.splitFrom_clear {text : List α} (h : P.Clear text rest) (piece : List α) :
    P.splitFrom piece (text ++ rest) = P.splitFrom (piece ++ text) rest := by
  induction text generalizing piece with
  | nil => rw [List.nil_append, List.append_nil]
  | cons a text ih =>
    have hnone : P.exec (a :: (text ++ rest)) = none :=
      h [] (a :: text) rfl (List.cons_ne_nil _ _)
    have htext : P.Clear text rest := fun x b hb hne => h (a :: x) b (by rw [hb]; rfl) hne
    rw [List.cons_append, splitFrom]
    split
    · next h' => rw [hnone] at h'; cases h'
    · rw [ih htext, List.append_assoc]
      rfl

theorem Pattern.splitFrom_marker {marker : List α} (h : P.Matches marker captured)
    (piece rest : List α) :
    P.splitFrom piece (marker ++ rest) = piece :: captured :: P.splitFrom [] rest := by
  have hexec : P.exec (marker ++ rest) = some (captured, rest) :=
    Pattern.exec_eq_some_iff.2 ⟨marker, h, rfl⟩
  cases hl : marker ++ rest with
  | nil =>
    obtain ⟨x, c, y, rfl, -⟩ := h
    simp at hl
  | cons a l =>
    rw [hl] at hexec
    rw [splitFrom]
    split
    · next captured' rest' h' =>
      obtain ⟨rfl, rfl⟩ := Prod.mk.inj (Option.some.inj (h'.symm.trans hexec))
      rfl
    · next h' => rw [hexec] at h'; cases h'

end Js
