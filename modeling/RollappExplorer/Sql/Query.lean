/-
  Statements with parameters.

  * `placeholders`: the numbers of the placeholders `$1`, `$2`, … of a text, in their order;
  * `Query.Fits`: they number the parameters in order, and there are not too many;
  * `insertValues`: the loop that appends the placeholders of a row for each record;
  * `insertRows_fits_iff`: a statement of such rows fits iff it has not too many parameters.
-/
import Mathlib.Data.List.Basic
import Mathlib.Data.Int.Notation
import Mathlib.Tactic.Common

namespace Sql

inductive Value where
  | text (s : String)
  | int (n : ℤ)
  | bool (b : Bool)
  | texts (l : List String)
  | null

/-- A nullable value. -/
def Value.orNull {α : Type} (value : α → Value) : Option α → Value
  | none => .null
  | some a => value a

/-- The text of a statement and the values it is executed with. -/
structure Query where
  text : String
  params : List Value

/-- The protocol of PostgreSQL counts the parameters of a statement with 16 bits. -/
def maxParams : ℕ := 65535

/-- The numbers of the placeholders. -/
def placeholders : List Char → List ℕ
  | [] => []
  | c :: cs =>
    if c = '$' ∧ cs.takeWhile Char.isDigit ≠ [] then
      Nat.ofDigitChars 10 (cs.takeWhile Char.isDigit) 0 :: placeholders cs
    else placeholders cs

/-- The placeholders are `$1` to `$n`, in the order of the `n` values. -/
structure Query.Fits (q : Query) : Prop where
  count : q.params.length ≤ maxParams
  placeholders : placeholders q.text.toList = (List.range q.params.length).map (· + 1)

/-- The values of the placeholders, in the order of the text. -/
def Query.values (q : Query) : Option (List Value) :=
  (placeholders q.text.toList).mapM fun n => if n = 0 then none else q.params[n - 1]?

/-! ## Rows of placeholders -/

def placeholder (n : ℕ) : String := "$" ++ toString n

/-- `($1,$2,…)` -/
def rowOf (ns : List ℕ) : String := "(" ++ ",".intercalate (ns.map placeholder) ++ ")"

/-- Append a row of placeholders and its values for each record. -/
def insertValues {α : Type} (row : ℕ → List ℕ) (params : α → List Value) (records : List α)
    (q : Query) : Query :=
  records.zipIdx.foldl (fun q entry =>
    ⟨q.text ++ (if entry.2 > 0 then "," else "") ++ rowOf (row entry.2),
      q.params ++ params entry.1⟩) q

/-- The placeholders of the row `i`, each row with the next `width` of them. -/
def nextRow (width i : ℕ) : List ℕ := (List.range width).map fun k => i * width + k + 1

/-- A statement with rows of `width` values between its two parts. -/
def insertRows {α : Type} (head : String) (width : ℕ) (params : α → List Value)
    (tail : String) (records : List α) : Query :=
  let q := insertValues (nextRow width) params records ⟨head, []⟩
  ⟨q.text ++ tail, q.params⟩

/-! ## Reading placeholders -/

/-- A text without placeholders. -/
def Plain (s : String) : Prop := '$' ∉ s.toList

instance (s : String) : Decidable (Plain s) := inferInstanceAs (Decidable ('$' ∉ s.toList))

theorem Plain.append {s s' : String} (h : Plain s) (h' : Plain s') : Plain (s ++ s') := by
  unfold Plain at h h' ⊢
  rw [String.toList_append, List.mem_append]
  exact fun hm => hm.elim h h'

theorem Plain.intercalate {sep : String} (hsep : Plain sep) :
    ∀ {l : List String}, (∀ s ∈ l, Plain s) → Plain (sep.intercalate l)
  | [], _ => by
    rw [String.intercalate_nil]
    exact List.not_mem_nil
  | [s], h => by
    rw [String.intercalate_singleton]
    exact h s List.mem_cons_self
  | s :: s' :: l, h => by
    obtain ⟨hs, hl⟩ := List.forall_mem_cons.1 h
    rw [String.intercalate_cons_cons]
    exact (hs.append hsep).append (Plain.intercalate hsep hl)

/-- The text has these placeholders, whatever follows it but digits. -/
def Reads (l : List Char) (ns : List ℕ) : Prop :=
  ∀ rest : List Char, (∀ c ∈ rest.head?, c.isDigit = false) →
    placeholders (l ++ rest) = ns ++ placeholders rest

theorem reads_of_not_mem {l : List Char} (h : '$' ∉ l) : Reads l [] := by
  intro rest _
  induction l with
  | nil => rfl
  | cons c l ih =>
    obtain ⟨hc, hl⟩ := List.ne_and_not_mem_of_not_mem_cons h
    rw [List.cons_append, placeholders, if_neg fun h => hc h.1.symm]
    exact ih hl

theorem Reads.append {l l' : List Char} {ns ns' : List ℕ} (h : Reads l ns) (h' : Reads l' ns')
    (hhead : ∀ c ∈ l'.head?, c.isDigit = false) : Reads (l ++ l') (ns ++ ns') := by
  intro rest hrest
  have hnext : ∀ c ∈ (l' ++ rest).head?, c.isDigit = false := by
    cases l' with
    | nil => exact hrest
    | cons c l' => exact hhead
  rw [List.append_assoc, h _ hnext, h' rest hrest, List.append_assoc]

theorem reads_placeholder (n : ℕ) : Reads (placeholder n).toList [n] := by
  intro rest hrest
  have hdigits : ∀ c ∈ Nat.toDigits 10 n, c.isDigit = true :=
    fun c hc => Nat.isDigit_of_mem_toDigits (by decide) (by decide) hc
  have htext : (placeholder n).toList = '$' :: Nat.toDigits 10 n := by
    rw [placeholder, String.toList_append, Nat.toString_eq_repr, Nat.toList_repr]
    rfl
  have htake : (Nat.toDigits 10 n ++ rest).takeWhile Char.isDigit = Nat.toDigits 10 n := by
    have hnone : rest.takeWhile Char.isDigit = [] := by
      cases rest with
      | nil => rfl
      | cons c rest => exact List.takeWhile_cons_of_neg (by simp [hrest c rfl])
    rw [List.takeWhile_append_of_pos hdigits, hnone, List.append_nil]
  have hnot : '$' ∉ Nat.toDigits 10 n := fun h => absurd (hdigits _ h) (by decide)
  rw [htext, List.cons_append, placeholders, htake, if_pos ⟨rfl, Nat.toDigits_ne_nil⟩,
    Nat.ofDigitChars_ten_toDigits, reads_of_not_mem hnot rest hrest]
  rfl

theorem Reads.cons {l : List Char} {ns : List ℕ} (h : Reads l ns) {c : Char} (hc : c ≠ '$') :
    Reads (c :: l) ns := by
  intro rest hrest
  rw [List.cons_append, placeholders, if_neg fun h => hc h.1]
  exact h rest hrest

/-- A character that is neither a digit nor begins a placeholder separates. -/
theorem Reads.append_cons {l l' : List Char} {ns ns' : List ℕ} (h : Reads l ns)
    (h' : Reads l' ns') {c : Char} (hc : c ≠ '$' ∧ c.isDigit = false) :
    Reads (l ++ c :: l') (ns ++ ns') :=
  h.append (h'.cons hc.1) fun d hd => by
    obtain rfl : c = d := Option.some.inj hd
    exact hc.2

theorem reads_intercalate (ns : List ℕ) :
    Reads (",".intercalate (ns.map placeholder)).toList ns := by
  induction ns with
  | nil => exact reads_of_not_mem (by decide)
  | cons n ns ih =>
    cases ns with
    | nil =>
      rw [List.map_singleton, String.intercalate_singleton]
      exact reads_placeholder n
    | cons m ns =>
      rw [List.map_cons, List.map_cons, String.intercalate_cons_cons, String.toList_append,
        String.toList_append, List.append_assoc]
      exact (reads_placeholder n).append_cons ih (by decide)

theorem toList_rowOf (ns : List ℕ) : (rowOf ns).toList =
    '(' :: ((",".intercalate (ns.map placeholder)).toList ++ [')']) := by
  rw [rowOf, String.toList_append, String.toList_append]
  rfl

theorem reads_rowOf (ns : List ℕ) : Reads (rowOf ns).toList ns := by
  have hclose : Reads [] [] := reads_of_not_mem List.not_mem_nil
  have h := ((reads_intercalate ns).append_cons hclose (c := ')') (by decide)).cons (c := '(')
    (by decide)
  rwa [List.append_nil, ← toList_rowOf] at h

section
variable {α : Type} {row : ℕ → List ℕ} {params : α → List Value} {records : List α} {q : Query}

theorem insertValues_params :
    (insertValues row params records q).params = q.params ++ records.flatMap params := by
  have h : ∀ (l : List (α × ℕ)) (q : Query), (l.foldl (fun q entry =>
      (⟨q.text ++ (if entry.2 > 0 then "," else "") ++ rowOf (row entry.2),
        q.params ++ params entry.1⟩ : Query)) q).params =
      q.params ++ (l.map Prod.fst).flatMap params := by
    intro l
    induction l with
    | nil => exact fun q => (List.append_nil _).symm
    | cons entry l ih =>
      intro q
      rw [List.foldl_cons, ih, List.map_cons, List.flatMap_cons, List.append_assoc]
  rw [insertValues, h, List.zipIdx_map_fst]

/-- The placeholders of the rows come after those that stand before. -/
theorem reads_insertValues {ns : List ℕ} (h : Reads q.text.toList ns) :
    Reads (insertValues row params records q).text.toList
      (ns ++ (List.range records.length).flatMap row) := by
  have hloop : ∀ (l : List (α × ℕ)) (q : Query) (ns : List ℕ), Reads q.text.toList ns →
      Reads (l.foldl (fun q entry =>
        (⟨q.text ++ (if entry.2 > 0 then "," else "") ++ rowOf (row entry.2),
          q.params ++ params entry.1⟩ : Query)) q).text.toList
        (ns ++ (l.map Prod.snd).flatMap row) := by
    intro l
    induction l with
    | nil => exact fun q ns h => by rwa [List.map_nil, List.flatMap_nil, List.append_nil]
    | cons entry l ih =>
      intro q ns h
      rw [List.foldl_cons, List.map_cons, List.flatMap_cons, ← List.append_assoc]
      refine ih _ _ ?_
      rw [String.toList_append, String.toList_append, List.append_assoc]
      refine h.append ?_ ?_
      · split_ifs with hi
        · exact (reads_rowOf _).cons (by decide)
        · exact reads_rowOf _
      · split_ifs with hi
        · exact fun c hc => Option.some.inj hc ▸ rfl
        · rw [toList_rowOf]
          exact fun c hc => Option.some.inj hc ▸ rfl
  have hindices : records.zipIdx.map Prod.snd = List.range records.length := by
    rw [List.zipIdx_map_snd, List.range_eq_range']
  rw [← hindices]
  exact hloop records.zipIdx q ns h

theorem flatMap_nextRow (width n : ℕ) :
    (List.range n).flatMap (nextRow width) = (List.range (n * width)).map (· + 1) := by
  induction n with
  | zero => rw [Nat.zero_mul]; rfl
  | succ n ih =>
    rw [List.range_succ, List.flatMap_append, ih, Nat.succ_mul, List.range_add, List.map_append,
      List.flatMap_singleton, List.map_map]
    rfl

theorem insertRows_params {head tail : String} {width : ℕ} :
    (insertRows head width params tail records).params = records.flatMap params := by
  rw [insertRows, insertValues_params, List.nil_append]

/-- **Statements of rows** fit iff they have not too many parameters. -/
theorem insertRows_fits_iff {head tail : String} {width : ℕ} (hhead : Plain head)
    (htail : Plain tail) (hfirst : tail.toList.head? = some '\n')
    (hwidth : ∀ record, (params record).length = width) :
    (insertRows head width params tail records).Fits ↔ records.length * width ≤ maxParams := by
  have hlen : (records.flatMap params).length = records.length * width := by
    rw [List.length_flatMap, List.map_congr_left fun record _ => hwidth record, List.map_const']
    exact List.sum_replicate_nat
  have hrows : Reads (insertValues (nextRow width) params records ⟨head, []⟩).text.toList
      ([] ++ (List.range records.length).flatMap (nextRow width)) :=
    reads_insertValues (reads_of_not_mem hhead)
  have hreads := hrows.append (reads_of_not_mem htail) (fun c hc => by
    obtain rfl : '\n' = c := Option.some.inj (hfirst.symm.trans hc)
    rfl)
  have htext : placeholders (insertRows head width params tail records).text.toList =
      (List.range (records.length * width)).map (· + 1) := by
    have h := hreads [] (by simp)
    rwa [List.nil_append, List.append_nil, List.append_nil, flatMap_nextRow, placeholders,
      List.append_nil, ← String.toList_append] at h
  constructor
  · rintro ⟨hcount, -⟩
    rwa [insertRows_params, hlen] at hcount
  · intro h
    constructor
    · rwa [insertRows_params, hlen]
    · rw [htext, insertRows_params, hlen]

end

end Sql
