/-
  `INSERT … ON CONFLICT DO UPDATE` of rows by their keys.

  * `upsertAll`: the rows one after another; none may be stored twice by one statement;
  * `upsertAll_spec`: what a statement that succeeds has stored;
  * `exists_upsertAll`: it succeeds if the keys are distinct and every row can be stored.
-/
import Mathlib.Data.List.Nodup
import RollappExplorer.Go.Error
import RollappExplorer.Go.Map

namespace Sql

open Go

variable {κ υ ν : Type} [DecidableEq κ]

/-- Store the new rows; `put` makes the row to store of the stored one, if there is one. -/
def upsertAll (put : Option υ → ν → Except Error υ) :
    List (κ × ν) → List κ → Map κ υ → Except Error (Map κ υ)
  | [], _, rows => .ok rows
  | new :: news, touched, rows =>
    if new.1 ∈ touched then .error "ON CONFLICT DO UPDATE command cannot affect row a second time"
    else do
      let row ← put (rows.lookup new.1) new.2
      upsertAll put news (new.1 :: touched) (rows.insert new.1 row)

/-- Each new row is stored, and the others are unchanged. -/
structure Upserted (put : Option υ → ν → Except Error υ) (news : List (κ × ν))
    (rows rows' : Map κ υ) : Prop where
  stored : ∀ new ∈ news,
    ∃ row, put (rows.lookup new.1) new.2 = .ok row ∧ rows'.lookup new.1 = some row
  others : ∀ k, k ∉ news.map Prod.fst → rows'.lookup k = rows.lookup k

variable {put : Option υ → ν → Except Error υ} {news : List (κ × ν)} {touched : List κ}
  {rows rows' : Map κ υ}

/-- **Statements that succeed** store distinct keys, each once. -/
theorem upsertAll_spec (h : upsertAll put news touched rows = .ok rows') :
    (news.map Prod.fst).Nodup ∧ (∀ k ∈ news.map Prod.fst, k ∉ touched) ∧
      Upserted put news rows rows' := by
  induction news generalizing touched rows with
  | nil =>
    obtain rfl : rows = rows' := Except.ok.inj h
    exact ⟨List.nodup_nil, by simp, fun _ hnew => absurd hnew List.not_mem_nil, fun _ _ => rfl⟩
  | cons new news ih =>
    unfold upsertAll at h
    split_ifs at h with htouched
    obtain ⟨row, hput, h⟩ := bind_ok_iff.1 h
    obtain ⟨hnodup, hfresh, hstored, hothers⟩ := ih h
    have hnew : new.1 ∉ news.map Prod.fst := fun hm => hfresh _ hm List.mem_cons_self
    rw [List.map_cons]
    refine ⟨List.nodup_cons.2 ⟨hnew, hnodup⟩, ?_, ?_, ?_⟩
    · intro k hk
      rcases List.mem_cons.1 hk with rfl | hk
      · exact htouched
      · exact fun hm => hfresh k hk (List.mem_cons_of_mem _ hm)
    · intro new' hm
      rcases List.mem_cons.1 hm with rfl | hm
      · exact ⟨row, hput, (hothers _ hnew).trans (AList.lookup_insert _)⟩
      · have hne : new'.1 ≠ new.1 := fun he => hnew (he ▸ List.mem_map_of_mem hm)
        have hstored' := hstored new' hm
        rwa [AList.lookup_insert_ne hne] at hstored'
    · intro k hk
      rw [List.map_cons, List.mem_cons, not_or] at hk
      rw [hothers k hk.2, AList.lookup_insert_ne hk.1]

/-- A statement succeeds if it stores no key twice, and every row can be stored. -/
theorem exists_upsertAll (hnodup : (news.map Prod.fst).Nodup)
    (hfresh : ∀ k ∈ news.map Prod.fst, k ∉ touched)
    (hput : ∀ new ∈ news, ∃ row, put (rows.lookup new.1) new.2 = .ok row) :
    ∃ rows', upsertAll put news touched rows = .ok rows' := by
  induction news generalizing touched rows with
  | nil => exact ⟨rows, rfl⟩
  | cons new news ih =>
    obtain ⟨hnew, hnodup⟩ := List.nodup_cons.1 hnodup
    obtain ⟨row, hrow⟩ := hput new List.mem_cons_self
    rw [upsertAll, if_neg (hfresh _ List.mem_cons_self), hrow, ok_bind]
    refine ih hnodup (fun k hk hm => ?_) fun new' hm => ?_
    · rcases List.mem_cons.1 hm with rfl | hm
      · exact hnew hk
      · exact hfresh k (List.mem_cons_of_mem _ hk) hm
    · have hne : new'.1 ≠ new.1 := fun he => hnew (he ▸ List.mem_map_of_mem hm)
      rw [AList.lookup_insert_ne hne]
      exact hput new' (List.mem_cons_of_mem _ hm)

end Sql
