/-
  Slices of tables: the rows whose keys are in a set.

  * `insertAll_slice`, `delete_slice`, `update_slice`: a statement on rows of the slice does on
    the slice what it does on the table;
  * `slice_insertAll`, `slice_delete`, `slice_update`: a statement on other rows leaves the slice
    as it is.
-/
import RollappExplorer.Sql.Table

namespace Sql

namespace Table

variable {α κ ε : Type} {key : α → κ} {S : κ → Bool}

/-- The rows whose keys are in `S`. -/
def slice (S : κ → Bool) (t : Table key) : Table key :=
  ⟨t.rows.filter fun a => S (key a), t.nodup.sublist (List.filter_sublist.map key)⟩

variable {t t' : Table key} {a b : α} {k : κ}

theorem eq_of_rows (h : t.rows = t'.rows) : t = t' := by
  obtain ⟨rows, _⟩ := t
  obtain ⟨rows', _⟩ := t'
  obtain rfl : rows = rows' := h
  rfl

theorem mem_slice : a ∈ t.slice S ↔ a ∈ t ∧ S (key a) = true := List.mem_filter

theorem has_slice : (t.slice S).Has k ↔ t.Has k ∧ S k = true := by
  rw [has_iff, has_iff]
  constructor
  · rintro ⟨a, ha, rfl⟩
    exact ⟨⟨a, (mem_slice.1 ha).1, rfl⟩, (mem_slice.1 ha).2⟩
  · rintro ⟨⟨a, ha, rfl⟩, hS⟩
    exact ⟨a, mem_slice.2 ⟨ha, hS⟩, rfl⟩

theorem has_slice_of (hk : S k = true) : (t.slice S).Has k ↔ t.Has k := by
  rw [has_slice, and_iff_left hk]

@[simp] theorem slice_empty : (empty key).slice S = empty key := rfl

/-- A table that is all in the slice. -/
theorem slice_eq_self (h : ∀ a ∈ t, S (key a) = true) : t.slice S = t :=
  eq_of_rows (List.filter_eq_self.2 h)

/-! ## Deleting -/

theorem delete_slice {p : α → Bool} : (t.slice S).delete p = (t.delete p).slice S :=
  eq_of_rows (List.filter_comm _ _ _)

/-- The rows that are deleted are not in the slice. -/
theorem slice_delete {p : α → Bool} (h : ∀ a ∈ t, p a = true → S (key a) = false) :
    (t.delete p).slice S = t.slice S := by
  refine eq_of_rows ?_
  show (t.rows.filter fun a => !p a).filter (fun a => S (key a)) = t.rows.filter _
  rw [List.filter_filter]
  refine List.filter_congr fun a ha => ?_
  cases hp : p a with
  | true => rw [h a ha hp]; rfl
  | false => simp

/-- Rows that are selected from the slice. -/
theorem filter_slice {p : α → Bool} (h : ∀ a ∈ t, p a = true → S (key a) = true) :
    (t.slice S).rows.filter p = t.rows.filter p := by
  show (t.rows.filter fun a => S (key a)).filter p = _
  rw [List.filter_filter]
  refine List.filter_congr fun a ha => ?_
  cases hp : p a with
  | true => rw [h a ha hp]; rfl
  | false => rfl

theorem slice_add_of_mem (h : ¬ t.Has (key a)) (h' : ¬ (t.slice S).Has (key a))
    (ha : S (key a) = true) : (t.add a h).slice S = (t.slice S).add a h' := by
  refine eq_of_rows ?_
  show (t.rows ++ [a]).filter _ = t.rows.filter _ ++ [a]
  simp [List.filter_append, ha]

theorem slice_add_of_not_mem (h : ¬ t.Has (key a)) (ha : S (key a) = false) :
    (t.add a h).slice S = t.slice S := by
  refine eq_of_rows ?_
  show (t.rows ++ [a]).filter _ = t.rows.filter _
  simp [List.filter_append, ha]

variable [DecidableEq κ]

theorem find?_slice (hk : S k = true) : (t.slice S).find? k = t.find? k := by
  cases hfind : t.find? k with
  | none =>
    rw [find?_eq_none_iff] at hfind ⊢
    exact fun h => hfind (has_slice.1 h).1
  | some a =>
    obtain ⟨ha, rfl⟩ := find?_eq_some_iff.1 hfind
    exact find?_eq_some_iff.2 ⟨mem_slice.2 ⟨ha, hk⟩, rfl⟩

/-! ## Inserting -/

theorem insert_slice (ha : S (key a) = true) : (t.slice S).insert a = (t.insert a).slice S := by
  unfold insert
  by_cases h : t.Has (key a)
  · rw [dif_pos h, dif_pos ((has_slice_of ha).2 h)]
  · rw [dif_neg h, dif_neg fun h' => h ((has_slice_of ha).1 h'), slice_add_of_mem h _ ha]

theorem slice_insert (ha : S (key a) = false) : (t.insert a).slice S = t.slice S := by
  unfold insert
  split_ifs with h
  · rfl
  · exact slice_add_of_not_mem h ha

/-- The rows are all in the slice. -/
theorem insertAll_slice {l : List α} (h : ∀ a ∈ l, S (key a) = true) :
    insertAll l (t.slice S) = ((insertAll l t).1.slice S, (insertAll l t).2) := by
  induction l generalizing t with
  | nil => rfl
  | cons a l ih =>
    obtain ⟨ha, hl⟩ := List.forall_mem_cons.1 h
    unfold insertAll
    by_cases hhas : t.Has (key a)
    · rw [dif_pos hhas, dif_pos ((has_slice_of ha).2 hhas), ih hl]
    · have hhas' : ¬ (t.slice S).Has (key a) := fun h' => hhas ((has_slice_of ha).1 h')
      rw [dif_neg hhas, dif_neg hhas', ← slice_add_of_mem hhas hhas' ha, ih hl]

/-- None of the rows is in the slice. -/
theorem slice_insertAll {l : List α} (h : ∀ a ∈ l, S (key a) = false) :
    (insertAll l t).1.slice S = t.slice S := by
  induction l generalizing t with
  | nil => rfl
  | cons a l ih =>
    obtain ⟨ha, hl⟩ := List.forall_mem_cons.1 h
    unfold insertAll
    split_ifs with hhas
    · exact ih hl
    · exact (ih hl).trans (slice_add_of_not_mem hhas ha)

/-! ## Updating -/

theorem set_slice : (t.slice S).set a = (t.set a).slice S := by
  refine eq_of_rows ?_
  show (t.rows.filter fun b => S (key b)).map _ = (t.rows.map _).filter fun b => S (key b)
  rw [List.filter_map]
  congr 1
  refine List.filter_congr fun b _ => ?_
  show S (key b) = S (key (if key b = key a then a else b))
  split_ifs with h
  · rw [h]
  · rfl

theorem slice_set (ha : S (key a) = false) : (t.set a).slice S = t.slice S := by
  rw [← set_slice]
  refine eq_of_rows ?_
  refine (List.map_congr_left fun b hb => ?_).trans (List.map_id _)
  have hne : key b ≠ key a := fun h => by
    have hb : S (key b) = true := (mem_slice.1 hb).2
    rw [h, ha] at hb
    cases hb
  exact if_neg hne

/-- The row is in the slice. -/
theorem update_slice {f : α → Except ε α} (hk : S k = true) :
    (t.slice S).update k f = (t.update k f).map (slice S) := by
  unfold update
  rw [find?_slice hk]
  cases t.find? k with
  | none => rfl
  | some a =>
    cases hfa : f a with
    | error e => simp [hfa, bind, Except.bind, Except.map]
    | ok b => simp [hfa, bind, Except.bind, Except.map, pure, Except.pure, set_slice]

/-- The row is not in the slice. -/
theorem slice_update {f : α → Except ε α} (hk : S k = false)
    (hf : ∀ a b, f a = .ok b → key b = key a) (h : t.update k f = .ok t') :
    t'.slice S = t.slice S := by
  unfold update at h
  cases hfind : t.find? k with
  | none =>
    rw [hfind] at h
    rw [Except.ok.inj h]
  | some a =>
    obtain ⟨-, rfl⟩ := find?_eq_some_iff.1 hfind
    cases hfa : f a with
    | error e => simp [hfind, hfa, bind, Except.bind] at h
    | ok b =>
      simp only [hfind, hfa, bind, Except.bind, pure, Except.pure, Except.ok.injEq] at h
      subst h
      exact slice_set (hf a b hfa ▸ hk)

end Table

end Sql
