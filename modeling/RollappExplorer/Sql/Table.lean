/-
  Tables with a primary key.

  A table is a list of rows with distinct keys.

  * `insertAll`: `INSERT … ON CONFLICT DO NOTHING`, with the rows it has inserted;
  * `delete`: `DELETE … WHERE`;
  * `update`: `UPDATE` of the row with a key, if there is one; it may fail.
-/
import Mathlib.Data.List.Nodup
import Mathlib.Tactic.Common

namespace Sql

variable {α κ ε : Type}

/-- A table whose rows have distinct keys. -/
structure Table (key : α → κ) where
  rows : List α
  nodup : (rows.map key).Nodup

namespace Table

variable {key : α → κ}

instance : Membership α (Table key) := ⟨fun t a => a ∈ t.rows⟩

/-- The key is taken. -/
def Has (t : Table key) (k : κ) : Prop := k ∈ t.rows.map key

def empty (key : α → κ) : Table key := ⟨[], List.nodup_nil⟩

theorem nodup_append {t : Table key} {a : α} (h : ¬ t.Has (key a)) :
    ((t.rows ++ [a]).map key).Nodup := by
  rw [List.map_append, List.nodup_append']
  refine ⟨t.nodup, List.nodup_singleton _, fun k hk hk' => h ?_⟩
  rw [List.map_singleton, List.mem_singleton] at hk'
  exact hk' ▸ hk

/-- A new row. -/
def add (t : Table key) (a : α) (h : ¬ t.Has (key a)) : Table key :=
  ⟨t.rows ++ [a], nodup_append h⟩

/-- Delete the rows that satisfy `p`. -/
def delete (t : Table key) (p : α → Bool) : Table key :=
  ⟨t.rows.filter fun a => !p a, t.nodup.sublist (List.filter_sublist.map key)⟩

/-! ## Rows and keys -/

section
variable {t t' : Table key} {a b : α} {k : κ}

theorem mem_def : a ∈ t ↔ a ∈ t.rows := Iff.rfl

theorem has_iff : t.Has k ↔ ∃ a ∈ t, key a = k := List.mem_map

theorem has_of_mem (h : a ∈ t) : t.Has (key a) := has_iff.2 ⟨a, h, rfl⟩

/-- Rows with the same key are the same. -/
theorem eq_of_key (ha : a ∈ t) (hb : b ∈ t) (h : key a = key b) : a = b :=
  List.inj_on_of_nodup_map t.nodup ha hb h

@[simp] theorem not_mem_empty : ¬ a ∈ empty key := List.not_mem_nil

@[simp] theorem not_has_empty : ¬ (empty key).Has k := List.not_mem_nil

theorem rows_eq_nil (h : ∀ k, ¬ t.Has k) : t.rows = [] :=
  List.eq_nil_iff_forall_not_mem.2 fun _ ha => h _ (has_of_mem ha)

theorem mem_delete {p : α → Bool} : a ∈ t.delete p ↔ a ∈ t ∧ p a = false := by
  rw [mem_def, delete, List.mem_filter, Bool.not_eq_true']
  rfl

end

/-! ## Statements -/

variable [DecidableEq κ]

instance (t : Table key) (k : κ) : Decidable (t.Has k) :=
  inferInstanceAs (Decidable (k ∈ t.rows.map key))

/-- The row with the key. -/
def find? (t : Table key) (k : κ) : Option α := t.rows.find? fun a => key a = k

/-- Insert a row, unless its key is taken. -/
def insert (t : Table key) (a : α) : Table key :=
  if h : t.Has (key a) then t else t.add a h

/-- Insert the rows whose key is not taken; the rows that are inserted. -/
def insertAll : List α → Table key → Table key × List α
  | [], t => (t, [])
  | a :: l, t =>
    if h : t.Has (key a) then insertAll l t
    else ((insertAll l (t.add a h)).1, a :: (insertAll l (t.add a h)).2)

/-- Replace the row with the key of `a` by `a`, if there is one. -/
def set (t : Table key) (a : α) : Table key where
  rows := t.rows.map fun b => if key b = key a then a else b
  nodup := by
    have hkeys : (t.rows.map fun b => if key b = key a then a else b).map key = t.rows.map key := by
      rw [List.map_map]
      refine List.map_congr_left fun b _ => ?_
      show key (if key b = key a then a else b) = key b
      split_ifs with h
      · exact h.symm
      · rfl
    rw [hkeys]
    exact t.nodup

/-- Update the row with the key `k`, if there is one. -/
def update (t : Table key) (k : κ) (f : α → Except ε α) : Except ε (Table key) :=
  match t.find? k with
  | none => .ok t
  | some a => do
    let b ← f a
    return t.set b

variable {t t' : Table key} {a b : α} {k : κ}

theorem find?_eq_some_iff : t.find? k = some a ↔ a ∈ t ∧ key a = k := by
  constructor
  · intro h
    exact ⟨List.mem_of_find?_eq_some h, by simpa using List.find?_some h⟩
  · rintro ⟨ha, rfl⟩
    cases h : t.find? (key a) with
    | none => exact absurd (decide_eq_true rfl) (List.find?_eq_none.1 h a ha)
    | some b =>
      have hb : key b = key a := by simpa using List.find?_some h
      rw [eq_of_key (List.mem_of_find?_eq_some h) ha hb]

theorem find?_eq_none_iff : t.find? k = none ↔ ¬ t.Has k := by
  rw [find?, List.find?_eq_none, has_iff]
  simp [mem_def]

/-! ## Inserting -/

theorem mem_insert : b ∈ t.insert a ↔ b ∈ t ∨ (b = a ∧ ¬ t.Has (key a)) := by
  unfold insert
  split_ifs with h
  · simp [h]
  · show b ∈ t.rows ++ [a] ↔ _
    simp [h, mem_def]

theorem has_insert : (t.insert a).Has k ↔ t.Has k ∨ k = key a := by
  unfold insert
  split_ifs with h
  · exact ⟨.inl, fun hk => hk.elim id fun hk => hk ▸ h⟩
  · show k ∈ (t.rows ++ [a]).map key ↔ _
    rw [List.map_append, List.mem_append, List.map_singleton, List.mem_singleton]
    rfl

/-- The rows that are inserted come after the others. -/
theorem insertAll_rows (l : List α) (t : Table key) :
    (insertAll l t).1.rows = t.rows ++ (insertAll l t).2 := by
  induction l generalizing t with
  | nil => exact (List.append_nil _).symm
  | cons a l ih =>
    unfold insertAll
    split_ifs with h
    · exact ih t
    · show (insertAll l (t.add a h)).1.rows = t.rows ++ a :: (insertAll l (t.add a h)).2
      rw [ih, add, List.append_assoc, List.singleton_append]

theorem insertAll_sublist (l : List α) (t : Table key) : (insertAll l t).2.Sublist l := by
  induction l generalizing t with
  | nil => exact .slnil
  | cons a l ih =>
    unfold insertAll
    split_ifs with h
    · exact (ih t).cons a
    · exact (ih _).cons_cons a

/-- The keys of the rows that are inserted were not taken. -/
theorem insertAll_not_has {l : List α} {t : Table key} (ha : a ∈ (insertAll l t).2) :
    ¬ t.Has (key a) := by
  have hnodup : ((t.rows ++ (insertAll l t).2).map key).Nodup :=
    insertAll_rows l t ▸ (insertAll l t).1.nodup
  rw [List.map_append] at hnodup
  exact fun ht => (List.disjoint_of_nodup_append hnodup) ht (List.mem_map_of_mem ha)

/-- All keys are taken afterwards. -/
theorem insertAll_has {l : List α} {t : Table key} (ha : a ∈ l) :
    (insertAll l t).1.Has (key a) := by
  induction l generalizing t with
  | nil => exact absurd ha List.not_mem_nil
  | cons b l ih =>
    unfold insertAll
    split_ifs with h
    · rcases List.mem_cons.1 ha with rfl | ha
      · rw [Has, insertAll_rows, List.map_append]
        exact List.mem_append_left _ h
      · exact ih ha
    · rcases List.mem_cons.1 ha with rfl | ha
      · rw [Has, insertAll_rows, List.map_append]
        exact List.mem_append_left _ (by simp [add])
      · exact ih ha

/-- A row whose key is not taken is inserted. -/
theorem insertAll_singleton (h : ¬ t.Has (key a)) : insertAll [a] t = (t.add a h, [a]) := by
  rw [insertAll, dif_neg h]
  rfl

/-- Nothing is inserted if all keys are taken. -/
theorem insertAll_of_has {l : List α} {t : Table key} (h : ∀ a ∈ l, t.Has (key a)) :
    insertAll l t = (t, []) := by
  induction l with
  | nil => rfl
  | cons a l ih =>
    obtain ⟨ha, hl⟩ := List.forall_mem_cons.1 h
    rw [insertAll, dif_pos ha, ih hl]

theorem mem_insertAll {l : List α} {t : Table key} :
    a ∈ (insertAll l t).1 ↔ a ∈ t ∨ a ∈ (insertAll l t).2 := by
  rw [mem_def, insertAll_rows, List.mem_append]
  rfl

/-! ## Updating -/

/-- An update succeeds if it does on the row with the key. -/
theorem exists_update {f : α → Except ε α} (h : ∀ a ∈ t, key a = k → ∃ b, f a = .ok b) :
    ∃ t', t.update k f = .ok t' := by
  unfold update
  cases hfind : t.find? k with
  | none => exact ⟨t, rfl⟩
  | some a =>
    obtain ⟨ha, hk⟩ := find?_eq_some_iff.1 hfind
    obtain ⟨b, hb⟩ := h a ha hk
    refine ⟨t.set b, ?_⟩
    simp only [hb]
    rfl

/-- The rows after an update by `g`, which keeps the key. -/
theorem update_rows {f : α → Except ε α} {g : α → α} (hf : ∀ a b, f a = .ok b → b = g a)
    (hg : ∀ a, key (g a) = key a) (h : t.update k f = .ok t') :
    t'.rows = t.rows.map fun a => if key a = k then g a else a := by
  unfold update at h
  cases hfind : t.find? k with
  | none =>
    simp only [hfind] at h
    obtain rfl : t = t' := Except.ok.inj h
    rw [find?_eq_none_iff] at hfind
    refine ((List.map_congr_left fun a ha => ?_).trans (List.map_id _)).symm
    have hne : key a ≠ k := fun hk => hfind (hk ▸ has_of_mem ha)
    exact if_neg hne
  | some a =>
    simp only [hfind] at h
    obtain ⟨ha, rfl⟩ := find?_eq_some_iff.1 hfind
    cases hfa : f a with
    | error e => rw [hfa] at h; cases h
    | ok b =>
      rw [hfa] at h
      obtain rfl := hf a b hfa
      obtain rfl : t.set (g a) = t' := Except.ok.inj h
      refine List.map_congr_left fun c hc => ?_
      rw [hg]
      split_ifs with hk
      · rw [eq_of_key hc ha hk]
      · rfl

theorem mem_update {f : α → Except ε α} {g : α → α} (hf : ∀ a b, f a = .ok b → b = g a)
    (hg : ∀ a, key (g a) = key a) (h : t.update k f = .ok t') :
    b ∈ t' ↔ ∃ a ∈ t, b = if key a = k then g a else a := by
  rw [mem_def, update_rows hf hg h, List.mem_map]
  exact ⟨fun ⟨a, ha, he⟩ => ⟨a, ha, he.symm⟩, fun ⟨a, ha, he⟩ => ⟨a, ha, he.symm⟩⟩

theorem has_update {f : α → Except ε α} {g : α → α} (hf : ∀ a b, f a = .ok b → b = g a)
    (hg : ∀ a, key (g a) = key a) (h : t.update k f = .ok t') {k' : κ} :
    t'.Has k' ↔ t.Has k' := by
  have hkeys : t'.rows.map key = t.rows.map key := by
    rw [update_rows hf hg h, List.map_map]
    refine List.map_congr_left fun a _ => ?_
    show key (if key a = k then g a else a) = key a
    split_ifs
    · exact hg a
    · rfl
  show k' ∈ t'.rows.map key ↔ k' ∈ t.rows.map key
  rw [hkeys]

/-- An update that cannot fail. -/
theorem update_total {g : α → α} (hg : ∀ a, key (g a) = key a) (t : Table key) (k : κ) :
    ∃ t', t.update k (fun a => (.ok (g a) : Except ε α)) = .ok t' ∧
      ∀ b, b ∈ t' ↔ ∃ a ∈ t, b = if key a = k then g a else a := by
  obtain ⟨t', h⟩ := exists_update (t := t) (k := k) (f := fun a => (.ok (g a) : Except ε α))
    fun a _ _ => ⟨g a, rfl⟩
  have hf : ∀ a b, (.ok (g a) : Except ε α) = .ok b → b = g a := fun a b h => (Except.ok.inj h).symm
  exact ⟨t', h, fun b => mem_update hf hg h⟩

end Table

end Sql
