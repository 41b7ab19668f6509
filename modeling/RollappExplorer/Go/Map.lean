/-
  Go maps: finite maps with distinct keys, ranged over in an arbitrary order.

  `MapOrder` is the runtime's choice of an order for every range statement; a
  property proved for all of them does not depend on the order.
-/
import Mathlib.Data.List.AList
import Mathlib.Data.List.FinRange

namespace Go

/-- `map[κ]υ`. -/
abbrev Map (κ υ : Type) := AList fun _ : κ => υ

variable {κ υ α : Type}

/-- The entries of a map. -/
def Map.pairs (m : Map κ υ) : List (κ × υ) := m.entries.map fun e => (e.1, e.2)

theorem Map.keys_pairs (m : Map κ υ) : m.pairs.map Prod.fst = m.keys := by
  simp [Map.pairs, AList.keys, List.keys, Function.comp_def]

theorem Map.nodup_pairs (m : Map κ υ) : (m.pairs.map Prod.fst).Nodup := by
  rw [m.keys_pairs]; exact m.keys_nodup

theorem Map.mem_pairs [DecidableEq κ] {m : Map κ υ} {k : κ} {v : υ} :
    (k, v) ∈ m.pairs ↔ m.lookup k = some v := by
  rw [← Option.mem_def, AList.mem_lookup_iff]
  simp only [Map.pairs, List.mem_map, Prod.mk.injEq]
  constructor
  · rintro ⟨⟨k', v'⟩, h, rfl, rfl⟩; exact h
  · intro h; exact ⟨⟨k, v⟩, h, rfl, rfl⟩

theorem Map.mem_iff_pairs {m : Map κ υ} {k : κ} : k ∈ m ↔ ∃ v, (k, v) ∈ m.pairs := by
  rw [AList.mem_keys, ← Map.keys_pairs, List.mem_map]
  exact ⟨fun ⟨⟨_, v⟩, h, he⟩ => ⟨v, he ▸ h⟩, fun ⟨v, h⟩ => ⟨(k, v), h, rfl⟩⟩

theorem Map.mem_pairs_insert [DecidableEq κ] {m : Map κ υ} {k k' : κ} {v v' : υ} :
    (k', v') ∈ Map.pairs (m.insert k v) ↔ k' = k ∧ v' = v ∨ k' ≠ k ∧ (k', v') ∈ m.pairs := by
  by_cases hk : k' = k
  · subst hk
    rw [Map.mem_pairs, AList.lookup_insert]
    simp [eq_comm]
  · rw [Map.mem_pairs, AList.lookup_insert_ne hk, ← Map.mem_pairs]
    simp [hk]

/-- The order in which the range statement at each site (a path of numbers) visits
    the `n` entries of a map. -/
structure MapOrder where
  idx : List ℕ → (n : ℕ) → List (Fin n)
  perm : ∀ site n, (idx site n).Perm (List.finRange n)

/-- The order of insertion. -/
instance : Inhabited MapOrder := ⟨⟨fun _ n => List.finRange n, fun _ _ => .refl _⟩⟩

/-- `for … := range l` over the entries `l` of a map. -/
def MapOrder.range (o : MapOrder) (site : List ℕ) (l : List α) : List α :=
  (o.idx site l.length).map l.get

theorem MapOrder.range_perm (o : MapOrder) (site : List ℕ) (l : List α) :
    (o.range site l).Perm l := by
  have h := (o.perm site l.length).map l.get
  rwa [List.map_get_finRange] at h

@[simp] theorem MapOrder.mem_range (o : MapOrder) (site : List ℕ) {l : List α} {a : α} :
    a ∈ o.range site l ↔ a ∈ l := (o.range_perm site l).mem_iff

/-! ## Slices -/

/-- The entries whose keys are in `S`. -/
def Map.slice (S : κ → Bool) (m : Map κ υ) : Map κ υ :=
  ⟨m.entries.filter fun e => S e.1, m.nodupKeys.sublist List.filter_sublist⟩

variable {S : κ → Bool} {m : Map κ υ} {k : κ} {v : υ}

theorem Map.mem_slice : k ∈ m.slice S ↔ k ∈ m ∧ S k = true := by
  rw [Map.mem_iff_pairs, Map.mem_iff_pairs]
  simp only [Map.pairs, Map.slice, List.mem_map, List.mem_filter, Prod.mk.injEq]
  constructor
  · rintro ⟨w, e, ⟨he, hS⟩, rfl, rfl⟩
    exact ⟨⟨_, e, he, rfl, rfl⟩, hS⟩
  · rintro ⟨⟨w, e, he, rfl, rfl⟩, hS⟩
    exact ⟨_, e, ⟨he, hS⟩, rfl, rfl⟩

variable [DecidableEq κ]

theorem Map.lookup_slice (hk : S k = true) : (m.slice S).lookup k = m.lookup k := by
  refine Option.ext fun w => ?_
  rw [← Map.mem_pairs, ← Map.mem_pairs]
  simp only [Map.pairs, Map.slice, List.mem_map, List.mem_filter, Prod.mk.injEq]
  constructor
  · rintro ⟨e, ⟨he, -⟩, h⟩
    exact ⟨e, he, h⟩
  · rintro ⟨e, he, rfl, rfl⟩
    exact ⟨e, ⟨he, hk⟩, rfl, rfl⟩

theorem filter_kerase_of_mem (hk : S k = true) (l : List (Sigma fun _ : κ => υ)) :
    (l.kerase k).filter (fun e => S e.1) = (l.filter fun e => S e.1).kerase k := by
  induction l with
  | nil => rfl
  | cons e l ih =>
    by_cases he : k = e.1
    · have hS : S e.1 = true := he ▸ hk
      rw [List.kerase_cons_eq he, List.filter_cons, if_pos hS, List.kerase_cons_eq he]
    · rw [List.kerase_cons_ne he, List.filter_cons, List.filter_cons, ih]
      split_ifs
      · rw [List.kerase_cons_ne he]
      · rfl

theorem filter_kerase_of_not_mem (hk : S k = false) (l : List (Sigma fun _ : κ => υ)) :
    (l.kerase k).filter (fun e => S e.1) = l.filter fun e => S e.1 := by
  induction l with
  | nil => rfl
  | cons e l ih =>
    by_cases he : k = e.1
    · have hS : ¬ S e.1 = true := fun hS => by rw [← he, hk] at hS; cases hS
      rw [List.kerase_cons_eq he, List.filter_cons, if_neg hS]
    · rw [List.kerase_cons_ne he, List.filter_cons, List.filter_cons, ih]

/-- The key is in the slice. -/
theorem Map.insert_slice (hk : S k = true) :
    (m.slice S).insert k v = Map.slice S (m.insert k v) := by
  refine AList.ext ?_
  show ⟨k, v⟩ :: List.kerase k (m.entries.filter fun e => S e.1) =
    (⟨k, v⟩ :: List.kerase k m.entries).filter fun e => S e.1
  rw [List.filter_cons, if_pos hk, filter_kerase_of_mem hk]

/-- The key is not in the slice. -/
theorem Map.slice_insert (hk : S k = false) : Map.slice S (m.insert k v) = m.slice S := by
  refine AList.ext ?_
  show (⟨k, v⟩ :: List.kerase k m.entries).filter (fun e => S e.1) =
    m.entries.filter fun e => S e.1
  rw [List.filter_cons, if_neg (by rw [hk]; exact Bool.false_ne_true), filter_kerase_of_not_mem hk]

end Go
