/-
  Arrays, sets and maps of JavaScript.

  * `arrayIndices`: the indices of a new array, whose length can be out of range;
  * `Set`: distinct elements in the order of their addition;
  * `Map`: one value for every key; `Map.setAll`: a map with entries that are set one by one;
  * `getProperty`: the value under a name, of an object that inherits from `Object.prototype`;
  * `Sorting`: `sort` with a comparison that need not be an order.
-/
import Mathlib.Algebra.Ring.Int.Defs
import Mathlib.Algebra.Ring.Nat
import Mathlib.Data.List.AList

namespace Js

/-! ## Arrays -/

/-- `RangeError` -/
structure RangeError where
  message : String

/-- `Array.from(Array(length))`, by the indices of its elements. -/
def arrayIndices (length : ℤ) : Except RangeError (List ℕ) :=
  if 0 ≤ length ∧ length < 2 ^ 32 then .ok (List.range length.toNat)
  else .error ⟨"Invalid array length"⟩

theorem arrayIndices_natCast {n : ℕ} (h : n < 2 ^ 32) :
    arrayIndices n = .ok (List.range n) := by
  unfold arrayIndices
  rw [if_pos ⟨Int.natCast_nonneg n, by exact_mod_cast h⟩, Int.toNat_natCast]

theorem arrayIndices_of_neg {length : ℤ} (h : length < 0) :
    arrayIndices length = .error ⟨"Invalid array length"⟩ :=
  if_neg fun hle => Int.not_le.2 h hle.1

/-! ## Sets -/

/-- `Set<α>` -/
structure Set (α : Type) where
  toList : List α
  nodup : toList.Nodup

namespace Set

variable {α : Type} [DecidableEq α]

instance : EmptyCollection (Set α) := ⟨[], List.nodup_nil⟩

/-- `add` -/
def add (s : Set α) (a : α) : Set α where
  toList := if a ∈ s.toList then s.toList else s.toList ++ [a]
  nodup := by
    split_ifs with ha
    · exact s.nodup
    · refine List.nodup_append.2 ⟨s.nodup, List.nodup_singleton a, ?_⟩
      rintro b hb _ hc rfl
      exact ha (List.mem_singleton.1 hc ▸ hb)

end Set

/-! ## Maps -/

/-- `Map<κ, υ>` -/
abbrev Map (κ υ : Type) := AList fun _ : κ => υ

namespace Map

variable {κ υ : Type} [DecidableEq κ] {m : Map κ υ} {k : κ} {v : υ} {entries : List (κ × υ)}

/-- The entries are set in their order. -/
def setAll (m : Map κ υ) (entries : List (κ × υ)) : Map κ υ :=
  entries.foldl (fun m entry => m.insert entry.1 entry.2) m

theorem lookup_setAll_of_notMem (h : k ∉ entries.map Prod.fst) :
    (m.setAll entries).lookup k = m.lookup k := by
  induction entries generalizing m with
  | nil => rfl
  | cons entry entries ih =>
    obtain ⟨hne, htail⟩ := not_or.1 (mt List.mem_cons.2 h)
    have hrest := ih (m := m.insert entry.1 entry.2) htail
    rw [AList.lookup_insert_ne hne] at hrest
    exact hrest

/-- Every entry is found if the keys are distinct. -/
theorem lookup_setAll (hnodup : (entries.map Prod.fst).Nodup) (h : (k, v) ∈ entries) :
    (m.setAll entries).lookup k = some v := by
  induction entries generalizing m with
  | nil => cases h
  | cons entry entries ih =>
    obtain ⟨hhead, htail⟩ := List.nodup_cons.1 hnodup
    rcases List.mem_cons.1 h with rfl | h
    · show (Map.setAll (m.insert k v) entries).lookup k = some v
      rw [lookup_setAll_of_notMem hhead, AList.lookup_insert]
    · exact ih htail h

end Map

/-! ## Properties -/

/-- The names of the properties of `Object.prototype`. -/
def objectPrototype : List String :=
  ["constructor", "hasOwnProperty", "isPrototypeOf", "propertyIsEnumerable", "toLocaleString",
    "toString", "valueOf", "__proto__", "__defineGetter__", "__defineSetter__",
    "__lookupGetter__", "__lookupSetter__"]

/-- What an object has under a name: a value of its own, or what it inherits. -/
inductive Property (υ : Type)
  | own (value : υ)
  | inherited

/-- A field of the value.  What is inherited has no such field. -/
def Property.field {υ α : Type} (f : υ → α) : Property υ → Option α
  | .own value => some (f value)
  | .inherited => none

section

variable {υ : Type} {object : Map String υ} {name : String} {value : υ}

/-- `object[name]`, of an object with the entries of a map. -/
def getProperty (object : Map String υ) (name : String) : Option (Property υ) :=
  match object.lookup name with
  | some value => some (.own value)
  | none => if name ∈ objectPrototype then some .inherited else none

theorem getProperty_of_lookup (h : object.lookup name = some value) :
    getProperty object name = some (.own value) := by
  unfold getProperty
  rw [h]

theorem getProperty_of_none (h : object.lookup name = none) (hname : name ∉ objectPrototype) :
    getProperty object name = none := by
  unfold getProperty
  rw [h]
  exact if_neg hname

theorem getProperty_of_inherited (h : object.lookup name = none) (hname : name ∈ objectPrototype) :
    getProperty object name = some .inherited := by
  unfold getProperty
  rw [h]
  exact if_pos hname

end

/-! ## Sorting -/

/-- `sort`.  If the comparison is no order, then the order of the elements is not specified. -/
structure Sorting where
  sort : {α : Type} → (α → α → ℤ) → List α → List α
  perm : ∀ {α : Type} (compare : α → α → ℤ) (l : List α), (sort compare l).Perm l

end Js
