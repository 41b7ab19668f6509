/-
  The abstract indexer, first part: ledgers of heights, and the tasks of a batch.

  A ledger holds the latest height, the heights recorded as failed, the heights indexed
  so far, and the heights with nothing written, over any linear order.  A batch works off
  what an answer lists: a height of a block is indexed or marked as failed, and every
  other height listed is marked.

  * `Work`: what working off a task does to the ledger;
  * `Work.covered`, `Work.reached`, `Work.failed_iff`, `Work.indexed_iff`: what becomes
    of the heights of the task, and of the others.
-/
import Mathlib.Data.Set.Insert
import Mathlib.Order.Interval.Set.Basic
import Mathlib.Order.MinMax

namespace RollappExplorer

variable {ι : Type} [LinearOrder ι]

/-! ## Ledgers -/

/-- The heights that are `unwritten` have been asked for as new ones, or have been forgotten,
    and have not been marked since. -/
@[ext] structure Ledger (ι : Type) where
  latest : ι
  failed : Set ι
  indexed : Set ι
  unwritten : Set ι

namespace Ledger
variable (s : Ledger ι)

/-- Record heights as failed. -/
def mark (hs : Set ι) : Ledger ι :=
  { s with failed := s.failed ∪ hs, unwritten := s.unwritten \ hs }

/-- Index a height without removing it from the failed ones. -/
def record (h : ι) : Ledger ι := { s with latest := max s.latest h, indexed := insert h s.indexed }

/-- Index a height and remove it from the failed ones. -/
def commit (h : ι) : Ledger ι := { s.record h with failed := s.failed \ {h} }

/-- Remove a height from the failed ones. -/
def forget (h : ι) : Ledger ι :=
  { s with failed := s.failed \ {h}, unwritten := insert h s.unwritten }

/-- Ask for new heights. -/
def ask (hs : Set ι) : Ledger ι := { s with unwritten := hs ∪ s.unwritten }

/-- The height is not lost. -/
def Covered (h : ι) : Prop := h ∈ s.indexed ∨ h ∈ s.failed

end Ledger

/-! ## Tasks -/

/-- What an answer lists: heights without a block, or the height of a block. -/
inductive Task (ι : Type) where
  | report (hs : List ι)
  | block (h : ι)

def Task.heights : Task ι → List ι
  | .report hs => hs
  | .block h => [h]

/-- No block comes before a smaller height. -/
def Ordered (todo : List (Task ι)) : Prop :=
  todo.Pairwise fun a b => ∀ h, a = .block h → ∀ k ∈ b.heights, h ≤ k

/-- A height some task lists. -/
def Listed (todo : List (Task ι)) (k : ι) : Prop := ∃ a ∈ todo, k ∈ a.heights

/-- Working off a task; the flag says whether a block has been indexed. -/
inductive Work : Task ι → Bool → Ledger ι → Ledger ι → Prop
  | report (hs : List ι) (s : Ledger ι) : Work (.report hs) false s (s.mark {k | k ∈ hs})
  | mark (h : ι) (s : Ledger ι) : Work (.block h) false s (s.mark {h})
  | record (h : ι) (s : Ledger ι) : Work (.block h) true s (s.record h)
  | commit (h : ι) (s : Ledger ι) : Work (.block h) true s (s.commit h)

variable {s s' : Ledger ι} {a : Task ι} {todo all : List (Task ι)} {b : Bool}

omit [LinearOrder ι] in
@[simp] theorem listed_nil (k : ι) : ¬ Listed ([] : List (Task ι)) k := by simp [Listed]

omit [LinearOrder ι] in
@[simp] theorem listed_cons (k : ι) : Listed (a :: todo) k ↔ k ∈ a.heights ∨ Listed todo k := by
  simp [Listed]

namespace Work

theorem latest_le (h : Work a b s s') : s.latest ≤ s'.latest := by
  cases h with
  | report hs | mark h => exact le_rfl
  | record h | commit h => exact le_max_left _ _

theorem covered (h : Work a b s s') {k : ι} (hk : s.Covered k ∨ k ∈ a.heights) : s'.Covered k := by
  cases h with
  | report hs | mark h =>
    rcases hk with (hk | hk) | hk
    · exact Or.inl hk
    · exact Or.inr (Or.inl hk)
    · exact Or.inr (Or.inr (by simpa [Task.heights] using hk))
  | record h =>
    rcases hk with (hk | hk) | hk
    · exact Or.inl (Or.inr hk)
    · exact Or.inr hk
    · exact Or.inl (Or.inl (List.mem_singleton.1 hk))
  | commit h =>
    by_cases hkh : k = h
    · exact Or.inl (Or.inl hkh)
    · rcases hk with (hk | hk) | hk
      · exact Or.inl (Or.inr hk)
      · exact Or.inr ⟨hk, hkh⟩
      · exact absurd (List.mem_singleton.1 hk) hkh

/-- The latest height is raised only to the height of a block. -/
theorem latest_eq (h : Work a b s s') : s'.latest = s.latest ∨ a = .block s'.latest := by
  cases h with
  | report hs | mark h => exact Or.inl rfl
  | record h | commit h =>
    rcases max_choice s.latest h with hm | hm
    · exact Or.inl hm
    · exact Or.inr (congrArg Task.block hm.symm)

/-- Heights of other tasks stay as they are. -/
theorem failed_iff (h : Work a b s s') {k : ι} (hk : k ∉ a.heights) :
    k ∈ s'.failed ↔ k ∈ s.failed := by
  cases h with
  | report hs | mark h =>
    have hk' : k ∉ _ := hk
    simp [Ledger.mark, Task.heights] at hk' ⊢
    exact fun h => absurd h hk'
  | record h => exact Iff.rfl
  | commit h => exact ⟨fun h => h.1, fun hf => ⟨hf, fun he => hk (List.mem_singleton.2 he)⟩⟩

/-- A height of the task becomes failed or at most the latest height. -/
theorem reached (h : Work a b s s') {k : ι} (hk : k ∈ a.heights) :
    k ∈ s'.failed ∨ k ≤ s'.latest := by
  cases h with
  | report hs | mark h => exact Or.inl (Or.inr (by simpa [Task.heights] using hk))
  | record h | commit h => exact Or.inr (List.mem_singleton.1 hk ▸ le_max_right _ _)

/-- What a task indexes. -/
theorem indexed_iff (h : Work a b s s') {k : ι} :
    k ∈ s'.indexed ↔ k ∈ s.indexed ∨ (b = true ∧ k ∈ a.heights) := by
  cases h with
  | report hs | mark h => simp [Ledger.mark]
  | record h | commit h => simp [Ledger.commit, Ledger.record, Task.heights, or_comm]

end Work

end RollappExplorer
