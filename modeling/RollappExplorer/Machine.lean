/-
  The abstract indexer, second part: the machine that asks for the blocks of a range
  and works off the answer.

  * `Step`: its transitions; a batch may break off at any moment, and the heights it
    was for may then be marked or not;
  * `NoLoss.step`: every height up to the latest one stays indexed or failed, when only
    new blocks are indexed and the answers cover their ranges;
  * `Contiguous.step`, `Skips.failed_iff`: the heights a retry skips are failed iff
    those above the upstream's latest height are;
  * `Written.step`: below a failed height, the heights above the latest one are failed or have
    been left unwritten;
  * `Separate.step`: a height that is indexed and failed has been indexed by a batch
    that broke off, when every answer lists a height once;
  * `Accounted.step`, `Retried.step`: what one batch leaves behind.
-/
import RollappExplorer.Ledger

namespace RollappExplorer

variable {ι : Type} [LinearOrder ι]

/-! ## Transitions -/

/-- What a batch is for, while the upstream's latest height is `upstream`: the new blocks
    of a range, or the retry of a failed height. -/
inductive Purpose (ι : Type) where
  | newBlocks (f t upstream : ι)
  | retry (h upstream : ι)

/-- The first height of the batch. -/
def Purpose.lo : Purpose ι → ι
  | .newBlocks f _ _ => f
  | .retry h _ => h

/-- The last height of the batch. -/
def Purpose.hi : Purpose ι → ι
  | .newBlocks _ t _ => t
  | .retry h _ => h

inductive Phase (ι : Type) where
  | idle
  | asked (p : Purpose ι)
  | working (p : Purpose ι) (all todo : List (Task ι))
  | broken (p : Purpose ι)
  | halted

/-- The phase after a batch that broke off. -/
def Purpose.ended : Purpose ι → Phase ι
  | .newBlocks _ _ _ => .halted
  | .retry _ _ => .idle

/-- A state: `decided` holds once a block has been indexed or a batch broke off. -/
structure Machine (ι : Type) where
  ledger : Ledger ι
  phase : Phase ι
  decided : Prop

/-- What a batch may be for. -/
def Eligible (s : Ledger ι) : Purpose ι → Prop
  | .newBlocks f t _ => s.latest < f ∧ f ≤ t ∧ (∀ k, s.latest < k → k < f → k ∈ s.failed) ∧
      ∀ k, f ≤ k → k ≤ t → k ∉ s.failed
  | .retry h u => h ∈ s.failed ∧ ∀ k, s.latest < k → k < h → k ≤ u → k ∈ s.failed

/-- The ledger once the batch has been asked for. -/
def Ledger.asked (s : Ledger ι) : Purpose ι → Ledger ι
  | .newBlocks f t _ => s.ask (Set.Icc f t)
  | .retry _ _ => s

@[simp] theorem Ledger.latest_asked (s : Ledger ι) (p : Purpose ι) :
    (s.asked p).latest = s.latest := by cases p <;> rfl

/-- What is assumed of the answers, and what batches are asked for. -/
structure Rules (ι : Type) where
  answers : ι → ι → List (Task ι) → Prop
  asks : Purpose ι → Prop

inductive Step (R : Rules ι) : Machine ι → Machine ι → Prop
  | ask {s : Ledger ι} {D : Prop} {p : Purpose ι} : R.asks p → Eligible s p →
      Step R ⟨s, .idle, D⟩ ⟨s, .asked p, D⟩
  | refuse {s : Ledger ι} {D D' : Prop} {p : Purpose ι} : D' →
      Step R ⟨s, .asked p, D⟩ ⟨s.asked p, .broken p, D'⟩
  | answer {s : Ledger ι} {D : Prop} {p : Purpose ι} {all : List (Task ι)} :
      R.answers p.lo p.hi all → (∀ k, Listed all k → p.lo ≤ k ∧ k ≤ p.hi) → Ordered all →
      Step R ⟨s, .asked p, D⟩ ⟨s.asked p, .working p all all, D⟩
  | work {s s' : Ledger ι} {D D' : Prop} {p : Purpose ι} {a : Task ι} {all todo : List (Task ι)}
      {b : Bool} : Work a b s s' → (D' ↔ D ∨ b = true) →
      Step R ⟨s, .working p all (a :: todo), D⟩ ⟨s', .working p all todo, D'⟩
  | fail {s : Ledger ι} {D D' : Prop} {p : Purpose ι} {all todo : List (Task ι)} : D' →
      Step R ⟨s, .working p all todo, D⟩ ⟨s, .broken p, D'⟩
  | done {s : Ledger ι} {D : Prop} {f t u : ι} {all : List (Task ι)} :
      Step R ⟨s, .working (.newBlocks f t u) all [], D⟩ ⟨s, .idle, D⟩
  | forget {s : Ledger ι} {D : Prop} {h u : ι} {all : List (Task ι)} :
      Step R ⟨s, .working (.retry h u) all [], D⟩ ⟨s.forget h, .idle, D⟩
  | keep {s : Ledger ι} {D D' : Prop} {h u : ι} {all : List (Task ι)} : D' →
      Step R ⟨s, .working (.retry h u) all [], D⟩ ⟨s, .idle, D'⟩
  | mark {s : Ledger ι} {D : Prop} {p : Purpose ι} :
      Step R ⟨s, .broken p, D⟩ ⟨s.mark (Set.Icc p.lo p.hi), p.ended, D⟩
  | giveUp {s : Ledger ι} {D D' : Prop} {p : Purpose ι} : D' →
      Step R ⟨s, .broken p, D⟩ ⟨s, p.ended, D'⟩

/-- A restart at any moment keeps the ledger. -/
def Machine.restart (m : Machine ι) : Machine ι := { m with phase := .idle }

variable {R : Rules ι} {m m' : Machine ι} {o : ι}

/-- The latest height never decreases. -/
theorem Step.latest_le (h : Step R m m') : m.ledger.latest ≤ m'.ledger.latest := by
  cases h with
  | work hw _ => exact hw.latest_le
  | @refuse s _ _ p | @answer s _ p => exact le_of_eq (s.latest_asked p).symm
  | _ => exact le_rfl

/-- The latest height is raised only by working off a task. -/
theorem Step.work_of_lt (h : Step R m m') (hl : m.ledger.latest < m'.ledger.latest) :
    ∃ p a all todo b, m.phase = .working p all (a :: todo) ∧ Work a b m.ledger m'.ledger := by
  cases h with
  | work hw _ => exact ⟨_, _, _, _, _, rfl, hw⟩
  | @refuse s _ _ p | @answer s _ p => exact absurd hl (ge_of_eq (s.latest_asked p).symm).not_gt
  | _ => exact absurd hl (lt_irrefl _)

/-! ## No height is lost -/

/-- The answers list every height of their range. -/
def Rules.Covering (R : Rules ι) : Prop :=
  ∀ f t all, R.answers f t all → ∀ k, f ≤ k → k ≤ t → Listed all k

/-- The heights of a batch that are not covered yet are still listed. -/
def NoLoss.At (o : ι) (s : Ledger ι) : Phase ι → Prop
  | .asked (.newBlocks f _ _) => ∀ k, o < k → k < f → s.Covered k
  | .working (.newBlocks f t _) _ todo => (∀ k, o < k → k < f → s.Covered k) ∧
      (∀ k, f ≤ k → k ≤ t → s.Covered k ∨ Listed todo k) ∧
      (∀ k, Listed todo k → f ≤ k ∧ k ≤ t) ∧ Ordered todo
  | .asked (.retry _ _) | .working (.retry _ _) _ _ => False
  | _ => True

/-- Every height above `o` up to the latest one is indexed or failed. -/
structure NoLoss (o : ι) (m : Machine ι) : Prop where
  covered : ∀ k, o < k → k ≤ m.ledger.latest → m.ledger.Covered k
  at_phase : NoLoss.At o m.ledger m.phase

theorem NoLoss.restart (h : NoLoss o m) : NoLoss o m.restart := ⟨h.covered, trivial⟩

/-- Indexing the block of the smallest height that is not covered loses no height. -/
theorem NoLoss.work {s s' : Ledger ι} {D D' : Prop} {f t u : ι} {a : Task ι}
    {all todo : List (Task ι)} {b : Bool}
    (h : NoLoss o ⟨s, .working (.newBlocks f t u) all (a :: todo), D⟩) (hw : Work a b s s') :
    NoLoss o ⟨s', .working (.newBlocks f t u) all todo, D'⟩ := by
  obtain ⟨hcov, hbelow, hrange, hin, hord⟩ := h
  have hrest : ∀ k, f ≤ k → k ≤ t → s'.Covered k ∨ Listed todo k := by
    intro k hf ht
    rcases hrange k hf ht with hk | hk
    · exact Or.inl (hw.covered (Or.inl hk))
    · rcases (listed_cons k).1 hk with hk | hk
      · exact Or.inl (hw.covered (Or.inr hk))
      · exact Or.inr hk
  have hbelow' : ∀ k, o < k → k < f → s'.Covered k := fun k ho hf =>
    hw.covered (Or.inl (hbelow k ho hf))
  refine ⟨fun k ho hk => ?_, hbelow', hrest, fun k hk => hin k ((listed_cons k).2 (Or.inr hk)),
    (List.pairwise_cons.1 hord).2⟩
  rcases hw.latest_eq with he | he
  · have hks : k ≤ s.latest := le_of_le_of_eq hk he
    exact hw.covered (Or.inl (hcov k ho hks))
  · -- the latest height is now the one of the block; what is still listed is not below it
    subst he
    by_cases hf : k < f
    · exact hbelow' k ho hf
    · have ht : s'.latest ≤ t := (hin _ ((listed_cons _).2 (Or.inl (List.mem_singleton_self _)))).2
      rcases hrest k (not_lt.1 hf) (le_trans hk ht) with hc | ⟨a', ha', hka⟩
      · exact hc
      · have hle := (List.pairwise_cons.1 hord).1 a' ha' _ rfl k hka
        obtain rfl : k = s'.latest := le_antisymm hk hle
        exact hw.covered (Or.inr (List.mem_singleton_self _))

/-- **No height is lost** by a step. -/
theorem NoLoss.step (hR : ∀ h u, ¬ R.asks (.retry h u)) (hc : R.Covering) (h : NoLoss o m)
    (hs : Step R m m') : NoLoss o m' := by
  cases hs with
  | @ask s D p ha he =>
    refine ⟨h.covered, ?_⟩
    cases p with
    | retry h' u => exact hR h' u ha
    | newBlocks f t u =>
      intro k ho hf
      by_cases hk : k ≤ s.latest
      · exact h.covered k ho hk
      · exact Or.inr (he.2.2.1 k (not_le.1 hk) hf)
  | @refuse s D D' p _ =>
    cases p with
    | retry h' u => exact ⟨h.covered, trivial⟩
    | newBlocks f t u => exact ⟨h.covered, trivial⟩
  | fail | done => exact ⟨h.covered, trivial⟩
  | @answer s D p all ha hin hord =>
    cases p with
    | retry h' u => exact ⟨h.covered, h.at_phase⟩
    | newBlocks f t u =>
      exact ⟨h.covered, h.at_phase, fun k hf ht => Or.inr (hc _ _ _ ha k hf ht), hin, hord⟩
  | @work s s' D D' p a all todo b hw _ =>
    cases p with
    | retry h' u => exact h.at_phase.elim
    | newBlocks f t u => exact h.work hw
  | forget | keep => exact h.at_phase.elim
  | @mark s D p =>
    refine ⟨fun k ho hk => (h.covered k ho hk).imp_right Or.inl, ?_⟩
    cases p <;> trivial
  | @giveUp s D D' p =>
    refine ⟨h.covered, ?_⟩
    cases p <;> trivial

/-! ## What a retry skips -/

/-- The heights between the latest one and `h` are failed up to `u`, if there are any. -/
def Skips (s : Ledger ι) (h u : ι) : Prop :=
  h ≤ s.latest ∨ ∀ k, s.latest < k → k < h → k ≤ u → k ∈ s.failed

/-- Between the latest height and the ones being worked on, every height is failed. -/
def Contiguous.At (s : Ledger ι) : Phase ι → Prop
  | .asked (.newBlocks f _ _) => ∀ k, s.latest < k → k < f → k ∈ s.failed
  | .working (.newBlocks f t _) _ todo => (∀ k, s.latest < k → k < f → k ∈ s.failed) ∧
      (∀ k, f ≤ k → k ≤ t → k ≤ s.latest ∨ k ∈ s.failed ∨ Listed todo k) ∧
      ∀ k, Listed todo k → f ≤ k ∧ k ≤ t
  | .asked (.retry h u) => Skips s h u
  | .working (.retry h u) _ todo => Skips s h u ∧ ∀ k, Listed todo k → k = h
  | _ => True

structure Contiguous (o : ι) (m : Machine ι) : Prop where
  latest : o ≤ m.ledger.latest
  at_phase : Contiguous.At m.ledger m.phase

theorem Contiguous.restart (h : Contiguous o m) : Contiguous o m.restart := ⟨h.latest, trivial⟩

theorem Contiguous.work_newBlocks {s s' : Ledger ι} {f t u : ι} {a : Task ι}
    {all todo : List (Task ι)} {b : Bool}
    (h : Contiguous.At s (.working (.newBlocks f t u) all (a :: todo))) (hw : Work a b s s') :
    Contiguous.At s' (.working (.newBlocks f t u) all todo) := by
  obtain ⟨hbelow, hrange, hin⟩ := h
  have ha : ∀ k ∈ a.heights, f ≤ k := fun k hk => (hin k ((listed_cons k).2 (Or.inl hk))).1
  refine ⟨fun k hl hf => ?_, fun k hf ht => ?_, fun k hk => hin k ((listed_cons k).2 (Or.inr hk))⟩
  · have hk : k ∉ a.heights := fun hk => absurd (ha k hk) (not_le.2 hf)
    exact (hw.failed_iff hk).2 (hbelow k (lt_of_le_of_lt hw.latest_le hl) hf)
  · by_cases hk : k ∈ a.heights
    · rcases hw.reached hk with h | h
      · exact Or.inr (Or.inl h)
      · exact Or.inl h
    · rcases hrange k hf ht with h | h | h
      · exact Or.inl (le_trans h hw.latest_le)
      · exact Or.inr (Or.inl ((hw.failed_iff hk).2 h))
      · exact Or.inr (Or.inr (((listed_cons k).1 h).resolve_left hk))

theorem Contiguous.work_retry {s s' : Ledger ι} {h u : ι} {a : Task ι} {all todo : List (Task ι)}
    {b : Bool} (hc : Contiguous.At s (.working (.retry h u) all (a :: todo)))
    (hw : Work a b s s') : Contiguous.At s' (.working (.retry h u) all todo) := by
  obtain ⟨hskip, hin⟩ := hc
  refine ⟨?_, fun k hk => hin k ((listed_cons k).2 (Or.inr hk))⟩
  rcases hw.latest_eq with he | he
  · rcases hskip with hl | hl
    · exact Or.inl (le_of_le_of_eq hl he.symm)
    · refine Or.inr fun k hk hkh hku => ?_
      rw [he] at hk
      have hka : k ∉ a.heights := fun hka =>
        absurd (hin k ((listed_cons k).2 (Or.inl hka))) (ne_of_lt hkh)
      exact (hw.failed_iff hka).2 (hl k hk hkh hku)
  · subst he
    exact Or.inl (ge_of_eq (hin _ ((listed_cons _).2 (Or.inl (List.mem_singleton_self _)))))

/-- **Contiguity** is kept by a step. -/
theorem Contiguous.step (hc : R.Covering) (h : Contiguous o m)
    (hs : Step R m m') : Contiguous o m' := by
  refine ⟨le_trans h.latest hs.latest_le, ?_⟩
  cases hs with
  | @ask s D p _ he =>
    cases p with
    | newBlocks f t u => exact he.2.2.1
    | retry h' u => exact Or.inr he.2
  | @answer s D p all ha hin _ =>
    cases p with
    | newBlocks f t u =>
      exact ⟨h.at_phase, fun k hf ht => Or.inr (Or.inr (hc _ _ _ ha k hf ht)), hin⟩
    | retry h' u => exact ⟨h.at_phase, fun k hk => le_antisymm (hin k hk).2 (hin k hk).1⟩
  | @work s s' D D' p a all todo b hw _ =>
    cases p with
    | newBlocks f t u => exact Contiguous.work_newBlocks h.at_phase hw
    | retry h' u => exact Contiguous.work_retry h.at_phase hw
  | refuse | fail | done | forget | keep => trivial
  | @mark s D p => cases p <;> trivial
  | @giveUp s D D' p => cases p <;> trivial

/-- A completed batch of new blocks leaves no gap above the latest height. -/
theorem Contiguous.gapless {s : Ledger ι} {D : Prop} {f t u : ι} {all : List (Task ι)}
    (h : Contiguous o ⟨s, .working (.newBlocks f t u) all [], D⟩) {k : ι} (hl : s.latest < k)
    (ht : k ≤ t) : k ∈ s.failed := by
  obtain ⟨hbelow, hrange, -⟩ := h.at_phase
  by_cases hf : k < f
  · exact hbelow k hl hf
  · rcases hrange k (not_lt.1 hf) ht with h | h | h
    · exact absurd h (not_le.2 hl)
    · exact h
    · exact absurd h (listed_nil k)

/-! ## Heights with nothing written -/

/-- Every height above the latest one is failed or unwritten, up to `u`. -/
def Ledger.Known (s : Ledger ι) (u : ι) : Prop :=
  ∀ k, s.latest < k → k ≤ u → k ∈ s.failed ∨ k ∈ s.unwritten

section
variable {s s' : Ledger ι} {u u' : ι}

theorem Ledger.Known.mono (h : s.Known u) (hu : u' ≤ u) : s.Known u' :=
  fun k hl hk => h k hl (le_trans hk hu)

theorem Ledger.Known.mark (h : s.Known u) (hs : Set ι) : (s.mark hs).Known u := by
  intro k hl hk
  by_cases hks : k ∈ hs
  · exact Or.inl (Or.inr hks)
  · exact (h k hl hk).imp Or.inl fun hw => ⟨hw, hks⟩

theorem Ledger.Known.forget (h : s.Known u) (h' : ι) : (s.forget h').Known u := by
  intro k hl hk
  by_cases hkh : k = h'
  · exact Or.inr (Or.inl hkh)
  · exact (h k hl hk).imp (fun hf => ⟨hf, hkh⟩) Or.inr

theorem Ledger.Known.record (h : s.Known u) (h' : ι) : (s.record h').Known u :=
  fun k hl hk => h k (lt_of_le_of_lt (le_max_left _ _) hl) hk

theorem Ledger.Known.commit (h : s.Known u) (h' : ι) : (s.commit h').Known u := by
  intro k hl hk
  have hne : k ≠ h' := ne_of_gt (lt_of_le_of_lt (le_max_right _ _) hl)
  exact (h.record h' k hl hk).imp_left fun hf => ⟨hf, hne⟩

theorem Ledger.Known.work {a : Task ι} {b : Bool} (h : s.Known u) (hw : Work a b s s') :
    s'.Known u := by
  cases hw with
  | report hs | mark h' => exact h.mark _
  | record h' => exact h.record h'
  | commit h' => exact h.commit h'

end

/-- Up to the last height of a batch, the heights are failed or unwritten. -/
def Written.At (s : Ledger ι) : Phase ι → Prop
  | .asked (.newBlocks f t _) => (∀ k, s.latest < k → k < f → k ∈ s.failed) ∧
      ∀ k, f ≤ k → k ≤ t → k ∉ s.failed
  | .asked (.retry h _) => s.Known h
  | .working p _ todo => s.Known p.hi ∧ ∀ k, Listed todo k → k ≤ p.hi
  | .broken p => s.Known p.hi
  | _ => True

/-- Below a failed height, the heights above the latest one are failed, or else unwritten. -/
structure Written (m : Machine ι) : Prop where
  known : ∀ h ∈ m.ledger.failed, m.ledger.Known h
  apart : ∀ k ∈ m.ledger.unwritten, k ∉ m.ledger.failed
  at_phase : Written.At m.ledger m.phase

theorem Written.restart (h : Written m) : Written m.restart := ⟨h.known, h.apart, trivial⟩

/-- The batch has been asked for. -/
theorem Written.asked {s : Ledger ι} {D : Prop} {p : Purpose ι} (h : Written ⟨s, .asked p, D⟩) :
    (∀ k ∈ (s.asked p).failed, (s.asked p).Known k) ∧
      (∀ k ∈ (s.asked p).unwritten, k ∉ (s.asked p).failed) ∧ (s.asked p).Known p.hi := by
  cases p with
  | retry h' u => exact ⟨h.known, h.apart, h.at_phase⟩
  | newBlocks f t u =>
    obtain ⟨hbelow, hfree⟩ := h.at_phase
    refine ⟨fun k hf j hl hj => (h.known k hf j hl hj).imp_right Or.inr, ?_, fun k hl hk => ?_⟩
    · rintro k (hk | hk)
      · exact hfree k hk.1 hk.2
      · exact h.apart k hk
    · by_cases hf : k < f
      · exact Or.inl (hbelow k hl hf)
      · exact Or.inr (Or.inl ⟨not_lt.1 hf, hk⟩)

theorem Written.work {s s' : Ledger ι} {D D' : Prop} {p : Purpose ι} {a : Task ι}
    {all todo : List (Task ι)} {b : Bool} (h : Written ⟨s, .working p all (a :: todo), D⟩)
    (hw : Work a b s s') : Written ⟨s', .working p all todo, D'⟩ := by
  obtain ⟨hknown, hapart, hhi, hin⟩ := h
  refine ⟨fun k hk => ?_, fun k hk hf => ?_, hhi.work hw,
    fun k hk => hin k ((listed_cons k).2 (Or.inr hk))⟩
  · by_cases hka : k ∈ a.heights
    · exact (hhi.work hw).mono (hin k ((listed_cons k).2 (Or.inl hka)))
    · exact (hknown k ((hw.failed_iff hka).1 hk)).work hw
  · cases hw with
    | report hs | mark h' =>
      rcases hf with hf | hf
      · exact hapart k hk.1 hf
      · exact hk.2 hf
    | record h' => exact hapart k hk hf
    | commit h' => exact hapart k hk hf.1

/-- **What is written** is kept by a step. -/
theorem Written.step (h : Written m) (hs : Step R m m') : Written m' := by
  cases hs with
  | @ask s D p _ he =>
    refine ⟨h.known, h.apart, ?_⟩
    cases p with
    | newBlocks f t u => exact he.2.2
    | retry h' u => exact h.known h' he.1
  | refuse _ =>
    obtain ⟨hknown, hapart, hhi⟩ := h.asked
    exact ⟨hknown, hapart, hhi⟩
  | answer _ hin _ =>
    obtain ⟨hknown, hapart, hhi⟩ := h.asked
    exact ⟨hknown, hapart, hhi, fun k hk => (hin k hk).2⟩
  | work hw _ => exact h.work hw
  | fail _ => exact ⟨h.known, h.apart, h.at_phase.1⟩
  | done | keep _ => exact ⟨h.known, h.apart, trivial⟩
  | @forget s D h' u all =>
    refine ⟨fun k hk => (h.known k hk.1).forget h', ?_, trivial⟩
    rintro k (rfl | hk) hf
    · exact hf.2 rfl
    · exact h.apart k hk hf.1
  | @mark s D p =>
    refine ⟨?_, ?_, by cases p <;> trivial⟩
    · rintro k (hk | hk)
      · exact (h.known k hk).mark _
      · exact (Ledger.Known.mark h.at_phase _).mono hk.2
    · rintro k ⟨hk, hks⟩ (hf | hf)
      · exact h.apart k hk hf
      · exact hks hf
  | @giveUp s D D' p _ => exact ⟨h.known, h.apart, by cases p <;> trivial⟩

/-- **What a retry skips** is failed iff none of it above the upstream's latest height is
    unwritten. -/
theorem Skips.failed_iff {s : Ledger ι} {h u : ι} (hs : Skips s h u) (hk : s.Known h)
    (ha : ∀ k ∈ s.unwritten, k ∉ s.failed) :
    (∀ k, s.latest < k → k < h → k ∈ s.failed) ↔
      ∀ k, max s.latest u < k → k < h → k ∉ s.unwritten := by
  constructor
  · intro hall k hlu hkh hw
    exact ha k hw (hall k (lt_of_le_of_lt (le_max_left _ _) hlu) hkh)
  · intro hnone k hl hkh
    rcases hs with hle | hle
    · exact absurd (lt_trans hl hkh) (not_lt.2 hle)
    · by_cases hku : k ≤ u
      · exact hle k hl hkh hku
      · exact (hk k hl (le_of_lt hkh)).resolve_right (hnone k (max_lt hl (not_le.1 hku)) hkh)

/-! ## Heights that are both indexed and failed -/

/-- The answers list no height twice. -/
def Rules.Once (R : Rules ι) : Prop :=
  ∀ f t all, R.answers f t all →
    all.Pairwise fun a b : Task ι => ∀ k ∈ a.heights, k ∉ b.heights

/-- Where the heights that are both indexed and failed come from: the set `B`, or the
    batch that has broken off since `s₀`. -/
def Separate.At (s₀ : Ledger ι) (B : Set ι) (s : Ledger ι) : Phase ι → Prop
  | .idle => ∀ k ∈ s.indexed, k ∈ s.failed → k ∈ B
  | .asked (.newBlocks f t _) => (∀ k ∈ s.indexed, k ∈ s.failed → k ∈ B) ∧
      (∀ k ∈ s.indexed, k < f) ∧ (∀ k, f ≤ k → k ≤ t → k ∉ s.failed) ∧ ∀ k ∈ s₀.indexed, k < f
  | .working (.newBlocks f _ _) _ todo => (∀ k ∈ s.indexed, k ∈ s.failed → k ∈ B) ∧
      (∀ k, Listed todo k → k ∉ s.indexed ∧ k ∉ s.failed) ∧
      (todo.Pairwise fun a b => ∀ k ∈ a.heights, k ∉ b.heights) ∧ ∀ k ∈ s₀.indexed, k < f
  | .broken (.newBlocks f _ _) => (∀ k ∈ s.indexed, k ∈ s.failed → k ∈ B) ∧ ∀ k ∈ s₀.indexed, k < f
  | .halted => ∀ k ∈ s.indexed, k ∈ s.failed → k ∈ B ∨ k ∉ s₀.indexed
  | _ => False

structure Separate (o : ι) (s₀ : Ledger ι) (B : Set ι) (m : Machine ι) : Prop where
  latest : o ≤ m.ledger.latest
  kept : ∀ k ∈ s₀.indexed, k ∈ m.ledger.indexed
  le_latest : ∀ k ∈ m.ledger.indexed, k ≤ m.ledger.latest
  at_phase : Separate.At s₀ B m.ledger m.phase

theorem Separate.work {s₀ s s' : Ledger ι} {B : Set ι} {f t u : ι} {a : Task ι}
    {all todo : List (Task ι)} {b : Bool}
    (h : Separate.At s₀ B s (.working (.newBlocks f t u) all (a :: todo))) (hw : Work a b s s') :
    Separate.At s₀ B s' (.working (.newBlocks f t u) all todo) := by
  obtain ⟨hB, hfresh, honce, hs₀⟩ := h
  have hother : ∀ k, Listed todo k → k ∉ a.heights := by
    rintro k ⟨c, hc, hkc⟩ hka
    exact (List.pairwise_cons.1 honce).1 c hc k hka hkc
  refine ⟨fun k hi hf => ?_, fun k hk => ?_, (List.pairwise_cons.1 honce).2, hs₀⟩
  · by_cases hka : k ∈ a.heights
    · obtain ⟨hni, hnf⟩ := hfresh k ((listed_cons k).2 (Or.inl hka))
      -- a fresh height is either indexed or marked
      cases hw with
      | report hs | mark h => exact absurd hi hni
      | record h => exact absurd hf hnf
      | commit h => exact absurd (List.mem_singleton.1 hka) hf.2
    · have hi' := (hw.indexed_iff.1 hi).resolve_right fun h => hka h.2
      exact hB k hi' ((hw.failed_iff hka).1 hf)
  · have hka := hother k hk
    obtain ⟨hni, hnf⟩ := hfresh k ((listed_cons k).2 (Or.inr hk))
    exact ⟨fun hi => hni ((hw.indexed_iff.1 hi).resolve_right fun h => hka h.2),
      fun hf => hnf ((hw.failed_iff hka).1 hf)⟩

/-- **Separateness** is kept by a step. -/
theorem Separate.step {s₀ : Ledger ι} {B : Set ι} (hR : ∀ h u, ¬ R.asks (.retry h u)) (ho : R.Once)
    (h : Separate o s₀ B m) (hs : Step R m m') : Separate o s₀ B m' := by
  obtain ⟨hlatest, hkept, hle, hat⟩ := h
  have hlatest' := le_trans hlatest hs.latest_le
  cases hs with
  | @ask s D p ha he =>
    refine ⟨hlatest', hkept, hle, ?_⟩
    cases p with
    | retry h' u => exact hR h' u ha
    | newBlocks f t u =>
      have hlt : ∀ k ∈ s.indexed, k < f := fun k hk => lt_of_le_of_lt (hle k hk) he.1
      exact ⟨hat, hlt, he.2.2.2, fun k hk => hlt k (hkept k hk)⟩
  | @refuse s D D' p _ =>
    cases p with
    | retry h' u => exact hat.elim
    | newBlocks f t u => exact ⟨hlatest', hkept, hle, hat.1, hat.2.2.2⟩
  | @answer s D p all ha hin _ =>
    cases p with
    | retry h' u => exact hat.elim
    | newBlocks f t u =>
      obtain ⟨hB, hlt, hfresh, hs₀⟩ := hat
      refine ⟨hlatest', hkept, hle, hB,
        fun k hk => ⟨fun hi => ?_, hfresh k (hin k hk).1 (hin k hk).2⟩, ho _ _ _ ha, hs₀⟩
      exact absurd (hlt k hi) (not_lt.2 (hin k hk).1)
  | @work s s' D D' p a all todo b hw _ =>
    cases p with
    | retry h' u => exact hat.elim
    | newBlocks f t u =>
      refine ⟨hlatest', fun k hk => hw.indexed_iff.2 (Or.inl (hkept k hk)), fun k hk => ?_,
        Separate.work hat hw⟩
      rcases hw.indexed_iff.1 hk with hi | ⟨rfl, hka⟩
      · exact le_trans (hle k hi) hw.latest_le
      · cases hw with
        | record h | commit h => exact List.mem_singleton.1 hka ▸ le_max_right _ _
  | @fail s D D' p all todo _ =>
    refine ⟨hlatest', hkept, hle, ?_⟩
    cases p with
    | retry h' u => exact hat
    | newBlocks f t u => exact ⟨hat.1, hat.2.2.2⟩
  | done => exact ⟨hlatest', hkept, hle, hat.1⟩
  | forget | keep => exact hat.elim
  | @mark s D p =>
    refine ⟨hlatest', hkept, hle, ?_⟩
    cases p with
    | retry h' u => exact hat.elim
    | newBlocks f t u =>
      rintro k hi (hf | hf)
      · exact Or.inl (hat.1 k hi hf)
      · exact Or.inr fun hk => absurd (hat.2 k hk) (not_lt.2 hf.1)
  | @giveUp s D D' p _ =>
    refine ⟨hlatest', hkept, hle, ?_⟩
    cases p with
    | retry h' u => exact hat.elim
    | newBlocks f t u => exact fun k hi hf => Or.inl (hat.1 k hi hf)

/-! ## One batch -/

/-- What is covered: what was in the ledger `s₀`, and the heights of `L` that are no longer to be
    worked on. -/
def Accounted.At (s₀ : Ledger ι) (L : Set ι) (s : Ledger ι) : Phase ι → Prop
  | .asked _ => ∀ k, s.Covered k ↔ s₀.Covered k
  | .working _ _ todo => (∀ k, Listed todo k → k ∈ L) ∧
      (∀ k, s.Covered k → s₀.Covered k ∨ k ∈ L) ∧
      ∀ k, s₀.Covered k ∨ k ∈ L → s.Covered k ∨ Listed todo k
  | _ => True

/-- One batch, from the ledger `s₀`, with an answer that lists the heights of `L`. -/
def Accounted (s₀ : Ledger ι) (L : Set ι) (m : Machine ι) : Prop :=
  Accounted.At s₀ L m.ledger m.phase

theorem Ledger.covered_asked (s : Ledger ι) (p : Purpose ι) (k : ι) :
    (s.asked p).Covered k ↔ s.Covered k := by cases p <;> rfl

theorem Accounted.At.work {s₀ s s' : Ledger ι} {L : Set ι} {p : Purpose ι} {a : Task ι}
    {all todo : List (Task ι)} {b : Bool}
    (h : Accounted.At s₀ L s (.working p all (a :: todo))) (hw : Work a b s s') :
    Accounted.At s₀ L s' (.working p all todo) := by
  obtain ⟨hlisted, hback, hforth⟩ := h
  refine ⟨fun k hk => hlisted k ((listed_cons k).2 (Or.inr hk)), fun k hk => ?_, fun k hk => ?_⟩
  · by_cases hka : k ∈ a.heights
    · exact Or.inr (hlisted k ((listed_cons k).2 (Or.inl hka)))
    · refine hback k (hk.imp (fun hi => ?_) (hw.failed_iff hka).1)
      exact (hw.indexed_iff.1 hi).resolve_right fun h => hka h.2
  · rcases hforth k hk with hc | hl
    · exact Or.inl (hw.covered (Or.inl hc))
    · rcases (listed_cons k).1 hl with ha | hl
      · exact Or.inl (hw.covered (Or.inr ha))
      · exact Or.inr hl

/-- **What a batch covers** is kept by a step. -/
theorem Accounted.step {s₀ : Ledger ι} {L : Set ι} (hR : ∀ p, ¬ R.asks p)
    (hL : ∀ f t all, R.answers f t all → ∀ k, Listed all k ↔ k ∈ L) (h : Accounted s₀ L m)
    (hs : Step R m m') : Accounted s₀ L m' := by
  cases hs with
  | ask ha _ => exact absurd ha (hR _)
  | @answer s D p all ha _ _ =>
    have hc : ∀ k, (s.asked p).Covered k ↔ s₀.Covered k := fun k =>
      (s.covered_asked p k).trans (h k)
    have hall := hL _ _ _ ha
    exact ⟨fun k => (hall k).1, fun k hk => Or.inl ((hc k).1 hk),
      fun k hk => hk.imp (hc k).2 (hall k).2⟩
  | work hw _ => exact Accounted.At.work h hw
  | refuse _ | fail _ | done | forget | keep _ => exact trivial
  | @mark _ _ p => cases p <;> trivial
  | @giveUp _ _ _ p _ => cases p <;> trivial

/-- The height is given up only when it is indexed. -/
def Sound (s : Ledger ι) (h : ι) : Prop := h ∉ s.failed → h ∈ s.indexed

/-- A retry of the failed height `h`, from a ledger where nothing is indexed. -/
def Retried.At (h : ι) (s : Ledger ι) (D : Prop) : Phase ι → Prop
  | .idle => Sound s h ↔ D
  | .asked (.retry h' _) => h' = h ∧ h ∈ s.failed ∧ h ∉ s.indexed ∧ ¬ D
  | .working (.retry h' _) _ todo => h' = h ∧ Sound s h ∧ (h ∈ s.indexed ↔ D) ∧
      ∀ k, Listed todo k → k = h
  | .broken (.retry h' _) => h' = h ∧ Sound s h ∧ D
  | _ => False

def Retried (h : ι) (m : Machine ι) : Prop := Retried.At h m.ledger m.decided m.phase

/-- **A retry is sound** iff it is decided, at its end. -/
theorem Retried.step {h : ι} (hR : ∀ p, ¬ R.asks p) (hr : Retried h m) (hs : Step R m m') :
    Retried h m' := by
  cases hs with
  | ask ha _ => exact absurd ha (hR _)
  | @refuse s D D' p hD =>
    cases p with
    | newBlocks f t u => exact hr
    | retry h' u => exact ⟨hr.1, fun hf => absurd hr.2.1 hf, hD⟩
  | @answer s D p all _ hin _ =>
    cases p with
    | newBlocks f t u => exact hr
    | retry h' u =>
      obtain ⟨rfl, hf, hi, hD⟩ := hr
      exact ⟨rfl, fun hnf => absurd hf hnf, ⟨fun h => absurd h hi, fun h => absurd h hD⟩,
        fun k hk => le_antisymm (hin k hk).2 (hin k hk).1⟩
  | @work s s' D D' p a all todo b hw hD =>
    cases p with
    | newBlocks f t u => exact hr
    | retry h' u =>
      obtain ⟨rfl, hsound, hi, hin⟩ := hr
      refine ⟨rfl, fun hf => ?_, ?_, fun k hk => hin k ((listed_cons k).2 (Or.inr hk))⟩
      · have hc : s.Covered h' := by
          by_cases hf' : h' ∈ s.failed
          · exact Or.inr hf'
          · exact Or.inl (hsound hf')
        exact (hw.covered (Or.inl hc)).resolve_right hf
      · show h' ∈ s'.indexed ↔ D'
        rw [hw.indexed_iff, hD, hi]
        refine or_congr_right ⟨fun h => h.1, fun hb => ⟨hb, ?_⟩⟩
        -- what is indexed is the height of the block, and that is the one retried
        cases hw with
        | report hs | mark h => cases hb
        | record k | commit k =>
          exact List.mem_singleton.2
            (hin k ((listed_cons k).2 (Or.inl (List.mem_singleton_self k)))).symm
  | @fail s D D' p all todo hD =>
    cases p with
    | newBlocks f t u => exact hr
    | retry h' u => exact ⟨hr.1, hr.2.1, hD⟩
  | done => exact hr.elim
  | forget =>
    obtain ⟨rfl, -, hi, -⟩ := hr
    exact ⟨fun hs => hi.1 (hs fun hf => hf.2 rfl), fun hD _ => hi.2 hD⟩
  | keep hD =>
    obtain ⟨rfl, hsound, -, -⟩ := hr
    exact ⟨fun _ => hD, fun _ => hsound⟩
  | @mark s D p =>
    cases p with
    | newBlocks f t u => exact hr.elim
    | retry h' u =>
      obtain ⟨rfl, -, hD⟩ := hr
      exact ⟨fun _ => hD, fun _ hf => absurd (Or.inr ⟨le_rfl, le_rfl⟩) hf⟩
  | @giveUp s D D' p hD =>
    cases p with
    | newBlocks f t u => exact hr.elim
    | retry h' u => exact ⟨fun _ => hD, fun _ => hr.2.1⟩

end RollappExplorer
