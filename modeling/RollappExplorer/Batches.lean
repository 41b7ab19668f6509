/-
  Single batches: a range that is fetched and indexed, and a failed block that is retried.

  * `range_accounted_iff`: without a fatal error, every height of the range has been indexed
    or is recorded as failed iff the answer lists it, or it had been recorded before;
  * `retry_forgets_indexed_iff`: a retry forgets only an indexed block iff its plan is not
    in vain.
-/
import RollappExplorer.Iterations
import RollappExplorer.RetryPlan
import RollappExplorer.Scenario

namespace RollappExplorer

open Go Effect

variable {R : Type}

/-! ## Ranges -/

/-- The answers list these heights. -/
def Listing (heights : List ℤ) : Answers := fun _ _ res => res.heights = heights

instance (heights : List ℤ) (f t : ℤ) (res : TransformedResponseBeTransactionsInBlockRange) :
    Decidable (Listing heights f t res) := inferInstanceAs (Decidable (res.heights = heights))

/-- Without a fatal error, the heights indexed or recorded as failed are those recorded before
    and those that the answer lists. -/
theorem range_covered_iff {d : Indexer R} {f t : ℤ} {heights : List ℤ} {w w' : World R}
    {r : FetchResult} (hw : w.history = .start)
    (hrun : Run (environment d (Listing heights)) (fetchAndIndexingBlockRange d f t, w)
      (.ret r, w')) (hr : r.fatalError = none) (h : ℤ) :
    h ∈ w'.history.indexed ∨ h ∈ w'.db.failedBlock ↔ h ∈ heights ∨ h ∈ w.db.failedBlock := by
  have hserves : w.Serves (.newBlocks f t 0) := by
    rw [World.Serves, hw]
    exact ⟨rfl, rfl⟩
  have hlisted : ∀ f t all, (rulesOf (Listing heights) fun _ => False).answers f t all →
      ∀ k, Listed all k ↔ k ∈ {k | k ∈ heights} := by
    rintro f t _ ⟨res, rfl, rfl⟩ k
    exact listed_tasks
  have hclosed : Closed (rulesOf (Listing heights) fun _ => False)
      (Accounted w.ledger {k | k ∈ heights}) :=
    fun _ _ h hs => h.step (fun _ ha => ha) hlisted hs
  have hstart : Accounted w.ledger {k | k ∈ heights} (w.machine (.asked (.newBlocks f t 0))) :=
    fun _ => Iff.rfl
  have hwp := wp_fetchAndIndexingBlockRange (d := d) (F := True) (p := .newBlocks f t 0) hclosed
    ⟨hstart, hserves⟩ (fun res hres => ⟨res, hres, rfl⟩) fun _ => trivial
  have hfetched := Spec.wp_result hwp hrun
  rw [hr] at hfetched
  obtain ⟨all, ⟨-, hback, hforth⟩, -⟩ := hfetched
  have hbefore : w.ledger.Covered h ↔ h ∈ w.db.failedBlock := by
    rw [Ledger.Covered, World.ledger, hw]
    exact or_iff_right List.not_mem_nil
  have hcovered : w'.ledger.Covered h ↔ w.ledger.Covered h ∨ h ∈ heights :=
    ⟨hback h, fun hh => (hforth h hh).resolve_right (listed_nil h)⟩
  exact hcovered.trans ((or_congr_left hbefore).trans or_comm)

/-- **The heights of a range**: without a fatal error, all of them have been indexed or are
    recorded as failed iff each is listed by the answer, or had been recorded before. -/
theorem range_accounted_iff (d : Indexer R) (f t : ℤ) (heights : List ℤ) {w w' : World R}
    {r : FetchResult} (hw : w.history = .start)
    (hrun : Run (environment d (Listing heights)) (fetchAndIndexingBlockRange d f t, w)
      (.ret r, w')) (hr : r.fatalError = none) :
    (∀ h, f ≤ h → h ≤ t → h ∈ w'.history.indexed ∨ h ∈ w'.db.failedBlock) ↔
      ∀ h, f ≤ h → h ≤ t → h ∈ heights ∨ h ∈ w.db.failedBlock :=
  forall_congr' fun h => forall_congr' fun _ => forall_congr' fun _ =>
    range_covered_iff hw hrun hr h

/-- An upstream that lists the first block for the range of it, and else the second one. -/
def oneBlock : Scenario Unit where
  chainInfo _ := sampleChainInfo 2
  response f t _ := some (emptyBlocks [if (f, t) = (1, 1) then "1" else "2"] [])
  fails _ _ := false

theorem first_height_accounted : ∃ r w', r.fatalError = none ∧
    Run (environment (sampleIndexer false) (Listing [1]))
      (fetchAndIndexingBlockRange (sampleIndexer false) 1 1, freshWorld ()) (.ret r, w') ∧
    ∀ h, 1 ≤ h → h ≤ 1 → h ∈ w'.history.indexed ∨ h ∈ w'.db.failedBlock := by
  obtain ⟨r, hr, hrun⟩ := oneBlock.run (sampleIndexer false) (Listing [1]) (n := 10)
    (p := fetchAndIndexingBlockRange (sampleIndexer false) 1 1) (w := freshWorld ())
    (b := fun r => r.fatalError.isNone) (by decide)
  have hnone := Option.isNone_iff_eq_none.1 hr
  refine ⟨r, _, hnone, hrun, (range_accounted_iff (sampleIndexer false) 1 1 [1] rfl hrun
    hnone).2 fun h hf ht => Or.inl ?_⟩
  obtain rfl : h = 1 := le_antisymm ht hf
  exact List.mem_singleton_self _

/-- The answer for the heights 1 and 2 lists 2 only: the latest indexed block is 2 then, and
    nothing is known of 1. -/
theorem first_height_lost : ∃ r w', r.fatalError = none ∧
    Run (environment (sampleIndexer false) AnyAnswer)
      (fetchAndIndexingBlockRange (sampleIndexer false) 1 2, freshWorld ()) (.ret r, w') ∧
    w'.db.latestIndexedBlock = 2 ∧ 1 ∉ w'.history.indexed ∧ 1 ∉ w'.db.failedBlock := by
  obtain ⟨r, hr, hrun⟩ := oneBlock.run (sampleIndexer false) AnyAnswer (n := 10)
    (p := fetchAndIndexingBlockRange (sampleIndexer false) 1 2) (w := freshWorld ())
    (b := fun r => r.fatalError.isNone) (by decide)
  exact ⟨r, _, Option.isNone_iff_eq_none.1 hr, hrun, by decide, by decide, by decide⟩

/-! ## Retries -/

/-- The start of a retry: nothing has happened but the choice of the height. -/
def History.retry (h : ℤ) : History := { History.start with retrying := some h }

/-- A retry forgets its block only if it indexed it iff some call has had a decisive answer. -/
theorem retry_sound_iff_decided {d : Indexer R} {h : ℤ} {w w' : World R} (hpos : 0 < h)
    (hf : h ∈ w.db.failedBlock) (hw : w.history = .retry h)
    (hrun : Run (environment d AnyAnswer) (retryHeight d h, w) (.ret (), w')) :
    (h ∉ w'.db.failedBlock → h ∈ w'.history.indexed) ↔ w'.Decided := by
  have hclosed : Closed (rulesOf AnyAnswer fun _ => False) (Retried h) := fun _ _ hr hs =>
    hr.step (fun _ ha => ha) hs
  have hstart : Retried h (w.machine (.asked (.retry h 0))) := by
    refine ⟨rfl, hf, ?_, ?_⟩
    · show h ∉ w.history.indexed
      rw [hw]
      exact List.not_mem_nil
    · rintro ⟨e, he, -⟩
      rw [hw] at he
      exact absurd he List.not_mem_nil
  have hserves : w.Serves (.retry h 0) := by
    rw [World.Serves, hw]
    exact ⟨rfl, rfl⟩
  have hwp := wp_retryHeight (d := d) (F := False) hclosed ⟨hstart, hserves⟩
    (fun res hres => ⟨res, hres, rfl⟩) fun hle => absurd hpos (not_lt.2 hle)
  exact (Spec.wp_result hwp hrun).holds

/-- **A retry** forgets its block only if it indexed it iff its plan is not in vain: the query
    fails, or what the answer reports cannot be recorded, or a block of the answer is empty,
    breaks off or commits, or the row cannot be removed. -/
theorem retry_forgets_indexed_iff (d : Indexer R) (plan : RetryPlan) {h : ℤ} {w w' : World R}
    (hpos : 0 < h) (hf : h ∈ w.db.failedBlock) (hw : w.history = .retry h)
    (hrun : Run (planned d plan) (retryHeight d h, w) (.ret (), w')) :
    (h ∉ w'.db.failedBlock → h ∈ w'.history.indexed) ↔
      ¬ plan.InVain d w.createdPartitions h := by
  have hreached : w.Reached w.createdPartitions 0 := by
    refine ⟨?_, ?_, fun _ => Iff.rfl⟩
    · rintro ⟨e, he, -⟩
      rw [hw] at he
      exact absurd he List.not_mem_nil
    · rw [World.begun, hw]
      rfl
  have hdecided := Spec.wp_result (wp_planned_retryHeight hpos hreached) hrun
  have hallows : ∀ c a w, (planned d plan).allows c a w → (environment d AnyAnswer).allows c a w :=
    fun _ _ _ ha => ha.1
  have hrun' : Run (environment d AnyAnswer) (retryHeight d h, w) (.ret (), w') :=
    Run.mono hallows rfl hrun
  exact (retry_sound_iff_decided hpos hf hw hrun').trans hdecided

/-- A database with a failed block, about to be retried. -/
def failedBlockOne : World Unit where
  db := ⟨1, 0, AList.insert 1 ⟨0, 1720000000, []⟩ ∅, ()⟩
  tx := none
  createdPartitions := []
  history := .retry 1

/-- The plan of a retry of that block which lists it as empty; nothing fails. -/
def emptyBlockPlan : RetryPlan where
  answer h := oneBlock.query (sampleIndexer false) AnyAnswer h h failedBlockOne
  order _ := default
  fails _ _ := false

theorem oneBlock_planned (c : Call) (w : World Unit) :
    (planned (sampleIndexer false) emptyBlockPlan).allows c
      (oneBlock.answer (sampleIndexer false) AnyAnswer c w) w := by
  refine ⟨oneBlock.allowed (sampleIndexer false) AnyAnswer c w, Or.inr ?_⟩
  cases c with
  | beTransactionsInBlockRange f t =>
    rintro rfl
    exact rfl
  | mapOrder => exact rfl
  | exec stmt =>
    cases stmt with
    | upsertFailedBlocks now reasons heights => exact fun hs => iff_of_true (if_pos hs) rfl
    | deleteFailedBlock height => exact iff_of_true rfl rfl
    | updateLatestIndexedBlock | insertTransactions | insertAccounts
    | insertRecentAccountTransactions | insertRefAccountToRecentTx | cleanupZeroRefCount =>
      exact trivial
  | txExec stmt => exact fun hs => iff_of_true (if_pos hs) rfl
  | preparePartitions | begin | commit => exact iff_of_true rfl rfl
  | now | elapsed | refreshActiveJsonRpcUrl | forceResetActiveJsonRpcUrl | beGetChainInfo
  | beGetLatestBlockNumber | isCreatedPartitions | markCreatedPartitions
  | selectLatestIndexedBlock | selectOneFailedBlock | selectFailedBlocksInRange | rollback =>
    exact trivial

/-- The block is empty now: it is indexed and forgotten. -/
theorem empty_block_forgotten : ∃ w',
    Run (planned (sampleIndexer false) emptyBlockPlan)
      (retryHeight (sampleIndexer false) 1, failedBlockOne) (.ret (), w') ∧
    1 ∉ w'.db.failedBlock ∧ 1 ∈ w'.history.indexed ∧
      ¬ emptyBlockPlan.InVain (sampleIndexer false) [] 1 := by
  obtain ⟨⟨⟩, -, hrun⟩ := Script.run_of_returned oneBlock_planned (n := 10)
    (p := retryHeight (sampleIndexer false) 1) (w := failedBlockOne) (b := fun _ => true)
    (by decide)
  have hindexed : 1 ∈ ((oneBlock.answer (sampleIndexer false) AnyAnswer).drive
      (planned (sampleIndexer false) emptyBlockPlan) 10
      (retryHeight (sampleIndexer false) 1, failedBlockOne)).2.history.indexed := by decide
  exact ⟨_, hrun, by decide, hindexed, (retry_forgets_indexed_iff (sampleIndexer false)
    emptyBlockPlan one_pos (by decide) rfl hrun).1 fun _ => hindexed⟩

/-- An upstream that reports an error for the first block. -/
def firstBlockError : Scenario Unit where
  chainInfo _ := sampleChainInfo 2
  response _ _ _ := some (emptyBlocks [] [1])
  fails _ _ := false

/-- The block that `GetOneFailedBlock` returns is forgotten, and has not been indexed. -/
theorem error_block_forgotten :
    oneFailedBlock failedBlockOne.db.failedBlock retryIndexingFailedBlockMaxRetries
      (1720000000 + 1) = 1 ∧ ∃ w',
    Run (environment (sampleIndexer false) AnyAnswer)
      (retryHeight (sampleIndexer false) 1, failedBlockOne) (.ret (), w') ∧
    1 ∉ w'.db.failedBlock ∧ 1 ∉ w'.history.indexed := by
  obtain ⟨⟨⟩, -, hrun⟩ := firstBlockError.run (sampleIndexer false) AnyAnswer (n := 10)
    (p := retryHeight (sampleIndexer false) 1) (w := failedBlockOne) (b := fun _ => true)
    (by decide)
  exact ⟨by decide, _, hrun, by decide, by decide⟩

end RollappExplorer
