/-
  The main loop with the retries enabled.

  * `retry_skips_failed_iff`: the heights that the retry of a failed block skips are all
    recorded as failed iff none of those above the upstream's latest height is unwritten;
  * `idle_iteration_retries`: an iteration without new blocks to index retries a failed
    block if the upstream is ahead by less than five heights, and else it does not.
-/
import RollappExplorer.Iterations
import RollappExplorer.Scenario

namespace RollappExplorer

open Go Effect

variable {R : Type} {d : Indexer R}

/-! ## What a retry skips -/

/-- What the main loop keeps when failed blocks are retried. -/
structure Gapless (m : Machine ℤ) : Prop where
  contiguous : Contiguous 0 m
  written : Written m

theorem maintained_gapless : Maintained d Lists (rulesOf Lists fun _ => True) Gapless where
  closed _ _ h hs := ⟨h.contiguous.step covering_rulesOf hs, h.written.step hs⟩
  latest _ h := h.contiguous.latest
  answers _ _ res hres := ⟨res, hres, rfl⟩
  newBlocks _ _ _ := trivial
  retry _ _ _ := trivial
  gapless _ _ _ _ _ _ _ h _ hl ht := h.contiguous.gapless hl ht

theorem gapless_freshWorld (records : R) : (freshWorld records).At Gapless .idle where
  holds :=
    { contiguous := ⟨le_rfl, trivial⟩
      written := ⟨fun _ hk => absurd hk (AList.notMem_empty _),
        fun _ hk => absurd hk List.not_mem_nil, trivial⟩ }
  fits := trivial

/-- **What a retry skips**: whenever a retry raises the latest height, it is to the height
    retried, and the heights in between are all recorded as failed iff none of them lies above
    the upstream's latest height and was asked for as a new block, or forgotten by a retry,
    without an insertion into `failed_block` that has written it since. -/
theorem retry_skips_failed_iff (d : Indexer R) (records : R) {h : ℤ}
    {x y : Prog sig LoopResult × World R}
    (hx : (mainLoop d Lists).Reach (freshWorld records) x) (hxy : (mainLoop d Lists).Trans x y)
    (hr : x.2.history.retrying = some h)
    (hraise : x.2.db.latestIndexedBlock < y.2.db.latestIndexedBlock) :
    y.2.db.latestIndexedBlock = h ∧
      ((∀ k, x.2.db.latestIndexedBlock < k → k < h → k ∈ x.2.db.failedBlock) ↔
        ∀ k, max x.2.db.latestIndexedBlock x.2.history.upstream < k → k < h →
          k ∉ x.2.history.unwritten) := by
  have hkeeps : (mainLoop d Lists).Keeps
      (tracks (rulesOf Lists fun _ => True) Gapless False) :=
    mainLoop_keeps maintained_gapless fun m h => ⟨h.contiguous.restart, h.written.restart⟩
  have hwx := Service.Reach.wp hkeeps ⟨_, gapless_freshWorld records⟩ hx
  rcases (hkeeps.trans hwx hxy).1 with (hl | ⟨φ, φ', hat, -, hstep⟩) | he | he
  · exact absurd (congrArg Ledger.latest hl) (ne_of_gt hraise)
  · obtain ⟨p, a, all, todo, b, rfl, hw⟩ : ∃ p a all todo b, φ = .working p all (a :: todo) ∧
        Work a b x.2.ledger y.2.ledger := hstep.work_of_lt hraise
    obtain ⟨hserves, -⟩ := hat.fits
    cases p with
    | newBlocks f t u => exact absurd (hserves.1.symm.trans hr) (Option.some_ne_none h).symm
    | retry h' u =>
      obtain rfl : h' = h := Option.some.inj (hserves.1.symm.trans hr)
      obtain ⟨hskips, hin⟩ := hat.holds.contiguous.at_phase
      obtain ⟨-, hapart, hknown, -⟩ := hat.holds.written
      rw [hserves.2]
      refine ⟨?_, hskips.failed_iff hknown hapart⟩
      obtain rfl := hw.latest_eq.resolve_left (ne_of_gt hraise)
      exact hin _ ((listed_cons _).2 (Or.inl (List.mem_singleton_self _)))
  · exact absurd (congrArg (fun w => w.db.latestIndexedBlock) he) (ne_of_gt hraise)
  · exact absurd (congrArg (fun w => w.db.latestIndexedBlock) he) (ne_of_gt hraise)

/-- An upstream that has four blocks for a while, cannot deliver the fourth one in a range,
    and lags behind after that; the second block cannot be recorded, and perhaps the range
    it is in cannot be marked as failed. -/
def laggingUpstream (markFails : Bool) : Scenario Unit where
  chainInfo w := sampleChainInfo
    (if w.db.latestIndexedBlock = 1 ∧ w.db.failedBlock.keys = [] then 4 else 1)
  response f t _ :=
    if (f, t) = (1, 1) then some (emptyBlocks ["1"] [])
    else if (f, t) = (2, 4) then some (emptyBlocks ["2", "3"] [4])
    else if (f, t) = (4, 4) then some (emptyBlocks ["4"] [])
    else none
  fails
    | .exec (.updateLatestIndexedBlock 2 _), _ => true
    | .exec (.upsertFailedBlocks _ _ [2, 3, 4]), _ => markFails
    | _, _ => false

/-- The state of that scenario in which the fourth block is about to be recorded. -/
def beforeJump (markFails : Bool) : Prog sig LoopResult × World Unit :=
  (laggingUpstream markFails).drive (sampleIndexer false) Lists 33 (freshWorld ())

def afterJump (markFails : Bool) : Prog sig LoopResult × World Unit :=
  (mainLoop (sampleIndexer false) Lists).next
    ((laggingUpstream markFails).answer (sampleIndexer false) Lists) (beforeJump markFails)

theorem beforeJump_reach (markFails : Bool) :
    (mainLoop (sampleIndexer false) Lists).Reach (freshWorld ()) (beforeJump markFails) :=
  (laggingUpstream markFails).reach (sampleIndexer false) Lists 33 _

theorem jump (markFails : Bool) : (beforeJump markFails).2.history.retrying = some 4 ∧
    (beforeJump markFails).2.history.upstream = 1 ∧
    (beforeJump markFails).2.db.latestIndexedBlock = 1 ∧
    (afterJump markFails).2.db.latestIndexedBlock = 4 := by
  cases markFails <;> decide

theorem jump_trans (markFails : Bool) :
    (mainLoop (sampleIndexer false) Lists).Trans (beforeJump markFails) (afterJump markFails) := by
  have hne : afterJump markFails ≠ beforeJump markFails := by
    intro h
    have hlatest := (jump markFails).2.2.2
    rw [h, (jump markFails).2.2.1] at hlatest
    exact absurd hlatest (by decide)
  exact (Service.trans_next ((laggingUpstream markFails).allowed (sampleIndexer false) Lists)
    _).resolve_right hne

/-- With the range marked, only heights recorded as failed are skipped. -/
theorem retry_skips_recorded : ∃ x y,
    (mainLoop (sampleIndexer false) Lists).Reach (freshWorld ()) x ∧
      (mainLoop (sampleIndexer false) Lists).Trans x y ∧ x.2.db.latestIndexedBlock = 1 ∧
      y.2.db.latestIndexedBlock = 4 ∧ ∀ k, 1 < k → k < 4 → k ∈ x.2.db.failedBlock := by
  obtain ⟨hr, hu, hx, hy⟩ := jump false
  have hlt : (beforeJump false).2.db.latestIndexedBlock <
      (afterJump false).2.db.latestIndexedBlock := by rw [hx, hy]; decide
  have hiff := (retry_skips_failed_iff (sampleIndexer false) () (beforeJump_reach false)
    (jump_trans false) hr hlt).2
  rw [hx, hu] at hiff
  refine ⟨_, _, beforeJump_reach false, jump_trans false, hx, hy, hiff.2 fun k hk hk' => ?_⟩
  have hcase : k = 2 ∨ k = 3 := by omega
  rcases hcase with rfl | rfl
  · decide
  · decide

/-- Without, a retry raises the latest height over a height that is neither indexed nor
    recorded as failed. -/
theorem retry_skips_unrecorded : ∃ x y,
    (mainLoop (sampleIndexer false) Lists).Reach (freshWorld ()) x ∧
      (mainLoop (sampleIndexer false) Lists).Trans x y ∧ x.2.history.retrying = some 4 ∧
      x.2.db.latestIndexedBlock = 1 ∧ y.2.db.latestIndexedBlock = 4 ∧
      2 ∉ x.2.db.failedBlock ∧ 2 ∉ x.2.history.indexed := by
  obtain ⟨hr, -, hx, hy⟩ := jump true
  exact ⟨_, _, beforeJump_reach true, jump_trans true, hr, hx, hy, by decide,
    by decide⟩

/-! ## Iterations without new blocks -/

/-- The answers of a healthy environment: no call fails, unless it is not executable, the
    upstream's latest height is `u`, and the chain is not postponed. -/
def Healthy (chainId : String) (u : ℤ) (expiryAtEpoch : Option ℤ) : (c : Call) → c.Ans → Prop
  | .now, now => ∀ expiry ∈ expiryAtEpoch, expiry ≥ now
  | .refreshActiveJsonRpcUrl, (url, info) =>
    len url ≠ 0 ∧ ∀ i ∈ info, i.chainId = chainId ∧ i.latestBlock = u
  | .beGetChainInfo, a => ∃ i, a = .ok i ∧ i.chainId = chainId ∧ i.latestBlock = u
  | .beGetLatestBlockNumber, a => ∃ i, a = .ok i
  | .beTransactionsInBlockRange _ _, a => ∃ res, a = .ok res
  | .selectLatestIndexedBlock, a => ∃ height, a = .ok (height, false, expiryAtEpoch)
  | .selectOneFailedBlock _ _, a => ∃ height, a = .ok height
  | .selectFailedBlocksInRange _ _, a => ∃ heights, a = .ok heights
  | .exec stmt, a | .txExec stmt, a => stmt.Executable → a = .ok ()
  | .preparePartitions _, a | .begin, a | .commit, a | .rollback, a => a = .ok ()
  | _, _ => True

/-- A healthy environment. -/
def healthy (d : Indexer R) (u : ℤ) (expiryAtEpoch : Option ℤ) : Handler sig (World R) where
  allows c a w := allows d AnyAnswer c a w ∧ Healthy d.chainId u expiryAtEpoch c a
  effect := World.after d.tables

/-- `GetOneFailedBlock` has been called, and the height it returned, if any, has been asked
    for again. -/
def RetriesFailedBlock (log : List Answered) : Prop :=
  ∃ maxRetries before height, ⟨.selectOneFailedBlock maxRetries before, .ok height⟩ ∈ log ∧
    (height > 0 → ∃ a, ⟨.beTransactionsInBlockRange height height, a⟩ ∈ log)

/-- `GetOneFailedBlock` has not been called. -/
def NoRetry (log : List Answered) : Prop :=
  ∀ e ∈ log, ∀ maxRetries before, e.1 ≠ .selectOneFailedBlock maxRetries before

/-- Only the results of programs are specified. -/
def results : Spec (World R) := ⟨fun _ => True, fun _ _ => True, fun _ _ => True⟩

section
variable {u : ℤ} {expiryAtEpoch : Option ℤ} {w : World R}

/-- No call of a program is forgotten. -/
theorem wp_log {α : Type} (p : Prog sig α) (w : World R) :
    results.wp (healthy d u expiryAtEpoch) p
      (fun _ w' => ∀ e ∈ w.history.log, e ∈ w'.history.log) w := by
  induction p generalizing w with
  | ret a => exact fun _ he => he
  | panic msg => trivial
  | call c k ih =>
    refine ⟨trivial, fun a _ => ⟨trivial, Spec.wp_mono (fun _ w' h e he => ?_) (ih a _)⟩⟩
    exact h e (List.mem_cons_of_mem _ he)

/-- A call, whatever its answer. -/
theorem wp_results_call {α : Type} {c : Call} {f : c.Ans → Prog sig α} {Q : α → World R → Prop}
    (h : ∀ a, allows d AnyAnswer c a w → Healthy d.chainId u expiryAtEpoch c a →
      results.wp (healthy d u expiryAtEpoch) (f a) Q (w.after d.tables c a)) :
    results.wp (healthy d u expiryAtEpoch) (perform c >>= f) Q w :=
  Spec.wp_call_bind trivial fun a ha => ⟨trivial, h a ha.1 ha.2⟩

/-- The ledger is still `s`, and no failed block has been asked for. -/
structure Untried (s : Ledger ℤ) (w : World R) : Prop where
  ledger : w.ledger = s
  log : NoRetry w.history.log

theorem Untried.after {s : Ledger ℤ} (h : Untried s w) {c : Call} {a : c.Ans}
    (hl : (w.after d.tables c a).ledger = w.ledger)
    (hc : ∀ maxRetries before, c ≠ .selectOneFailedBlock maxRetries before) :
    Untried s (w.after d.tables c a) := by
  refine ⟨hl.trans h.ledger, fun e he => ?_⟩
  rcases List.mem_cons.1 he with rfl | he
  · exact hc
  · exact h.log e he

theorem reports_healthy (s : Ledger ℤ) :
    Reports results (healthy d u expiryAtEpoch) s.failed (Untried s : World R → Prop) False
      getFailedBlocksInRange := by
  intro f t w h
  refine wp_results_call fun a ha hok => ?_
  obtain ⟨l, rfl⟩ := hok
  refine ⟨h.after rfl fun _ _ => Call.noConfusion, fun k => ?_⟩
  rw [(ha l rfl).mem_iff, mem_failedBlocksInRange, ← h.ledger]
  rfl

theorem wp_indexNewBlocks_idle {s : Ledger ℤ} (hl : 0 ≤ s.latest) (hall : s.AllFailed u)
    (h : Untried s w) :
    results.wp (healthy d u expiryAtEpoch) (indexNewBlocks d s.latest u)
      (fun r w' => Untried s w' ∧ r = .ok (false, decide (u - s.latest < 5))) w := by
  unfold indexNewBlocks
  split_ifs with hnew
  · have hnear : u - s.latest < 5 := by omega
    exact ⟨h, by rw [decide_eq_true hnear]⟩
  · refine Spec.wp_seq (wp_determineBlockRangeToIndex (reports_healthy s) h hl (not_le.1 hnew)) ?_
    rintro (err | ⟨anyBlock, f, t⟩) w' ⟨h', hgap⟩
    · exact hgap.elim
    · rcases hgap with ⟨hany, -, i, hfirst⟩ | ⟨hnone, -⟩
      · -- a gap has a height that is not failed
        have hmul : (0 : ℤ) ≤ maximumNumberOfBlocksToIndexPerBatch * i :=
          Int.mul_nonneg (Int.natCast_nonneg _) (Int.natCast_nonneg _)
        have hle := hfirst.le
        dsimp only at hle
        exact absurd (hall f (by omega) (by omega)) (hfirst.free f le_rfl hle.2.1)
      · obtain ⟨rfl, -⟩ := Prod.mk.inj hnone
        exact ⟨h', rfl⟩

theorem wp_retryFailedBlock_healthy :
    results.wp (healthy d u expiryAtEpoch) (retryFailedBlock d)
      (fun _ w' => RetriesFailedBlock w'.history.log) w := by
  refine wp_results_call fun now _ _ => wp_results_call fun r _ hr => ?_
  obtain ⟨height, rfl⟩ := hr
  dsimp only [Except.mapError]
  split_ifs with hpos
  · refine wp_results_call fun a _ _ => ?_
    refine Spec.wp_mono (fun _ w' hlog => ?_) (wp_log _ _)
    refine ⟨_, _, height, hlog _ (List.mem_cons_of_mem _ List.mem_cons_self), fun _ => ⟨a, ?_⟩⟩
    exact hlog _ List.mem_cons_self
  · exact ⟨_, _, height, List.mem_cons_self, fun h => absurd h hpos⟩

/-- What an iteration without new blocks does about failed blocks. -/
def RetriesIfNear (d : Indexer R) (s : Ledger ℤ) (u : ℤ) (w : World R) : Prop :=
  if u - s.latest < 5 ∧ d.disableRetryIndexFailedBlocks = false then
    RetriesFailedBlock w.history.log
  else NoRetry w.history.log

theorem wp_indexing_idle {s : Ledger ℤ} {info : ResponseBeGetChainInfo} (hl : 0 ≤ s.latest)
    (hu : s.latest - 3 ≤ info.latestBlock) (hall : s.AllFailed info.latestBlock)
    (h : Untried s w) :
    results.wp (healthy d info.latestBlock expiryAtEpoch) (indexing d info)
      (fun _ => RetriesIfNear d s info.latestBlock) w := by
  have hlatest : results.wp (healthy d info.latestBlock expiryAtEpoch) (getLatestIndexedBlock d)
      (fun r w' => Untried s w' ∧ r = .ok (s.latest, false)) w := by
    refine wp_results_call fun r hr hok => ?_
    obtain ⟨height, rfl⟩ := hok
    refine wp_results_call fun now _ hnow => ⟨(h.after rfl fun _ _ => Call.noConfusion).after rfl
      fun _ _ => Call.noConfusion, ?_⟩
    have hheight : height = s.latest := (hr _ rfl).trans (congrArg Ledger.latest h.ledger)
    have hexpiry : (expiryAtEpoch.any fun expiry => decide (expiry < now)) = false := by
      rw [Option.any_eq_false]
      exact fun expiry he => decide_eq_false (not_lt.2 (hnow expiry he))
    rw [hheight, hexpiry]
    rfl
  refine Spec.wp_seq hlatest ?_
  rintro _ w₁ ⟨h₁, rfl⟩
  have hnear : ¬ info.latestBlock < s.latest - maximumNumberOfOutdatedBlocksAccepted := not_lt.2 hu
  dsimp only
  rw [if_neg Bool.false_ne_true, if_neg hnear]
  refine Spec.wp_seq (wp_indexNewBlocks_idle hl hall h₁) ?_
  rintro _ w₂ ⟨h₂, rfl⟩
  unfold RetriesIfNear
  dsimp only
  split_ifs with hretry hdo hdo
  · exact Spec.wp_seq wp_retryFailedBlock_healthy fun _ _ h => h
  · simp only [Bool.and_eq_true, decide_eq_true_eq, Bool.not_eq_true'] at hretry
    exact absurd hretry hdo
  · simp only [Bool.and_eq_true, decide_eq_true_eq, Bool.not_eq_true'] at hretry
    exact absurd hdo hretry
  · exact h₂.log

theorem wp_iteration_idle {last : LoopResult} (hw : NoRetry w.history.log)
    (hl : 0 ≤ w.ledger.latest) (hu : w.ledger.latest - 3 ≤ u) (hall : w.ledger.AllFailed u) :
    results.wp (healthy d u expiryAtEpoch) (iteration d last)
      (fun _ => RetriesIfNear d w.ledger u) w := by
  refine wp_results_call ?_
  rintro ⟨url, chainInfo⟩ - ⟨hurl, hinfo⟩
  have h₁ : Untried w.ledger (w.after d.tables .refreshActiveJsonRpcUrl (url, chainInfo)) :=
    Untried.after ⟨rfl, hw⟩ rfl fun _ _ => Call.noConfusion
  have hquery : results.wp (healthy d u expiryAtEpoch) (queryChainInfo chainInfo)
      (fun r w' => Untried w.ledger w' ∧
        ∃ info, r = .ok info ∧ info.chainId = d.chainId ∧ info.latestBlock = u)
      (w.after d.tables .refreshActiveJsonRpcUrl (url, chainInfo)) := by
    cases chainInfo with
    | some info => exact ⟨h₁, info, rfl, hinfo info rfl⟩
    | none =>
      refine ⟨trivial, fun a ha => ⟨trivial, h₁.after ?_ fun _ _ => Call.noConfusion, ha.2⟩⟩
      obtain ⟨info, rfl, -⟩ := ha.2
      rfl
  dsimp only
  rw [if_neg hurl]
  refine Spec.wp_seq hquery ?_
  rintro _ w₂ ⟨h₂, info, rfl, hchain, rfl⟩
  dsimp only
  rw [if_neg (not_not.2 hchain)]
  exact wp_indexing_idle hl hu hall h₂

end

/-- **An iteration without new blocks**, in a healthy environment: it retries a failed block
    if the upstream is ahead by less than five heights, and it does not even look for one
    otherwise. -/
theorem idle_iteration_retries (d : Indexer R) (hd : d.disableRetryIndexFailedBlocks = false)
    {u : ℤ} {expiryAtEpoch : Option ℤ} {w w' : World R} {last r : LoopResult}
    (hw : w.history = .start) (hl : 0 ≤ w.db.latestIndexedBlock)
    (hu : w.db.latestIndexedBlock - 3 ≤ u)
    (hall : ∀ k, w.db.latestIndexedBlock < k → k ≤ u → k ∈ w.db.failedBlock)
    (hrun : Run (healthy d u expiryAtEpoch) (iteration d last, w) (.ret r, w')) :
    (u - w.db.latestIndexedBlock < 5 → RetriesFailedBlock w'.history.log) ∧
      (5 ≤ u - w.db.latestIndexedBlock → NoRetry w'.history.log) := by
  have hlog : NoRetry w.history.log := by
    rw [hw]
    exact fun e he => absurd he List.not_mem_nil
  have h := Spec.wp_result (wp_iteration_idle hlog hl hu hall) hrun
  unfold RetriesIfNear at h
  constructor
  · intro hnear
    rwa [if_pos ⟨hnear, hd⟩] at h
  · intro hfar
    rwa [if_neg fun hn => absurd hn.1 (not_lt.2 hfar)] at h

/-- A healthy upstream with `u` blocks, which has nothing to tell about any of them. -/
def haltedUpstream (u : ℤ) : Scenario Unit where
  chainInfo _ := sampleChainInfo u
  response _ _ _ := some (emptyBlocks [] [])
  fails _ _ := false

theorem haltedUpstream_healthy {u : ℤ} (hu : 1 ≤ u) (c : Call) (w : World Unit) :
    (healthy (sampleIndexer false) u none).allows c
      ((haltedUpstream u).answer (sampleIndexer false) AnyAnswer c w) w := by
  have hu' : ¬ u < 1 := not_lt.2 hu
  have hinfo : (sampleChainInfo u).validateBasic = .ok () := by
    simp only [ResponseBeGetChainInfo.validateBasic, sampleChainInfo, failIf, hu']
    rfl
  have hlatest : ((haltedUpstream u).latestBlockNumber w).validateBasic = .ok () := by
    simp only [ResponseBeGetLatestBlockNumber.validateBasic, Scenario.latestBlockNumber,
      haltedUpstream, sampleChainInfo, failIf, hu']
    rfl
  refine ⟨(haltedUpstream u).allowed (sampleIndexer false) AnyAnswer c w, ?_⟩
  cases c with
  | now => exact fun expiry he => nomatch he
  | refreshActiveJsonRpcUrl => exact ⟨by decide, fun i hi => nomatch hi⟩
  | beGetChainInfo =>
    have ha : Except.map (fun () => sampleChainInfo u) (sampleChainInfo u).validateBasic =
        .ok (sampleChainInfo u) := by rw [hinfo]; rfl
    exact ⟨sampleChainInfo u, ha, rfl, rfl⟩
  | beGetLatestBlockNumber =>
    refine ⟨(haltedUpstream u).latestBlockNumber w, ?_⟩
    rw [Scenario.answer, hlatest]
    rfl
  | beTransactionsInBlockRange f t => exact ⟨⟨[], [], []⟩, rfl⟩
  | selectLatestIndexedBlock => exact ⟨_, rfl⟩
  | selectOneFailedBlock maxRetries before => exact ⟨_, rfl⟩
  | selectFailedBlocksInRange f t => exact ⟨_, rfl⟩
  | exec stmt | txExec stmt => exact fun hs => if_pos hs
  | preparePartitions epoch | begin | commit | rollback => exact rfl
  | elapsed | mapOrder | forceResetActiveJsonRpcUrl | isCreatedPartitions epochWeek
  | markCreatedPartitions epochWeek => exact trivial

/-- A database in which the first five blocks are recorded as failed. -/
def fiveFailed : World Unit where
  db := ⟨0, 0, [1, 2, 3, 4, 5].foldr (fun h rows => AList.insert h ⟨0, 0, []⟩ rows) ∅, ()⟩
  tx := none
  createdPartitions := []
  history := .start

theorem fiveFailed_allFailed (k : ℤ) (h : 0 < k) (hk : k ≤ 5) : k ∈ fiveFailed.db.failedBlock := by
  have hcase : k = 1 ∨ k = 2 ∨ k = 3 ∨ k = 4 ∨ k = 5 := by omega
  rcases hcase with rfl | rfl | rfl | rfl | rfl <;> decide

/-- With four blocks upstream, a failed block is retried. -/
theorem near_iteration_retries : ∃ r w',
    Run (healthy (sampleIndexer false) 4 none)
      (iteration (sampleIndexer false) ⟨false, none⟩, fiveFailed) (.ret r, w') ∧
    RetriesFailedBlock w'.history.log := by
  obtain ⟨r, -, hrun⟩ := Script.run_of_returned (haltedUpstream_healthy (u := 4) (by decide))
    (n := 10) (p := iteration (sampleIndexer false) ⟨false, none⟩) (w := fiveFailed)
    (b := fun _ => true) (by decide)
  refine ⟨r, _, hrun, ?_⟩
  exact (idle_iteration_retries (sampleIndexer false) rfl rfl le_rfl (by decide)
    (fun k h hk => fiveFailed_allFailed k h (le_trans hk (by decide))) hrun).1 (by decide)

/-- With five blocks upstream, the iteration does nothing, although a failed block can be
    retried. -/
theorem far_iteration_idle : ∃ r w',
    Run (healthy (sampleIndexer false) 5 none)
      (iteration (sampleIndexer false) ⟨false, none⟩, fiveFailed) (.ret r, w') ∧
    oneFailedBlock fiveFailed.db.failedBlock retryIndexingFailedBlockMaxRetries 1 = 5 ∧
    (∀ k, 0 < k → k ≤ 5 → k ∈ fiveFailed.db.failedBlock) ∧
    ¬ RetriesFailedBlock w'.history.log := by
  obtain ⟨r, -, hrun⟩ := Script.run_of_returned (haltedUpstream_healthy (u := 5) (by decide))
    (n := 10) (p := iteration (sampleIndexer false) ⟨false, none⟩) (w := fiveFailed)
    (b := fun _ => true) (by decide)
  refine ⟨r, _, hrun, by decide, fiveFailed_allFailed, ?_⟩
  have hnone : NoRetry fiveFailed.history.log := fun e he => absurd he List.not_mem_nil
  have h := Spec.wp_result (wp_iteration_idle hnone le_rfl (by decide) fiveFailed_allFailed) hrun
  unfold RetriesIfNear at h
  rw [if_neg fun hn => absurd hn.1 (by decide)] at h
  rintro ⟨maxRetries, before, height, hmem, -⟩
  exact h _ hmem maxRetries before rfl

end RollappExplorer
