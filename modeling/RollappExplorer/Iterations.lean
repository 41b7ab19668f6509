/-
  The indexer simulates the abstract one, second part: the main loop.

  * `wp_retryHeight`: the retry of a failed height;
  * `wp_iteration`: an iteration of the main loop, which may end halted only if it ends
    with an error;
  * `mainLoop_keeps`: what every restart and every step of the machine keeps is an
    invariant of the main loop.
-/
import RollappExplorer.Simulation

namespace RollappExplorer

open Go Effect

variable {R : Type} {d : Indexer R} {rpc : Answers} {rules : Rules ℤ} {P : Machine ℤ → Prop}
  {F : Prop} {p : Purpose ℤ} {w w' : World R} {φ φ' : Phase ℤ}

/-- Every height above the latest one is failed, up to `u`. -/
def Ledger.AllFailed (s : Ledger ℤ) (u : ℤ) : Prop := ∀ k, s.latest < k → k ≤ u → k ∈ s.failed

/-! ## The end of a batch -/

/-- A step of the machine without a call. -/
theorem World.At.silent (hP : Closed rules P) (h : w.At P φ)
    (hs : Step rules (w.machine φ) (w.machine φ')) (hf : w.Fits φ') : w.At P φ' :=
  ⟨hP _ _ h.holds hs, hf⟩

theorem fits_ended : w.Fits p.ended := by
  cases p <;> trivial

/-- Marking the range of a batch that broke off. -/
theorem wp_markBroken (hP : Closed rules P) (h : w.At P (.broken p)) {heights : List ℤ}
    (hs : ∀ k, k ∈ heights ↔ p.lo ≤ k ∧ k ≤ p.hi) (err : Error) :
    (tracks rules P F).wp (environment d rpc)
      (discard (insertOrUpdateFailedBlocks heights (some err)))
      (fun _ w' => w'.At P p.ended) w := by
  refine quiet_tracks.wp_call ⟨_, h⟩ (fun n _ => World.calm_after rfl rfl id)
    fun now _ hcalm _ => ?_
  have h₁ := h.calm hcalm
  refine ⟨⟨_, h₁⟩, fun r _ => ?_⟩
  cases r with
  | error e =>
    exact h₁.step hP (Step.giveUp (World.decided_after.2 (Or.inl trivial))) fits_ended
  | ok u =>
    refine h₁.step hP ?_ fits_ended
    have hrange : {k | k ∈ heights} = Set.Icc p.lo p.hi := Set.ext hs
    have hD : (World.after d.tables (.exec (.upsertFailedBlocks now [err] heights)) (.ok u)
        (w.after d.tables .now now)).Decided = (w.after d.tables .now now).Decided :=
      propext (World.decided_after.trans (or_iff_right id))
    show Step rules _ (World.machine (World.after d.tables
      (.exec (.upsertFailedBlocks now [err] heights)) (.ok u) _) _)
    rw [World.machine, World.machine, ledger_upsertFailedBlocks, hrange, hD]
    exact Step.mark

theorem wp_markRange (hP : Closed rules P) {f t u : ℤ} (h : w.At P (.broken (.newBlocks f t u)))
    (fatalErr : Error) :
    (tracks rules P F).wp (environment d rpc) (markRange f t fatalErr)
      (fun _ w' => w'.At P .halted) w :=
  wp_markBroken hP h (fun _ => mem_numbers) fatalErr

/-- **What follows the attempt to retry** ends the batch. -/
theorem wp_settleRetry (hP : Closed rules P) {height u : ℤ} {retryIndexErr : Option Error}
    (h : Fetched P (.retry height u) retryIndexErr w) :
    (tracks rules P F).wp (environment d rpc) (settleRetry height retryIndexErr)
      (fun _ w' => w'.At P .idle) w := by
  cases retryIndexErr with
  | some err =>
    refine wp_markBroken hP h (fun k => ?_) err
    rw [List.mem_singleton]
    exact ⟨fun hk => ⟨le_of_eq hk.symm, le_of_eq hk⟩, fun hk => le_antisymm hk.2 hk.1⟩
  | none =>
    obtain ⟨all, h⟩ := h
    refine Spec.wp_call_bind ⟨_, h⟩ fun r _ => ?_
    cases r with
    | error e =>
      exact h.step hP (Step.keep (World.decided_after.2 (Or.inl trivial))) trivial
    | ok u' =>
      have hD : (w.after d.tables (.exec (.deleteFailedBlock height)) (.ok u')).Decided =
          w.Decided := propext (World.decided_after.trans (or_iff_right id))
      refine h.step hP ?_ trivial
      show Step rules _ (World.machine (w.after d.tables (.exec (.deleteFailedBlock height))
        (.ok u')) _)
      rw [World.machine, World.machine, ledger_deleteFailedBlock, hD]
      exact Step.forget

/-- **A retry** of the indexer is a retry of the machine. -/
theorem wp_retryHeight (hP : Closed rules P) {height u : ℤ}
    (h : w.At P (.asked (.retry height u)))
    (hrules : ∀ res, rpc height height res → rules.answers height height (tasks res))
    (hF : height ≤ 0 → F) :
    (tracks rules P F).wp (environment d rpc) (retryHeight d height)
      (fun _ w' => w'.At P .idle) w :=
  Spec.wp_seq (wp_fetchAndIndexingBlockRange hP h hrules hF) fun _ _ h => wp_settleRetry hP h

/-! ## New blocks -/

/-- What makes `P` an invariant of the iterations. -/
structure Maintained (d : Indexer R) (rpc : Answers) (rules : Rules ℤ) (P : Machine ℤ → Prop) :
    Prop where
  closed : Closed rules P
  latest : ∀ m, P m → 0 ≤ m.ledger.latest
  answers : ∀ f t res, rpc f t res → rules.answers f t (tasks res)
  newBlocks : ∀ f t u, rules.asks (.newBlocks f t u)
  retry : d.disableRetryIndexFailedBlocks = false → ∀ h u, rules.asks (.retry h u)
  gapless : d.disableRetryIndexFailedBlocks = false → ∀ s D f t u all,
    P ⟨s, .working (.newBlocks f t u) all [], D⟩ → s.AllFailed t

/-- Between the batches of an iteration, with the upstream's latest height `u`. -/
structure World.Ready (P : Machine ℤ → Prop) (u : ℤ) (w : World R) : Prop where
  idle : w.At P .idle
  upstream : w.history.upstream = u
  retrying : w.history.retrying = none

theorem World.Ready.calm {u : ℤ} (h : w.Ready P u) (hc : w.Calm w') : w'.Ready P u :=
  ⟨h.idle.calm hc, hc.upstream.trans h.upstream, hc.retrying.trans h.retrying⟩

/-- The next range may be asked for. -/
theorem NextGap.eligible {s : Ledger ℤ} {upTo u f t : ℤ} {size : ℕ}
    (h : NextGap (s.latest + 1) upTo size s.failed f t) : Eligible s (.newBlocks f t u) := by
  obtain ⟨hbefore, i, hgap⟩ := h
  have hmul : (0 : ℤ) ≤ size * i := Int.mul_nonneg (Int.natCast_nonneg _) (Int.natCast_nonneg _)
  have hle := hgap.le
  exact ⟨by omega, hle.2.1, fun k hl hk => hbefore k (by omega) hk, hgap.free⟩

theorem wp_refreshUpstream {T : Spec (World R)} (hT : Quiet T) (hw : T.inv w) (u : ℤ) :
    T.wp (environment d rpc) (refreshUpstream u) (fun a w' => w.Calm w' ∧ u ≤ a) w := by
  refine hT.wp_call hw (fun _ _ => World.calm_after rfl rfl id) fun elapsed _ hcalm hw₁ => ?_
  split_ifs with hlong
  · refine hT.wp_call hw₁ (fun _ _ => World.calm_after rfl rfl id) fun r _ hcalm₂ _ => ?_
    cases r with
    | error e => exact ⟨hcalm.trans hcalm₂, le_rfl⟩
    | ok info => exact ⟨hcalm.trans hcalm₂, le_max_left _ _⟩
  · exact ⟨hcalm, le_rfl⟩

/-- What the indexing of new blocks ends with: if failed blocks are to be retried, no
    height above the latest one is left that is not failed. -/
def NewBlocksIndexed (d : Indexer R) (P : Machine ℤ → Prop) (u : ℤ) :
    Except Error (Bool × Bool) → World R → Prop
  | .error _, w => w.At P .idle ∨ w.At P .halted
  | .ok (_, checkRetryIndexFailedBlock), w => w.Ready P u ∧
      (checkRetryIndexFailedBlock = true → d.disableRetryIndexFailedBlocks = false →
        w.ledger.AllFailed u)

theorem wp_indexNewBlocks (hM : Maintained d rpc rules P) {u : ℤ} (h : w.Ready P u) :
    (tracks rules P F).wp (environment d rpc) (indexNewBlocks d w.db.latestIndexedBlock u)
      (NewBlocksIndexed d P u) w := by
  unfold indexNewBlocks
  split_ifs with hnew
  · exact ⟨h, fun _ _ k hl hu => absurd (lt_of_lt_of_le hl (le_trans hu hnew)) (lt_irrefl _)⟩
  · have hpos : 0 ≤ w.ledger.latest := hM.latest _ h.idle.holds
    refine Spec.wp_seq (wp_determineBlockRangeToIndex
      (reports_getFailedBlocksInRange quiet_tracks w) ⟨World.Calm.refl w, _, h.idle⟩ hpos
      (not_le.1 hnew)) ?_
    rintro (err | ⟨anyBlock, f, t⟩) w₁ ⟨⟨hcalm, -⟩, hgap⟩
    · exact Or.inl (h.idle.calm hcalm)
    have h₁ := h.calm hcalm
    have hgap' : IsNextGap (w₁.ledger.latest + 1) u maximumNumberOfBlocksToIndexPerBatch
        w₁.ledger.failed (anyBlock, f, t) := hcalm.ledger ▸ hgap
    rw [← hcalm.ledger] at hpos
    rcases hgap' with ⟨hany, hnext⟩ | ⟨hnone, hall⟩
    · obtain rfl : anyBlock = true := hany
      have helig : Eligible w₁.ledger (.newBlocks f t u) := hnext.eligible
      have hasked : w₁.At P (.asked (.newBlocks f t u)) :=
        h₁.idle.silent hM.closed (Step.ask (hM.newBlocks f t u) helig) ⟨h₁.retrying, h₁.upstream⟩
      have hF : f ≤ 0 → F := fun hf => absurd (lt_of_le_of_lt hpos helig.1) (not_lt.2 hf)
      refine Spec.wp_seq (wp_fetchAndIndexingBlockRange hM.closed hasked (hM.answers f t) hF) ?_
      rintro ⟨_ | fatalErr, _⟩ w₂ h₂
      · obtain ⟨all, hdone⟩ := h₂
        have hidle : w₂.At P .idle := hdone.silent hM.closed Step.done trivial
        have h₃ : w₂.Ready P u := ⟨hidle, hdone.fits.1.2, hdone.fits.1.1⟩
        refine Spec.wp_seq (wp_refreshUpstream quiet_tracks ⟨_, hidle⟩ u) ?_
        rintro upstream w₃ ⟨hcalm₃, hle⟩
        split_ifs with hup
        · exact ⟨h₃.calm hcalm₃, fun hf => absurd hf Bool.false_ne_true⟩
        · refine ⟨h₃.calm hcalm₃, fun _ hd k hl hk => ?_⟩
          rw [hcalm₃.ledger] at hl ⊢
          exact hM.gapless hd _ _ _ _ _ _ hdone.holds k hl
            (le_trans hk (le_trans hle (not_lt.1 hup)))
      · exact Spec.wp_seq (wp_markRange hM.closed h₂ fatalErr) fun _ _ h => Or.inr h
    · obtain ⟨rfl, -⟩ := Prod.mk.inj hnone
      exact ⟨h₁, fun _ _ k hl hk => hall k hl hk⟩

/-! ## Retries -/

/-- Between batches, the history of the iteration does not matter. -/
theorem World.At.idle_after (h : w.At P .idle) {c : Call} {a : c.Ans}
    (hl : (w.after d.tables c a).ledger = w.ledger) (hD : ¬ Decisive c a) :
    (w.after d.tables c a).At P .idle := by
  refine ⟨?_, trivial⟩
  rw [World.machine, hl, propext (World.decided_after.trans (or_iff_right hD))]
  exact h.holds

theorem wp_retryFailedBlock (hM : Maintained d rpc rules P)
    (hd : d.disableRetryIndexFailedBlocks = false) {u : ℤ} (h : w.Ready P u)
    (hall : w.ledger.AllFailed u) :
    (tracks rules P F).wp (environment d rpc) (retryFailedBlock d)
      (fun _ w' => w'.At P .idle) w := by
  refine quiet_tracks.wp_call ⟨_, h.idle⟩ (fun _ _ => World.calm_after rfl rfl id)
    fun now _ hcalm _ => ?_
  have h₁ := h.calm hcalm
  rw [← hcalm.ledger] at hall
  refine Spec.wp_call_bind ⟨_, h₁.idle⟩ fun r hr => ⟨Or.inl (by cases r <;> rfl), ?_⟩
  cases r with
  | error e => exact h₁.idle.calm (World.calm_after rfl rfl id)
  | ok height =>
    have h₂ := h₁.idle.idle_after (d := d) (c := .selectOneFailedBlock
      retryIndexingFailedBlockMaxRetries (now - retryIndexingFailedBlockGapSeconds))
      (a := .ok height) rfl id
    show Spec.wp _ _ (if height > 0 then retryHeight d height else return ()) _ _
    split_ifs with hpos
    · have hmem : height ∈ (World.after d.tables .now now w).db.failedBlock := by
        rw [hr height rfl] at hpos ⊢
        exact oneFailedBlock_mem hpos
      have hasked : World.At P _ (.asked (.retry height u)) := h₂.silent hM.closed
        (Step.ask (hM.retry hd height u) ⟨hmem, fun k hl _ hu => hall k hl hu⟩)
        ⟨rfl, h₁.upstream⟩
      exact wp_retryHeight hM.closed hasked (hM.answers height height)
        fun hle => absurd hpos (not_lt.2 hle)
    · exact h₂

/-! ## Iterations -/

/-- What an iteration ends with. -/
def Iterated (P : Machine ℤ → Prop) (r : LoopResult) (w : World R) : Prop :=
  w.At P .idle ∨ r.err ≠ none ∧ w.At P .halted

theorem wp_indexing (hM : Maintained d rpc rules P) {info : ResponseBeGetChainInfo}
    (h : w.Ready P info.latestBlock) :
    (tracks rules P F).wp (environment d rpc) (indexing d info) (Iterated P) w := by
  have hlatest : (tracks rules P F).wp (environment d rpc) (getLatestIndexedBlock d)
      (fun r w' => w'.Ready P info.latestBlock ∧
        ∀ latest postponed, r = .ok (latest, postponed) → latest = w'.db.latestIndexedBlock) w := by
    refine quiet_tracks.wp_call ⟨_, h.idle⟩ (fun _ _ => World.calm_after rfl rfl id)
      fun r hr hcalm hw₁ => ?_
    rcases r with err | ⟨height, postponed, expiryAtEpoch⟩
    · exact ⟨h.calm hcalm, fun _ _ he => nomatch he⟩
    · refine quiet_tracks.wp_call hw₁ (fun _ _ => World.calm_after rfl rfl id)
        fun now _ hcalm₂ _ => ⟨h.calm (hcalm.trans hcalm₂), fun _ _ he => ?_⟩
      rw [← (Prod.mk.inj (Except.ok.inj he)).1]
      exact hr _ rfl
  refine Spec.wp_seq hlatest ?_
  rintro (err | ⟨latest, isPostponedChain⟩) w₁ ⟨h₁, heq⟩
  · exact Or.inl h₁.idle
  obtain rfl := heq _ _ rfl
  dsimp only
  split_ifs with hpostponed hbehind
  · exact Or.inl h₁.idle
  · exact quiet_tracks.wp_call ⟨_, h₁.idle⟩ (fun _ _ => World.calm_after rfl rfl id)
      fun _ _ hcalm _ => Or.inl (h₁.idle.calm hcalm)
  · refine Spec.wp_seq (wp_indexNewBlocks hM h₁) ?_
    rintro (err | ⟨catchUp, checkRetryIndexFailedBlock⟩) w₂ h₂
    · exact h₂.imp_right fun h => ⟨Option.some_ne_none err, h⟩
    · obtain ⟨hready, hall⟩ := h₂
      dsimp only
      split_ifs with hretry
      · rw [Bool.and_eq_true, Bool.not_eq_true'] at hretry
        exact Spec.wp_seq (wp_retryFailedBlock hM hretry.2 hready (hall hretry.1 hretry.2))
          fun _ _ h => Or.inl h
      · exact Or.inl hready.idle

/-- **An iteration** of the indexer is a run of the machine; it may end halted if it ends
    with an error. -/
theorem wp_iteration (hM : Maintained d rpc rules P) (h : w.At P .idle) (last : LoopResult) :
    (tracks rules P F).wp (environment d rpc) (iteration d last) (Iterated P) w := by
  refine Spec.wp_call_bind ⟨_, h⟩ ?_
  rintro ⟨activeJsonRpcUrl, chainInfo⟩ -
  refine ⟨Or.inl rfl, ?_⟩
  have h₁ : World.At P (w.after d.tables .refreshActiveJsonRpcUrl (activeJsonRpcUrl, chainInfo))
      .idle := h.idle_after rfl id
  have hreset : ∀ {w' : World R} {Q : LoopResult}, w'.At P .idle →
      (tracks rules P F).wp (environment d rpc)
        (do perform .forceResetActiveJsonRpcUrl; return Q) (Iterated P) w' := fun h' =>
    quiet_tracks.wp_call ⟨_, h'⟩ (fun _ _ => World.calm_after rfl rfl id)
      fun _ _ hcalm _ => Or.inl (h'.calm hcalm)
  dsimp only
  split_ifs with hurl
  · exact hreset h₁
  have hinfo : (tracks rules P F).wp (environment d rpc) (queryChainInfo chainInfo)
      (fun r w' => w'.At P .idle ∧ ∀ info, r = .ok info → w'.Ready P info.latestBlock)
      (w.after d.tables .refreshActiveJsonRpcUrl (activeJsonRpcUrl, chainInfo)) := by
    cases chainInfo with
    | some info =>
      refine ⟨h₁, fun info' he => ?_⟩
      obtain rfl := Except.ok.inj he
      exact ⟨h₁, rfl, rfl⟩
    | none =>
      refine ⟨⟨_, h₁⟩, fun r _ => ?_⟩
      cases r with
      | error e =>
        exact ⟨Or.inl rfl, h₁.calm (World.calm_after rfl rfl id), fun _ he => nomatch he⟩
      | ok info =>
        have h₂ := h₁.idle_after (d := d) (c := .beGetChainInfo) (a := .ok info) rfl id
        refine ⟨Or.inl rfl, h₂, fun info' he => ?_⟩
        obtain rfl := Except.ok.inj he
        exact ⟨h₂, rfl, rfl⟩
  refine Spec.wp_seq hinfo ?_
  rintro (err | info) w₁ ⟨hidle, hready⟩
  · exact Or.inl hidle
  · dsimp only
    split_ifs with hchain
    · exact hreset hidle
    · exact wp_indexing hM (hready info rfl)

/-- **Invariants of the main loop.** -/
theorem mainLoop_keeps (hM : Maintained d rpc rules P) (hrestart : ∀ m, P m → P m.restart) :
    (mainLoop d rpc).Keeps (tracks rules P False) where
  body last w hw := by
    obtain ⟨φ, hat⟩ := hw
    have hidle : w.At P .idle := ⟨hrestart _ hat.holds, trivial⟩
    refine Spec.wp_mono (fun r w' h => ?_) (wp_iteration hM hidle last)
    rcases h with h | ⟨-, h⟩
    · exact ⟨_, h⟩
    · exact ⟨_, h⟩
  boot w := by
    rintro ⟨φ, hat⟩
    exact ⟨.idle, hrestart _ hat.holds, trivial⟩
  panics _ _ h := h.elim

/-- The latest height never decreases. -/
theorem latest_le_of_run (hM : Maintained d rpc rules P) (hrestart : ∀ m, P m → P m.restart)
    {x y : Prog sig LoopResult × World R} {w₀ : World R} (h₀ : w₀.At P .idle)
    (hx : (mainLoop d rpc).Reach w₀ x)
    (hxy : Relation.ReflTransGen (mainLoop d rpc).Trans x y) :
    x.2.ledger.latest ≤ y.2.ledger.latest := by
  have hkeeps := mainLoop_keeps hM hrestart
  induction hxy with
  | refl => exact le_rfl
  | @tail y z hxy hs ih =>
    have hy := Service.Reach.wp hkeeps ⟨_, h₀⟩ (hx.trans hxy)
    refine le_trans ih ?_
    rcases (hkeeps.trans hy hs).1 with (hl | ⟨φ, φ', -, -, hstep⟩) | he | he
    · rw [hl]
    · exact hstep.latest_le
    · rw [he]
    · rw [he]
      exact le_rfl

end RollappExplorer
