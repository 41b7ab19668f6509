/-
  The indexer simulates the abstract one, first part: batches.

  * `tracks rules P F`: at every moment the world matches a machine state that satisfies
    `P`, every call is a step of the machine or changes nothing it depends on, and there
    are panics only if `F` holds;
  * `wp_indexBlock`, `wp_fetchAndIndexingBlockRange`: a batch of the indexer is a batch
    of the machine, for any `P` its steps keep.
-/
import RollappExplorer.MainLoop

namespace RollappExplorer

open Go Effect

variable {R : Type} {α β : Type}

/-! ## Machine states of a world -/

/-- What an accepted answer asks to work on. -/
def tasks (res : TransformedResponseBeTransactionsInBlockRange) : List (Task ℤ) :=
  .report res.errorBlocks :: .report res.missingBlocks ::
    (sortBlocks res.blocks).map fun b => .block b.height

/-- The rules of an environment: its answers satisfy `rpc`. -/
def rulesOf (rpc : Answers) (asks : Purpose ℤ → Prop) : Rules ℤ where
  answers f t all := ∃ res, rpc f t res ∧ all = tasks res
  asks := asks

def World.Serves (w : World R) : Purpose ℤ → Prop
  | .newBlocks _ _ u => w.history.retrying = none ∧ w.history.upstream = u
  | .retry h u => w.history.retrying = some h ∧ w.history.upstream = u

/-- The history of the world fits the phase of the machine. -/
def World.Fits (w : World R) : Phase ℤ → Prop
  | .asked p | .broken p => w.Serves p
  | .working p all _ => w.Serves p ∧ ∃ res, w.history.answer = some res ∧ all = tasks res
  | _ => True

def World.machine (w : World R) (φ : Phase ℤ) : Machine ℤ := ⟨w.ledger, φ, w.Decided⟩

/-- The world matches a machine state in phase `φ` that satisfies `P`. -/
structure World.At (P : Machine ℤ → Prop) (w : World R) (φ : Phase ℤ) : Prop where
  holds : P (w.machine φ)
  fits : w.Fits φ

def tracks (rules : Rules ℤ) (P : Machine ℤ → Prop) (F : Prop) : Spec (World R) where
  inv w := ∃ φ, w.At P φ
  guar w w' := w'.ledger = w.ledger ∨ ∃ φ φ', w.At P φ ∧ w'.At P φ' ∧
    Step rules (w.machine φ) (w'.machine φ')
  panics _ _ := F

theorem World.Calm.serves {w w' : World R} (h : w.Calm w') {p : Purpose ℤ} (hs : w.Serves p) :
    w'.Serves p := by
  cases p with
  | newBlocks f t u => exact ⟨h.retrying.trans hs.1, h.upstream.trans hs.2⟩
  | retry h' u => exact ⟨h.retrying.trans hs.1, h.upstream.trans hs.2⟩

theorem World.Calm.machine {w w' : World R} (h : w.Calm w') (φ : Phase ℤ) :
    w'.machine φ = w.machine φ := by
  rw [World.machine, World.machine, h.ledger, propext h.decided]

theorem World.At.calm {P : Machine ℤ → Prop} {w w' : World R} {φ : Phase ℤ} (hat : w.At P φ)
    (h : w.Calm w') : w'.At P φ := by
  refine ⟨by rw [h.machine]; exact hat.holds, ?_⟩
  have hf := hat.fits
  cases φ with
  | idle | halted => trivial
  | asked p | broken p => exact h.serves hf
  | working p all todo =>
    obtain ⟨hs, res, hans, hall⟩ := hf
    exact ⟨h.serves hs, res, h.answer.trans hans, hall⟩

theorem quiet_tracks {rules : Rules ℤ} {P : Machine ℤ → Prop} {F : Prop} :
    Quiet (tracks rules P F : Spec (World R)) where
  inv _ _ h := fun ⟨φ, hat⟩ => ⟨φ, hat.calm h⟩
  guar _ _ h _ := Or.inl h.ledger

/-! ## Rules for the operations -/

/-- The outcomes of a fallible operation. -/
def Outcome {W : Type} (E : W → Prop) (K : α → W → Prop) : Except Error α → W → Prop
  | .error _, w => E w
  | .ok a, w => K a w

section
variable {T : Spec (World R)} {H : Handler sig (World R)} {E E' : World R → Prop}
  {K : α → World R → Prop} {w : World R}

theorem wp_orReturn {p : Prog sig (Except Error α)} {f : α → Prog sig (Except Error β)}
    {Q : Except Error β → World R → Prop} (hp : T.wp H p (Outcome E K) w)
    (hE : ∀ e w, E w → Q (.error e) w) (hK : ∀ a w, K a w → T.wp H (f a) Q w) :
    T.wp H (orReturn p f) Q w := by
  refine Spec.wp_seq hp ?_
  rintro (e | a) w' h
  · exact hE e w' h
  · exact hK a w' h

theorem wp_wrapping {p : Prog sig (Except Error α)} {msg : String}
    (hp : T.wp H p (Outcome E K) w) : T.wp H (wrapping msg p) (Outcome E K) w := by
  refine Spec.wp_seq hp ?_
  rintro (e | a) w' h
  · exact h
  · exact h

theorem wp_errorOf {p : Prog sig (Except Error Unit)} {K : Unit → World R → Prop}
    {Q : Option Error → World R → Prop} (hp : T.wp H p (Outcome E K) w)
    (hE : ∀ e w, E w → Q (some e) w) (hK : ∀ w, K () w → Q none w) :
    T.wp H (errorOf p) Q w := by
  refine Spec.wp_seq hp ?_
  rintro (e | ⟨⟩) w' h
  · exact hE e w' h
  · exact hK w' h

end

/-! ## The statements of a transaction -/

/-- What matters of the open transaction: its latest height, its failed blocks, and the
    heights of its blocks. -/
def World.txView (w : World R) : Option (ℤ × Map ℤ FailedBlock × List ℤ) :=
  w.tx.map fun tx => (tx.work.latestIndexedBlock, tx.work.failedBlock, tx.heights)

/-- Nothing has changed since `w₀`, except that a transaction is open. -/
structure Open (w₀ : World R) (v : ℤ × Map ℤ FailedBlock × List ℤ) (w : World R) : Prop where
  calm : w₀.Calm w
  view : w.txView = some v

/-- A statement on the tables of records. -/
def Stmt.OnRecords : Stmt → Prop
  | .updateLatestIndexedBlock _ _ | .upsertFailedBlocks _ _ _ | .deleteFailedBlock _ => False
  | _ => True

section
variable {T : Spec (World R)} {d : Indexer R} {rpc : Answers} {w₀ w : World R}
  {v : ℤ × Map ℤ FailedBlock × List ℤ}

theorem txExec_calm {stmt : Stmt} (a : Except Error Unit) :
    w.Calm (w.after d.tables (.txExec stmt) a) := by
  cases a with
  | error e => exact World.calm_after rfl rfl id
  | ok u => exact World.calm_after rfl rfl id

/-- A statement of the transaction, with what it changes of it. -/
theorem wp_txExec (hT : Quiet T) (hw : T.inv w₀) (h : Open w₀ v w) {stmt : Stmt}
    {v' : ℤ × Map ℤ FailedBlock × List ℤ}
    (hv : ∀ tx : Transaction R, (tx.work.latestIndexedBlock, tx.work.failedBlock, tx.heights) = v →
      ((stmt.run d.tables tx.work).latestIndexedBlock, (stmt.run d.tables tx.work).failedBlock,
        txHeights stmt ++ tx.heights) = v') :
    T.wp (environment d rpc) (execute true stmt) (Outcome w₀.Calm fun _ => Open w₀ v') w := by
  have hinv := hT.inv _ _ h.calm hw
  refine ⟨hinv, fun a _ => ⟨hT.guar _ _ (txExec_calm a) hinv, ?_⟩⟩
  cases a with
  | error e => exact h.calm.trans (txExec_calm _)
  | ok u =>
    refine ⟨h.calm.trans (txExec_calm _), ?_⟩
    obtain ⟨tx, htx, he⟩ := Option.map_eq_some_iff.1 h.view
    show (w.tx.map _).map _ = some v'
    rw [htx, ← hv tx he]
    rfl

/-- A statement on the records leaves the rest of the transaction alone. -/
theorem wp_txExec_onRecords (hT : Quiet T) (hw : T.inv w₀) (h : Open w₀ v w) {stmt : Stmt}
    (hs : stmt.OnRecords) :
    T.wp (environment d rpc) (execute true stmt) (Outcome w₀.Calm fun _ => Open w₀ v) w := by
  refine wp_txExec hT hw h fun tx htx => ?_
  rw [← htx]
  cases stmt with
  | updateLatestIndexedBlock _ _ | upsertFailedBlocks _ _ _ | deleteFailedBlock _ => exact hs.elim
  | _ => rfl

theorem wp_insertRecords (hT : Quiet T) (hw : T.inv w₀) (h : Open w₀ v w) {records : List α}
    {valid : Except Error Unit} {stmt : Stmt} (hs : stmt.OnRecords) :
    T.wp (environment d rpc) (insertRecords records valid stmt)
      (Outcome w₀.Calm fun _ => Open w₀ v) w := by
  unfold insertRecords
  split_ifs with hempty
  · exact h
  · cases valid with
    | error e => exact h.calm
    | ok u => exact wp_txExec_onRecords hT hw h hs

theorem wp_insertBlockInformation (hT : Quiet T) (hw : T.inv w₀) (h : Open w₀ v w) (height : ℤ)
    (block : BlockInResponse) :
    T.wp (environment d rpc) (insertBlockInformation d height block)
      (Outcome w₀.Calm fun _ => Open w₀ v) w := by
  refine hT.wp_call (hT.inv _ _ h.calm hw) (fun o _ => World.calm_after rfl rfl id)
    fun o _ hcalm _ => ?_
  have h₁ : Open w₀ v (w.after d.tables .mapOrder o) := ⟨h.calm.trans hcalm, h.view⟩
  cases blockInformation d.sdk o d.chainId d.bech32Cfg height block with
  | error e => exact h₁.calm
  | ok records =>
    have hs : ∀ txs, (Stmt.insertTransactions txs).OnRecords := fun _ => trivial
    refine wp_orReturn (wp_wrapping (wp_insertRecords hT hw h₁ (hs _))) (fun _ _ h => h)
      fun _ w₂ h₂ => ?_
    have hs : ∀ accounts, (Stmt.insertAccounts accounts).OnRecords := fun _ => trivial
    refine wp_orReturn (wp_wrapping (wp_insertRecords hT hw h₂ (hs _))) (fun _ _ h => h)
      fun _ w₃ h₃ => ?_
    have hs : ∀ txs, (Stmt.insertRecentAccountTransactions txs).OnRecords := fun _ => trivial
    refine wp_orReturn (wp_wrapping (wp_insertRecords hT hw h₃ (hs _))) (fun _ _ h => h)
      fun _ w₄ h₄ => ?_
    have hs : ∀ refs, (Stmt.insertRefAccountToRecentTx refs).OnRecords := fun _ => trivial
    exact wp_wrapping (wp_insertRecords hT hw h₄ (hs _))

/-- **The transaction of a block** raises its latest height to the block's, and removes
    the failed block. -/
theorem wp_blockStatements (hT : Quiet T) (hw : T.inv w₀) (h : Open w₀ v w)
    (block : BlockInResponse) :
    T.wp (environment d rpc) (blockStatements d block) (Outcome w₀.Calm fun _ => Open w₀
      (max v.1 block.height, v.2.1.erase block.height, block.height :: v.2.2)) w := by
  refine wp_orReturn (wp_insertBlockInformation hT hw h block.height block) (fun _ _ h => h)
    fun _ w₁ h₁ => ?_
  have hcleanup : T.wp (environment d rpc) (if block.transactions.length > 0 then
      execute true .cleanupZeroRefCount else return .ok ())
      (Outcome w₀.Calm fun _ => Open w₀ v) w₁ := by
    split_ifs with htxs
    · have hs : Stmt.cleanupZeroRefCount.OnRecords := trivial
      exact wp_txExec_onRecords hT hw h₁ hs
    · exact h₁
  refine wp_orReturn hcleanup (fun _ _ h => h) fun _ w₂ h₂ => ?_
  have hlatest : T.wp (environment d rpc) (setLatestIndexedBlock d true block.height)
      (Outcome w₀.Calm fun _ => Open w₀ (max v.1 block.height, v.2.1, block.height :: v.2.2))
      w₂ := by
    refine hT.wp_call (hT.inv _ _ h₂.calm hw) (fun n _ => World.calm_after rfl rfl id)
      fun now _ hcalm _ => ?_
    have h₃ : Open w₀ v (w₂.after d.tables .now now) := ⟨h₂.calm.trans hcalm, h₂.view⟩
    refine wp_wrapping (wp_txExec hT hw h₃ fun tx htx => ?_)
    rw [← htx, Stmt.run]
    split_ifs with hlt
    · rw [max_eq_right (le_of_lt hlt)]; rfl
    · rw [max_eq_left (not_lt.1 hlt)]; rfl
  refine wp_orReturn hlatest (fun _ _ h => h) fun _ w₃ h₃ => ?_
  refine wp_wrapping (wp_txExec hT hw h₃ fun tx htx => ?_)
  rw [Prod.mk.injEq, Prod.mk.injEq] at htx
  obtain ⟨hl, hf, hh⟩ := htx
  rw [← hl, ← hf, ← hh]
  rfl

end

/-! ## Ledgers after a call -/

section
variable {tables : RecordTables R} {w : World R}

theorem ledger_upsertFailedBlocks {now : ℤ} {errs : List String} {heights : List ℤ} {u : Unit} :
    (w.after tables (.exec (.upsertFailedBlocks now errs heights)) (.ok u)).ledger =
      w.ledger.mark {h | h ∈ heights} := by
  ext h
  · rfl
  · exact mem_upsertFailedBlocks
  · rfl
  · show h ∈ w.history.unwritten.filter (fun h => h ∉ heights) ↔
      h ∈ w.history.unwritten ∧ h ∉ heights
    rw [List.mem_filter, decide_eq_true_iff]

theorem ledger_updateLatestIndexedBlock {height now : ℤ} {u : Unit}
    (he : reportsEmpty w.history.answer height = true) :
    (w.after tables (.exec (.updateLatestIndexedBlock height now)) (.ok u)).ledger =
      w.ledger.record height := by
  have hdb : (w.after tables (.exec (.updateLatestIndexedBlock height now)) (.ok u)).db =
      (Stmt.updateLatestIndexedBlock height now).run tables w.db := rfl
  have hindexed : (w.after tables (.exec (.updateLatestIndexedBlock height now))
      (.ok u)).history.indexed = height :: w.history.indexed := by
    show recordedHeights w _ ++ w.history.indexed = _
    rw [recordedHeights, if_pos he]
    rfl
  ext h
  · simp only [World.ledger, hdb, Stmt.run, Ledger.record]
    split_ifs with hlt
    · exact (max_eq_right (le_of_lt hlt)).symm
    · exact (max_eq_left (not_lt.1 hlt)).symm
  · simp only [World.ledger, hdb, Stmt.run, Ledger.record]
    split_ifs <;> rfl
  · simp only [World.ledger, hindexed, Ledger.record, Set.mem_ofPred_eq, List.mem_cons,
      Set.mem_insert_iff]
  · rfl

theorem ledger_deleteFailedBlock {height : ℤ} {u : Unit} :
    (w.after tables (.exec (.deleteFailedBlock height)) (.ok u)).ledger =
      w.ledger.forget height := by
  ext h
  · rfl
  · show h ∈ w.db.failedBlock.erase height ↔ h ∈ w.db.failedBlock ∧ h ≠ height
    rw [AList.mem_erase, and_comm]
  · rfl
  · exact List.mem_cons

/-- The query for the range of a batch. -/
theorem ledger_beTransactionsInBlockRange {p : Purpose ℤ} (h : w.Serves p)
    (r : Except Error TransformedResponseBeTransactionsInBlockRange) :
    (w.after tables (.beTransactionsInBlockRange p.lo p.hi) r).ledger = w.ledger.asked p := by
  have hunwritten : (w.after tables (.beTransactionsInBlockRange p.lo p.hi) r).history.unwritten =
      (w.history.asked p.lo p.hi).unwritten := by cases r <;> rfl
  cases p with
  | newBlocks f t u =>
    ext k
    · cases r <;> rfl
    · cases r <;> rfl
    · cases r <;> rfl
    · simp only [World.ledger, hunwritten, History.asked, h.1, Set.mem_ofPred_eq, List.mem_append,
        mem_numbers]
      exact Iff.rfl
  | retry h' u =>
    ext k
    · cases r <;> rfl
    · cases r <;> rfl
    · cases r <;> rfl
    · simp only [World.ledger, hunwritten, History.asked, h.1, Set.mem_ofPred_eq]
      exact Iff.rfl

theorem ledger_commit {w₀ : World R} {height : ℤ} {u : Unit}
    (h : Open w₀ (max w₀.db.latestIndexedBlock height, w₀.db.failedBlock.erase height, [height])
      w) :
    (w.after tables .commit (.ok u)).ledger = w₀.ledger.commit height := by
  obtain ⟨tx, htx, he⟩ := Option.map_eq_some_iff.1 h.view
  rw [Prod.mk.injEq, Prod.mk.injEq] at he
  obtain ⟨hl, hf, hh⟩ := he
  have hdb : (w.after tables .commit (.ok u)).db = tx.work := by
    show (w.tx.map _).getD _ = _
    rw [htx]; rfl
  have hindexed : (w.after tables .commit (.ok u)).history.indexed =
      height :: w.history.indexed := by
    show (w.tx.map _).getD _ ++ w.history.indexed = _
    rw [htx, Option.map_some, Option.getD_some, hh]
    rfl
  have hold : ∀ k, k ∈ w.history.indexed ↔ k ∈ w₀.ledger.indexed := fun k => by
    rw [← h.calm.ledger]
    rfl
  ext k
  · simp only [World.ledger, hdb, hl]; rfl
  · simp only [World.ledger, hdb, hf, Set.mem_ofPred_eq, AList.mem_erase]
    exact and_comm
  · simp only [World.ledger, hindexed, Set.mem_ofPred_eq, List.mem_cons, hold]
    exact Iff.rfl
  · rw [← h.calm.ledger]
    rfl

end

/-! ## Batches -/

section
variable {d : Indexer R} {rpc : Answers} {rules : Rules ℤ} {P : Machine ℤ → Prop} {F : Prop}
  {p : Purpose ℤ} {w w' : World R} {res : TransformedResponseBeTransactionsInBlockRange}
  {todo : List (Task ℤ)} {φ φ' : Phase ℤ}

/-- The steps of the machine keep `P`. -/
def Closed (rules : Rules ℤ) (P : Machine ℤ → Prop) : Prop := ∀ m m', P m → Step rules m m' → P m'

theorem World.At.step (hP : Closed rules P) (hat : w.At P φ)
    (hs : Step rules (w.machine φ) (w'.machine φ')) (hf : w'.Fits φ') :
    (tracks rules P F).guar w w' ∧ w'.At P φ' := by
  have hat' : w'.At P φ' := ⟨hP _ _ hat.holds hs, hf⟩
  exact ⟨Or.inr ⟨φ, φ', hat, hat', hs⟩, hat'⟩

/-- The indexer works on the answer `res`, and `todo` is left. -/
structure World.Works (P : Machine ℤ → Prop) (w : World R) (p : Purpose ℤ)
    (res : TransformedResponseBeTransactionsInBlockRange) (todo : List (Task ℤ)) : Prop where
  at_phase : w.At P (.working p (tasks res) todo)
  answer : w.history.answer = some res

theorem World.Works.calm (h : w.Works P p res todo) (hc : w.Calm w') : w'.Works P p res todo :=
  ⟨h.at_phase.calm hc, hc.answer.trans h.answer⟩

/-- What a part of a batch ends with: a fatal error, or `todo` left. -/
def Worked (P : Machine ℤ → Prop) (p : Purpose ℤ)
    (res : TransformedResponseBeTransactionsInBlockRange) (todo : List (Task ℤ)) :
    Option Error → World R → Prop
  | none, w => w.Works P p res todo
  | some _, w => w.At P (.broken p)

/-- A call that works off the first task. -/
theorem World.Works.work (hP : Closed rules P) {a : Task ℤ} {b : Bool}
    (h : w.Works P p res (a :: todo)) (hw : Work a b w.ledger w'.ledger)
    (hD : w'.Decided ↔ w.Decided ∨ b = true) (hh : w'.history.answer = w.history.answer)
    (hs : w.Serves p → w'.Serves p) :
    (tracks rules P F).guar w w' ∧ w'.Works P p res todo := by
  have hans := hh.trans h.answer
  obtain ⟨hg, hat⟩ := World.At.step (F := F) hP h.at_phase (Step.work hw hD)
    ⟨hs h.at_phase.fits.1, res, hans, rfl⟩
  exact ⟨hg, hat, hans⟩

/-- A call after which the batch breaks off. -/
theorem World.Works.fail (hP : Closed rules P) (h : w.Works P p res todo)
    (hl : w'.ledger = w.ledger) (hD : w'.Decided) (hs : w.Serves p → w'.Serves p) :
    (tracks rules P F).guar w w' ∧ w'.At P (.broken p) := by
  have hstep : Step rules (w.machine (.working p (tasks res) todo)) (w'.machine (.broken p)) := by
    rw [World.machine, World.machine, hl]
    exact Step.fail hD
  exact World.At.step hP h.at_phase hstep (hs h.at_phase.fits.1)

/-- A statement outside of a transaction serves the same batch. -/
theorem serves_exec {stmt : Stmt} {a : Except Error Unit} (h : w.Serves p) :
    (w.after d.tables (.exec stmt) a).Serves p := by
  cases a <;> cases p <;> exact h

theorem answer_exec {stmt : Stmt} {a : Except Error Unit} :
    (w.after d.tables (.exec stmt) a).history.answer = w.history.answer := by
  cases a <;> rfl

/-- A statement that works off the first task. -/
theorem wp_executeTask (hP : Closed rules P) {a : Task ℤ} {b : Bool} {msg : String}
    {stmt : ℤ → Stmt} (h : w.Works P p res (a :: todo))
    (herr : ∀ now e, Decisive (.exec (stmt now)) (.error e))
    (hok : ∀ now u, Decisive (.exec (stmt now)) (.ok u) ↔ b = true)
    (hw : ∀ w' now u, w.Calm w' →
      Work a b w'.ledger (w'.after d.tables (.exec (stmt now)) (.ok u)).ledger) :
    (tracks rules P F).wp (environment d rpc)
      (errorOf (do wrapping msg (execute false (stmt (← perform .now)))))
      (Worked P p res todo) w := by
  refine wp_errorOf (E := fun w' => w'.At P (.broken p)) (K := fun _ w' => w'.Works P p res todo)
    ?_ (fun _ _ h => h) (fun _ h => h)
  refine quiet_tracks.wp_call ⟨_, h.at_phase⟩ (fun n _ => World.calm_after rfl rfl id)
    fun now _ hcalm _ => wp_wrapping ?_
  have h₁ := h.calm hcalm
  refine ⟨⟨_, h₁.at_phase⟩, fun r _ => ?_⟩
  cases r with
  | error e => exact h₁.fail hP rfl (World.decided_after.2 (Or.inl (herr now e))) serves_exec
  | ok u =>
    refine h₁.work hP (hw _ now u hcalm) ?_ answer_exec serves_exec
    exact World.decided_after.trans ((or_congr_left (hok now u)).trans or_comm)

theorem wp_markHeights (hP : Closed rules P) {a : Task ℤ} {heights : List ℤ}
    (h : w.Works P p res (a :: todo)) (reason : Option Error)
    (hw : ∀ s, Work a false s (s.mark {k | k ∈ heights})) :
    (tracks rules P F).wp (environment d rpc)
      (errorOf (insertOrUpdateFailedBlocks heights reason)) (Worked P p res todo) w := by
  refine wp_executeTask (b := false) hP h (fun _ _ => trivial)
    (fun _ _ => ⟨False.elim, Bool.false_ne_true⟩) fun w' now u _ => ?_
  rw [ledger_upsertFailedBlocks]
  exact hw _

theorem wp_markFailedBlock (hP : Closed rules P) {height : ℤ}
    (h : w.Works P p res (.block height :: todo)) (perBlockErr : Error) :
    (tracks rules P F).wp (environment d rpc) (markFailedBlock height perBlockErr)
      (Worked P p res todo) w := by
  have hset : ({k | k ∈ [height]} : Set ℤ) = {height} := Set.ext fun k => List.mem_singleton
  exact wp_markHeights hP h _ fun s => hset ▸ Work.mark height s

/-- Recording an empty block. -/
theorem wp_recordEmptyBlock (hP : Closed rules P) {height : ℤ}
    (h : w.Works P p res (.block height :: todo)) (he : reportsEmpty (some res) height = true) :
    (tracks rules P F).wp (environment d rpc) (errorOf (setLatestIndexedBlock d false height))
      (Worked P p res todo) w := by
  refine wp_executeTask (b := true) hP h (fun _ _ => trivial)
    (fun _ _ => ⟨fun _ => rfl, fun _ => trivial⟩) fun w' now u hcalm => ?_
  have hans : w'.history.answer = some res := hcalm.answer.trans h.answer
  rw [ledger_updateLatestIndexedBlock (hans ▸ he)]
  exact Work.record height _

/-- A call after which the batch goes on, or breaks off. -/
theorem World.Works.wp_call (hP : Closed rules P) (h : w.Works P p res todo) {c : Call}
    {f : c.Ans → Prog sig α} {Q : α → World R → Prop}
    (hdb : ∀ a, (w.change d.tables c a).db = w.db)
    (hh : ∀ a, (w.change d.tables c a).history = w.history)
    (hgo : ∀ a, ¬ Decisive c a → ∀ w', w' = w.after d.tables c a → w'.Works P p res todo →
      (tracks rules P F).wp (environment d rpc) (f a) Q w')
    (hbreak : ∀ a, Decisive c a → ∀ w', w'.At P (.broken p) →
      (tracks rules P F).wp (environment d rpc) (f a) Q w') :
    (tracks rules P F).wp (environment d rpc) (perform c >>= f) Q w := by
  refine Spec.wp_call_bind ⟨_, h.at_phase⟩ fun a _ => ?_
  by_cases hD : Decisive c a
  · have hledger : (w.after d.tables c a).ledger = w.ledger := by
      simp only [World.ledger, World.after, hdb, hh]
    have hserves : w.Serves p → (w.after d.tables c a).Serves p := by
      intro hs
      cases p <;> simpa only [World.Serves, World.after, hh] using hs
    obtain ⟨hg, hat⟩ := h.fail (F := F) hP hledger (World.decided_after.2 (Or.inl hD)) hserves
    exact ⟨hg, hbreak a hD _ hat⟩
  · have hcalm : w.Calm (w.after d.tables c a) := World.calm_after (hdb a) (hh a) hD
    exact ⟨Or.inl hcalm.ledger, hgo a hD _ rfl (h.calm hcalm)⟩

theorem wp_preparePartitions (hP : Closed rules P) (h : w.Works P p res todo)
    (block : BlockInResponse) :
    (tracks rules P F).wp (environment d rpc) (preparePartitions d block)
      (Outcome (fun w' => w'.At P (.broken p)) fun _ w' => w'.Works P p res todo) w := by
  refine h.wp_call hP (fun _ => rfl) (fun _ => rfl) (fun now _ w₁ _ h₁ => ?_) fun _ hD => hD.elim
  refine h₁.wp_call hP (fun _ => rfl) (fun _ => rfl) (fun created _ w₂ _ h₂ => ?_)
    fun _ hD => hD.elim
  cases created with
  | true => exact h₂
  | false =>
    refine h₂.wp_call hP ?_ ?_ (fun r hr w₃ _ h₃ => ?_) fun r hr w₃ h₃ => ?_
    · rintro (e | u) <;> rfl
    · rintro (e | u) <;> rfl
    · cases r with
      | error e => exact absurd trivial hr
      | ok u =>
        exact h₃.wp_call hP (fun _ => rfl) (fun _ => rfl) (fun _ _ w₄ _ h₄ => h₄)
          fun _ hD => hD.elim
    · cases r with
      | error e => exact h₃
      | ok u => exact hr.elim

theorem wp_indexTransactions (hP : Closed rules P) {block : BlockInResponse}
    (h : w.Works P p res (.block block.height :: todo)) :
    (tracks rules P F).wp (environment d rpc) (indexTransactions d block)
      (Worked P p res todo) w := by
  refine Spec.wp_call_bind ⟨_, h.at_phase⟩ fun r _ => ?_
  cases r with
  | error sqlErr =>
    refine h.fail hP rfl (World.decided_after.2 (Or.inl trivial)) fun hs => ?_
    cases p <;> exact hs
  | ok u =>
    have hopen : Open w (w.db.latestIndexedBlock, w.db.failedBlock, [])
        (w.after d.tables .begin (.ok u)) := ⟨World.calm_after rfl rfl id, rfl⟩
    refine ⟨Or.inl hopen.calm.ledger, ?_⟩
    refine Spec.wp_seq (wp_blockStatements quiet_tracks ⟨_, h.at_phase⟩ hopen block) ?_
    rintro (perBlockErr | ⟨⟩) w₁ h₁
    · have hrollback : (tracks rules P F).wp (environment d rpc) (discard (perform .rollback))
          (fun _ w' => w'.Works P p res (.block block.height :: todo)) w₁ :=
        (h.calm h₁).wp_call hP (fun _ => rfl) (fun _ => rfl) (fun _ _ w₂ _ h₂ => h₂)
          fun _ hD => hD.elim
      exact Spec.wp_seq hrollback fun _ w₂ h₂ => wp_markFailedBlock hP h₂ perBlockErr
    · have hw₁ := h.calm h₁.calm
      refine Spec.wp_call_bind ⟨_, hw₁.at_phase⟩ fun r _ => ?_
      cases r with
      | error perBlockErr =>
        refine ⟨Or.inl rfl, wp_markFailedBlock hP ?_ perBlockErr⟩
        exact hw₁.calm (World.calm_after rfl rfl id)
      | ok u =>
        have hwork : Work (.block block.height) true w₁.ledger
            (w₁.after d.tables .commit (.ok u)).ledger := by
          rw [ledger_commit h₁, h₁.calm.ledger]
          exact Work.commit block.height _
        refine hw₁.work hP hwork ?_ rfl fun hs => ?_
        · exact World.decided_after.trans ((or_congr_left (iff_of_true trivial rfl)).trans or_comm)
        · cases p <;> exact hs

/-- **An iteration of the loop over the blocks** works off its block. -/
theorem wp_indexBlock (hP : Closed rules P) {block : BlockInResponse}
    (h : w.Works P p res (.block block.height :: todo)) (hb : block ∈ res.blocks)
    (hF : block.height = 0 → F) :
    (tracks rules P F).wp (environment d rpc) (indexBlock d block) (Worked P p res todo) w := by
  unfold indexBlock
  split_ifs with hzero hempty
  · exact hF hzero
  · refine wp_recordEmptyBlock hP h ?_
    have hnil : block.transactions.isEmpty = true :=
      List.isEmpty_iff_length_eq_zero.2 (Nat.lt_one_iff.1 hempty)
    rw [reportsEmpty, Option.any_some, List.any_eq_true]
    exact ⟨block, hb, by simp [hnil]⟩
  · refine Spec.wp_seq (wp_preparePartitions hP h block) ?_
    rintro (sqlErr | ⟨⟩) w₁ h₁
    · exact h₁
    · exact wp_indexTransactions hP h₁

theorem wp_indexBlocks (hP : Closed rules P) {blocks : List BlockInResponse}
    (h : w.Works P p res (blocks.map fun b => .block b.height))
    (hb : ∀ b ∈ blocks, b ∈ res.blocks) (hF : ∀ b ∈ blocks, b.height = 0 → F) :
    (tracks rules P F).wp (environment d rpc) (indexBlocks d blocks) (Worked P p res []) w := by
  induction blocks generalizing w with
  | nil => exact h
  | cons block blocks ih =>
    refine Spec.wp_seq (wp_indexBlock hP h (hb _ List.mem_cons_self) (hF _ List.mem_cons_self)) ?_
    rintro (_ | fatalError) w₁ h₁
    · exact ih h₁ (fun b hm => hb b (List.mem_cons_of_mem _ hm))
        fun b hm => hF b (List.mem_cons_of_mem _ hm)
    · exact h₁

theorem wp_markReported (hP : Closed rules P) {heights : List ℤ}
    (h : w.Works P p res (.report heights :: todo)) (reason : Error) :
    (tracks rules P F).wp (environment d rpc) (markReported heights reason)
      (Worked P p res todo) w := by
  unfold markReported
  split_ifs with hlen
  · exact wp_markHeights hP h _ fun s => Work.report heights s
  · -- nothing to record
    obtain rfl := List.length_eq_zero_iff.1 (Nat.le_zero.1 (not_lt.1 hlen))
    have hmark : w.ledger.mark {k | k ∈ ([] : List ℤ)} = w.ledger := by
      ext k <;> simp [Ledger.mark]
    have hwork := Work.report ([] : List ℤ) w.ledger
    rw [hmark] at hwork
    exact (h.work (F := F) hP hwork (by simp) rfl id).2

theorem wp_indexAnswer (hP : Closed rules P) (h : w.Works P p res (tasks res))
    (hF : ∀ b ∈ res.blocks, b.height = 0 → F) :
    (tracks rules P F).wp (environment d rpc) (indexAnswer d res) (Worked P p res []) w := by
  have hsort : ∀ b, b ∈ sortBlocks res.blocks → b ∈ res.blocks := fun b hb =>
    (List.perm_insertionSort _ _).mem_iff.1 hb
  refine Spec.wp_seq (wp_markReported hP h _) ?_
  rintro (_ | sqlErr) w₁ h₁
  · refine Spec.wp_seq (wp_markReported hP h₁ _) ?_
    rintro (_ | sqlErr) w₂ h₂
    · exact wp_indexBlocks hP h₂ hsort fun b hb => hF b (hsort b hb)
    · exact h₂
  · exact h₁

/-! ## Queries for a range -/

theorem listed_tasks {k : ℤ} : Listed (tasks res) k ↔ k ∈ res.heights := by
  have hsort : ∀ b, b ∈ sortBlocks res.blocks ↔ b ∈ res.blocks := fun b =>
    (List.perm_insertionSort _ _).mem_iff
  simp only [tasks, listed_cons, Task.heights,
    TransformedResponseBeTransactionsInBlockRange.heights, List.mem_append, List.mem_map]
  simp only [Listed, List.mem_map, exists_exists_and_eq_and, hsort, Task.heights,
    List.mem_singleton, eq_comm (a := k)]
  exact or_comm.trans (or_congr_left or_comm)

theorem covering_rulesOf {asks : Purpose ℤ → Prop} : (rulesOf Lists asks).Covering := by
  rintro f t _ ⟨res, hres, rfl⟩ k hf ht
  exact listed_tasks.2 (hres k hf ht)

theorem ordered_tasks : Ordered (tasks res) := by
  have hsorted : (sortBlocks res.blocks).Pairwise fun l r => l.height ≤ r.height :=
    List.pairwise_insertionSort _ _
  refine List.pairwise_cons.2 ⟨fun _ _ _ he => (nomatch he), List.pairwise_cons.2
    ⟨fun _ _ _ he => (nomatch he), List.pairwise_map.2 (hsorted.imp fun hle h he k hk => ?_)⟩⟩
  obtain rfl := Task.block.inj he
  obtain rfl := List.mem_singleton.1 hk
  exact hle

/-- What a query for the range of `p` ends with. -/
def Fetched (P : Machine ℤ → Prop) (p : Purpose ℤ) : Option Error → World R → Prop
  | none, w => ∃ all, w.At P (.working p all [])
  | some _, w => w.At P (.broken p)

/-- **A batch** of the indexer is a batch of the machine. -/
theorem wp_fetchAndIndexingBlockRange (hP : Closed rules P) (h : w.At P (.asked p))
    (hrules : ∀ res, rpc p.lo p.hi res → rules.answers p.lo p.hi (tasks res))
    (hF : p.lo ≤ 0 → F) :
    (tracks rules P F).wp (environment d rpc) (fetchAndIndexingBlockRange d p.lo p.hi)
      (fun r => Fetched P p r.fatalError) w := by
  refine Spec.wp_call_bind ⟨_, h⟩ fun r hr => ?_
  cases r with
  | error fetchErr =>
    have hstep : Step rules (w.machine (.asked p)) ((w.after d.tables
        (.beTransactionsInBlockRange p.lo p.hi) (.error fetchErr)).machine (.broken p)) := by
      rw [World.machine, World.machine, ledger_beTransactionsInBlockRange h.fits]
      exact Step.refuse (World.decided_after.2 (Or.inl trivial))
    obtain ⟨hg, hat⟩ := World.At.step (F := F) hP h hstep (by cases p <;> exact h.fits)
    refine ⟨hg, ?_⟩
    dsimp only
    split_ifs with hblack
    · exact quiet_tracks.wp_call ⟨_, hat⟩ (fun _ _ => World.calm_after rfl rfl id)
        fun _ _ hcalm _ => hat.calm hcalm
    · exact hat
  | ok res =>
    obtain ⟨hrpc, o, now, r, hok⟩ := hr res rfl
    have hrange := (beTransactionsInBlockRange_ok hok).mem_range
    have hD : (w.after d.tables (.beTransactionsInBlockRange p.lo p.hi) (.ok res)).Decided =
        w.Decided := propext (World.decided_after.trans (or_iff_right id))
    have hstep : Step rules (w.machine (.asked p)) ((w.after d.tables
        (.beTransactionsInBlockRange p.lo p.hi) (.ok res)).machine
          (.working p (tasks res) (tasks res))) := by
      rw [World.machine, World.machine, hD, ledger_beTransactionsInBlockRange h.fits]
      exact Step.answer (hrules res hrpc) (fun k hk => hrange k (listed_tasks.1 hk)) ordered_tasks
    have hserves :
        (w.after d.tables (.beTransactionsInBlockRange p.lo p.hi) (.ok res)).Serves p := by
      cases p <;> exact h.fits
    obtain ⟨hg, hat⟩ := World.At.step (F := F) hP h hstep ⟨hserves, res, rfl, rfl⟩
    refine ⟨hg, Spec.wp_seq (wp_indexAnswer hP ⟨hat, rfl⟩ fun b hb hzero => hF ?_) ?_⟩
    · have hmem : b.height ∈ res.heights :=
        List.mem_append_left _ (List.mem_append_left _ (List.mem_map_of_mem hb))
      exact le_of_le_of_eq (hrange _ hmem).1 hzero
    · rintro (_ | fatalError) w₁ h₁
      · exact ⟨_, h₁.at_phase⟩
      · exact h₁

end

end RollappExplorer
