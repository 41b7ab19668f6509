/-
  The transaction of a block on the tables of the schema.

  * `Postgres.environment`: the environment of an indexer whose tables of records are those of
    the schema; a statement of a transaction succeeds only if it is executed;
  * `indexTransactions_commits`: what a run of `indexTransactions` that commits does to the
    tables (`CommitsBlock`).
-/
import RollappExplorer.Involvement
import RollappExplorer.Simulation

namespace RollappExplorer

open Go Effect Sql

/-! ## The environment -/

/-- What the planner does in a statement, and the time at which partition ids are made. -/
structure Postgres where
  planner : Stmt → Db → Planner
  now : ℤ

def Postgres.exec (s : Postgres) (stmt : Stmt) (db : Db) : Except Error Db :=
  db.exec (s.planner stmt db) s.now stmt

/-- The tables of records of the schema. -/
def Postgres.tables (s : Postgres) : RecordTables Db where
  insertTransactions txs db := db.orSelf (s.exec (.insertTransactions txs) db)
  insertAccounts accounts db := db.orSelf (s.exec (.insertAccounts accounts) db)
  insertRecentAccountTransactions txs db :=
    db.orSelf (s.exec (.insertRecentAccountTransactions txs) db)
  insertRefAccountToRecentTx refs db := db.orSelf (s.exec (.insertRefAccountToRecentTx refs) db)
  cleanupZeroRefCount db := db.orSelf (s.exec .cleanupZeroRefCount db)

/-- A statement of the open transaction succeeds only if it is executed. -/
def Postgres.allows (s : Postgres) : (c : Call) → c.Ans → World Db → Prop
  | .txExec stmt, a, w => a = .ok () → ∀ tx ∈ w.tx, ∃ db, s.exec stmt tx.work.records = .ok db
  | _, _, _ => True

def Postgres.environment (s : Postgres) : Handler sig (World Db) where
  allows := s.allows
  effect := World.after s.tables

/-- A transaction is open that works on the tables `work`, and `db` are the tables before. -/
structure World.Working (db work : Tables Db) (w : World Db) : Prop where
  db : w.db = db
  tx : ∃ heights, w.tx = some ⟨work, heights⟩

/-! ## Statements -/

section
variable {T : Spec (World Db)} {s : Postgres} {w : World Db} {db work : Tables Db} {stmt : Stmt}

/-- A call that neither the tables nor the transaction depend on. -/
theorem World.Working.after {c : Call} {a : c.Ans} (h : w.Working db work)
    (hdb : (w.change s.tables c a).db = w.db) (htx : (w.change s.tables c a).tx = w.tx) :
    (w.after s.tables c a).Working db work :=
  ⟨hdb.trans h.db, h.tx.imp fun _ he => htx.trans he⟩

/-- A statement of the transaction. -/
theorem wp_statement (h : w.Working db work) :
    (Spec.anything (World Db)).wp s.environment (execute true stmt) (Outcome (fun _ => True)
      fun _ w' => (∃ records, s.exec stmt work.records = .ok records) ∧
        w'.Working db (stmt.run s.tables work)) w := by
  refine ⟨trivial, fun a ha => ⟨trivial, ?_⟩⟩
  cases a with
  | error e => trivial
  | ok u =>
    obtain ⟨heights, htx⟩ := h.tx
    refine ⟨ha rfl _ htx, h.db, ?_⟩
    show ∃ heights, w.tx.map _ = _
    rw [htx]
    exact ⟨_, rfl⟩

/-- What a statement on the records does to the tables. -/
theorem Stmt.run_tables (hs : stmt.OnRecords) {records : Db}
    (he : s.exec stmt work.records = .ok records) :
    stmt.run s.tables work = { work with records := records } := by
  cases stmt with
  | updateLatestIndexedBlock _ _ | upsertFailedBlocks _ _ _ | deleteFailedBlock _ => exact hs.elim
  | insertTransactions txs => simp only [Stmt.run, Postgres.tables, he, Db.orSelf]
  | insertAccounts accounts => simp only [Stmt.run, Postgres.tables, he, Db.orSelf]
  | insertRecentAccountTransactions txs => simp only [Stmt.run, Postgres.tables, he, Db.orSelf]
  | insertRefAccountToRecentTx refs => simp only [Stmt.run, Postgres.tables, he, Db.orSelf]
  | cleanupZeroRefCount => simp only [Stmt.run, Postgres.tables, he, Db.orSelf]

/-- A statement on the records. -/
theorem wp_recordsStatement (hs : stmt.OnRecords) (h : w.Working db work) :
    (Spec.anything (World Db)).wp s.environment (execute true stmt) (Outcome (fun _ => True)
      fun _ w' => ∃ records, s.exec stmt work.records = .ok records ∧
        w'.Working db { work with records := records }) w := by
  refine Spec.wp_mono ?_ (wp_statement h)
  rintro (e | u) w' hw
  · trivial
  · obtain ⟨⟨records, he⟩, hw⟩ := hw
    exact ⟨records, he, Stmt.run_tables hs he ▸ hw⟩

/-- The insertion of records, which is left out if there are none. -/
theorem wp_insertStatement {α : Type} {records : List α} {valid : Except Error Unit}
    (hs : stmt.OnRecords) (hnil : records = [] → ∀ db, s.exec stmt db = .ok db)
    (h : w.Working db work) :
    (Spec.anything (World Db)).wp s.environment (insertRecords records valid stmt)
      (Outcome (fun _ => True) fun _ w' => (records = [] ∨ valid = .ok ()) ∧
        ∃ records', s.exec stmt work.records = .ok records' ∧
          w'.Working db { work with records := records' }) w := by
  unfold insertRecords
  split_ifs with hempty
  · have hrecords := List.length_eq_zero_iff.1 hempty
    exact ⟨.inl hrecords, work.records, hnil hrecords _, h⟩
  · cases valid with
    | error e => trivial
    | ok u =>
      refine Spec.wp_mono ?_ (wp_recordsStatement hs h)
      rintro (e | u') w' hw
      · trivial
      · exact ⟨.inr rfl, hw⟩

/-! ## The transaction of a block -/

/-- The records of a block are inserted. -/
structure InsertsBlock {R : Type} (d : Indexer R) (block : BlockInResponse) (t : BlockTransaction)
    (o : MapOrder) (records : BlockRecords) : Prop where
  information : blockInformation d.sdk o d.chainId d.bech32Cfg block.height block = .ok records
  valid : records.recordsTxs = [] ∨
    RecordsTransaction.validateBasic records.recordsTxs = .ok ()
  recordsTxs : t.recordsTxs = records.recordsTxs
  involvedAccounts : t.involvedAccounts = records.involvedAccounts o
  recentAccountTxs : t.recentAccountTxs = records.recentAccountTxs
  refAccountToRecentTxs : t.refAccountToRecentTxs = records.refAccountToRecentTxs

/-- The transaction of a block has led from the tables `db` to `db'`. -/
structure CommitsBlock {R : Type} (d : Indexer R) (block : BlockInResponse) (db db' : Tables Db) :
    Prop where
  records : ∃ t o records, InsertsBlock d block t o records ∧
    db.records.blockTransaction t = .ok db'.records
  latest : db.latestIndexedBlock < block.height ∧ db'.latestIndexedBlock = block.height ∨
    block.height ≤ db.latestIndexedBlock ∧ db'.latestIndexedBlock = db.latestIndexedBlock ∧
      db'.increasedLatestIndexedBlockAt = db.increasedLatestIndexedBlockAt
  failedBlock : db'.failedBlock = db.failedBlock.erase block.height

theorem wp_insertBlock {R : Type} (d : Indexer R) {block : BlockInResponse}
    (h : w.Working db work) :
    (Spec.anything (World Db)).wp s.environment (insertBlockInformation d block.height block)
      (Outcome (fun _ => True) fun _ w' => ∃ t o records, InsertsBlock d block t o records ∧
        ∃ records', work.records.insertBlockInformation t = .ok records' ∧
          w'.Working db { work with records := records' }) w := by
  refine Spec.wp_call_bind trivial fun o _ => ⟨trivial, ?_⟩
  have h₁ : (w.after s.tables .mapOrder o).Working db work := h.after rfl rfl
  cases hinfo : blockInformation d.sdk o d.chainId d.bech32Cfg block.height block with
  | error e => trivial
  | ok records =>
    have hs : ∀ txs, (Stmt.insertTransactions txs).OnRecords := fun _ => trivial
    refine wp_orReturn (wp_wrapping (wp_insertStatement (hs _) (fun hnil db => ?_) h₁))
      (fun _ _ _ => trivial) ?_
    · rw [hnil]
      exact Db.insertTransactions_nil s.now db
    rintro - w₂ ⟨hvalid, r₁, he₁, h₂⟩
    have hs : ∀ accounts, (Stmt.insertAccounts accounts).OnRecords := fun _ => trivial
    refine wp_orReturn (wp_wrapping (wp_insertStatement (hs _) (fun hnil db => ?_) h₂))
      (fun _ _ _ => trivial) ?_
    · rw [hnil]
      exact Db.insertAccounts_nil _ db
    rintro - w₃ ⟨-, r₂, he₂, h₃⟩
    have hs : ∀ txs, (Stmt.insertRecentAccountTransactions txs).OnRecords := fun _ => trivial
    refine wp_orReturn (wp_wrapping (wp_insertStatement (hs _) (fun hnil db => ?_) h₃))
      (fun _ _ _ => trivial) ?_
    · rw [hnil]
      exact congrArg Except.ok (Db.insertRecentAccountTransactions_nil db)
    rintro - w₄ ⟨-, r₃, he₃, h₄⟩
    have hs : ∀ refs, (Stmt.insertRefAccountToRecentTx refs).OnRecords := fun _ => trivial
    refine Spec.wp_mono ?_ (wp_wrapping (wp_insertStatement (hs _) (fun hnil db => ?_) h₄))
    · rintro (e | u) w' hw
      · trivial
      · obtain ⟨-, r₄, he₄, h₅⟩ := hw
        refine ⟨⟨s.planner (.insertAccounts (records.involvedAccounts o)) r₁,
          s.planner (.insertRefAccountToRecentTx records.refAccountToRecentTxs) r₃, s.now,
          records.recordsTxs, records.involvedAccounts o, records.recentAccountTxs,
          records.refAccountToRecentTxs, true⟩, o, records,
          ⟨hinfo, hvalid.imp_right mapError_ok_iff.1, rfl, rfl, rfl, rfl⟩, r₄, ?_, h₅⟩
        have hok₁ : work.records.insertTransactions s.now records.recordsTxs = .ok r₁ := he₁
        have hok₂ : r₁.insertAccounts _ (records.involvedAccounts o) = .ok r₂ := he₂
        have hok₃ : r₂.insertRecentAccountTransactions records.recentAccountTxs = r₃ :=
          Except.ok.inj he₃
        simp only [Db.insertBlockInformation, hok₁, ok_bind, hok₂, hok₃]
        exact he₄
    · rw [hnil]
      exact Db.insertRefs_nil (s.planner (.insertRefAccountToRecentTx []) db) db

/-- The statements of the transaction of a block with transactions. -/
theorem wp_blockStatements_commits {R : Type} (d : Indexer R) {block : BlockInResponse}
    (hne : block.transactions ≠ []) (h : w.Working db db) :
    (Spec.anything (World Db)).wp s.environment (blockStatements d block)
      (Outcome (fun _ => True) fun _ w' => ∃ work, CommitsBlock d block db work ∧
        w'.Working db work) w := by
  refine wp_orReturn (wp_insertBlock d h) (fun _ _ _ => trivial) ?_
  rintro - w₁ ⟨t, o, records, hins, r₁, hr₁, h₁⟩
  have hcleanup : (Spec.anything (World Db)).wp s.environment
      (if block.transactions.length > 0 then execute true .cleanupZeroRefCount else return .ok ())
      (Outcome (fun _ => True) fun _ w' => ∃ r₂, r₁.cleanupZeroRefCount = .ok r₂ ∧
        w'.Working db { db with records := r₂ }) w₁ := by
    rw [if_pos (List.length_pos_iff.2 hne)]
    have hs : Stmt.cleanupZeroRefCount.OnRecords := trivial
    exact wp_recordsStatement hs h₁
  refine wp_orReturn hcleanup (fun _ _ _ => trivial) ?_
  rintro - w₂ ⟨r₂, hr₂, h₂⟩
  have hlatest : (Spec.anything (World Db)).wp s.environment
      (setLatestIndexedBlock d true block.height) (Outcome (fun _ => True) fun _ w' =>
        ∃ now, w'.Working db ((Stmt.updateLatestIndexedBlock block.height now).run s.tables
          { db with records := r₂ })) w₂ := by
    refine Spec.wp_call_bind trivial fun now _ => ⟨trivial, ?_⟩
    have h₃ : (w₂.after s.tables .now now).Working db { db with records := r₂ } :=
      h₂.after rfl rfl
    refine wp_wrapping (Spec.wp_mono ?_ (wp_statement h₃))
    rintro (e | u) w' hw
    · trivial
    · exact ⟨now, hw.2⟩
  refine wp_orReturn hlatest (fun _ _ _ => trivial) ?_
  rintro - w₃ ⟨now, h₃⟩
  refine wp_wrapping (Spec.wp_mono ?_ (wp_statement h₃))
  rintro (e | u) w' hw
  · trivial
  · refine ⟨_, ?_, hw.2⟩
    have hok : db.records.blockTransaction t = .ok r₂ := by
      rw [Db.blockTransaction, hr₁, ok_bind, hr₂]
    simp only [Stmt.run]
    split_ifs with hlt
    · exact ⟨⟨t, o, records, hins, hok⟩, .inl ⟨hlt, rfl⟩, rfl⟩
    · exact ⟨⟨t, o, records, hins, hok⟩, .inr ⟨not_lt.1 hlt, rfl, rfl⟩, rfl⟩

/-- The last call of a run was a commit that succeeded. -/
def World.Committed {R : Type} (w : World R) : Prop :=
  w.history.log.head? = some ⟨.commit, .ok ()⟩

/-- Recording a failed block is not a commit. -/
theorem wp_markFailedBlock_notCommitted (height : ℤ) (err : Error) (w : World Db) :
    (Spec.anything (World Db)).wp s.environment (markFailedBlock height err)
      (fun _ w' => ¬ w'.Committed) w := by
  refine wp_errorOf (E := fun w' => ¬ w'.Committed) (K := fun _ w' => ¬ w'.Committed) ?_
    (fun _ _ h => h) fun _ h => h
  refine Spec.wp_call_bind trivial fun now _ => ⟨trivial, ?_⟩
  refine wp_wrapping ⟨trivial, fun a _ => ⟨trivial, ?_⟩⟩
  have hnot : ¬ World.Committed ((w.after s.tables .now now).after s.tables
      (.exec (.upsertFailedBlocks now (some err).toList [height])) a) := by
    intro h
    have hhead := Option.some.inj h
    cases hhead
  cases a with
  | error e => exact hnot
  | ok u => exact hnot

/-- **A run of the transaction of a block that commits** has executed its statements. -/
theorem indexTransactions_commits {R : Type} (d : Indexer R) {block : BlockInResponse}
    (hne : block.transactions ≠ []) {w' : World Db}
    (hrun : Run s.environment (indexTransactions d block, w) (.ret none, w'))
    (hcommit : w'.Committed) : CommitsBlock d block w.db w'.db := by
  have hwp : (Spec.anything (World Db)).wp s.environment (indexTransactions d block)
      (fun r w' => r = none → w'.Committed → CommitsBlock d block w.db w'.db) w := by
    refine Spec.wp_call_bind trivial fun r _ => ⟨trivial, ?_⟩
    cases r with
    | error sqlErr => exact fun h => nomatch h
    | ok u =>
      have h₁ : (w.after s.tables .begin (.ok u)).Working w.db w.db := ⟨rfl, [], rfl⟩
      refine Spec.wp_seq (wp_blockStatements_commits d hne h₁) ?_
      rintro (perBlockErr | u') w₂ h₂
      · refine Spec.wp_seq (R := fun _ _ => True) ⟨trivial, fun _ _ => ⟨trivial, trivial⟩⟩ ?_
        intro _ w₃ _
        exact Spec.wp_mono (fun _ _ hn _ hc => absurd hc hn)
          (wp_markFailedBlock_notCommitted _ perBlockErr w₃)
      · obtain ⟨work, hcommits, hwork⟩ := h₂
        refine Spec.wp_call_bind trivial fun r _ => ⟨trivial, ?_⟩
        cases r with
        | error perBlockErr =>
          exact Spec.wp_mono (fun _ _ hn _ hc => absurd hc hn)
            (wp_markFailedBlock_notCommitted _ perBlockErr _)
        | ok u'' =>
          intro _ _
          obtain ⟨heights, htx⟩ := hwork.tx
          have hdb : (w₂.after s.tables .commit (.ok u'')).db = work := by
            show (w₂.tx.map (·.work)).getD w₂.db = work
            rw [htx]
            rfl
          exact hdb ▸ hcommits
  exact Spec.wp_result hwp hrun rfl hcommit

/-! ## Runs that commit -/

theorem run_wrapping {α : Type} {H : Handler sig (World Db)} {msg : String}
    {p : Prog sig (Except Error α)} {a : α} {w' : World Db} (h : Run H (p, w) (.ret (.ok a), w')) :
    Run H (wrapping msg p, w) (.ret (.ok a), w') :=
  Run.seq h .refl

theorem run_orReturn {α β : Type} {H : Handler sig (World Db)} {p : Prog sig (Except Error α)}
    {f : α → Prog sig (Except Error β)} {a : α} {w' : World Db}
    {y : Prog sig (Except Error β) × World Db} (h : Run H (p, w) (.ret (.ok a), w'))
    (h' : Run H (f a, w') y) : Run H (orReturn p f, w) y :=
  Run.seq h h'

/-- A statement that is executed may succeed. -/
theorem run_statement (h : w.Working db work)
    (he : ∃ records, s.exec stmt work.records = .ok records) :
    ∃ w', Run s.environment (execute true stmt, w) (.ret (.ok ()), w') ∧
      w'.Working db (stmt.run s.tables work) := by
  obtain ⟨heights, htx⟩ := h.tx
  refine ⟨_, Run.perform fun _ tx hm => ?_, h.db, ?_⟩
  · obtain rfl := Option.some.inj (htx.symm.trans hm)
    exact he
  · show ∃ heights, w.tx.map _ = _
    rw [htx]
    exact ⟨_, rfl⟩

/-- The insertion of valid records. -/
theorem run_insertStatement {α : Type} {records : List α} {q : Prog sig (Except Error Unit)}
    (hq : q = insertRecords records (.ok ()) stmt) (h : w.Working db work)
    (hs : stmt.OnRecords) (hnil : records = [] → ∀ db, s.exec stmt db = .ok db) {r : Db}
    (he : s.exec stmt work.records = .ok r) :
    ∃ w', Run s.environment (q, w) (.ret (.ok ()), w') ∧
      w'.Working db { work with records := r } := by
  subst hq
  unfold insertRecords
  split_ifs with hempty
  · obtain rfl := Except.ok.inj ((hnil (List.length_eq_zero_iff.1 hempty) _).symm.trans he)
    exact ⟨w, .refl, h⟩
  · obtain ⟨w', hrun, hw⟩ := run_statement h ⟨r, he⟩
    exact ⟨w', hrun, Stmt.run_tables hs he ▸ hw⟩

/-- The records pass the checks of their insertion. -/
structure BlockRecords.Insertable (o : MapOrder) (records : BlockRecords) : Prop
    extends records.Valid o where
  counters : ∀ account ∈ records.involvedAccounts o,
    account.continousInsertReferenceCurrentTxCounter = 0
  refCounts : ∀ tx ∈ records.recentAccountTxs, tx.refCount = 0

/-- The transaction of the records of a block. -/
def BlockRecords.transaction (p : Planner) (now : ℤ) (o : MapOrder) (records : BlockRecords) :
    BlockTransaction where
  accountsPlanner := p
  refsPlanner := p
  now := now
  recordsTxs := records.recordsTxs
  involvedAccounts := records.involvedAccounts o
  recentAccountTxs := records.recentAccountTxs
  refAccountToRecentTxs := records.refAccountToRecentTxs
  commits := true

variable {R : Type} {d : Indexer R} {block : BlockInResponse} {p : Planner} {o : MapOrder}
  {records : BlockRecords} {r : Db}

theorem BlockRecords.Insertable.txs_eq (h : records.Insertable o) :
    insertRecordTransactionsIfNotExists records.recordsTxs =
      insertRecords records.recordsTxs (.ok ()) (.insertTransactions records.recordsTxs) := by
  rw [insertRecordTransactionsIfNotExists, mapError_ok_iff.2 h.txs]

theorem BlockRecords.Insertable.accounts_eq (h : records.Insertable o) :
    insertOrUpdateRecordsAccount (records.involvedAccounts o) =
      insertRecords (records.involvedAccounts o) (.ok ())
        (.insertAccounts (records.involvedAccounts o)) := by
  rw [insertOrUpdateRecordsAccount, mapError_ok_iff.2 h.accounts, ok_bind, forM_ok_iff.2]
  exact fun account ha => failIf_ok_iff.2 (not_not.2 (h.counters account ha))

theorem BlockRecords.Insertable.recent_eq (h : records.Insertable o) :
    insertRecordsRecentAccountTransactionIfNotExists records.recentAccountTxs =
      insertRecords records.recentAccountTxs (.ok ())
        (.insertRecentAccountTransactions records.recentAccountTxs) := by
  rw [insertRecordsRecentAccountTransactionIfNotExists, mapError_ok_iff.2 h.recent, ok_bind,
    forM_ok_iff.2]
  exact fun tx ht => failIf_ok_iff.2 (not_not.2 (h.refCounts tx ht))

theorem BlockRecords.Insertable.refs_eq (h : records.Insertable o) :
    insertRecordsRefAccountToRecentTxIfNotExists records.refAccountToRecentTxs =
      insertRecords records.refAccountToRecentTxs (.ok ())
        (.insertRefAccountToRecentTx records.refAccountToRecentTxs) := by
  rw [insertRecordsRefAccountToRecentTxIfNotExists, mapError_ok_iff.2 h.refs]

theorem run_insertBlock (hp : ∀ stmt db, s.planner stmt db = p)
    (hinfo : blockInformation d.sdk o d.chainId d.bech32Cfg block.height block = .ok records)
    (hvalid : records.Insertable o)
    (hok : work.records.insertBlockInformation (records.transaction p s.now o) = .ok r)
    (h : w.Working db work) :
    ∃ w', Run s.environment (insertBlockInformation d block.height block, w) (.ret (.ok ()), w') ∧
      w'.Working db { work with records := r } := by
  have hexec : ∀ stmt db, s.exec stmt db = db.exec p s.now stmt := fun stmt db => by
    rw [Postgres.exec, hp]
  obtain ⟨r₁, he₁, hok⟩ := bind_ok_iff.1 hok
  obtain ⟨r₂, he₂, he₄⟩ := bind_ok_iff.1 hok
  have h₀ : (w.after s.tables .mapOrder o).Working db work := h.after rfl rfl
  -- the transactions
  have hok₁ : s.exec (.insertTransactions records.recordsTxs) work.records = .ok r₁ :=
    (hexec _ _).trans he₁
  obtain ⟨w₁, hrun₁, h₁⟩ := run_insertStatement hvalid.txs_eq h₀ trivial (fun hnil db => by
    rw [hexec, hnil]
    exact Db.insertTransactions_nil s.now db) hok₁
  -- the accounts
  have hok₂ : s.exec (.insertAccounts (records.involvedAccounts o)) r₁ = .ok r₂ :=
    (hexec _ _).trans he₂
  obtain ⟨w₂, hrun₂, h₂⟩ := run_insertStatement hvalid.accounts_eq h₁ trivial (fun hnil db => by
    rw [hexec, hnil]
    exact Db.insertAccounts_nil p db) hok₂
  -- the recent transactions
  have hok₃ : s.exec (.insertRecentAccountTransactions records.recentAccountTxs) r₂ =
      .ok (r₂.insertRecentAccountTransactions records.recentAccountTxs) := hexec _ _
  obtain ⟨w₃, hrun₃, h₃⟩ := run_insertStatement hvalid.recent_eq h₂ trivial (fun hnil db => by
    rw [hexec, hnil]
    exact congrArg Except.ok (Db.insertRecentAccountTransactions_nil db)) hok₃
  -- the references
  have hok₄ : s.exec (.insertRefAccountToRecentTx records.refAccountToRecentTxs)
      (r₂.insertRecentAccountTransactions records.recentAccountTxs) = .ok r :=
    (hexec _ _).trans he₄
  obtain ⟨w₄, hrun₄, h₄⟩ := run_insertStatement hvalid.refs_eq h₃ trivial (fun hnil db => by
    rw [hexec, hnil]
    exact Db.insertRefs_nil p db) hok₄
  have horder : Run s.environment (perform .mapOrder, w) (.ret o, w.after s.tables .mapOrder o) :=
    Run.perform trivial
  refine ⟨w₄, Run.seq horder ?_, h₄⟩
  simp only [hinfo]
  exact run_orReturn (run_wrapping hrun₁) (run_orReturn (run_wrapping hrun₂)
    (run_orReturn (run_wrapping hrun₃) (run_wrapping hrun₄)))

/-- **The transaction of a block may commit** if its statements succeed. -/
theorem indexTransactions_runs (hp : ∀ stmt db, s.planner stmt db = p)
    (hne : block.transactions ≠ [])
    (hinfo : blockInformation d.sdk o d.chainId d.bech32Cfg block.height block = .ok records)
    (hvalid : records.Insertable o)
    (hok : w.db.records.blockTransaction (records.transaction p s.now o) = .ok r) :
    ∃ w', Run s.environment (indexTransactions d block, w) (.ret none, w') ∧ w'.Committed ∧
      w'.db.records = r := by
  obtain ⟨r₁, he₁, he₂⟩ := bind_ok_iff.1 hok
  have h₀ : (w.after s.tables .begin (.ok ())).Working w.db w.db := ⟨rfl, [], rfl⟩
  obtain ⟨w₁, hrun₁, h₁⟩ := run_insertBlock hp hinfo hvalid he₁ h₀
  have hok₂ : s.exec .cleanupZeroRefCount r₁ = .ok r := he₂
  obtain ⟨w₂, hrun₂, h₂⟩ := run_statement h₁ ⟨r, hok₂⟩
  have hs : Stmt.cleanupZeroRefCount.OnRecords := trivial
  rw [Stmt.run_tables hs hok₂] at h₂
  have h₃ : (w₂.after s.tables .now 0).Working w.db { w.db with records := r } := h₂.after rfl rfl
  have hlatest : ∃ records, s.exec (.updateLatestIndexedBlock block.height 0) r = .ok records :=
    ⟨r, rfl⟩
  have hdelete : ∀ db, ∃ records, s.exec (.deleteFailedBlock block.height) db = .ok records :=
    fun db => ⟨db, rfl⟩
  obtain ⟨w₃, hrun₃, h₃⟩ := run_statement h₃ hlatest
  obtain ⟨w₄, hrun₄, h₄⟩ := run_statement h₃ (hdelete _)
  have hcleanup : Run s.environment
      (if block.transactions.length > 0 then execute true .cleanupZeroRefCount else return .ok (),
        w₁) (.ret (.ok ()), w₂) := by
    rw [if_pos (List.length_pos_iff.2 hne)]
    exact hrun₂
  have hnow : Run s.environment (perform .now, w₂)
      (.ret (0 : ℤ), w₂.after s.tables .now (0 : ℤ)) := Run.perform trivial
  have hset : Run s.environment (setLatestIndexedBlock d true block.height, w₂)
      (.ret (.ok ()), w₃) :=
    Run.seq hnow (run_wrapping hrun₃)
  have hstatements : Run s.environment (blockStatements d block, w.after s.tables .begin (.ok ()))
      (.ret (.ok ()), w₄) :=
    run_orReturn hrun₁ (run_orReturn hcleanup (run_orReturn hset (run_wrapping hrun₄)))
  have hbegin : Run s.environment (perform .begin, w)
      (.ret (.ok ()), w.after s.tables .begin (.ok ())) := Run.perform trivial
  have hcommit : Run s.environment (perform .commit, w₄)
      (.ret (.ok ()), w₄.after s.tables .commit (.ok ())) := Run.perform trivial
  refine ⟨w₄.after s.tables .commit (.ok ()),
    Run.seq hbegin (Run.seq hstatements (Run.seq hcommit .refl)), rfl, ?_⟩
  obtain ⟨heights, htx⟩ := h₄.tx
  show ((w₄.tx.map (·.work)).getD w₄.db).records = r
  rw [htx]
  show (Stmt.run s.tables (.updateLatestIndexedBlock block.height 0) _).records = r
  simp only [Stmt.run]
  split_ifs
  · rfl
  · rfl

end

end RollappExplorer
