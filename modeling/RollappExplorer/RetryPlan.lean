/-
  What becomes of a retry, from the answer of the upstream and the failing operations.

  A plan fixes, before the retry, what the query for its height is answered, in which order
  maps are ranged over, and which operations on the database fail.

  * `planned`: an environment that answers as planned, until a batch is decided;
  * `RetryPlan.Commits`: the transaction of a block commits;
  * `RetryPlan.InVain`: the retry runs to its end without indexing a block;
  * `wp_planned_retryHeight`: some answer is decisive iff the plan is not in vain.
-/
import RollappExplorer.MainLoop

namespace RollappExplorer

open Go Effect

variable {R : Type}

/-! ## Plans -/

/-- The operations on the database that a retry is made of. -/
inductive DbOperation where
  | recordErrorBlocks
  | recordMissingBlocks
  | preparePartitions
  | begin
  | insertTransactions
  | insertAccounts
  | insertRecentAccountTransactions
  | insertRefAccountToRecentTx
  | cleanupZeroRefCount
  | setLatestIndexedBlock
  /-- `RemoveFailedBlockRecord`, in the transaction of a block -/
  | removeInTransaction
  | commit
  /-- `InsertOrUpdateFailedBlocks`, for an error of a block itself -/
  | recordBlock
  /-- `RemoveFailedBlockRecord`, after the retry -/
  | removeFailedBlockRecord
  deriving DecidableEq

/-- What is fixed before a retry: the answer to the query for its height, the order in which the
    maps of the block `i` of the answer are ranged over, and whether an operation for that block
    fails. -/
structure RetryPlan where
  answer : ℤ → Except Error TransformedResponseBeTransactionsInBlockRange
  order : ℕ → MapOrder
  fails : ℕ → DbOperation → Bool

/-- The transactions begun so far. -/
def World.begun (w : World R) : ℕ :=
  w.history.log.countP fun e => match e.1 with
    | .begin => true
    | _ => false

/-- The operation a statement of a transaction is. -/
def Stmt.operation : Stmt → DbOperation
  | .updateLatestIndexedBlock _ _ => .setLatestIndexedBlock
  | .upsertFailedBlocks _ _ _ => .recordBlock
  | .deleteFailedBlock _ => .removeInTransaction
  | .insertTransactions _ => .insertTransactions
  | .insertAccounts _ => .insertAccounts
  | .insertRecentAccountTransactions _ => .insertRecentAccountTransactions
  | .insertRefAccountToRecentTx _ => .insertRefAccountToRecentTx
  | .cleanupZeroRefCount => .cleanupZeroRefCount

/-- The operation an insertion into `failed_block` is, outside of a transaction: before the first
    transaction it is for what the answer reports. -/
def recording (begun : ℕ) (reasons : List Error) : DbOperation :=
  if begun ≠ 0 then .recordBlock
  else if reasons = ["rpc marks error"] then .recordErrorBlocks
  else .recordMissingBlocks

/-- The answer of a call is the planned one. -/
def RetryPlan.Follows (plan : RetryPlan) : (c : Call) → c.Ans → World R → Prop
  | .beTransactionsInBlockRange f t, a, _ => f = t → a = plan.answer f
  | .mapOrder, o, w => o = plan.order (w.begun - 1)
  | .preparePartitions _, a, w => a = .ok () ↔ plan.fails w.begun .preparePartitions = false
  | .begin, a, w => a = .ok () ↔ plan.fails w.begun .begin = false
  | .txExec stmt, a, w =>
    stmt.Executable → (a = .ok () ↔ plan.fails (w.begun - 1) stmt.operation = false)
  | .commit, a, w => a = .ok () ↔ plan.fails (w.begun - 1) .commit = false
  | .exec (.upsertFailedBlocks _ reasons heights), a, w => heights ≠ [] ∧ heights.Nodup →
    (a = .ok () ↔ plan.fails (w.begun - 1) (recording w.begun reasons) = false)
  | .exec (.deleteFailedBlock _), a, _ => a = .ok () ↔ plan.fails 0 .removeFailedBlockRecord = false
  | _, _, _ => True

/-- The environment of a planned retry; once the batch is decided, any answer may follow. -/
def planned (d : Indexer R) (plan : RetryPlan) : Handler sig (World R) where
  allows c a w := allows d AnyAnswer c a w ∧ (w.Decided ∨ plan.Follows c a w)
  effect := World.after d.tables

/-! ## Retries in vain -/

namespace RetryPlan
variable (plan : RetryPlan) (d : Indexer R)

/-- Heights that the answer reports are recorded, if there are any; none may be there twice. -/
def Records (op : DbOperation) (heights : List ℤ) : Prop :=
  heights = [] ∨ heights.Nodup ∧ plan.fails 0 op = false

/-- Records of the block `i` are inserted, if there are any. -/
def Inserts {α : Type} (i : ℕ) (op : DbOperation) (records : List α) (valid : Prop) : Prop :=
  records = [] ∨ valid ∧ plan.fails i op = false

/-- All records of the block `i` are inserted. -/
structure InsertsAll (i : ℕ) (records : BlockRecords) : Prop where
  transactions : plan.Inserts i .insertTransactions records.recordsTxs
    (RecordsTransaction.validateBasic records.recordsTxs = .ok ())
  accounts : plan.Inserts i .insertAccounts (records.involvedAccounts (plan.order i))
    (RecordsAccount.validateBasic (records.involvedAccounts (plan.order i)) = .ok () ∧
      ∀ account ∈ records.involvedAccounts (plan.order i),
        account.continousInsertReferenceCurrentTxCounter = 0)
  recent : plan.Inserts i .insertRecentAccountTransactions records.recentAccountTxs
    (RecordsRecentAccountTransaction.validateBasic records.recentAccountTxs = .ok () ∧
      ∀ tx ∈ records.recentAccountTxs, tx.refCount = 0)
  refs : plan.Inserts i .insertRefAccountToRecentTx records.refAccountToRecentTxs
    (RecordsRefAccountToRecentTx.validateBasic records.refAccountToRecentTxs = .ok ())

/-- The transaction of the block `i` commits: its records are valid, and none of its operations
    fails. -/
structure Commits (i : ℕ) (block : BlockInResponse) : Prop where
  inserts : ∃ records, blockInformation d.sdk (plan.order i) d.chainId d.bech32Cfg block.height
    block = .ok records ∧ plan.InsertsAll i records
  cleanup : plan.fails i .cleanupZeroRefCount = false
  setLatest : plan.fails i .setLatestIndexedBlock = false
  remove : plan.fails i .removeInTransaction = false
  commit : plan.fails i .commit = false

/-- The week of a block, the time of which is at least 1. -/
def week (block : BlockInResponse) : ℤ := block.timeEpochUTC.tdiv (86400 * 7)

/-- The block `i` is passed over: it is not empty, it is not committed, and that is recorded;
    partitions have been created for the weeks `created`. -/
structure PassesOver (created : List ℤ) (i : ℕ) (block : BlockInResponse) : Prop where
  not_empty : block.transactions ≠ []
  prepared : week block ∈ created ∨ plan.fails i .preparePartitions = false
  begun : plan.fails i .begin = false
  not_committed : ¬ plan.Commits d i block
  recorded : plan.fails i .recordBlock = false

/-- All blocks, from the block `i` on, are passed over. -/
def PassesOverAll : List ℤ → ℕ → List BlockInResponse → Prop
  | _, _, [] => True
  | created, i, block :: blocks => plan.PassesOver d created i block ∧
      PassesOverAll (week block :: created) (i + 1) blocks

/-- What the answer reports is recorded, and all its blocks are passed over. -/
structure PassesOverAnswer (created : List ℤ)
    (res : TransformedResponseBeTransactionsInBlockRange) : Prop where
  errorBlocks : plan.Records .recordErrorBlocks res.errorBlocks
  missingBlocks : plan.Records .recordMissingBlocks res.missingBlocks
  blocks : plan.PassesOverAll d created 0 (sortBlocks res.blocks)

/-- The retry is in vain: the query succeeds, no block of the answer is indexed, and the row of
    the height `h` is removed. -/
def InVain (created : List ℤ) (h : ℤ) : Prop :=
  ∃ res, plan.answer h = .ok res ∧ plan.PassesOverAnswer d created res ∧
    plan.fails 0 .removeFailedBlockRecord = false

end RetryPlan

/-! ## Runs of plans -/

section
variable {d : Indexer R} {plan : RetryPlan} {created created' : List ℤ} {i i' : ℕ} {w : World R}
  {α β : Type}

/-- No answer has been decisive; `i` transactions have been begun, and the partitions of the weeks
    `created` are known. -/
structure World.Reached (created : List ℤ) (i : ℕ) (w : World R) : Prop where
  undecided : ¬ w.Decided
  begun : w.begun = i
  created : ∀ week, week ∈ w.createdPartitions ↔ week ∈ created

/-- A planned call goes on with its planned answers. -/
theorem wp_planned_call {c : Call} {f : c.Ans → Prog sig α} {Q : α → World R → Prop}
    (hw : ¬ w.Decided) (h : ∀ a, allows d AnyAnswer c a w → plan.Follows c a w →
      (Spec.anything (World R)).wp (planned d plan) (f a) Q (w.after d.tables c a)) :
    (Spec.anything (World R)).wp (planned d plan) (perform c >>= f) Q w :=
  Spec.wp_call_bind trivial fun a ha => ⟨trivial, h a ha.1 (ha.2.resolve_left hw)⟩

/-- What is decided stays decided. -/
theorem wp_decided (p : Prog sig α) (hw : w.Decided) :
    (Spec.anything (World R)).wp (planned d plan) p (fun _ w' => w'.Decided) w := by
  induction p generalizing w with
  | ret a => exact hw
  | panic msg => trivial
  | call c k ih => exact ⟨trivial, fun a _ => ⟨trivial, ih a (World.decided_after.2 (Or.inr hw))⟩⟩

/-- An answer that is not decisive, and begins no transaction. -/
theorem World.Reached.after {c : Call} {a : c.Ans} (h : w.Reached created i)
    (hd : ¬ Decisive c a) (hb : (w.after d.tables c a).begun = w.begun)
    (hp : (w.change d.tables c a).createdPartitions = w.createdPartitions) :
    (w.after d.tables c a).Reached created i where
  undecided hD := (World.decided_after.1 hD).elim hd h.undecided
  begun := hb.trans h.begun
  created week := by
    show week ∈ (w.change d.tables c a).createdPartitions ↔ week ∈ created
    rw [hp]
    exact h.created week

/-- The program fails unless `ok` holds, without a decisive answer. -/
def Yields (d : Indexer R) (plan : RetryPlan) (created : List ℤ) (i : ℕ) (ok : Prop)
    (p : Prog sig (Except Error Unit)) : Prop :=
  ∀ w : World R, w.Reached created i → (Spec.anything (World R)).wp (planned d plan) p
    (fun r w' => w'.Reached created i ∧ (r = .ok () ↔ ok)) w

theorem yields_ret {r : Except Error Unit} : Yields d plan created i (r = .ok ()) (.ret r) :=
  fun _ h => ⟨h, Iff.rfl⟩

theorem Yields.congr {ok ok' : Prop} {p : Prog sig (Except Error Unit)}
    (h : Yields d plan created i ok p) (hiff : ok ↔ ok') : Yields d plan created i ok' p :=
  fun w hw => Spec.wp_mono (fun _ _ hr => ⟨hr.1, hr.2.trans hiff⟩) (h w hw)

theorem Yields.orReturn {ok ok' : Prop} {p : Prog sig (Except Error Unit)}
    {f : Unit → Prog sig (Except Error Unit)} (hp : Yields d plan created i ok p)
    (hf : Yields d plan created i ok' (f ())) :
    Yields d plan created i (ok ∧ ok') (orReturn p f) := by
  refine fun w hw => Spec.wp_seq (hp w hw) ?_
  rintro (err | ⟨⟩) w₁ ⟨h₁, hok⟩
  · exact ⟨h₁, fun h => (nomatch h), fun h => (nomatch hok.2 h.1)⟩
  · exact Spec.wp_mono (fun _ _ hr => ⟨hr.1, hr.2.trans (and_iff_right (hok.1 rfl)).symm⟩)
      (hf w₁ h₁)

theorem Yields.wrapping {ok : Prop} {msg : String} {p : Prog sig (Except Error Unit)}
    (hp : Yields d plan created i ok p) : Yields d plan created i ok (wrapping msg p) :=
  fun w hw => Spec.wp_seq (hp w hw) fun _ _ h => ⟨h.1, mapError_ok_iff.trans h.2⟩

/-- The clock does not matter. -/
theorem Yields.now {ok : Prop} {f : ℤ → Prog sig (Except Error Unit)}
    (hf : ∀ now, Yields d plan created i ok (f now)) :
    Yields d plan created i ok (perform .now >>= f) :=
  fun _ hw => wp_planned_call hw.undecided fun now _ _ => hf now _ (hw.after id rfl rfl)

/-! ## Transactions -/

theorem yields_txExec {stmt : Stmt} (hs : stmt.Executable) :
    Yields d plan created (i + 1) (plan.fails i stmt.operation = false) (execute true stmt) := by
  refine fun w hw => ⟨trivial, fun a ha => ⟨trivial, ?_, ?_⟩⟩
  · cases a with
    | error e => exact hw.after id rfl rfl
    | ok u => exact hw.after id rfl rfl
  · have hfollows := ha.2.resolve_left hw.undecided hs
    rw [hw.begun] at hfollows
    exact hfollows

theorem yields_insertRecords {records : List α} {valid : Except Error Unit} {stmt : Stmt}
    (hs : stmt.Executable) :
    Yields d plan created (i + 1) (plan.Inserts i stmt.operation records (valid = .ok ()))
      (insertRecords records valid stmt) := by
  unfold insertRecords RetryPlan.Inserts
  split_ifs with hempty
  · exact yields_ret.congr
      (iff_of_true rfl (Or.inl (List.length_eq_zero_iff.1 hempty)))
  · have hne : records ≠ [] := fun h => hempty (List.length_eq_zero_iff.2 h)
    cases valid with
    | error err =>
      refine yields_ret.congr (iff_of_false (fun h => nomatch h) ?_)
      rintro (h | ⟨h, -⟩)
      · exact hne h
      · cases h
    | ok u => exact (yields_txExec hs).congr (by simp [hne])

theorem yields_insertBlockInformation (block : BlockInResponse) :
    Yields d plan created (i + 1) (∃ records, blockInformation d.sdk (plan.order i) d.chainId
      d.bech32Cfg block.height block = .ok records ∧ plan.InsertsAll i records)
      (insertBlockInformation d block.height block) := by
  refine fun w hw => wp_planned_call hw.undecided fun o _ ho => ?_
  have hw₁ : (w.after d.tables .mapOrder o).Reached created (i + 1) := hw.after id rfl rfl
  obtain rfl : o = plan.order i := ho.trans (congrArg plan.order (by rw [hw.begun]; rfl))
  cases blockInformation d.sdk (plan.order i) d.chainId d.bech32Cfg block.height block with
  | error err =>
    refine ⟨hw₁, fun h => ?_, ?_⟩
    · cases h
    · rintro ⟨records, h, -⟩
      cases h
  | ok records =>
    have htxs : Yields d plan created (i + 1) _
      (insertRecordTransactionsIfNotExists records.recordsTxs) := yields_insertRecords (by trivial)
    have haccounts : Yields d plan created (i + 1) _
      (insertOrUpdateRecordsAccount (records.involvedAccounts (plan.order i))) :=
        yields_insertRecords (by trivial)
    have hrecent : Yields d plan created (i + 1) _
      (insertRecordsRecentAccountTransactionIfNotExists records.recentAccountTxs) :=
        yields_insertRecords (by trivial)
    have hrefs : Yields d plan created (i + 1) _
      (insertRecordsRefAccountToRecentTxIfNotExists records.refAccountToRecentTxs) :=
        yields_insertRecords (by trivial)
    refine (htxs.wrapping.orReturn (haccounts.wrapping.orReturn
      (hrecent.wrapping.orReturn hrefs.wrapping))).congr ?_ _ hw₁
    simp only [Except.ok.injEq, exists_eq_left', mapError_ok_iff, bind_unit_ok_iff, forM_ok_iff,
      failIf_ok_iff, not_not]
    constructor
    · rintro ⟨htxs, haccounts, hrecent, hrefs⟩
      exact ⟨htxs, haccounts, hrecent, hrefs⟩
    · exact fun h => ⟨h.transactions, h.accounts, h.recent, h.refs⟩

theorem yields_blockStatements {block : BlockInResponse} (hne : block.transactions ≠ []) :
    Yields d plan created (i + 1) ((∃ records, blockInformation d.sdk (plan.order i) d.chainId
      d.bech32Cfg block.height block = .ok records ∧ plan.InsertsAll i records) ∧
        plan.fails i .cleanupZeroRefCount = false ∧ plan.fails i .setLatestIndexedBlock = false ∧
        plan.fails i .removeInTransaction = false) (blockStatements d block) := by
  unfold blockStatements
  rw [if_pos (List.length_pos_iff.2 hne)]
  have hupdate : ∀ now, Yields d plan created (i + 1)
      (plan.fails i .setLatestIndexedBlock = false)
      (execute true (.updateLatestIndexedBlock block.height now)) :=
    fun now => yields_txExec trivial
  have hlatest : Yields d plan created (i + 1) (plan.fails i .setLatestIndexedBlock = false)
    (setLatestIndexedBlock d true block.height) := .now fun now => (hupdate now).wrapping
  have hremove : Yields d plan created (i + 1) _ (removeFailedBlockRecord true block.height) :=
    (yields_txExec (by trivial)).wrapping
  exact (yields_insertBlockInformation block).orReturn
    ((yields_txExec (by trivial)).orReturn (hlatest.orReturn hremove))

/-! ## Verdicts -/

/-- The program goes on, without a decisive answer, if `go` holds, and else it is decided. -/
def Verdict (K : World R → Prop) (go : Prop) (r : Option Error) (w : World R) : Prop :=
  go ∧ r = none ∧ K w ∨ ¬ go ∧ w.Decided

theorem Verdict.congr {K : World R → Prop} {go go' : Prop} {r : Option Error}
    (h : Verdict K go r w) (hiff : go ↔ go') : Verdict K go' r w :=
  h.imp (fun h => ⟨hiff.1 h.1, h.2⟩) fun h => ⟨fun hgo => h.1 (hiff.2 hgo), h.2⟩

/-- **One part after the other.** -/
theorem wp_verdict {K K' : World R → Prop} {go go' : Prop} {p : Prog sig (Option Error)}
    {f : Option Error → Prog sig (Option Error)}
    (hp : (Spec.anything (World R)).wp (planned d plan) p (Verdict K go) w)
    (hf : ∀ w, K w → (Spec.anything (World R)).wp (planned d plan) (f none) (Verdict K' go') w) :
    (Spec.anything (World R)).wp (planned d plan) (p >>= f) (Verdict K' (go ∧ go')) w := by
  refine Spec.wp_seq hp fun r w₁ h => ?_
  rcases h with ⟨hgo, rfl, hK⟩ | ⟨hgo, hD⟩
  · exact Spec.wp_mono (fun _ _ h => h.congr (and_iff_right hgo).symm) (hf w₁ hK)
  · exact Spec.wp_mono (fun _ _ h => Or.inr ⟨fun hgo' => hgo hgo'.1, h⟩) (wp_decided _ hD)

/-- An insertion into `failed_block`. -/
theorem wp_planned_record {heights : List ℤ} (hne : heights ≠ []) (reason : Option Error)
    (hw : w.Reached created i) :
    (Spec.anything (World R)).wp (planned d plan)
      (errorOf (insertOrUpdateFailedBlocks heights reason)) (Verdict (World.Reached created i)
        (heights.Nodup ∧ plan.fails (i - 1) (recording i reason.toList) = false)) w := by
  refine wp_planned_call hw.undecided fun now _ _ => ?_
  have hw₁ : (w.after d.tables .now now).Reached created i := hw.after id rfl rfl
  refine wp_planned_call hw₁.undecided fun a ha hfollows => ?_
  have hiff := hfollows
  simp only [RetryPlan.Follows, hw₁.begun] at hiff
  cases a with
  | error e =>
    refine Or.inr ⟨fun ⟨hnodup, hfails⟩ => ?_, World.decided_after.2 (Or.inl trivial)⟩
    cases (hiff ⟨hne, hnodup⟩).2 hfails
  | ok u =>
    have hs : heights ≠ [] ∧ heights.Nodup := ha rfl
    exact Or.inl ⟨⟨hs.2, (hiff hs).1 rfl⟩, rfl, hw₁.after id rfl rfl⟩

/-- What the answer reports is recorded, before the first transaction. -/
theorem wp_planned_markReported {heights : List ℤ} {reason : Error} {op : DbOperation}
    (hop : recording 0 [reason] = op) (hw : w.Reached created 0) :
    (Spec.anything (World R)).wp (planned d plan) (markReported heights reason)
      (Verdict (World.Reached created 0) (plan.Records op heights)) w := by
  unfold markReported RetryPlan.Records
  split_ifs with hlen
  · have hne : heights ≠ [] := List.length_pos_iff.1 hlen
    refine Spec.wp_mono (fun _ _ h => h.congr ?_) (wp_planned_record hne (some reason) hw)
    show heights.Nodup ∧ plan.fails 0 (recording 0 [reason]) = false ↔ _
    rw [hop]
    exact (or_iff_right hne).symm
  · exact Or.inl ⟨Or.inl (List.length_eq_zero_iff.1 (Nat.le_zero.1 (not_lt.1 hlen))), rfl, hw⟩

theorem wp_planned_markFailedBlock (height : ℤ) (err : Error) (hw : w.Reached created (i + 1)) :
    (Spec.anything (World R)).wp (planned d plan) (markFailedBlock height err)
      (Verdict (World.Reached created (i + 1)) (plan.fails i .recordBlock = false)) w :=
  Spec.wp_mono (fun _ _ h => h.congr (and_iff_right (List.nodup_singleton height)))
    (wp_planned_record (List.cons_ne_nil height []) (some err) hw)

/-! ## Blocks -/

/-- The partitions of the block's week. -/
theorem wp_planned_preparePartitions {block : BlockInResponse} (htime : 1 ≤ block.timeEpochUTC)
    (hw : w.Reached created i) :
    (Spec.anything (World R)).wp (planned d plan) (preparePartitions d block)
      (fun r w' => Verdict (World.Reached (RetryPlan.week block :: created) i)
        (RetryPlan.week block ∈ created ∨ plan.fails i .preparePartitions = false)
        (match r with
          | .error err => some err
          | .ok () => none) w') w := by
  refine wp_planned_call hw.undecided fun now _ _ => ?_
  have hw₁ : (w.after d.tables .now now).Reached created i := hw.after id rfl rfl
  have hweek : getEpochWeek now block.timeEpochUTC = RetryPlan.week block := by
    rw [getEpochWeek, if_neg (by omega), RetryPlan.week]
  dsimp only
  rw [hweek]
  refine wp_planned_call hw₁.undecided fun known hknown _ => ?_
  obtain rfl : known = decide _ := hknown
  have hw₂ := hw₁.after (d := d) (c := .isCreatedPartitions (RetryPlan.week block))
    (a := decide (RetryPlan.week block ∈ (w.after d.tables .now now).createdPartitions)) id rfl rfl
  split_ifs with hcreated
  · have hmem := (hw₁.created _).1 (decide_eq_true_iff.1 hcreated)
    refine Or.inl ⟨Or.inl hmem, rfl, hw₂.undecided, hw₂.begun, fun week => ?_⟩
    rw [hw₂.created week, List.mem_cons]
    exact (or_iff_right_of_imp fun h => h ▸ hmem).symm
  · have hmem : RetryPlan.week block ∉ created := fun h =>
      hcreated (decide_eq_true_iff.2 ((hw₁.created _).2 h))
    refine wp_planned_call hw₂.undecided fun a _ hfollows => ?_
    simp only [RetryPlan.Follows, hw₂.begun] at hfollows
    cases a with
    | error e =>
      refine Or.inr ⟨?_, World.decided_after.2 (Or.inl trivial)⟩
      rintro (h | h)
      · exact hmem h
      · cases hfollows.2 h
    | ok u =>
      have hw₃ := hw₂.after (d := d) (c := .preparePartitions block.timeEpochUTC) (a := .ok u) id
        rfl rfl
      refine wp_planned_call hw₃.undecided fun _ _ _ => ?_
      refine Or.inl ⟨Or.inr (hfollows.1 rfl), rfl, ?_, hw₃.begun, fun week => ?_⟩
      · exact fun hD => (World.decided_after.1 hD).elim id hw₃.undecided
      · show week ∈ RetryPlan.week block :: _ ↔ _
        rw [List.mem_cons, List.mem_cons, hw₃.created week]

/-- The transaction of a block that is not empty. -/
theorem wp_planned_indexTransactions {block : BlockInResponse} (hne : block.transactions ≠ [])
    (hw : w.Reached created i) :
    (Spec.anything (World R)).wp (planned d plan) (indexTransactions d block)
      (Verdict (World.Reached created (i + 1)) (plan.fails i .begin = false ∧
        ¬ plan.Commits d i block ∧ plan.fails i .recordBlock = false)) w := by
  refine wp_planned_call hw.undecided fun a _ hfollows => ?_
  simp only [RetryPlan.Follows, hw.begun] at hfollows
  cases a with
  | error e =>
    exact Or.inr ⟨fun h => (nomatch hfollows.2 h.1), World.decided_after.2 (Or.inl trivial)⟩
  | ok u =>
    have hbegun := hfollows.1 rfl
    have hw₁ : (w.after d.tables .begin (.ok u)).Reached created (i + 1) := by
      have hcount : (w.after d.tables .begin (.ok u)).begun = w.begun + 1 :=
        List.countP_cons_of_pos rfl
      exact ⟨fun hD => (World.decided_after.1 hD).elim id hw.undecided,
        hcount.trans (congrArg (· + 1) hw.begun), hw.created⟩
    refine Spec.wp_seq (yields_blockStatements hne _ hw₁) ?_
    rintro (err | ⟨⟩) w₂ ⟨hw₂, hok⟩
    · have hnot : ¬ plan.Commits d i block := fun h =>
        nomatch hok.2 ⟨h.inserts, h.cleanup, h.setLatest, h.remove⟩
      refine wp_planned_call hw₂.undecided fun _ _ _ => ?_
      refine Spec.wp_mono (fun _ _ h => h.congr ?_)
        (wp_planned_markFailedBlock block.height err (hw₂.after id rfl rfl))
      exact ⟨fun h => ⟨hbegun, hnot, h⟩, fun h => h.2.2⟩
    · obtain ⟨hinserts, hcleanup, hlatest, hremove⟩ := hok.1 rfl
      refine wp_planned_call hw₂.undecided fun a _ hcommit => ?_
      simp only [RetryPlan.Follows, hw₂.begun, Nat.add_sub_cancel] at hcommit
      cases a with
      | error err =>
        have hnot : ¬ plan.Commits d i block := fun h => nomatch hcommit.2 h.commit
        refine Spec.wp_mono (fun _ _ h => h.congr ?_)
          (wp_planned_markFailedBlock block.height err (hw₂.after id rfl rfl))
        exact ⟨fun h => ⟨hbegun, hnot, h⟩, fun h => h.2.2⟩
      | ok u =>
        refine Or.inr ⟨fun h => h.2.1 ?_, World.decided_after.2 (Or.inl trivial)⟩
        exact ⟨hinserts, hcleanup, hlatest, hremove, hcommit.1 rfl⟩

/-- An empty block is decided, whether it is recorded or not. -/
theorem wp_planned_recordEmptyBlock (height : ℤ) (hw : w.Reached created i) :
    (Spec.anything (World R)).wp (planned d plan) (errorOf (setLatestIndexedBlock d false height))
      (fun _ w' => w'.Decided) w := by
  refine wp_planned_call hw.undecided fun now _ _ => ⟨trivial, fun a _ => ⟨trivial, ?_⟩⟩
  cases a with
  | error e => exact World.decided_after.2 (Or.inl trivial)
  | ok u => exact World.decided_after.2 (Or.inl trivial)

/-- **One iteration of the loop over the blocks.** -/
theorem wp_planned_indexBlock {block : BlockInResponse} (hheight : block.height ≠ 0)
    (htime : 1 ≤ block.timeEpochUTC) (hw : w.Reached created i) :
    (Spec.anything (World R)).wp (planned d plan) (indexBlock d block)
      (Verdict (World.Reached (RetryPlan.week block :: created) (i + 1))
        (plan.PassesOver d created i block)) w := by
  unfold indexBlock
  rw [if_neg hheight]
  split_ifs with hempty
  · have hnil : block.transactions = [] := List.length_eq_zero_iff.1 (Nat.lt_one_iff.1 hempty)
    exact Spec.wp_mono (fun _ _ h => Or.inr ⟨fun hgo => hgo.not_empty hnil, h⟩)
      (wp_planned_recordEmptyBlock block.height hw)
  · have hne : block.transactions ≠ [] := fun h =>
      hempty (Nat.lt_one_iff.2 (List.length_eq_zero_iff.2 h))
    refine Spec.wp_seq (wp_planned_preparePartitions htime hw) ?_
    rintro (err | ⟨⟩) w₁ (⟨hprepared, hr, hw₁⟩ | ⟨hprepared, hD⟩)
    · cases hr
    · exact Or.inr ⟨fun h => hprepared h.prepared, hD⟩
    · refine Spec.wp_mono (fun _ _ h => h.congr ?_) (wp_planned_indexTransactions hne hw₁)
      exact ⟨fun h => ⟨hne, hprepared, h.1, h.2.1, h.2.2⟩,
        fun h => ⟨h.begun, h.not_committed, h.recorded⟩⟩
    · exact Spec.wp_mono (fun _ _ h => Or.inr ⟨fun hgo => hprepared hgo.prepared, h⟩)
        (wp_decided _ hD)

theorem wp_planned_indexBlocks {blocks : List BlockInResponse}
    (hblocks : ∀ b ∈ blocks, b.height ≠ 0 ∧ 1 ≤ b.timeEpochUTC) (hw : w.Reached created i) :
    (Spec.anything (World R)).wp (planned d plan) (indexBlocks d blocks)
      (Verdict (fun w' => ¬ w'.Decided) (plan.PassesOverAll d created i blocks)) w := by
  induction blocks generalizing w created i with
  | nil => exact Or.inl ⟨trivial, rfl, hw.undecided⟩
  | cons block blocks ih =>
    obtain ⟨hheight, htime⟩ := hblocks block List.mem_cons_self
    exact wp_verdict (wp_planned_indexBlock hheight htime hw)
      fun _ hw₁ => ih (fun b hb => hblocks b (List.mem_cons_of_mem _ hb)) hw₁

/-- What follows the query. -/
theorem wp_planned_indexAnswer {res : TransformedResponseBeTransactionsInBlockRange}
    (hblocks : ∀ b ∈ res.blocks, b.height ≠ 0 ∧ 1 ≤ b.timeEpochUTC) (hw : w.Reached created 0) :
    (Spec.anything (World R)).wp (planned d plan) (indexAnswer d res)
      (Verdict (fun w' => ¬ w'.Decided) (plan.PassesOverAnswer d created res)) w := by
  have hsort : ∀ b ∈ sortBlocks res.blocks, b.height ≠ 0 ∧ 1 ≤ b.timeEpochUTC := fun b hb =>
    hblocks b ((List.perm_insertionSort _ _).mem_iff.1 hb)
  have hwp : (Spec.anything (World R)).wp (planned d plan) (indexAnswer d res)
      (Verdict (fun w' => ¬ w'.Decided) _) w :=
    wp_verdict (wp_planned_markReported rfl hw) fun w₁ hw₁ =>
      wp_verdict (wp_planned_markReported rfl hw₁) fun w₂ hw₂ => wp_planned_indexBlocks hsort hw₂
  exact Spec.wp_mono (fun _ _ h => h.congr
    ⟨fun h => ⟨h.1, h.2.1, h.2.2⟩, fun h => ⟨h.errorBlocks, h.missingBlocks, h.blocks⟩⟩) hwp

/-- **A planned retry**: some answer is decisive iff the plan is not in vain. -/
theorem wp_planned_retryHeight {h : ℤ} (hpos : 0 < h) (hw : w.Reached created 0) :
    (Spec.anything (World R)).wp (planned d plan) (retryHeight d h)
      (fun _ w' => w'.Decided ↔ ¬ plan.InVain d created h) w := by
  refine wp_planned_call hw.undecided fun r hr hfollows => ?_
  have hanswer : r = plan.answer h := hfollows rfl
  cases r with
  | error fetchErr =>
    have hD : (w.after d.tables (.beTransactionsInBlockRange h h) (.error fetchErr)).Decided :=
      World.decided_after.2 (Or.inl trivial)
    refine Spec.wp_mono (fun _ _ hD' => iff_of_true hD' ?_) (wp_decided _ hD)
    rintro ⟨res, hres, -⟩
    exact nomatch hanswer.trans hres
  | ok res =>
    obtain ⟨-, o, now, r, hok⟩ := hr res rfl
    have haccepted := beTransactionsInBlockRange_ok hok
    have hblocks : ∀ b ∈ res.blocks, b.height ≠ 0 ∧ 1 ≤ b.timeEpochUTC := fun b hb =>
      ⟨ne_of_gt (lt_of_lt_of_le hpos (haccepted.blocks b hb).1),
        (haccepted.blockLimits b hb).time.1⟩
    have hw₁ : (w.after d.tables (.beTransactionsInBlockRange h h) (.ok res)).Reached created 0 :=
      hw.after id rfl rfl
    have hvain : plan.InVain d created h ↔ plan.PassesOverAnswer d created res ∧
        plan.fails 0 .removeFailedBlockRecord = false := by
      simp only [RetryPlan.InVain, ← hanswer, Except.ok.injEq, exists_eq_left']
    rw [hvain]
    have hfetch : (Spec.anything (World R)).wp (planned d plan)
        (do return FetchResult.mk (← indexAnswer d res) false)
        (fun r w₂ => Verdict (fun w' => ¬ w'.Decided) (plan.PassesOverAnswer d created res)
          r.fatalError w₂) (w.after d.tables (.beTransactionsInBlockRange h h) (.ok res)) :=
      Spec.wp_seq (wp_planned_indexAnswer hblocks hw₁) fun _ _ h₂ => h₂
    refine Spec.wp_seq hfetch ?_
    rintro ⟨fatalErr, rpcErr⟩ w₂ (⟨hgo, hnone, hw₂⟩ | ⟨hgo, hD⟩)
    · obtain rfl : fatalErr = none := hnone
      refine wp_planned_call hw₂ fun a _ hremove => ?_
      cases a with
      | error e =>
        refine iff_of_true (World.decided_after.2 (Or.inl trivial)) fun hv => ?_
        exact nomatch (hremove : _ ↔ _).2 hv.2
      | ok u =>
        refine iff_of_false (fun hD => (World.decided_after.1 hD).elim id hw₂) fun hv => ?_
        exact hv ⟨hgo, (hremove : _ ↔ _).1 rfl⟩
    · exact Spec.wp_mono (fun _ _ hD' => iff_of_true hD' fun hv => hgo hv.1) (wp_decided _ hD)

end

end RollappExplorer
