/-
  Indexing a committed block again.

  * `Db.blockTransaction_again`: a transaction all of whose rows are there changes nothing but
    the order of the contracts of the accounts;
  * `Tables.Change`: the steps that change the tables;
  * `reindexing_changes_nothing`: the transaction of a block that was committed and whose rows
    are there.
-/
import RollappExplorer.Committing
import RollappExplorer.Progress

namespace RollappExplorer

open Go Effect Sql

variable {db db' : Db} {t : BlockTransaction}

/-! ## One transaction -/

/-- The tables between two transactions. -/
structure Db.Settled (db : Db) : Prop where
  sound : db.Sound
  queue : db.reducedRefCountRecentAccountTransaction.rows = []
  deduplicated : db.Deduplicated

theorem Db.Settled.empty (chainInfo : Map String (Option ℤ)) : (Db.empty chainInfo).Settled :=
  ⟨.empty chainInfo, rfl, fun _ h => absurd h Table.not_mem_empty⟩

/-- What the insertions of a transaction leave. -/
theorem Db.insertBlockInformation_ok (he : db.insertBlockInformation t = .ok db') :
    db.Extends db' ∧ (∀ a ∈ t.involvedAccounts, db'.Covers a) ∧
      db'.chainInfo = db.chainInfo ∧
      ∃ rows, t.recordsTxs.mapM (RecordTransaction.row t.now) = .ok rows ∧
        db'.transaction = (Table.insertAll rows db.transaction).1 := by
  obtain ⟨db₁, h₁, he⟩ := bind_ok_iff.1 he
  obtain ⟨db₂, h₂, h₄⟩ := bind_ok_iff.1 he
  have hrest : db₂.Extends db' :=
    (Db.Extends.insertRecentAccountTransactions t.recentAccountTxs).trans (.insertRefs h₄)
  refine ⟨(Db.Extends.insertTransactions h₁).trans ((Db.Extends.insertAccounts h₂).trans hrest),
    fun record hr => (Db.insertAccounts_covers h₂ record hr).mono hrest, ?_⟩
  obtain ⟨rows, hrows, rfl⟩ := Db.insertTransactions_ok h₁
  obtain ⟨a, rfl⟩ := Db.insertAccounts_frame h₂
  obtain ⟨u, h₃, -⟩ := Db.insertRecentAccountTransactions_eq t.recentAccountTxs _
  rw [h₃] at h₄
  obtain ⟨hc, ht⟩ := Db.insertRefs_frame h₄
  exact ⟨hc, rows, hrows, ht⟩

/-- What a transaction leaves. -/
theorem Db.Settled.blockTransaction (h : db.Settled) (he : db.blockTransaction t = .ok db') :
    db'.Settled ∧ db.Extends db' ∧ (∀ a ∈ t.involvedAccounts, db'.Covers a) ∧
      ∃ rows, t.recordsTxs.mapM (RecordTransaction.row t.now) = .ok rows ∧
        db'.transaction = (Table.insertAll rows db.transaction).1 := by
  obtain ⟨hs, hu, db₁, r, u, h₁, rfl⟩ := h.sound.blockTransaction he
  obtain ⟨hext, hcov, -, rows, hrows, ht⟩ := Db.insertBlockInformation_ok h₁
  have hsame : db₁.Extends { db₁ with
      recentAccountTransaction := r, reducedRefCountRecentAccountTransaction := u } := .of_eq rfl
  exact ⟨⟨hs, hu, (hext.trans hsame).nodup h.deduplicated⟩, hext.trans hsame,
    fun a ha => (hcov a ha).mono hsame, rows, hrows, ht⟩

theorem Db.Settled.afterTransaction (h : db.Settled) (t : BlockTransaction) :
    (db.afterTransaction t).Settled ∧ db.Extends (db.afterTransaction t) := by
  unfold Db.afterTransaction
  split_ifs
  · cases he : db.blockTransaction t with
    | error e => exact ⟨h, .of_eq rfl⟩
    | ok db' =>
      obtain ⟨hs, hext, -⟩ := h.blockTransaction he
      exact ⟨hs, hext⟩
  · exact ⟨h, .of_eq rfl⟩

/-- **A transaction whose rows are there** changes nothing but the order of contracts. -/
theorem Db.blockTransaction_again (h : db.Settled)
    (htxs : ∀ rows, t.recordsTxs.mapM (RecordTransaction.row t.now) = .ok rows →
      ∀ row ∈ rows, db.transaction.Has row.key)
    (haccounts : ∀ a ∈ t.involvedAccounts, db.Covers a)
    (hrecent : ∀ r ∈ t.recentAccountTxs, db.recentAccountTransaction.Has r.row.key)
    (hrefs : ∀ r ∈ t.refAccountToRecentTxs, db.refAccountToRecentTx.Has r.row.key)
    (he : db.blockTransaction t = .ok db') :
    ∃ a, db' = { db with account := a } ∧ SameAccounts db.account a := by
  obtain ⟨db₄, he, hclean⟩ := bind_ok_iff.1 he
  obtain ⟨db₁, h₁, he⟩ := bind_ok_iff.1 he
  obtain ⟨rows, hrows, rfl⟩ := Db.insertTransactions_ok h₁
  rw [Table.insertAll_of_has (htxs rows hrows)] at he
  obtain ⟨db₂, h₂, h₄⟩ := bind_ok_iff.1 he
  obtain ⟨a, rfl, hsame⟩ := Db.insertAccounts_same h.deduplicated haccounts h₂
  have hrecent' : ∀ row ∈ t.recentAccountTxs.map (·.row),
      db.recentAccountTransaction.Has row.key := List.forall_mem_map.2 hrecent
  have hrefs' : ∀ row ∈ t.refAccountToRecentTxs.map (·.row),
      db.refAccountToRecentTx.Has row.key := List.forall_mem_map.2 hrefs
  simp only [Db.insertRecentAccountTransactions, Table.insertAll_of_has hrecent',
    List.foldl_nil, Db.insertRefs, Db.writeRefs, Table.insertAll_of_has hrefs'] at h₄
  obtain rfl := Except.ok.inj h₄
  simp only [Db.cleanupZeroRefCount, h.queue] at hclean
  exact ⟨a, (Except.ok.inj hclean).symm, hsame⟩

/-! ## Rows of a block -/

theorem RecordTransaction.row_ok {record : RecordTransaction} {now : ℤ} {row : TransactionRow}
    (h : record.row now = .ok row) : row.key.1 = ⟨record.chainId, record.height, record.hash⟩ := by
  obtain ⟨id, -, h⟩ := bind_ok_iff.1 h
  rw [← Except.ok.inj h]
  rfl

/-- The partition of a transaction with a time does not depend on when it is inserted. -/
theorem RecordTransaction.row_congr {record : RecordTransaction} (h : 1 ≤ record.epoch)
    (now now' : ℤ) : record.row now = record.row now' := by
  have hne : record.epoch ≠ 0 := by omega
  simp only [RecordTransaction.row, RecordTransaction.insertedPartitionId, getEpochWeek, if_neg hne]

/-- The transactions that are inserted have a time. -/
theorem InsertsBlock.epoch {R : Type} {d : Indexer R} {block : BlockInResponse} {o : MapOrder}
    {records : BlockRecords} (h : InsertsBlock d block t o records) :
    ∀ record ∈ t.recordsTxs, 1 ≤ record.epoch := by
  intro record hm
  rw [h.recordsTxs] at hm
  have hplaced := blockInformation_placed h.information
  have hvalid := (RecordsTransaction.validateBasic_iff fun record hm =>
    ⟨(hplaced.txs record hm).1, (hplaced.txs record hm).2.1⟩).1
      (h.valid.resolve_left (List.ne_nil_of_mem hm)) record hm
  simp only [RecordTransaction.validateBasic, bind_unit_ok_iff, validateEpoch_ok_iff] at hvalid
  exact hvalid.2.2.2.1

/-- A row of a transaction of the block. -/
def TransactionRow.IsOf {R : Type} (row : TransactionRow) (d : Indexer R)
    (block : BlockInResponse) : Prop :=
  ∃ tx ∈ block.transactions,
    row.key.1 = ⟨normalizeChainId d.chainId, block.height, tx.transactionHash⟩

/-- None of the rows of the block in `transaction` has been removed, and all its rows in
    `ref_account_to_recent_tx` are there. -/
structure RowsKept {R : Type} (d : Indexer R) (block : BlockInResponse) (db db' : Db) : Prop where
  transaction : ∀ row ∈ db.transaction, row.IsOf d block → row ∈ db'.transaction
  refs : ∀ o records,
    blockInformation d.sdk o d.chainId d.bech32Cfg block.height block = .ok records →
      ∀ ref ∈ records.refAccountToRecentTxs, db'.refAccountToRecentTx.Has ref.row.key

/-! ## Sequences of changes -/

/-- A step that changes the tables. -/
inductive Tables.Change : Tables Db → Tables Db → Prop
  | transaction {db : Tables Db} (t : BlockTransaction) :
      Change db { db with records := db.records.afterTransaction t }
  | chainInfo {db : Tables Db} (chainInfo : Map String (Option ℤ)) :
      Change db { db with records := { db.records with chainInfo := chainInfo } }
  | removeTransactions {db : Tables Db} (q : TransactionRow → Bool) :
      Change db { db with records :=
        { db.records with transaction := db.records.transaction.delete q } }
  | latestIndexedBlock {db : Tables Db} {height : ℤ} (now : ℤ) : db.latestIndexedBlock ≤ height →
      Change db { db with latestIndexedBlock := height, increasedLatestIndexedBlockAt := now }
  | failedBlock {db : Tables Db} (rows : Map ℤ FailedBlock) :
      Change db { db with failedBlock := rows }

/-- The tables that a sequence of changes can lead to, from empty ones. -/
def Tables.Reached (db : Tables Db) : Prop :=
  ∃ chainInfo, Relation.ReflTransGen Tables.Change ⟨0, 0, ∅, Db.empty chainInfo⟩ db

/-- What changes keep. -/
structure Tables.Keeps (db db' : Tables Db) : Prop where
  settled : db.records.Settled → db'.records.Settled
  accounts : db.records.Settled → db.records.Extends db'.records
  latest : db.latestIndexedBlock ≤ db'.latestIndexedBlock

section
variable {db db' db'' : Tables Db}

theorem Tables.Keeps.trans (h : db.Keeps db') (h' : db'.Keeps db'') : db.Keeps db'' :=
  ⟨fun hs => h'.settled (h.settled hs),
    fun hs => (h.accounts hs).trans (h'.accounts (h.settled hs)), h.latest.trans h'.latest⟩

theorem Tables.Change.keeps (h : db.Change db') : db.Keeps db' := by
  cases h with
  | transaction t => exact ⟨fun hs => (hs.afterTransaction t).1,
      fun hs => (hs.afterTransaction t).2, le_rfl⟩
  | chainInfo chainInfo => exact ⟨fun hs => ⟨hs.sound.of_others _ _, hs.queue, hs.deduplicated⟩,
      fun _ => .of_eq rfl, le_rfl⟩
  | removeTransactions q => exact ⟨fun hs => ⟨hs.sound.of_others _ _, hs.queue, hs.deduplicated⟩,
      fun _ => .of_eq rfl, le_rfl⟩
  | latestIndexedBlock now hle => exact ⟨id, fun _ => .of_eq rfl, hle⟩
  | failedBlock rows => exact ⟨id, fun _ => .of_eq rfl, le_rfl⟩

theorem Tables.keeps_of_changes (h : Relation.ReflTransGen Tables.Change db db') :
    db.Keeps db' := by
  induction h with
  | refl => exact ⟨id, fun _ => .of_eq rfl, le_rfl⟩
  | tail _ hc ih => exact ih.trans hc.keeps

theorem Tables.Reached.trans (h : db.Reached) (h' : Relation.ReflTransGen Tables.Change db db') :
    db'.Reached := by
  obtain ⟨chainInfo, h⟩ := h
  exact ⟨chainInfo, h.trans h'⟩

theorem Tables.Reached.settled (h : db.Reached) : db.records.Settled := by
  obtain ⟨chainInfo, h⟩ := h
  exact (Tables.keeps_of_changes h).settled (.empty chainInfo)

/-- The transaction of a block is a sequence of changes. -/
theorem CommitsBlock.changes {R : Type} {d : Indexer R} {block : BlockInResponse}
    (h : CommitsBlock d block db db') : Relation.ReflTransGen Tables.Change db db' := by
  obtain ⟨t, o, records, -, ht⟩ := h.records
  have hrecords : db.records.afterTransaction { t with commits := true } = db'.records := by
    have ht' : db.records.blockTransaction { t with commits := true } = .ok db'.records := ht
    rw [Db.afterTransaction, if_pos rfl, ht', Db.orSelf]
  have hle : db.latestIndexedBlock ≤ db'.latestIndexedBlock := by
    rcases h.latest with ⟨hlt, he⟩ | ⟨-, he, -⟩
    · exact he ▸ hlt.le
    · exact he.ge
  have h₁ : db.Change { db with records := db'.records } := hrecords ▸ .transaction _
  have h₂ : Tables.Change { db with records := db'.records } { db' with
      failedBlock := db.failedBlock } := .latestIndexedBlock _ hle
  exact ((Relation.ReflTransGen.single h₁).tail h₂).tail (.failedBlock db'.failedBlock)

end

/-! ## Blocks that involve one account -/

/-- A transaction that involves an account. -/
def transactionOfOne : TransactionInBlock where
  transactionHash := String.ofList (List.replicate 64 'A')
  involvers := ⟨[], ["rol1qqqqqqqqqqqq"], [], [], ⟨∅, ∅⟩⟩
  messagesType := ["/cosmos.bank.v1beta1.MsgSend"]
  transactionType := "cosmos"
  evmTxInfo := none
  wasmTxInfo := none
  value := ""

def blockOfOne (height : ℤ) : BlockInResponse := ⟨height, 1720000000, [transactionOfOne]⟩

def samplePostgres : Postgres := ⟨fun _ _ => default, 0⟩

def indexerOfOne : Indexer Db where
  chainId := "rollappevm_1234-1"
  sdk := bech32Sdk
  tables := samplePostgres.tables
  bech32Cfg := ⟨"rol", "rolvalcons", "rolvaloper"⟩
  disableRetryIndexFailedBlocks := false

def refOfOne (height : ℤ) : RecordRefAccountToRecentTx :=
  refAccountToRecentTx "rollappevm_1234-1" height transactionOfOne
    ("rol1qqqqqqqqqqqq", ⟨false, false, false⟩)

def recordsOfOne (height : ℤ) : BlockRecords where
  recordsTxs := [recordTx "rollappevm_1234-1" height (blockOfOne height) transactionOfOne []]
  mapInvolvedAccounts := AList.insert "rol1qqqqqqqqqqqq"
    (newRecordAccountForInsert "rollappevm_1234-1" "rol1qqqqqqqqqqqq") ∅
  recentAccountTxs :=
    [recentAccountTx "rollappevm_1234-1" height (blockOfOne height) transactionOfOne []]
  refAccountToRecentTxs := [refOfOne height]

theorem blockInformation_ofOne (height : ℤ) :
    blockInformation indexerOfOne.sdk default indexerOfOne.chainId indexerOfOne.bech32Cfg
      (blockOfOne height).height (blockOfOne height) = .ok (recordsOfOne height) := rfl

theorem recordsOfOne_insertable : (recordsOfOne 7).Insertable default where
  txs := by decide +kernel
  accounts := by decide +kernel
  recent := by decide +kernel
  refs := by decide +kernel
  counters := by decide +kernel
  refCounts := by decide +kernel

def accountOfOne : AccountKey :=
  ⟨normalizeChainId "rollappevm_1234-1", normalizeAddress "rol1qqqqqqqqqqqq"⟩

/-- The counter of an account and the heights of its references after the next one. -/
def nextReference (s : ℤ × List ℤ) (height : ℤ) : ℤ × List ℤ :=
  if s.1 < 9 then (s.1 + 1, s.2 ++ [height])
  else (0, (s.2 ++ [height]).filter (· ∈ limit (some 50) (orderByDesc (s.2 ++ [height]))))

/-- The counter of the account, and the heights of its references, which are all. -/
structure Db.CountsOne (s : ℤ × List ℤ) (db : Db) : Prop where
  keep : pruningKeepRecent db.chainInfo accountOfOne.chainId = some 50
  counter : ∀ row ∈ db.account, row.key = accountOfOne → row.continousInsertRefCurTxCounter = s.1
  account : db.account.Has accountOfOne ∨ s.1 = 0
  refs : db.refAccountToRecentTx.rows = s.2.map fun height => (refOfOne height).row

section
variable {s : ℤ × List ℤ} {c height : ℤ} {heights : List ℤ} {p : Planner}

theorem Db.CountsOne.keptHeights (h : db.CountsOne s) :
    db.keptHeights accountOfOne = limit (some 50) (orderByDesc s.2) := by
  have hrefs : ∀ type : RefAccountToRecentTxRow → Bool, ∀ b,
      (∀ height, type (refOfOne height).row = b) →
        (db.refsOf accountOfOne type).map (·.height) = if b then s.2 else [] := by
    intro type b htype
    have hfilter : ((fun ref : RefAccountToRecentTxRow =>
        decide (ref.account = accountOfOne) && type ref) ∘ fun height => (refOfOne height).row) =
          fun _ => b := by
      funext height
      have hk : (refOfOne height).row.account = accountOfOne := rfl
      simp only [Function.comp_apply, hk, htype, decide_true, Bool.true_and]
    rw [refsOf, h.refs, List.filter_map, hfilter, List.map_map]
    cases b with
    | true =>
      rw [List.filter_eq_self.2 fun _ _ => rfl]
      exact List.map_id s.2
    | false => simp
  have hall := hrefs (fun _ => true) true fun _ => rfl
  have hsigner := hrefs (fun ref => (Sql.isTrue ref.signer).passes) false fun _ => rfl
  have herc20 := hrefs (fun ref => (Sql.isTrue ref.erc20).passes) false fun _ => rfl
  have hnft := hrefs (fun ref => (Sql.isTrue ref.nft).passes) false fun _ => rfl
  have hnil : limit (some 50) (orderByDesc ([] : List ℤ)) = [] := rfl
  simp only [Db.keptHeights, RefAccountToRecentTxRow.types, List.flatMap_cons, List.flatMap_nil,
    recentHeights, h.keep, hall, hsigner, herc20, hnft, if_true, Bool.false_eq_true, if_false,
    hnil, List.append_nil]

theorem Db.CountsOne.afterInsertRef (h : db.CountsOne (c, heights ++ [height]))
    (hhas : db.account.Has accountOfOne)
    (he : db.afterInsertRef p (refOfOne height).row = .ok db') :
    db'.CountsOne (nextReference (c, heights) height) := by
  obtain ⟨-, db₁, h₁, h₂⟩ := Db.afterInsertRef_ok he
  obtain ⟨t, r, rfl, ht, hmem, -⟩ := trigger00100AfterInsertRefAccountToRecentTx_ok h₁
  have hcounter : ∀ row ∈ t, row.key = accountOfOne →
      row.continousInsertRefCurTxCounter = c + 1 := by
    intro row hrow hk
    obtain ⟨a, ha, rfl⟩ := (hmem row).1 hrow
    split_ifs at hk ⊢ with hnew
    · exact congrArg (· + 1) (h.counter a ha hk)
    · exact absurd hk hnew
  have hfirst : Db.CountsOne (c + 1, heights ++ [height])
      { db with account := t, recentAccountTransaction := r } :=
    ⟨h.keep, hcounter, .inl ((ht _).2 hhas), h.refs⟩
  rcases trigger00200AfterInsertRefAccountToRecentTx_cases h₂ with
    ⟨⟨a, ha, hk, hten⟩, db₂, t', hdel, rfl, ht', hmem'⟩ | ⟨rfl, hsmall⟩
  · have hfull : ¬ c < 9 := by
      rw [hcounter a ha hk] at hten
      omega
    obtain ⟨r', u, -, rfl⟩ := Db.deleteRefs_ok hdel
    rw [nextReference, if_neg hfull]
    refine ⟨h.keep, fun row hrow hk => ?_, .inr rfl, ?_⟩
    · obtain ⟨a, ha, rfl⟩ := (hmem' row).1 hrow
      split_ifs at hk ⊢ with hnew
      · rfl
      · exact absurd hk hnew
    · show db.refAccountToRecentTx.rows.filter _ = _
      rw [h.refs, List.filter_map]
      refine congrArg _ (List.filter_congr fun height' _ => ?_)
      have hkept := hfirst.keptHeights
      have hk : (refOfOne height').row.account = (refOfOne height).row.account := rfl
      have hk' : (refOfOne height).row.account = accountOfOne := rfl
      have hheight : (refOfOne height').row.height = height' := rfl
      simp only [Function.comp_apply, Db.isPruned, hk, hk', hkept, hheight, decide_true,
        Bool.true_and, decide_not, Bool.not_not]
  · obtain ⟨row, hrow, hk⟩ := Table.has_iff.1 ((ht _).2 hhas)
    have hsmall : c < 9 := by
      have hle := hsmall row hrow hk
      rw [hcounter row hrow hk] at hle
      omega
    rw [nextReference, if_pos hsmall]
    exact hfirst

/-- A reference at a new height. -/
theorem Db.CountsOne.insertRefs (h : db.CountsOne s) (hhas : db.account.Has accountOfOne)
    (hnew : height ∉ s.2) (he : db.insertRefs p [refOfOne height] = .ok db') :
    db'.CountsOne (nextReference s height) := by
  have hnot : ¬ db.refAccountToRecentTx.Has (refOfOne height).row.key := by
    rw [Table.Has, h.refs, List.map_map]
    intro hm
    obtain ⟨height', hm', hk⟩ := List.mem_map.1 hm
    obtain rfl : height' = height := congrArg (·.2.height) hk
    exact hnew hm'
  rw [Db.insertRefs_singleton hnot] at he
  have hbefore : Db.CountsOne (s.1, s.2 ++ [height]) { db with
      refAccountToRecentTx := db.refAccountToRecentTx.add (refOfOne height).row hnot } := by
    refine ⟨h.keep, h.counter, .inl hhas, ?_⟩
    show db.refAccountToRecentTx.rows ++ _ = _
    rw [h.refs, List.map_append, List.map_singleton]
  exact hbefore.afterInsertRef hhas he

theorem transactionOfOne_fits (h : db.CountsOne s) (hfew : s.2.length ≤ 1000) :
    ((recordsOfOne height).transaction default 0 default).Fits db := by
  have hchain : accountOfOne.chainId ∈ db.chainInfo := by
    by_contra hn
    have hnone := h.keep
    rw [pruningKeepRecent, AList.lookup_eq_none.2 hn] at hnone
    cases hnone
  have hid : makePartitionIdFromKeys
      [toString (getEpochWeek 0 1720000000), accountOfOne.chainId] = .ok _ :=
    makePartitionIdFromKeys_week (by decide)
  have hrow : (recordTx "rollappevm_1234-1" height (blockOfOne height) transactionOfOne []).row 0 =
      .ok ⟨accountOfOne.chainId, height, transactionOfOne.transactionHash, _, 1720000000,
        transactionOfOne.messagesType, "cosmos", none, none⟩ := bind_ok_iff.2 ⟨_, hid, rfl⟩
  refine ⟨⟨_, mapM_singleton_ok hrow, fun row hrow => ?_⟩,
    ⟨List.nodup_singleton _, fun account ha => ?_⟩, fun ref href => ?_, ?_⟩
  · obtain rfl := List.mem_singleton.1 hrow
    exact hchain
  · obtain rfl := List.mem_singleton.1 ha
    exact hchain
  · obtain rfl := List.mem_singleton.1 href
    exact ⟨⟨_, List.mem_singleton_self _, rfl⟩, _, List.mem_singleton_self _, rfl⟩
  · rw [h.refs, List.length_map]
    show s.2.length + 2 * 1 ≤ 32767
    omega

/-- The transaction of a block that involves the account. -/
theorem Db.CountsOne.transaction (h : db.CountsOne s) (hs : db.Sound) (hnew : height ∉ s.2)
    (he : db.blockTransaction ((recordsOfOne height).transaction default 0 default) = .ok db') :
    db'.CountsOne (nextReference s height) := by
  obtain ⟨-, -, db₄, r, u, h₄, rfl⟩ := hs.blockTransaction he
  obtain ⟨db₁, h₁, h₄⟩ := bind_ok_iff.1 h₄
  obtain ⟨rows, -, rfl⟩ := Db.insertTransactions_ok h₁
  obtain ⟨db₂, h₂, h₄⟩ := bind_ok_iff.1 h₄
  have h₂ : Db.insertAccount default _
      (newRecordAccountForInsert "rollappevm_1234-1" "rol1qqqqqqqqqqqq") = .ok db₂ :=
    Db.insertAccounts_singleton.symm.trans h₂
  obtain ⟨t, rfl, ht, hmem⟩ := Db.insertAccount_ok h₂
  obtain ⟨u', h₃, -⟩ := Db.insertRecentAccountTransactions_eq
    [recentAccountTx "rollappevm_1234-1" height (blockOfOne height) transactionOfOne []]
    { db with transaction := (Table.insertAll rows db.transaction).1, account := t }
  have h₄ : Db.insertRefs default [refOfOne height] _ = .ok db₄ := h₃ ▸ h₄
  have hcounter : ∀ row ∈ t, row.key = accountOfOne →
      row.continousInsertRefCurTxCounter = s.1 := by
    intro row hrow hk
    rcases (hmem row).1 hrow with ⟨a, ha, rfl⟩ | ⟨hno, rfl⟩
    · split_ifs at hk ⊢
      · exact h.counter a ha hk
      · exact h.counter a ha hk
    · exact (h.account.resolve_left hno).symm
  have hhas : t.Has accountOfOne := (ht _).2 (.inr rfl)
  have hbefore : ∀ u', Db.CountsOne s { db with
      transaction := (Table.insertAll rows db.transaction).1
      account := t
      recentAccountTransaction := (Table.insertAll
        ([recentAccountTx "rollappevm_1234-1" height (blockOfOne height) transactionOfOne []].map
          (·.row)) db.recentAccountTransaction).1
      reducedRefCountRecentAccountTransaction := u' } :=
    fun _ => ⟨h.keep, hcounter, .inl hhas, h.refs⟩
  have hafter := (hbefore u').insertRefs hhas hnew h₄
  exact ⟨hafter.keep, hafter.counter, hafter.account, hafter.refs⟩

theorem nextReference_sublist : (nextReference s height).2.Sublist (s.2 ++ [height]) := by
  unfold nextReference
  split_ifs
  · exact .refl _
  · exact List.filter_sublist

theorem nextReference_append_sublist (s : ℤ × List ℤ) (height : ℤ) (l : List ℤ) :
    ((nextReference s height).2 ++ l).Sublist (s.2 ++ height :: l) := by
  rw [← List.singleton_append, ← List.append_assoc]
  exact nextReference_sublist.append_right l

/-- The tables after blocks at the heights `l`, each of which involves the account. -/
theorem exists_countsOne (l : List ℤ) {db : Tables Db} (h : db.Reached)
    (hs : db.records.CountsOne s) (hnodup : (s.2 ++ l).Nodup) (hfew : (s.2 ++ l).length ≤ 1000) :
    ∃ db' : Tables Db, db'.Reached ∧ db'.records.CountsOne (l.foldl nextReference s) := by
  induction l generalizing s db with
  | nil => exact ⟨db, h, hs⟩
  | cons height l ih =>
    have hsub := nextReference_append_sublist s height l
    have hnew : height ∉ s.2 := fun hm =>
      (List.disjoint_of_nodup_append hnodup) hm List.mem_cons_self
    have hlen : s.2.length ≤ 1000 := (List.sublist_append_left _ _).length_le.trans hfew
    obtain ⟨r, he⟩ := h.settled.sound.exists_blockTransaction (transactionOfOne_fits hs hlen)
    have hr := hs.transaction h.settled.sound hnew he
    have hchange (t : BlockTransaction) :
        db.Change { db with records := db.records.afterTransaction t } := .transaction t
    have hchange := hchange ((recordsOfOne height).transaction default 0 default)
    rw [Db.afterTransaction, he, Db.orSelf] at hchange
    exact ih (h.trans (.single hchange)) hr (hnodup.sublist hsub) (hsub.length_le.trans hfew)

/-- The transaction of a block that involves the account may commit. -/
theorem exists_run_blockOfOne {w : World Db} (h : w.db.Reached) (hs : w.db.records.CountsOne s)
    (hfew : s.2.length ≤ 1000) :
    ∃ w', Run samplePostgres.environment (indexTransactions indexerOfOne (blockOfOne 7), w)
        (.ret none, w') ∧ w'.Committed ∧ w'.db.Reached ∧
      (7 ∉ s.2 → w'.db.records.CountsOne (nextReference s 7)) := by
  obtain ⟨r, he⟩ := h.settled.sound.exists_blockTransaction (transactionOfOne_fits hs hfew)
  have hne : (blockOfOne 7).transactions ≠ [] := List.cons_ne_nil _ _
  obtain ⟨w', hrun, hcommit, rfl⟩ := indexTransactions_runs (s := samplePostgres)
    (fun _ _ => rfl) hne (blockInformation_ofOne 7) recordsOfOne_insertable he
  exact ⟨w', hrun, hcommit,
    h.trans (indexTransactions_commits indexerOfOne hne hrun hcommit).changes,
    fun hnew => hs.transaction h.settled.sound hnew he⟩

/-- The heights of 59 blocks. -/
def heightsAbove : List ℤ := (List.range 59).map fun i => 101 + (i : ℤ)

theorem foldl_heightsAbove : heightsAbove.foldl nextReference (0, []) = (9, heightsAbove) := by
  decide +kernel

/-- The reference of the next block is not kept. -/
theorem nextReference_heightsAbove :
    nextReference (9, heightsAbove) 7 = (0, heightsAbove.drop 9) := by
  decide +kernel

theorem countsOne_empty : (Db.empty (AList.insert "rollappevm_1234-1" none ∅)).CountsOne (0, []) :=
  ⟨by decide, nofun, .inr rfl, rfl⟩

end

/-! ## Committed blocks -/

/-- The transaction of a block whose rows are there. -/
theorem InsertsBlock.again {R : Type} {d : Indexer R} {block : BlockInResponse} {o o' : MapOrder}
    {records records' : BlockRecords} {t t' : BlockTransaction} {db₀ db₁ db₂ db₃ : Db}
    (h₀ : db₀.Settled) (hins : InsertsBlock d block t o records)
    (ht : db₀.blockTransaction t = .ok db₁) (h₂ : db₂.Settled) (hext : db₁.Extends db₂)
    (hkept : RowsKept d block db₁ db₂) (hins' : InsertsBlock d block t' o' records')
    (ht' : db₂.blockTransaction t' = .ok db₃) :
    ∃ a, db₃ = { db₂ with account := a } ∧ SameAccounts db₂.account a := by
  have hsimilar := blockInformation_similar hins.information hins'.information
  have hplaced := blockInformation_placed hins'.information
  have hrefs := hkept.refs o' records' hins'.information
  obtain ⟨-, -, hcov, rows, hrows, htable⟩ := h₀.blockTransaction ht
  refine Db.blockTransaction_again h₂ (fun rows' hrows' row hrow => ?_) ?_ ?_ ?_ ht'
  · -- the transactions
    obtain ⟨record, hm, hrow'⟩ := mem_of_mapM_ok hrows' hrow
    have hm₀ : record ∈ t.recordsTxs := by
      rw [hins.recordsTxs, ← hsimilar.txs, ← hins'.recordsTxs]
      exact hm
    rw [RecordTransaction.row_congr (hins'.epoch record hm) t'.now t.now] at hrow'
    have hhas : db₁.transaction.Has row.key := by
      rw [htable]
      exact Table.insertAll_has (mapM_ok_mem hrows hm₀ hrow')
    obtain ⟨row₁, hrow₁, hk⟩ := Table.has_iff.1 hhas
    rw [hins'.recordsTxs] at hm
    obtain ⟨hid, hheight, tx, htx, hhash⟩ := hplaced.txs record hm
    have hof : row₁.IsOf d block := ⟨tx, htx, by
      rw [hk, RecordTransaction.row_ok hrow', hid, hheight, hhash]⟩
    exact Table.has_iff.2 ⟨row₁, hkept.transaction row₁ hrow₁ hof, hk⟩
  · -- the accounts
    rw [hins'.involvedAccounts]
    refine hsimilar.covers (o := o) fun a ha => (hcov a ?_).mono hext
    rw [hins.involvedAccounts]
    exact ha
  · -- the recent transactions
    rw [hins'.recentAccountTxs]
    intro r hr
    obtain ⟨ref, href, hk⟩ := hplaced.recent r hr
    obtain ⟨row, hrow, hkey⟩ := Table.has_iff.1 (hrefs ref href)
    have htx : row.tx = r.row.key := (congrArg Prod.snd hkey).trans hk
    exact htx ▸ (h₂.sound.consistent.refs_nil hrow).2
  · -- the references
    rw [hins'.refAccountToRecentTxs]
    exact hrefs

/-- **Indexing a committed block again changes nothing** but the order of the contracts of
    accounts, while the rows of the block are there; it only deletes the failed height. -/
theorem reindexing_changes_nothing (d : Indexer Db) (s s' : Postgres) (block : BlockInResponse)
    (w₀ w₁ w₂ w₃ : World Db) (hne : block.transactions ≠ []) (h₀ : w₀.db.Reached)
    (hrun : Run s.environment (indexTransactions d block, w₀) (.ret none, w₁))
    (hcommit : w₁.Committed) (hsince : Relation.ReflTransGen Tables.Change w₁.db w₂.db)
    (hkept : RowsKept d block w₁.db.records w₂.db.records)
    (hrun' : Run s'.environment (indexTransactions d block, w₂) (.ret none, w₃))
    (hcommit' : w₃.Committed) :
    (∃ account, w₃.db.records = { w₂.db.records with account := account } ∧
      SameAccounts w₂.db.records.account account) ∧
    w₃.db.latestIndexedBlock = w₂.db.latestIndexedBlock ∧
    w₃.db.increasedLatestIndexedBlockAt = w₂.db.increasedLatestIndexedBlockAt ∧
    w₃.db.failedBlock = w₂.db.failedBlock.erase block.height := by
  have hfirst := indexTransactions_commits d hne hrun hcommit
  have hagain := indexTransactions_commits d hne hrun' hcommit'
  have h₁ : w₁.db.records.Settled := (Tables.keeps_of_changes hfirst.changes).settled h₀.settled
  have hkeeps := Tables.keeps_of_changes hsince
  have hlatest : block.height ≤ w₂.db.latestIndexedBlock := by
    rcases hfirst.latest with ⟨-, he⟩ | ⟨hle, he, -⟩
    · exact he ▸ hkeeps.latest
    · exact hle.trans (he ▸ hkeeps.latest)
  obtain ⟨t, o, records, hins, ht⟩ := hfirst.records
  obtain ⟨t', o', records', hins', ht'⟩ := hagain.records
  refine ⟨hins.again h₀.settled ht (hkeeps.settled h₁) (hkeeps.accounts h₁) hkept hins' ht', ?_⟩
  rcases hagain.latest with ⟨hlt, -⟩ | ⟨-, he, he'⟩
  · exact absurd hlatest (not_le.2 hlt)
  · exact ⟨he, he', hagain.failedBlock⟩

/-- A block that is indexed twice in succession. -/
theorem reindexing_changes_nothing_twice : ∃ w₀ w₁ w₃ : World Db,
    Run samplePostgres.environment (indexTransactions indexerOfOne (blockOfOne 7), w₀)
      (.ret none, w₁) ∧
    Run samplePostgres.environment (indexTransactions indexerOfOne (blockOfOne 7), w₁)
      (.ret none, w₃) ∧
    w₁.db.records.refAccountToRecentTx.rows.map (·.height) = [7] ∧
    ∃ account, w₃.db.records = { w₁.db.records with account := account } ∧
      SameAccounts w₁.db.records.account account := by
  have h₀ : Tables.Reached ⟨0, 0, ∅, Db.empty (AList.insert "rollappevm_1234-1" none ∅)⟩ :=
    ⟨_, .refl⟩
  obtain ⟨w₁, hrun, hcommit, h₁, hs⟩ := exists_run_blockOfOne (w := ⟨_, none, [], .start⟩) h₀
    countsOne_empty (Nat.zero_le _)
  have hs := hs List.not_mem_nil
  obtain ⟨w₃, hrun', hcommit', -⟩ := exists_run_blockOfOne h₁ hs (by decide)
  have hne : (blockOfOne 7).transactions ≠ [] := List.cons_ne_nil _ _
  have hkept : RowsKept indexerOfOne (blockOfOne 7) w₁.db.records w₁.db.records := by
    refine ⟨fun row hrow _ => hrow, fun o records he ref href => ?_⟩
    obtain ⟨ref', href', hk⟩ :=
      ((blockInformation_similar (blockInformation_ofOne 7) he).refs ref.row.key).1 ⟨ref, href, rfl⟩
    obtain rfl := List.mem_singleton.1 href'
    rw [← hk, Table.Has, hs.refs]
    exact List.mem_singleton_self _
  have hagain := reindexing_changes_nothing indexerOfOne samplePostgres samplePostgres
    (blockOfOne 7) _ w₁ w₁ w₃ hne h₀ hrun hcommit .refl hkept hrun' hcommit'
  refine ⟨_, w₁, w₃, hrun, hrun', ?_, hagain.1⟩
  rw [hs.refs]
  rfl

/-- A block whose reference is deleted in its own transaction. -/
theorem reindexing_changes_pruned : ∃ w₀ w₁ w₃ : World Db, w₀.db.Reached ∧
    Run samplePostgres.environment (indexTransactions indexerOfOne (blockOfOne 7), w₀)
      (.ret none, w₁) ∧ w₁.Committed ∧
    Run samplePostgres.environment (indexTransactions indexerOfOne (blockOfOne 7), w₁)
      (.ret none, w₃) ∧ w₃.Committed ∧
    w₁.db.records.refAccountToRecentTx.rows.length = 50 ∧
    w₃.db.records.refAccountToRecentTx.rows.length = 51 := by
  have h : Tables.Reached ⟨0, 0, ∅, Db.empty (AList.insert "rollappevm_1234-1" none ∅)⟩ :=
    ⟨_, .refl⟩
  obtain ⟨db, h₀, hs₀⟩ := exists_countsOne heightsAbove h countsOne_empty (by decide) (by decide)
  rw [foldl_heightsAbove] at hs₀
  obtain ⟨w₁, hrun, hcommit, h₁, hs₁⟩ := exists_run_blockOfOne (w := ⟨db, none, [], .start⟩) h₀
    hs₀ (by decide)
  have hs₁ := nextReference_heightsAbove ▸ hs₁ (by decide)
  obtain ⟨w₃, hrun', hcommit', -, hs₃⟩ := exists_run_blockOfOne h₁ hs₁ (by decide)
  have hs₃ := hs₃ (by decide)
  refine ⟨_, w₁, w₃, h₀, hrun, hcommit, hrun', hcommit', ?_, ?_⟩
  · rw [hs₁.refs, List.length_map]
    rfl
  · rw [hs₃.refs, List.length_map]
    rfl

end RollappExplorer
