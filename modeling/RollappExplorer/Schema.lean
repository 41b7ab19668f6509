/-
  The tables of records with their triggers (`database/schema/schema.sql`), and what the
  statements of `database/postgres_tx` do to them.

  A statement returns the tables after it, or an error and leaves them as they were.  Its
  foreign keys are checked and its `AFTER ROW` triggers fire when all its rows are written,
  row by row and in the order of their names; the rows that a trigger deletes fire their own
  triggers before the trigger goes on.

  * `Db`: the tables; `Db.exec`: the statements;
  * `Planner`: the order `SELECT DISTINCT` returns its rows in, which is not specified.
-/
import Mathlib.Data.List.Dedup
import RollappExplorer.Database
import RollappExplorer.Partitions
import RollappExplorer.Sql.Logic
import RollappExplorer.Sql.Order
import RollappExplorer.Sql.Table

namespace RollappExplorer

open Go Sql

/-! ## Rows -/

/-- The primary key of `recent_account_transaction`. -/
structure TxKey where
  chainId : String
  height : ℤ
  hash : String
  deriving DecidableEq

/-- The primary key of `account`. -/
structure AccountKey where
  chainId : String
  bech32Address : String
  deriving DecidableEq

structure AccountRow where
  chainId : String
  bech32Address : String
  continousInsertRefCurTxCounter : ℤ
  balanceOnErc20Contracts : Option (List String)
  balanceOnNftContracts : Option (List String)

def AccountRow.key (row : AccountRow) : AccountKey := ⟨row.chainId, row.bech32Address⟩

/-- `SET continous_insert_ref_cur_tx_counter = …` -/
def AccountRow.setCounter (row : AccountRow) (n : ℤ) : AccountRow :=
  { row with continousInsertRefCurTxCounter := n }

structure RecentAccountTransactionRow where
  chainId : String
  height : ℤ
  hash : String
  refCount : ℤ
  epoch : ℤ
  messageTypes : List String
  action : Option String
  value : Option (List String)

def RecentAccountTransactionRow.key (row : RecentAccountTransactionRow) : TxKey :=
  ⟨row.chainId, row.height, row.hash⟩

/-- `SET ref_count = …` -/
def RecentAccountTransactionRow.setRefCount (row : RecentAccountTransactionRow) (n : ℤ) :
    RecentAccountTransactionRow :=
  { row with refCount := n }

structure RefAccountToRecentTxRow where
  chainId : String
  bech32Address : String
  height : ℤ
  hash : String
  signer : Truth
  erc20 : Truth
  nft : Truth

/-- The account of a reference. -/
def RefAccountToRecentTxRow.account (row : RefAccountToRecentTxRow) : AccountKey :=
  ⟨row.chainId, row.bech32Address⟩

/-- The transaction of a reference. -/
def RefAccountToRecentTxRow.tx (row : RefAccountToRecentTxRow) : TxKey :=
  ⟨row.chainId, row.height, row.hash⟩

def RefAccountToRecentTxRow.key (row : RefAccountToRecentTxRow) : AccountKey × TxKey :=
  (row.account, row.tx)

structure TransactionRow where
  chainId : String
  height : ℤ
  hash : String
  partitionId : String
  epoch : ℤ
  messageTypes : List String
  txType : String
  action : Option String
  value : Option (List String)

def TransactionRow.key (row : TransactionRow) : TxKey × String :=
  (⟨row.chainId, row.height, row.hash⟩, row.partitionId)

/-- The tables; of `chain_info`, `keep_recent_account_tx_count`. -/
structure Db where
  chainInfo : Map String (Option ℤ)
  account : Table AccountRow.key
  recentAccountTransaction : Table RecentAccountTransactionRow.key
  reducedRefCountRecentAccountTransaction : Table (id : TxKey → TxKey)
  refAccountToRecentTx : Table RefAccountToRecentTxRow.key
  transaction : Table TransactionRow.key

/-- The tables of records are empty. -/
def Db.empty (chainInfo : Map String (Option ℤ)) : Db :=
  ⟨chainInfo, .empty _, .empty _, .empty _, .empty _, .empty _⟩

/-! ## Values -/

/-- The elements of an array without duplicates, in an order the planner chooses. -/
structure Planner where
  distinct : List String → List String
  nodup : ∀ l, (distinct l).Nodup
  mem : ∀ l a, a ∈ distinct l ↔ a ∈ l

instance : Inhabited Planner := ⟨⟨List.dedup, List.nodup_dedup, fun _ _ => List.mem_dedup⟩⟩

/-- `pq.Array`; no elements are `NULL`. -/
def pqArray (l : List String) : Option (List String) := if l = [] then none else some l

/-- `sql.NullString` -/
def nullString (s : String) : Option String := if s = "" then none else some s

/-- `sql.NullBool` -/
def nullBool (b : Bool) : Truth := if b then some true else none

/-- `a || b` of arrays -/
def arrayCat : Option (List String) → Option (List String) → Option (List String)
  | none, b => b
  | a, none => a
  | some a, some b => some (a ++ b)

/-- A value of the type `SMALLINT`. -/
def smallint (n : ℤ) : Except Error ℤ := do
  failIf (n < -32768 ∨ 32767 < n) "smallint out of range"
  return n

/-- A foreign key: the referenced row must exist. -/
def foreignKey (referenced : Prop) [Decidable referenced] (constraint : String) :
    Except Error Unit :=
  failIf (¬ referenced) s!"violates foreign key constraint {constraint}"

/-! ## Table `account` -/

def trigger00100BeforeInsertOrUpdateAccount (p : Planner) (new : AccountRow) : AccountRow :=
  { new with
    balanceOnErc20Contracts := new.balanceOnErc20Contracts.map p.distinct
    balanceOnNftContracts := new.balanceOnNftContracts.map p.distinct }

/-- `UPDATE account … WHERE chain_id = … AND bech32_address = …` -/
def Db.updateAccount (p : Planner) (k : AccountKey) (f : AccountRow → Except Error AccountRow)
    (db : Db) : Except Error Db := do
  let account ← db.account.update k fun row => do
    return trigger00100BeforeInsertOrUpdateAccount p (← f row)
  return { db with account := account }

def RecordAccount.row (record : RecordAccount) : AccountRow where
  chainId := record.chainId
  bech32Address := record.bech32Address
  continousInsertRefCurTxCounter := 0
  balanceOnErc20Contracts := pqArray record.balanceOnErc20Contracts
  balanceOnNftContracts := pqArray record.balanceOnNftContracts

/-- `ON CONFLICT (chain_id, bech32_address) DO UPDATE` -/
def AccountRow.onConflict (row excluded : AccountRow) : AccountRow :=
  { row with
    balanceOnErc20Contracts :=
      arrayCat row.balanceOnErc20Contracts excluded.balanceOnErc20Contracts
    balanceOnNftContracts := arrayCat row.balanceOnNftContracts excluded.balanceOnNftContracts }

def Db.insertAccount (p : Planner) (db : Db) (record : RecordAccount) : Except Error Db :=
  let new := trigger00100BeforeInsertOrUpdateAccount p record.row
  if db.account.Has new.key then
    db.updateAccount p new.key fun row => .ok (row.onConflict new)
  else do
    foreignKey (new.chainId ∈ db.chainInfo) "account_to_chain_info_fkey"
    return { db with account := db.account.insert new }

/-- The statement of `InsertOrUpdateRecordsAccount`. -/
def Db.insertAccounts (p : Planner) (accounts : List RecordAccount) (db : Db) :
    Except Error Db := do
  failIf (¬ (accounts.map fun account => account.row.key).Nodup)
    "ON CONFLICT DO UPDATE command cannot affect row a second time"
  accounts.foldlM (Db.insertAccount p) db

/-! ## Table `recent_account_transaction` -/

def trigger00100AfterInsertRecentAccountTransaction (db : Db)
    (new : RecentAccountTransactionRow) : Db :=
  { db with reducedRefCountRecentAccountTransaction :=
      db.reducedRefCountRecentAccountTransaction.insert new.key }

/-- `UPDATE recent_account_transaction SET ref_count = … WHERE chain_id = … AND …` -/
def Db.updateRefCount (k : TxKey) (f : ℤ → ℤ) (db : Db) : Except Error Db := do
  let recent ← db.recentAccountTransaction.update k fun row => do
    return row.setRefCount (← smallint (f row.refCount))
  return { db with recentAccountTransaction := recent }

def RecordRecentAccountTransaction.row (record : RecordRecentAccountTransaction) :
    RecentAccountTransactionRow where
  chainId := record.chainId
  height := record.height
  hash := record.hash
  refCount := 0
  epoch := record.epoch
  messageTypes := record.messageTypes
  action := nullString record.action
  value := pqArray record.value

/-- The statement of `InsertRecordsRecentAccountTransactionIfNotExists`. -/
def Db.insertRecentAccountTransactions (txs : List RecordRecentAccountTransaction) (db : Db) :
    Db :=
  let inserted := Table.insertAll (txs.map (·.row)) db.recentAccountTransaction
  inserted.2.foldl trigger00100AfterInsertRecentAccountTransaction
    { db with recentAccountTransaction := inserted.1 }

/-! ## Table `ref_account_to_recent_tx` -/

def trigger00300AfterDeleteRefAccountToRecentTx (db : Db) (old : RefAccountToRecentTxRow) :
    Except Error Db := do
  let db ← db.updateRefCount old.tx fun n => n - 1
  return { db with reducedRefCountRecentAccountTransaction :=
    db.reducedRefCountRecentAccountTransaction.insert old.tx }

/-- `DELETE FROM ref_account_to_recent_tx WHERE …` -/
def Db.deleteRefs (p : RefAccountToRecentTxRow → Bool) (db : Db) : Except Error Db :=
  (db.refAccountToRecentTx.rows.filter p).foldlM trigger00300AfterDeleteRefAccountToRecentTx
    { db with refAccountToRecentTx := db.refAccountToRecentTx.delete p }

/-- The heights of the references, in descending order, up to the limit. -/
def recentHeights (refs : List RefAccountToRecentTxRow) (n : Option ℤ) : List ℤ :=
  limit n (orderByDesc (refs.map (·.height)))

/-- The references whose most recent heights are kept: all, and those of the three types. -/
def RefAccountToRecentTxRow.types : List (RefAccountToRecentTxRow → Bool) :=
  [fun _ => true, fun ref => (isTrue ref.signer).passes, fun ref => (isTrue ref.erc20).passes,
    fun ref => (isTrue ref.nft).passes]

def pruningKeepRecentMinDefault : ℤ := 50

def pruningAfterXContinousInsert : ℤ := 10

/-- `pruning_keep_recent`; `NULL` if there is no such chain. -/
def pruningKeepRecent (chainInfo : Map String (Option ℤ)) (chainId : String) : Option ℤ :=
  (chainInfo.lookup chainId).map fun keep =>
    max (keep.getD pruningKeepRecentMinDefault) pruningKeepRecentMinDefault

/-- The references of an account that are of a type. -/
def Db.refsOf (k : AccountKey) (type : RefAccountToRecentTxRow → Bool) (db : Db) :
    List RefAccountToRecentTxRow :=
  db.refAccountToRecentTx.rows.filter fun ref => ref.account = k && type ref

/-- The heights at which the references of an account are kept. -/
def Db.keptHeights (k : AccountKey) (db : Db) : List ℤ :=
  RefAccountToRecentTxRow.types.flatMap fun type =>
    recentHeights (db.refsOf k type) (pruningKeepRecent db.chainInfo k.chainId)

def trigger00100AfterInsertRefAccountToRecentTx (p : Planner) (new : RefAccountToRecentTxRow)
    (db : Db) : Except Error Db := do
  let db ← db.updateAccount p new.account fun row => do
    return row.setCounter (← smallint (row.continousInsertRefCurTxCounter + 1))
  db.updateRefCount new.tx fun n => n + 1

/-- The references of `new.account` that its pruning deletes. -/
def Db.isPruned (new : RefAccountToRecentTxRow) (db : Db) (ref : RefAccountToRecentTxRow) : Bool :=
  ref.account = new.account && ref.height ∉ db.keptHeights new.account

def trigger00200AfterInsertRefAccountToRecentTx (p : Planner) (new : RefAccountToRecentTxRow)
    (db : Db) : Except Error Db :=
  let laterCounter := (db.account.find? new.account).map (·.continousInsertRefCurTxCounter)
  if (Sql.compare (pruningAfterXContinousInsert ≤ ·) laterCounter).passes then do
    let db ← db.deleteRefs (db.isPruned new)
    db.updateAccount p new.account fun row => .ok (row.setCounter 0)
  else .ok db

/-- What follows the insertion of a reference: its foreign keys, unless it is no longer
    there, and its triggers. -/
def Db.afterInsertRef (p : Planner) (db : Db) (new : RefAccountToRecentTxRow) :
    Except Error Db := do
  if db.refAccountToRecentTx.Has new.key then
    foreignKey (db.account.Has new.account) "ref_recent_acc_tx_to_account_fkey"
    foreignKey (db.recentAccountTransaction.Has new.tx) "ref_recent_acc_tx_to_recent_tx_fkey"
  let db ← trigger00100AfterInsertRefAccountToRecentTx p new db
  trigger00200AfterInsertRefAccountToRecentTx p new db

def RecordRefAccountToRecentTx.row (record : RecordRefAccountToRecentTx) :
    RefAccountToRecentTxRow where
  chainId := record.chainId
  bech32Address := record.bech32Address
  height := record.height
  hash := record.hash
  signer := nullBool record.signer
  erc20 := nullBool record.erc20
  nft := nullBool record.nft

/-- The tables when the references are written, and those that were inserted. -/
def Db.writeRefs (refs : List RecordRefAccountToRecentTx) (db : Db) :
    Db × List RefAccountToRecentTxRow :=
  let inserted := Table.insertAll (refs.map (·.row)) db.refAccountToRecentTx
  ({ db with refAccountToRecentTx := inserted.1 }, inserted.2)

/-- The statement of `InsertRecordsRefAccountToRecentTxIfNotExists`. -/
def Db.insertRefs (p : Planner) (refs : List RecordRefAccountToRecentTx) (db : Db) :
    Except Error Db :=
  (db.writeRefs refs).2.foldlM (Db.afterInsertRef p) (db.writeRefs refs).1

/-! ## The clean-up -/

/-- `DELETE FROM recent_account_transaction WHERE chain_id = … AND …` -/
def Db.deleteRecentAccountTransaction (k : TxKey) (db : Db) : Except Error Db := do
  foreignKey
    (db.recentAccountTransaction.Has k → ∀ ref ∈ db.refAccountToRecentTx.rows, ref.tx ≠ k)
    "ref_recent_acc_tx_to_recent_tx_fkey"
  return { db with recentAccountTransaction := db.recentAccountTransaction.delete (·.key = k) }

/-- One iteration of the loop over the rows of the queue. -/
def Db.cleanupReduced (db : Db) (reduced : TxKey) : Except Error Db := do
  let currentRefCount := (db.recentAccountTransaction.find? reduced).map (·.refCount)
  let db ← if (Sql.compare (· < 1) currentRefCount).passes then
      db.deleteRecentAccountTransaction reduced
    else .ok db
  return { db with reducedRefCountRecentAccountTransaction :=
    db.reducedRefCountRecentAccountTransaction.delete (· = reduced) }

/-- `func_cleanup_zero_ref_count_recent_account_transaction` -/
def Db.cleanupZeroRefCount (db : Db) : Except Error Db :=
  db.reducedRefCountRecentAccountTransaction.rows.foldlM Db.cleanupReduced db

/-! ## Table `transaction` -/

def RecordTransaction.row (now : ℤ) (record : RecordTransaction) :
    Except Error TransactionRow := do
  let partitionId ← record.insertedPartitionId now
  return {
    chainId := record.chainId
    height := record.height
    hash := record.hash
    partitionId := partitionId
    epoch := record.epoch
    messageTypes := record.messageTypes
    txType := record.txType
    action := nullString record.action
    value := pqArray record.value }

/-- The statement of `InsertRecordTransactionsIfNotExists`. -/
def Db.insertTransactions (now : ℤ) (txs : List RecordTransaction) (db : Db) :
    Except Error Db := do
  let rows ← txs.mapM (RecordTransaction.row now)
  let inserted := Table.insertAll rows db.transaction
  foreignKey (∀ row ∈ inserted.2, row.chainId ∈ db.chainInfo) "transaction_to_chain_info_fkey"
  return { db with transaction := inserted.1 }

/-! ## Statements -/

/-- What a statement does to the tables of records, at the time `now`. -/
def Db.exec (p : Planner) (now : ℤ) : Stmt → Db → Except Error Db
  | .insertTransactions txs, db => db.insertTransactions now txs
  | .insertAccounts accounts, db => db.insertAccounts p accounts
  | .insertRecentAccountTransactions txs, db => .ok (db.insertRecentAccountTransactions txs)
  | .insertRefAccountToRecentTx refs, db => db.insertRefs p refs
  | .cleanupZeroRefCount, db => db.cleanupZeroRefCount
  | .updateLatestIndexedBlock _ _, db | .upsertFailedBlocks _ _ _, db
  | .deleteFailedBlock _, db => .ok db

/-- A statement that fails changes nothing. -/
def Db.orSelf (db : Db) : Except Error Db → Db
  | .ok db' => db'
  | .error _ => db

/-- The tables that a sequence of statements can lead to, from empty ones, while `chain_info`
    satisfies `C`. -/
inductive Db.Reached (C : Map String (Option ℤ) → Prop) : Db → Prop
  | empty (chainInfo : Map String (Option ℤ)) : C chainInfo → Reached C (Db.empty chainInfo)
  | chainInfo {db : Db} (chainInfo : Map String (Option ℤ)) : Reached C db → C chainInfo →
      Reached C { db with chainInfo := chainInfo }
  | exec {db : Db} (p : Planner) (now : ℤ) (stmt : Stmt) : Reached C db →
      Reached C (db.orSelf (db.exec p now stmt))

/-! ## Transactions -/

/-- The transaction of a block: its records, what the planner does in its statements, and
    whether it commits. -/
structure BlockTransaction where
  accountsPlanner : Planner
  refsPlanner : Planner
  now : ℤ
  recordsTxs : List RecordTransaction
  involvedAccounts : List RecordAccount
  recentAccountTxs : List RecordRecentAccountTransaction
  refAccountToRecentTxs : List RecordRefAccountToRecentTx
  commits : Bool

/-- The insertions of the transaction. -/
def Db.insertBlockInformation (t : BlockTransaction) (db : Db) : Except Error Db := do
  let db ← db.insertTransactions t.now t.recordsTxs
  let db ← db.insertAccounts t.accountsPlanner t.involvedAccounts
  (db.insertRecentAccountTransactions t.recentAccountTxs).insertRefs t.refsPlanner
    t.refAccountToRecentTxs

/-- The statements of the transaction. -/
def Db.blockTransaction (t : BlockTransaction) (db : Db) : Except Error Db := do
  let db ← db.insertBlockInformation t
  db.cleanupZeroRefCount

/-- The transaction is rolled back if a statement fails. -/
def Db.afterTransaction (t : BlockTransaction) (db : Db) : Db :=
  if t.commits then db.orSelf (db.blockTransaction t) else db

/-- The tables that a sequence of transactions of blocks can lead to, from empty ones. -/
inductive Db.Committed : Db → Prop
  | empty (chainInfo : Map String (Option ℤ)) : Committed (Db.empty chainInfo)
  | chainInfo {db : Db} (chainInfo : Map String (Option ℤ)) : Committed db →
      Committed { db with chainInfo := chainInfo }
  | transaction {db : Db} (t : BlockTransaction) : Committed db →
      Committed (db.afterTransaction t)

/-! ## What an update changes -/

variable {db db' : Db} {p : Planner}

theorem smallint_ok {n m : ℤ} (h : smallint n = .ok m) : m = n := by
  simp only [smallint, bind_unit_ok_iff] at h
  exact (Except.ok.inj h.2).symm

theorem foreignKey_ok_iff {referenced : Prop} [Decidable referenced] {constraint : String}
    {u : Unit} : foreignKey referenced constraint = .ok u ↔ referenced := by
  rw [foreignKey, failIf_ok_iff, not_not]

/-- An update of an account by `g`, which keeps the key. -/
theorem Db.updateAccount_ok {k : AccountKey} {f : AccountRow → Except Error AccountRow}
    {g : AccountRow → AccountRow} (hf : ∀ a b, f a = .ok b → b = g a)
    (hg : ∀ a, (g a).key = a.key) (h : db.updateAccount p k f = .ok db') :
    ∃ t, db' = { db with account := t } ∧ (∀ k', t.Has k' ↔ db.account.Has k') ∧
      ∀ b, b ∈ t ↔ ∃ a ∈ db.account,
        b = if a.key = k then trigger00100BeforeInsertOrUpdateAccount p (g a) else a := by
  obtain ⟨t, ht, h⟩ := bind_ok_iff.1 h
  have hf' : ∀ a b, (do return trigger00100BeforeInsertOrUpdateAccount p (← f a)) = .ok b →
      b = trigger00100BeforeInsertOrUpdateAccount p (g a) := by
    intro a b h
    obtain ⟨c, hc, h⟩ := bind_ok_iff.1 h
    rw [← hf a c hc]
    exact (Except.ok.inj h).symm
  exact ⟨t, (Except.ok.inj h).symm, fun k' => Table.has_update hf' hg ht,
    fun b => Table.mem_update hf' hg ht⟩

/-- An update of a reference count. -/
theorem Db.updateRefCount_ok {k : TxKey} {f : ℤ → ℤ} (h : db.updateRefCount k f = .ok db') :
    ∃ t, db' = { db with recentAccountTransaction := t } ∧
      (∀ k', t.Has k' ↔ db.recentAccountTransaction.Has k') ∧
      ∀ b, b ∈ t ↔ ∃ a ∈ db.recentAccountTransaction,
        b = if a.key = k then a.setRefCount (f a.refCount) else a := by
  obtain ⟨t, ht, h⟩ := bind_ok_iff.1 h
  have hf : ∀ a b : RecentAccountTransactionRow,
      (do return a.setRefCount (← smallint (f a.refCount))) = .ok b →
        b = a.setRefCount (f a.refCount) := by
    intro a b h
    obtain ⟨n, hn, h⟩ := bind_ok_iff.1 h
    rw [← smallint_ok hn]
    exact (Except.ok.inj h).symm
  exact ⟨t, (Except.ok.inj h).symm, fun k' => Table.has_update hf (fun _ => rfl) ht,
    fun b => Table.mem_update hf (fun _ => rfl) ht⟩

/-- The triggers of an inserted reference. -/
theorem Db.afterInsertRef_ok {new : RefAccountToRecentTxRow}
    (h : db.afterInsertRef p new = .ok db') :
    (db.refAccountToRecentTx.Has new.key →
      db.account.Has new.account ∧ db.recentAccountTransaction.Has new.tx) ∧
    ∃ db₁, trigger00100AfterInsertRefAccountToRecentTx p new db = .ok db₁ ∧
      trigger00200AfterInsertRefAccountToRecentTx p new db₁ = .ok db' := by
  unfold afterInsertRef at h
  split_ifs at h with hhas
  · obtain ⟨ha, h⟩ := bind_unit_ok_iff.1 h
    obtain ⟨ht, h⟩ := bind_unit_ok_iff.1 h
    obtain ⟨db₁, h₁, h₂⟩ := bind_ok_iff.1 h
    exact ⟨fun _ => ⟨foreignKey_ok_iff.1 ha, foreignKey_ok_iff.1 ht⟩, db₁, h₁, h₂⟩
  · obtain ⟨db₁, h₁, h₂⟩ := bind_ok_iff.1 h
    exact ⟨fun hn => absurd hn hhas, db₁, h₁, h₂⟩

/-- The first trigger: both counters are increased. -/
theorem trigger00100AfterInsertRefAccountToRecentTx_ok {new : RefAccountToRecentTxRow}
    (h : trigger00100AfterInsertRefAccountToRecentTx p new db = .ok db') :
    ∃ t r, db' = { db with account := t, recentAccountTransaction := r } ∧
      (∀ k, t.Has k ↔ db.account.Has k) ∧
      (∀ b, b ∈ t ↔ ∃ a ∈ db.account, b = if a.key = new.account then
        trigger00100BeforeInsertOrUpdateAccount p
          (a.setCounter (a.continousInsertRefCurTxCounter + 1)) else a) ∧
      (∀ k, r.Has k ↔ db.recentAccountTransaction.Has k) ∧
      ∀ b, b ∈ r ↔ ∃ a ∈ db.recentAccountTransaction,
        b = if a.key = new.tx then a.setRefCount (a.refCount + 1) else a := by
  obtain ⟨db₁, h₁, h⟩ := bind_ok_iff.1 h
  have hf : ∀ a b : AccountRow,
      (do return a.setCounter (← smallint (a.continousInsertRefCurTxCounter + 1))) = .ok b →
        b = a.setCounter (a.continousInsertRefCurTxCounter + 1) := by
    intro a b h
    obtain ⟨n, hn, h⟩ := bind_ok_iff.1 h
    rw [← smallint_ok hn]
    exact (Except.ok.inj h).symm
  obtain ⟨t, rfl, hhas, hmem⟩ := Db.updateAccount_ok hf (fun _ => rfl) h₁
  obtain ⟨r, rfl, hhas', hmem'⟩ := Db.updateRefCount_ok h
  exact ⟨t, r, rfl, hhas, hmem, hhas', hmem'⟩

/-- The second trigger: the account is pruned, or its counter is small. -/
theorem trigger00200AfterInsertRefAccountToRecentTx_cases {new : RefAccountToRecentTxRow}
    (h : trigger00200AfterInsertRefAccountToRecentTx p new db = .ok db') :
    ((∃ a ∈ db.account, a.key = new.account ∧ 10 ≤ a.continousInsertRefCurTxCounter) ∧
      ∃ db₁ t, db.deleteRefs (db.isPruned new) = .ok db₁ ∧
      db' = { db₁ with account := t } ∧ (∀ k, t.Has k ↔ db₁.account.Has k) ∧
      ∀ b, b ∈ t ↔ ∃ a ∈ db₁.account, b = if a.key = new.account then
        trigger00100BeforeInsertOrUpdateAccount p (a.setCounter 0) else a) ∨
    (db' = db ∧
      ∀ a ∈ db.account, a.key = new.account → a.continousInsertRefCurTxCounter ≤ 9) := by
  unfold trigger00200AfterInsertRefAccountToRecentTx at h
  cases hfind : db.account.find? new.account with
  | none =>
    rw [hfind] at h
    refine .inr ⟨(Except.ok.inj h).symm, fun a ha hk => ?_⟩
    exact absurd (hk ▸ Table.has_of_mem ha) (Table.find?_eq_none_iff.1 hfind)
  | some row =>
    obtain ⟨hrow, hkey⟩ := Table.find?_eq_some_iff.1 hfind
    rw [hfind] at h
    simp only [Option.map_some, passes_compare, Option.any_some, decide_eq_true_eq] at h
    split_ifs at h with hcounter
    · obtain ⟨db₁, h₁, h⟩ := bind_ok_iff.1 h
      have hf : ∀ a b : AccountRow, (.ok (a.setCounter 0) : Except Error AccountRow) = .ok b →
          b = a.setCounter 0 := fun a b h => (Except.ok.inj h).symm
      obtain ⟨t, rfl, hhas, hmem⟩ := Db.updateAccount_ok hf (fun _ => rfl) h
      exact .inl ⟨⟨row, hrow, hkey, hcounter⟩, db₁, t, h₁, rfl, hhas, hmem⟩
    · refine .inr ⟨(Except.ok.inj h).symm, fun a ha hk => ?_⟩
      rw [Table.eq_of_key ha hrow (hk.trans hkey.symm)]
      have h10 : ¬ 10 ≤ row.continousInsertRefCurTxCounter := hcounter
      omega

/-- A deletion of references changes the counts and the queue of their transactions. -/
theorem Db.deleteRefs_ok {q : RefAccountToRecentTxRow → Bool} (h : db.deleteRefs q = .ok db') :
    ∃ r u, (∀ k, r.Has k ↔ db.recentAccountTransaction.Has k) ∧ db' = { db with
      recentAccountTransaction := r
      reducedRefCountRecentAccountTransaction := u
      refAccountToRecentTx := db.refAccountToRecentTx.delete q } := by
  refine foldlM_pending
    (J := fun _ s => ∃ r u, (∀ k, r.Has k ↔ db.recentAccountTransaction.Has k) ∧ s = { db with
      recentAccountTransaction := r
      reducedRefCountRecentAccountTransaction := u
      refAccountToRecentTx := db.refAccountToRecentTx.delete q })
    ?_ ⟨_, _, fun _ => Iff.rfl, rfl⟩ h
  rintro old _ _ s ⟨r, u, hr, rfl⟩ he
  obtain ⟨db₁, h₁, he⟩ := bind_ok_iff.1 he
  obtain ⟨t, rfl, ht, -⟩ := Db.updateRefCount_ok h₁
  exact ⟨_, _, fun k => (ht k).trans (hr k), (Except.ok.inj he).symm⟩

/-- The triggers of an inserted reference change neither `chain_info` nor `transaction`. -/
theorem Db.afterInsertRef_frame {new : RefAccountToRecentTxRow}
    (h : db.afterInsertRef p new = .ok db') :
    db'.chainInfo = db.chainInfo ∧ db'.transaction = db.transaction := by
  obtain ⟨-, db₁, h₁, h₂⟩ := Db.afterInsertRef_ok h
  obtain ⟨t, r, rfl, -⟩ := trigger00100AfterInsertRefAccountToRecentTx_ok h₁
  rcases trigger00200AfterInsertRefAccountToRecentTx_cases h₂ with
    ⟨-, db₂, t', hdel, rfl, -⟩ | ⟨rfl, -⟩
  · obtain ⟨r', u, -, rfl⟩ := Db.deleteRefs_ok hdel
    exact ⟨rfl, rfl⟩
  · exact ⟨rfl, rfl⟩

/-! ## What an insertion changes -/

theorem Db.insertTransactions_nil (now : ℤ) (db : Db) : db.insertTransactions now [] = .ok db := rfl

theorem Db.insertAccounts_nil (p : Planner) (db : Db) : db.insertAccounts p [] = .ok db := rfl

theorem Db.insertRecentAccountTransactions_nil (db : Db) :
    db.insertRecentAccountTransactions [] = db := rfl

theorem Db.insertRefs_nil (p : Planner) (db : Db) : db.insertRefs p [] = .ok db := rfl

theorem Db.insertTransactions_ok {now : ℤ} {txs : List RecordTransaction}
    (h : db.insertTransactions now txs = .ok db') :
    ∃ rows, txs.mapM (RecordTransaction.row now) = .ok rows ∧
      db' = { db with transaction := (Table.insertAll rows db.transaction).1 } := by
  obtain ⟨rows, hrows, h⟩ := bind_ok_iff.1 h
  obtain ⟨-, h⟩ := bind_unit_ok_iff.1 h
  exact ⟨rows, hrows, (Except.ok.inj h).symm⟩

/-- An account is updated if it exists, else inserted. -/
theorem Db.insertAccount_ok {record : RecordAccount} (h : db.insertAccount p record = .ok db') :
    ∃ t, db' = { db with account := t } ∧
      (∀ k, t.Has k ↔ db.account.Has k ∨ k = record.row.key) ∧
      ∀ b, b ∈ t ↔ (∃ a ∈ db.account, b = if a.key = record.row.key then
          trigger00100BeforeInsertOrUpdateAccount p
            (a.onConflict (trigger00100BeforeInsertOrUpdateAccount p record.row)) else a) ∨
        (¬ db.account.Has record.row.key ∧
          b = trigger00100BeforeInsertOrUpdateAccount p record.row) := by
  unfold insertAccount at h
  simp only [] at h
  split_ifs at h with hhas
  · have hf : ∀ a b : AccountRow, (.ok (a.onConflict
        (trigger00100BeforeInsertOrUpdateAccount p record.row)) : Except Error AccountRow) = .ok b →
          b = a.onConflict (trigger00100BeforeInsertOrUpdateAccount p record.row) :=
      fun a b h => (Except.ok.inj h).symm
    obtain ⟨t, rfl, ht, hmem⟩ := Db.updateAccount_ok hf (fun _ => rfl) h
    refine ⟨t, rfl, fun k => ?_, fun b => ?_⟩
    · rw [ht]
      exact ⟨.inl, fun hk => hk.elim id fun hk => hk ▸ hhas⟩
    · rw [hmem]
      exact ⟨.inl, fun hb => hb.elim id fun hb => absurd hhas hb.1⟩
  · obtain ⟨-, h⟩ := bind_unit_ok_iff.1 h
    refine ⟨_, (Except.ok.inj h).symm, fun k => Table.has_insert, fun b => ?_⟩
    rw [Table.mem_insert]
    have hne : ∀ a ∈ db.account, a.key ≠ record.row.key :=
      fun a ha hk => hhas (hk ▸ Table.has_of_mem ha)
    constructor
    · rintro (hb | ⟨rfl, -⟩)
      · exact .inl ⟨b, hb, (if_neg (hne b hb)).symm⟩
      · exact .inr ⟨hhas, rfl⟩
    · rintro (⟨a, ha, rfl⟩ | ⟨-, rfl⟩)
      · rw [if_neg (hne a ha)]
        exact .inl ha
      · exact .inr ⟨rfl, hhas⟩

theorem Db.insertAccounts_frame {accounts : List RecordAccount}
    (h : db.insertAccounts p accounts = .ok db') : ∃ t, db' = { db with account := t } := by
  obtain ⟨-, h⟩ := bind_unit_ok_iff.1 h
  refine foldlM_keeps (I := fun s => ∃ t, s = { db with account := t }) ?_ ⟨_, rfl⟩ h
  rintro record - _ s ⟨t, rfl⟩ he
  obtain ⟨t', rfl, -⟩ := Db.insertAccount_ok he
  exact ⟨t', rfl⟩

theorem Db.insertAccounts_singleton {record : RecordAccount} :
    db.insertAccounts p [record] = db.insertAccount p record := by
  have hcheck : failIf (¬ ([record].map fun account => account.row.key).Nodup)
      "ON CONFLICT DO UPDATE command cannot affect row a second time" = .ok () :=
    failIf_ok_iff.2 (not_not.2 (List.nodup_singleton _))
  rw [insertAccounts, hcheck, ok_bind, List.foldlM_cons]
  exact bind_pure _

/-- A reference whose key is not taken. -/
theorem Db.insertRefs_singleton {record : RecordRefAccountToRecentTx}
    (h : ¬ db.refAccountToRecentTx.Has record.row.key) :
    db.insertRefs p [record] = Db.afterInsertRef p
      { db with refAccountToRecentTx := db.refAccountToRecentTx.add record.row h } record.row := by
  simp only [insertRefs, writeRefs, List.map_cons, List.map_nil, Table.insertAll_singleton h,
    List.foldlM_cons]
  exact bind_pure _

theorem Db.insertRefs_frame {refs : List RecordRefAccountToRecentTx}
    (h : db.insertRefs p refs = .ok db') :
    db'.chainInfo = db.chainInfo ∧ db'.transaction = db.transaction := by
  refine foldlM_keeps (I := fun s => s.chainInfo = db.chainInfo ∧ s.transaction = db.transaction)
    (fun new _ s s' hs he => ?_) ⟨rfl, rfl⟩ h
  obtain ⟨hc, ht⟩ := Db.afterInsertRef_frame he
  exact ⟨hc.trans hs.1, ht.trans hs.2⟩

/-- The transactions that are inserted are queued. -/
theorem Db.insertRecentAccountTransactions_eq (txs : List RecordRecentAccountTransaction)
    (db : Db) : ∃ u, db.insertRecentAccountTransactions txs = { db with
        recentAccountTransaction :=
          (Table.insertAll (txs.map (·.row)) db.recentAccountTransaction).1
        reducedRefCountRecentAccountTransaction := u } ∧
      ∀ k, u.Has k ↔ db.reducedRefCountRecentAccountTransaction.Has k ∨
        ∃ row ∈ (Table.insertAll (txs.map (·.row)) db.recentAccountTransaction).2, row.key = k := by
  unfold insertRecentAccountTransactions
  generalize Table.insertAll (txs.map (·.row)) db.recentAccountTransaction = inserted
  obtain ⟨t, rows⟩ := inserted
  induction rows generalizing db with
  | nil => exact ⟨_, rfl, fun k => by simp⟩
  | cons row rows ih =>
    obtain ⟨u, he, hu⟩ := ih { db with reducedRefCountRecentAccountTransaction :=
      db.reducedRefCountRecentAccountTransaction.insert row.key }
    refine ⟨u, he, fun k => ?_⟩
    rw [hu, Table.has_insert]
    simp only [List.mem_cons, exists_eq_or_imp, or_assoc, eq_comm (a := k), id]

end RollappExplorer
