/-
  Indexing a range of blocks (`fetchAndIndexingBlockRange` and what it calls).

  * the operations on the database: `setLatestIndexedBlock`,
    `insertOrUpdateFailedBlocks`, `removeFailedBlockRecord`, `insertBlockInformation`;
  * `indexBlock`: one iteration of the loop over the blocks of a range; an error of the
    block itself is recorded, every other error is fatal;
  * `fetchAndIndexingBlockRange`.
-/
import Mathlib.Data.List.Sort
import RollappExplorer.Environment

namespace RollappExplorer

open Go Effect

variable {R : Type} {α β : Type}

/-! ## Database operations -/

/-- `if err != nil { return err }` -/
def orReturn (p : Prog sig (Except Error α)) (f : α → Prog sig (Except Error β)) :
    Prog sig (Except Error β) := do
  match ← p with
  | .error err => return .error err
  | .ok a => f a

/-- `errors.Wrap` of the error of an operation. -/
def wrapping (msg : String) (p : Prog sig (Except Error α)) : Prog sig (Except Error α) := do
  return (← p).mapError fun err => wrap err msg

/-- A statement, of the open transaction or outside of it. -/
def execute : Bool → Stmt → Prog sig (Except Error Unit)
  | true, stmt => perform (.txExec stmt)
  | false, stmt => perform (.exec stmt)

/-- `SetLatestIndexedBlock` -/
def setLatestIndexedBlock (d : Indexer R) (inTx : Bool) (height : ℤ) :
    Prog sig (Except Error Unit) := do
  let now ← perform .now
  wrapping s!"failed to update latest indexed block for {d.chainId}"
    (execute inTx (.updateLatestIndexedBlock height now))

/-- `RemoveFailedBlockRecord` -/
def removeFailedBlockRecord (inTx : Bool) (height : ℤ) : Prog sig (Except Error Unit) :=
  wrapping "failed to delete failed block record" (execute inTx (.deleteFailedBlock height))

/-- `InsertOrUpdateFailedBlocks` -/
def insertOrUpdateFailedBlocks (blocksHeight : List ℤ) (optionalReason : Option Error) :
    Prog sig (Except Error Unit) := do
  let now ← perform .now
  wrapping "failed to insert or update failed blocks"
    (execute false (.upsertFailedBlocks now optionalReason.toList blocksHeight))

/-- The insertion of records, if there are any and they are valid. -/
def insertRecords (records : List α) (valid : Except Error Unit) (stmt : Stmt) :
    Prog sig (Except Error Unit) :=
  if records.length = 0 then return .ok ()
  else match valid with
    | .error err => return .error err
    | .ok () => execute true stmt

def insertRecordTransactionsIfNotExists (txs : List RecordTransaction) :
    Prog sig (Except Error Unit) :=
  insertRecords txs ((RecordsTransaction.validateBasic txs).mapError fun err =>
    wrap err "transactions do not pass basic validation") (.insertTransactions txs)

def insertOrUpdateRecordsAccount (accounts : List RecordAccount) : Prog sig (Except Error Unit) :=
  insertRecords accounts (do
    (RecordsAccount.validateBasic accounts).mapError fun err =>
      wrap err "accounts do not pass basic validation"
    accounts.forM fun account => failIf (account.continousInsertReferenceCurrentTxCounter ≠ 0)
      ("continous insert reference current tx counter must be 0, " ++
        "as it must be altered via triggers")) (.insertAccounts accounts)

def insertRecordsRecentAccountTransactionIfNotExists (txs : List RecordRecentAccountTransaction) :
    Prog sig (Except Error Unit) :=
  insertRecords txs (do
    (RecordsRecentAccountTransaction.validateBasic txs).mapError fun err =>
      wrap err "recent account transactions do not pass basic validation"
    txs.forM fun tx => failIf (tx.refCount ≠ 0)
      s!"ref count must be 0, got {tx.refCount} in tx {tx.hash}")
    (.insertRecentAccountTransactions txs)

def insertRecordsRefAccountToRecentTxIfNotExists (refs : List RecordRefAccountToRecentTx) :
    Prog sig (Except Error Unit) :=
  insertRecords refs ((RecordsRefAccountToRecentTx.validateBasic refs).mapError fun err =>
    wrap err "ref account to recent tx do not pass basic validation")
    (.insertRefAccountToRecentTx refs)

/-- `insertBlockInformation` -/
def insertBlockInformation (d : Indexer R) (height : ℤ) (block : BlockInResponse) :
    Prog sig (Except Error Unit) := do
  let o ← perform .mapOrder
  match blockInformation d.sdk o d.chainId d.bech32Cfg height block with
  | .error err => return .error err
  | .ok records =>
    orReturn (wrapping "failed to insert transactions"
      (insertRecordTransactionsIfNotExists records.recordsTxs)) fun () =>
    orReturn (wrapping "failed to insert/update involved accounts"
      (insertOrUpdateRecordsAccount (records.involvedAccounts o))) fun () =>
    orReturn (wrapping "failed to insert recent account transactions"
      (insertRecordsRecentAccountTransactionIfNotExists records.recentAccountTxs)) fun () =>
    wrapping "failed to insert ref account to recent tx"
      (insertRecordsRefAccountToRecentTxIfNotExists records.refAccountToRecentTxs)

/-! ## Blocks -/

/-- The statements of the transaction of a block; their error is `perBlockErr`. -/
def blockStatements (d : Indexer R) (block : BlockInResponse) : Prog sig (Except Error Unit) :=
  orReturn (insertBlockInformation d block.height block) fun () =>
  orReturn (if block.transactions.length > 0 then execute true .cleanupZeroRefCount
    else return .ok ()) fun () =>
  orReturn (setLatestIndexedBlock d true block.height) fun () =>
  removeFailedBlockRecord true block.height

/-- The error of an operation, if it has one. -/
def errorOf (p : Prog sig (Except Error Unit)) : Prog sig (Option Error) := do
  match ← p with
  | .error err => return some err
  | .ok () => return none

/-- Record an error of the block itself; the block is skipped unless that fails. -/
def markFailedBlock (height : ℤ) (perBlockErr : Error) : Prog sig (Option Error) :=
  errorOf (insertOrUpdateFailedBlocks [height] (some perBlockErr))

/-- The partitions of the block's week, if they are not known to be created. -/
def preparePartitions (d : Indexer R) (block : BlockInResponse) :
    Prog sig (Except Error Unit) := do
  let now ← perform .now
  let epochWeek := getEpochWeek now block.timeEpochUTC
  if ← perform (.isCreatedPartitions epochWeek) then return .ok ()
  else match ← perform (.preparePartitions block.timeEpochUTC) with
    | .error sqlErr => return .error (wrap sqlErr
        (s!"failed to create partitioned tables for epoch week {epochWeek} " ++
          s!"and chain id {d.chainId}"))
    | .ok () =>
      perform (.markCreatedPartitions epochWeek)
      return .ok ()

/-- The transaction of a block that is not empty. -/
def indexTransactions (d : Indexer R) (block : BlockInResponse) : Prog sig (Option Error) := do
  match ← perform .begin with
  | .error sqlErr => return some sqlErr
  | .ok () =>
    match ← blockStatements d block with
    | .error perBlockErr =>
      discard (perform .rollback)
      markFailedBlock block.height perBlockErr
    | .ok () =>
      match ← perform .commit with
      | .error perBlockErr => markFailedBlock block.height perBlockErr
      | .ok () => return none

/-- One iteration of the loop over the blocks; the result is the fatal error. -/
def indexBlock (d : Indexer R) (block : BlockInResponse) : Prog sig (Option Error) :=
  if block.height = 0 then .panic s!"unexpected block height 0 when indexing {d.chainId}"
  else if block.transactions.length < 1 then
    -- skip empty block
    errorOf (setLatestIndexedBlock d false block.height)
  else do
    match ← preparePartitions d block with
    | .error sqlErr => return some sqlErr
    | .ok () => indexTransactions d block

def indexBlocks (d : Indexer R) : List BlockInResponse → Prog sig (Option Error)
  | [] => return none
  | block :: blocks => do
    match ← indexBlock d block with
    | some fatalError => return some fatalError
    | none => indexBlocks d blocks

/-- `slices.SortFunc` by height -/
def sortBlocks (blocks : List BlockInResponse) : List BlockInResponse :=
  blocks.insertionSort fun l r => l.height ≤ r.height

/-! ## Ranges -/

/-- Record the heights without a block that an answer lists. -/
def markReported (blocksHeight : List ℤ) (reason : Error) : Prog sig (Option Error) :=
  if blocksHeight.length > 0 then
    errorOf (insertOrUpdateFailedBlocks blocksHeight (some reason))
  else return none

/-- What follows the query for a range. -/
def indexAnswer (d : Indexer R) (res : TransformedResponseBeTransactionsInBlockRange) :
    Prog sig (Option Error) := do
  match ← markReported res.errorBlocks "rpc marks error" with
  | some sqlErr => return some sqlErr
  | none =>
    match ← markReported res.missingBlocks "rpc marks missing" with
    | some sqlErr => return some sqlErr
    | none => indexBlocks d (sortBlocks res.blocks)

/-- The results of `fetchAndIndexingBlockRange`. -/
structure FetchResult where
  fatalError : Option Error
  isFetchRpcErr : Bool

/-- `fetchAndIndexingBlockRange` -/
def fetchAndIndexingBlockRange (d : Indexer R) (nextBlockToIndexFrom nextBlockToIndexTo : ℤ) :
    Prog sig FetchResult := do
  match ← perform (.beTransactionsInBlockRange nextBlockToIndexFrom nextBlockToIndexTo) with
  | .error fetchErr =>
    if isErrBlackList fetchErr then
      -- it's a malformed response
      perform .forceResetActiveJsonRpcUrl
      return ⟨some fetchErr, false⟩
    else return ⟨some fetchErr, true⟩
  | .ok res => return ⟨← indexAnswer d res, false⟩

end RollappExplorer
