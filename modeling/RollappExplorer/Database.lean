/-
  The database of the indexer (`database/postgres`, `database/postgres_tx`), as far as
  one chain sees it.

  * `Tables`: the row of `chain_info`, the rows of `failed_block`, and the tables of
    records, whose contents are a parameter;
  * `Stmt.run`: what a statement does to the tables;
  * `oneFailedBlock`, `failedBlocksInRange`: what the queries on `failed_block` return.
-/
import Mathlib.Order.Interval.Set.Basic
import RollappExplorer.BlockInformation

namespace RollappExplorer

open Go

/-! ## Tables -/

/-- A row of `failed_block`. -/
structure FailedBlock where
  retryCount : ℤ
  lastRetryEpoch : ℤ
  errorMessages : List String

/-- What the statements on the tables of records do. -/
structure RecordTables (R : Type) where
  insertTransactions : List RecordTransaction → R → R
  insertAccounts : List RecordAccount → R → R
  insertRecentAccountTransactions : List RecordRecentAccountTransaction → R → R
  insertRefAccountToRecentTx : List RecordRefAccountToRecentTx → R → R
  cleanupZeroRefCount : R → R

/-- The tables, with the rows of one chain. -/
structure Tables (R : Type) where
  latestIndexedBlock : ℤ
  increasedLatestIndexedBlockAt : ℤ
  failedBlock : Map ℤ FailedBlock
  records : R

/-! ## Statements -/

inductive Stmt where
  | updateLatestIndexedBlock (height now : ℤ)
  | upsertFailedBlocks (now : ℤ) (errs : List String) (heights : List ℤ)
  | deleteFailedBlock (height : ℤ)
  | insertTransactions (txs : List RecordTransaction)
  | insertAccounts (accounts : List RecordAccount)
  | insertRecentAccountTransactions (txs : List RecordRecentAccountTransaction)
  | insertRefAccountToRecentTx (refs : List RecordRefAccountToRecentTx)
  | cleanupZeroRefCount

/-- `ON CONFLICT(chain_id, height) DO UPDATE` of one row. -/
def upsertFailedBlock (now : ℤ) (errs : List String) (rows : Map ℤ FailedBlock) (height : ℤ) :
    Map ℤ FailedBlock :=
  rows.insert height <| match rows.lookup height with
    | none => ⟨0, now, errs⟩
    | some row => ⟨row.retryCount + 1, max now row.lastRetryEpoch, errs ++ row.errorMessages⟩

variable {R : Type}

def Stmt.run (tables : RecordTables R) : Stmt → Tables R → Tables R
  | .updateLatestIndexedBlock height now, db =>
    if db.latestIndexedBlock < height then
      { db with latestIndexedBlock := height, increasedLatestIndexedBlockAt := now }
    else db
  | .upsertFailedBlocks now errs heights, db =>
    { db with failedBlock := heights.foldl (upsertFailedBlock now errs) db.failedBlock }
  | .deleteFailedBlock height, db => { db with failedBlock := db.failedBlock.erase height }
  | .insertTransactions txs, db =>
    { db with records := tables.insertTransactions txs db.records }
  | .insertAccounts accounts, db =>
    { db with records := tables.insertAccounts accounts db.records }
  | .insertRecentAccountTransactions txs, db =>
    { db with records := tables.insertRecentAccountTransactions txs db.records }
  | .insertRefAccountToRecentTx refs, db =>
    { db with records := tables.insertRefAccountToRecentTx refs db.records }
  | .cleanupZeroRefCount, db => { db with records := tables.cleanupZeroRefCount db.records }

/-- The statements the database may carry out: an `INSERT` has rows, and it must not
    update a row twice. -/
def Stmt.Executable : Stmt → Prop
  | .upsertFailedBlocks _ _ heights => heights ≠ [] ∧ heights.Nodup
  | _ => True

/-! ## Queries -/

/-- The greatest height that may be retried, zero if there is none. -/
def oneFailedBlock (rows : Map ℤ FailedBlock) (maxRetries before : ℤ) : ℤ :=
  (((rows.pairs.filter fun (_, row) =>
    row.retryCount < maxRetries && row.lastRetryEpoch < before).map Prod.fst).max?).getD 0

/-- The failed heights from `f` to `t`. -/
def failedBlocksInRange (rows : Map ℤ FailedBlock) (f t : ℤ) : List ℤ :=
  rows.keys.filter fun h => f ≤ h && h ≤ t

/-! ## Rows of `failed_block` -/

theorem mem_upsertFailedBlocks {now : ℤ} {errs : List String} {heights : List ℤ}
    {rows : Map ℤ FailedBlock} {h : ℤ} :
    h ∈ heights.foldl (upsertFailedBlock now errs) rows ↔ h ∈ rows ∨ h ∈ heights := by
  induction heights generalizing rows with
  | nil => simp
  | cons h' heights ih =>
    rw [List.foldl_cons, ih, upsertFailedBlock, AList.mem_insert, List.mem_cons, or_assoc,
      or_left_comm]

theorem mem_failedBlocksInRange {rows : Map ℤ FailedBlock} {f t h : ℤ} :
    h ∈ failedBlocksInRange rows f t ↔ h ∈ rows ∧ f ≤ h ∧ h ≤ t := by
  simp [failedBlocksInRange, AList.mem_keys]

/-- A positive height that may be retried has a row. -/
theorem oneFailedBlock_mem {rows : Map ℤ FailedBlock} {maxRetries before : ℤ}
    (h : 0 < oneFailedBlock rows maxRetries before) :
    oneFailedBlock rows maxRetries before ∈ rows := by
  unfold oneFailedBlock at h ⊢
  cases hmax : ((rows.pairs.filter fun (_, row) =>
      row.retryCount < maxRetries && row.lastRetryEpoch < before).map Prod.fst).max? with
  | none => rw [hmax] at h; exact absurd h (lt_irrefl 0)
  | some height =>
    obtain ⟨⟨k, row⟩, hm, rfl⟩ := List.mem_map.1 (List.max?_mem hmax)
    have hk := Map.mem_pairs.1 (List.mem_filter.1 hm).1
    exact AList.lookup_isSome.1 (by rw [Option.getD_some, hk]; rfl)

end RollappExplorer
