/-
  The pages of stored transactions (`services/db/transactions.ts`, `services/db/accounts.ts`, and
  the pages that call them).

  * `getTransactions`, `getAccountTransactions`: what PostgreSQL may answer;
  * `PageOf`: a page of the list, by the texts of the query string;
  * `PagesComplete`: the pages show every row once, whatever the answers are;
  * `pagesComplete_iff`: so it is iff no page boundary falls between rows that have the same sort
    key and are shown differently.
-/
import Mathlib.Data.Prod.Lex
import RollappExplorer.Pages
import RollappExplorer.Schema
import RollappExplorer.Sql.Paging

namespace RollappExplorer

open Sql

/-! ## Queries -/

structure QueryPaginationOption where
  skip : Option ℕ
  take : Option ℕ

def paginate {α : Type} (options : QueryPaginationOption) (l : List α) : List α :=
  let l := l.drop (options.skip.getD 0)
  options.take.elim l fun n => l.take n

/-- A result of `findMany`: the rows come in one of the orders by descending keys. -/
def FindMany {α β κ : Type} [LinearOrder κ] (orderBy : α → κ) (select : α → β) (rows : List α)
    (options : QueryPaginationOption) (result : List β) : Prop :=
  ∃ order, IsOrder orderBy rows order ∧ result = (paginate options order).map select

/-- `Transaction` -/
structure ListedTransaction where
  hash : String
  height : ℤ
  epoch : ℤ
  messageTypes : List String
  txType : String
  action : Option String
  value : Option (List String)
  deriving DecidableEq

def TransactionRow.select (row : TransactionRow) : ListedTransaction where
  hash := row.hash
  height := row.height
  epoch := row.epoch
  messageTypes := row.messageTypes
  txType := row.txType
  action := row.action
  value := row.value

/-- `ORDER BY epoch DESC, height DESC` -/
def TransactionRow.orderBy (row : TransactionRow) : ℤ ×ₗ ℤ := toLex (row.epoch, row.height)

/-- The transactions of a chain. -/
def Db.transactionsOf (db : Db) (chainId : String) : List TransactionRow :=
  db.transaction.rows.filter fun row => row.chainId = chainId

def getTransactions (db : Db) (chainId : String) :
    QueryPaginationOption → List ListedTransaction → Prop :=
  FindMany TransactionRow.orderBy TransactionRow.select (db.transactionsOf chainId)

def countTransactions (db : Db) (chainId : String) : ℕ := (db.transactionsOf chainId).length

structure AccountTransactionFilterOption where
  signer : Option Bool
  erc20 : Option Bool
  nft : Option Bool

/-- `recent_accounts_transaction` -/
structure ListedRecentTransaction where
  hash : String
  height : ℤ
  epoch : ℤ
  messageTypes : List String
  action : Option String
  deriving DecidableEq

def RecentAccountTransactionRow.select (row : RecentAccountTransactionRow) :
    ListedRecentTransaction where
  hash := row.hash
  height := row.height
  epoch := row.epoch
  messageTypes := row.messageTypes
  action := row.action

/-- The references of an account that satisfy the condition. -/
def Db.accountTransactionsOf (db : Db) (chainId bech32Address : String)
    (options : AccountTransactionFilterOption) : List RefAccountToRecentTxRow :=
  db.refAccountToRecentTx.rows.filter fun row =>
    row.chainId = chainId ∧ row.bech32Address = bech32Address ∧
    (options.signer.isNone ∨ row.signer = options.signer) ∧
    (options.erc20.isNone ∨ row.erc20 = options.erc20) ∧
    (options.nft.isNone ∨ row.nft = options.nft)

/-- The transaction of a reference is looked up. -/
def Db.selectRef (db : Db) (row : RefAccountToRecentTxRow) : Option ListedRecentTransaction :=
  (db.recentAccountTransaction.find? row.tx).map RecentAccountTransactionRow.select

def getAccountTransactions (db : Db) (chainId bech32Address : String)
    (options : AccountTransactionFilterOption) :
    QueryPaginationOption → List (Option ListedRecentTransaction) → Prop :=
  FindMany RefAccountToRecentTxRow.height db.selectRef
    (db.accountTransactionsOf chainId bech32Address options)

def countAccountTransactions (db : Db) (chainId bech32Address : String)
    (options : AccountTransactionFilterOption) : ℕ :=
  (db.accountTransactionsOf chainId bech32Address options).length

/-! ## Pages -/

section

variable {α β κ : Type} [LinearOrder κ]

/-- The page for the texts of the query string, of a list with `total` rows. -/
def PageOf (total : ℕ) (query : QueryPaginationOption → List β → Prop)
    (pageSizeParam pageParam : SearchParam) (result : List β) : Prop :=
  let (pageSize, page) := getPageAndPageSizeFromStringParam pageSizeParam pageParam (some total)
  query ⟨some (getOffsetFromPageAndPageSize page pageSize), some pageSize⟩ result

/-- The size of the pages for a text of the query string. -/
def pageSizeOf (pageSizeParam : SearchParam) : ℕ :=
  getValidPageSize (getNumberFromStringParam pageSizeParam)

/-- Whatever the queries answer, all pages together show the rows `shown`. -/
def PagesComplete (total : ℕ) (query : QueryPaginationOption → List β → Prop)
    (pageSizeParam : SearchParam) (shown : List β) : Prop :=
  ∀ results : ℕ → List β,
    (∀ k < total ⌈/⌉ pageSizeOf pageSizeParam,
      PageOf total query pageSizeParam (some (toString k)) (results k)) →
    ((List.range (total ⌈/⌉ pageSizeOf pageSizeParam)).map results).flatten.Perm shown

variable {orderBy : α → κ} {select : α → β} {rows : List α} {pageSizeParam : SearchParam}
  {result : List β} {k : ℕ}

/-- The page with the number `k`. -/
theorem pageOf_iff (hk : k < rows.length ⌈/⌉ pageSizeOf pageSizeParam) :
    PageOf rows.length (FindMany orderBy select rows) pageSizeParam (some (toString k)) result ↔
    ∃ order, IsOrder orderBy rows order ∧
      result = (page (pageSizeOf pageSizeParam) k order).map select := by
  unfold PageOf
  rw [getPageAndPageSizeFromStringParam_toString (Nat.le_sub_one_of_lt hk)]
  rfl

theorem pagesComplete_iff_tiesAlike (orderBy : α → κ) (select : α → β) (rows : List α)
    (pageSizeParam : SearchParam) :
    PagesComplete rows.length (FindMany orderBy select rows) pageSizeParam (rows.map select) ↔
    ∀ k, TiesAlike orderBy select rows (k * pageSizeOf pageSizeParam) := by
  have hpos : 1 ≤ pageSizeOf pageSizeParam := (getValidPageSize_bounds _).1
  have hlength := (ceilDiv_le_iff_le_mul hpos).1
    (le_refl (rows.length ⌈/⌉ pageSizeOf pageSizeParam))
  rw [Nat.mul_comm] at hlength
  rw [← pages_perm_iff orderBy select rows hpos hlength]
  unfold PagesComplete
  constructor
  · intro h orders horders
    exact h _ fun k hk => (pageOf_iff hk).2 ⟨orders k, horders k hk, rfl⟩
  · intro h results hresults
    have horders : ∀ k, ∃ order, k < rows.length ⌈/⌉ pageSizeOf pageSizeParam →
        IsOrder orderBy rows order ∧
          results k = (page (pageSizeOf pageSizeParam) k order).map select := by
      intro k
      by_cases hk : k < rows.length ⌈/⌉ pageSizeOf pageSizeParam
      · obtain ⟨order, ho⟩ := (pageOf_iff hk).1 (hresults k hk)
        exact ⟨order, fun _ => ho⟩
      · exact ⟨[], fun hk' => absurd hk' hk⟩
    choose orders horders using horders
    have heq := List.map_congr_left (l := List.range (rows.length ⌈/⌉ pageSizeOf pageSizeParam))
      fun k hk => (horders k (List.mem_range.1 hk)).2
    rw [heq]
    exact h orders fun k hk => (horders k hk).1

end

/-- The pages of the transactions of a chain show every transaction once. -/
def TransactionPagesComplete (db : Db) (chainId : String) (pageSizeParam : SearchParam) : Prop :=
  PagesComplete (countTransactions db chainId) (getTransactions db chainId) pageSizeParam
    ((db.transactionsOf chainId).map TransactionRow.select)

/-- The pages of the transactions of an account show every reference once. -/
def AccountPagesComplete (db : Db) (chainId bech32Address : String)
    (options : AccountTransactionFilterOption) (pageSizeParam : SearchParam) : Prop :=
  PagesComplete (countAccountTransactions db chainId bech32Address options)
    (getAccountTransactions db chainId bech32Address options) pageSizeParam
    ((db.accountTransactionsOf chainId bech32Address options).map db.selectRef)

/-- **Pages with ties.** The pages show every row once, whatever PostgreSQL answers, iff rows with
    the same sort key that stand on both sides of a page boundary are shown alike. -/
theorem pagesComplete_iff (db : Db) (chainId : String) (pageSizeParam : SearchParam) :
    (TransactionPagesComplete db chainId pageSizeParam ↔
      ∀ k, TiesAlike TransactionRow.orderBy TransactionRow.select (db.transactionsOf chainId)
        (k * pageSizeOf pageSizeParam)) ∧
    ∀ bech32Address options,
      (AccountPagesComplete db chainId bech32Address options pageSizeParam ↔
        ∀ k, TiesAlike RefAccountToRecentTxRow.height db.selectRef
          (db.accountTransactionsOf chainId bech32Address options)
          (k * pageSizeOf pageSizeParam)) :=
  ⟨pagesComplete_iff_tiesAlike _ _ _ _, fun _ _ => pagesComplete_iff_tiesAlike _ _ _ _⟩

/-- A transaction of the sample chain. -/
def sampleTransaction (hash : String) : TransactionRow where
  chainId := "rollapp_1-1"
  height := 7
  hash := hash
  partitionId := "2843 rollapp_1-1"
  epoch := 1720000000
  messageTypes := ["/cosmos.bank.v1beta1.MsgSend"]
  txType := "cosmos"
  action := none
  value := none

/-- The same transaction among the recent ones. -/
def sampleRecentTransaction (hash : String) : RecentAccountTransactionRow where
  chainId := "rollapp_1-1"
  height := 7
  hash := hash
  refCount := 1
  epoch := 1720000000
  messageTypes := ["/cosmos.bank.v1beta1.MsgSend"]
  action := none
  value := none

def sampleReference (hash : String) : RefAccountToRecentTxRow :=
  ⟨"rollapp_1-1", "rol1a", 7, hash, some true, none, none⟩

/-- A block with two transactions of one account. -/
def twoInABlock : Db where
  chainInfo := AList.insert "rollapp_1-1" none ∅
  account := ⟨[⟨"rollapp_1-1", "rol1a", 2, none, none⟩], by decide⟩
  recentAccountTransaction :=
    ⟨[sampleRecentTransaction "AA", sampleRecentTransaction "BB"], by decide⟩
  reducedRefCountRecentAccountTransaction := .empty _
  refAccountToRecentTx := ⟨[sampleReference "AA", sampleReference "BB"], by decide⟩
  transaction := ⟨[sampleTransaction "AA", sampleTransaction "BB"], by decide⟩

/-- With one transaction on a page, both pages may show the same transaction of the block. -/
theorem not_pagesComplete :
    ¬ TransactionPagesComplete twoInABlock "rollapp_1-1" (some "1") ∧
    ¬ AccountPagesComplete twoInABlock "rollapp_1-1" "rol1a" ⟨none, none, none⟩ (some "1") := by
  constructor
  · refine mt (pagesComplete_iff_tiesAlike _ _ _ _).1 fun h => ?_
    exact h 1 (sampleTransaction "AA") (List.mem_filter.2 ⟨List.mem_pair.2 (.inl rfl), rfl⟩)
      (sampleTransaction "BB") (List.mem_filter.2 ⟨List.mem_pair.2 (.inr rfl), rfl⟩) rfl
      (by decide) ⟨by decide +kernel, by decide +kernel⟩
  · refine mt (pagesComplete_iff_tiesAlike _ _ _ _).1 fun h => ?_
    exact h 1 (sampleReference "AA") (List.mem_filter.2 ⟨List.mem_pair.2 (.inl rfl), rfl⟩)
      (sampleReference "BB") (List.mem_filter.2 ⟨List.mem_pair.2 (.inr rfl), rfl⟩) rfl
      (by decide) ⟨by decide +kernel, by decide +kernel⟩

end RollappExplorer
