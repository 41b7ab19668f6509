/-
  The texts and the parameters of the `INSERT` statements of a block (`database/postgres_tx`).

  * `insertRecordTransactionsQuery`, …: the statement each function builds, if it does not return
    before;
  * `InvolversInTransaction.involvedAddresses`: the accounts a transaction involves, as a list;
  * `blockInformation_counts`, `length_involvedAccounts`: how many rows a block makes;
  * `queries_fit_iff`: when the statements of an accepted block stay within the limit of the
    protocol.
-/
import Mathlib.Data.List.ReduceOption
import RollappExplorer.Addresses
import RollappExplorer.InvolvedAccounts
import RollappExplorer.Partitions
import RollappExplorer.Sql.Query

namespace RollappExplorer

open Go Sql

/-! ## The statements -/

/-- The statement of a function that returns if it has no records, or invalid ones. -/
def builtQuery {α : Type} (records : List α) (valid : Except Error Unit) (q : Query) :
    Option Query :=
  if records.length = 0 then none
  else match valid with
    | .error _ => none
    | .ok () => some q

/-- The keys of the partition of a valid transaction are not blank. -/
def recordTransactionParams (now : ℤ) (transaction : RecordTransaction) : List Value :=
  [.text transaction.chainId, .int transaction.height, .text transaction.hash,
   .text ((transaction.insertedPartitionId now).toOption.getD ""), .int transaction.epoch,
   .texts transaction.messageTypes, .text transaction.txType,
   Value.orNull .text (nullString transaction.action), .texts transaction.value]

def recordAccountParams (account : RecordAccount) : List Value :=
  [.text account.chainId, .text account.bech32Address, .texts account.balanceOnErc20Contracts,
   .texts account.balanceOnNftContracts]

def recordRecentAccountTransactionParams (tx : RecordRecentAccountTransaction) : List Value :=
  [.text tx.chainId, .int tx.height, .text tx.hash, .int tx.epoch, .texts tx.messageTypes,
   Value.orNull .text (nullString tx.action), .texts tx.value]

def recordRefAccountToRecentTxParams (ref : RecordRefAccountToRecentTx) : List Value :=
  [.text ref.chainId, .text ref.bech32Address, .int ref.height, .text ref.hash,
   Value.orNull .bool (nullBool ref.signer), Value.orNull .bool (nullBool ref.erc20),
   Value.orNull .bool (nullBool ref.nft)]

/-- The text before the rows. -/
def insertInto (table : String) (columns : List String) : String :=
  "\nINSERT INTO " ++ table ++ " (\n\t" ++ ",\n\t".intercalate columns ++ "\n) VALUES "

/-- The text after the rows. -/
def onConflict (keys : List String) (action : String) : String :=
  "\nON CONFLICT (" ++ ", ".intercalate keys ++ ") DO " ++ action ++ ";"

/-- `InsertRecordTransactionsIfNotExists` -/
def insertRecordTransactionsQuery (now : ℤ) (txs : List RecordTransaction) : Option Query :=
  builtQuery txs (RecordsTransaction.validateBasic txs) <| insertRows
    (insertInto "transaction" ["chain_id", "height", "hash", "partition_id", "epoch",
      "message_types", "tx_type", "\"action\"", "\"value\""])
    9 (recordTransactionParams now)
    (onConflict ["chain_id", "height", "hash", "partition_id"] "NOTHING") txs

/-- Append the new contracts of a column to the old ones. -/
def appendExcluded (column : String) : String :=
  column ++ " = account." ++ column ++ " || excluded." ++ column

/-- `InsertOrUpdateRecordsAccount` -/
def insertOrUpdateRecordsAccountQuery (accounts : List RecordAccount) : Option Query :=
  builtQuery accounts (do
    RecordsAccount.validateBasic accounts
    accounts.forM fun account => failIf (account.continousInsertReferenceCurrentTxCounter ≠ 0)
      ("continous insert reference current tx counter must be 0, " ++
        "as it must be altered via triggers")) <| insertRows
    (insertInto "account" ["chain_id", "bech32_address", "balance_on_erc20_contracts",
      "balance_on_nft_contracts"])
    4 recordAccountParams
    (onConflict ["chain_id", "bech32_address"]
      ("UPDATE\nSET " ++ appendExcluded "balance_on_erc20_contracts" ++ ",\n\t" ++
        appendExcluded "balance_on_nft_contracts" ++ "\n")) accounts

/-- `InsertRecordsRecentAccountTransactionIfNotExists` -/
def insertRecordsRecentAccountTransactionQuery (txs : List RecordRecentAccountTransaction) :
    Option Query :=
  builtQuery txs (do
    RecordsRecentAccountTransaction.validateBasic txs
    txs.forM fun tx => failIf (tx.refCount ≠ 0)
      s!"ref count must be 0, got {tx.refCount} in tx {tx.hash}") <| insertRows
    (insertInto "recent_account_transaction" ["chain_id", "height", "hash", "epoch",
      "message_types", "\"action\"", "\"value\""])
    7 recordRecentAccountTransactionParams
    (onConflict ["chain_id", "height", "hash"] "NOTHING") txs

/-- `InsertRecordsRefAccountToRecentTxIfNotExists` -/
def insertRecordsRefAccountToRecentTxQuery (refs : List RecordRefAccountToRecentTx) :
    Option Query :=
  builtQuery refs (RecordsRefAccountToRecentTx.validateBasic refs) <| insertRows
    (insertInto "ref_account_to_recent_tx" ["chain_id", "bech32_address", "height", "hash",
      "signer", "erc20", "nft"])
    7 recordRefAccountToRecentTxParams
    (onConflict ["chain_id", "bech32_address", "height", "hash"] "NOTHING") refs

/-- The statements `insertBlockInformation` builds of the records of a block. -/
def BlockRecords.queries (now : ℤ) (o : MapOrder) (records : BlockRecords) : List Query :=
  [insertRecordTransactionsQuery now records.recordsTxs,
   insertOrUpdateRecordsAccountQuery (records.involvedAccounts o),
   insertRecordsRecentAccountTransactionQuery records.recentAccountTxs,
   insertRecordsRefAccountToRecentTxQuery records.refAccountToRecentTxs].reduceOption

theorem mem_builtQuery {α : Type} {records : List α} {valid : Except Error Unit} {q q' : Query} :
    builtQuery records valid q = some q' ↔ records ≠ [] ∧ valid = .ok () ∧ q' = q := by
  unfold builtQuery
  by_cases hnil : records = []
  · simp [hnil]
  · rw [if_neg (by simpa using hnil)]
    cases valid with
    | error err => simp
    | ok u => simp [hnil, eq_comm]

theorem plain_insertInto {table : String} {columns : List String} (htable : Plain table)
    (hcolumns : ∀ column ∈ columns, Plain column) : Plain (insertInto table columns) :=
  ((((by decide : Plain "\nINSERT INTO ").append htable).append (by decide)).append
    (Plain.intercalate (by decide) hcolumns)).append (by decide)

theorem plain_onConflict {keys : List String} {action : String}
    (hkeys : ∀ key ∈ keys, Plain key) (haction : Plain action) : Plain (onConflict keys action) :=
  ((((by decide : Plain "\nON CONFLICT (").append (Plain.intercalate (by decide) hkeys)).append
    (by decide)).append haction).append (by decide)

theorem head?_onConflict (keys : List String) (action : String) :
    (onConflict keys action).toList.head? = some '\n' := by
  show ("\nON CONFLICT (" ++ ", ".intercalate keys ++ ") DO " ++ action ++ ";").toList.head? = _
  simp only [String.toList_append, List.append_assoc]
  rfl

theorem plain_appendExcluded {column : String} (h : Plain column) :
    Plain (appendExcluded column) :=
  (((h.append (by decide)).append h).append (by decide)).append h

/-- A built statement fits iff its rows have not too many parameters. -/
theorem builtQuery_fits_iff {α : Type} {records : List α} {valid : Except Error Unit}
    {table action : String} {columns keys : List String} {width : ℕ} {params : α → List Value}
    (htable : Plain table) (hcolumns : ∀ column ∈ columns, Plain column)
    (hkeys : ∀ key ∈ keys, Plain key) (haction : Plain action)
    (hwidth : ∀ record, (params record).length = width) :
    (∀ q, builtQuery records valid (insertRows (insertInto table columns) width params
        (onConflict keys action) records) = some q → q.Fits) ↔
      (valid = .ok () → records.length * width ≤ maxParams) := by
  have hfits : (insertRows (insertInto table columns) width params (onConflict keys action)
      records).Fits ↔ records.length * width ≤ maxParams :=
    insertRows_fits_iff (plain_insertInto htable hcolumns) (plain_onConflict hkeys haction)
      (head?_onConflict keys action) hwidth
  simp only [mem_builtQuery]
  constructor
  · intro h hvalid
    by_cases hnil : records = []
    · simp [hnil]
    · exact hfits.1 (h _ ⟨hnil, hvalid, rfl⟩)
  · rintro h q ⟨-, hvalid, rfl⟩
    exact hfits.2 (h hvalid)

theorem length_recordTransactionParams (now : ℤ) (transaction : RecordTransaction) :
    (recordTransactionParams now transaction).length = 9 := rfl

theorem length_recordAccountParams (account : RecordAccount) :
    (recordAccountParams account).length = 4 := rfl

theorem length_recordRecentAccountTransactionParams (tx : RecordRecentAccountTransaction) :
    (recordRecentAccountTransactionParams tx).length = 7 := rfl

theorem length_recordRefAccountToRecentTxParams (ref : RecordRefAccountToRecentTx) :
    (recordRefAccountToRecentTxParams ref).length = 7 := rfl

theorem insertRecordTransactionsQuery_fits_iff {now : ℤ} {txs : List RecordTransaction} :
    (∀ q, insertRecordTransactionsQuery now txs = some q → q.Fits) ↔
      (RecordsTransaction.validateBasic txs = .ok () → txs.length * 9 ≤ maxParams) := by
  unfold insertRecordTransactionsQuery
  rw [builtQuery_fits_iff (by decide) (by decide) (by decide) (by decide)
    (length_recordTransactionParams now)]

theorem insertOrUpdateRecordsAccountQuery_fits_iff {accounts : List RecordAccount} :
    (∀ q, insertOrUpdateRecordsAccountQuery accounts = some q → q.Fits) ↔
      (RecordsAccount.validateBasic accounts = .ok () ∧
        (∀ account ∈ accounts, account.continousInsertReferenceCurrentTxCounter = 0) →
        accounts.length * 4 ≤ maxParams) := by
  unfold insertOrUpdateRecordsAccountQuery
  rw [builtQuery_fits_iff (by decide) (by decide) (by decide)
    ((((by decide : Plain "UPDATE\nSET ").append (plain_appendExcluded (by decide))).append
      (by decide)).append (plain_appendExcluded (by decide)) |>.append (by decide))
    length_recordAccountParams]
  simp only [bind_unit_ok_iff, forM_ok_iff, failIf_ok_iff, not_not]

theorem insertRecordsRecentAccountTransactionQuery_fits_iff
    {txs : List RecordRecentAccountTransaction} :
    (∀ q, insertRecordsRecentAccountTransactionQuery txs = some q → q.Fits) ↔
      (RecordsRecentAccountTransaction.validateBasic txs = .ok () ∧
        (∀ tx ∈ txs, tx.refCount = 0) → txs.length * 7 ≤ maxParams) := by
  unfold insertRecordsRecentAccountTransactionQuery
  rw [builtQuery_fits_iff (by decide) (by decide) (by decide) (by decide)
    length_recordRecentAccountTransactionParams]
  simp only [bind_unit_ok_iff, forM_ok_iff, failIf_ok_iff, not_not]

theorem insertRecordsRefAccountToRecentTxQuery_fits_iff
    {refs : List RecordRefAccountToRecentTx} :
    (∀ q, insertRecordsRefAccountToRecentTxQuery refs = some q → q.Fits) ↔
      (RecordsRefAccountToRecentTx.validateBasic refs = .ok () →
        refs.length * 7 ≤ maxParams) := by
  unfold insertRecordsRefAccountToRecentTxQuery
  rw [builtQuery_fits_iff (by decide) (by decide) (by decide) (by decide)
    length_recordRefAccountToRecentTxParams]

/-! ## The rows of a block -/

section
variable (sdk : Sdk) (bech32Cfg : Bech32PrefixOfChainInfo)

/-- The address an involver is stored under. -/
def storedAddress (involver : String) : Option String :=
  match unsafeAnyAddressToBech32Address sdk involver bech32Cfg with
  | .ok addr => addr
  | .error _ => none

/-- The involvers of the contracts that are not absolutely invalid. -/
def contractsInvolvers (contracts : Map String (List String)) : List String :=
  contracts.pairs.flatMap fun (contract, involvers) =>
    if (storedAddress sdk bech32Cfg contract).isSome then involvers else []

/-- The accounts that a transaction involves. -/
def InvolversInTransaction.involvedAddresses (ivs : InvolversInTransaction) : List String :=
  ((ivs.signers ++ ivs.others ++ ivs.erc20 ++ ivs.nft ++
    contractsInvolvers sdk bech32Cfg ivs.tokenContracts.erc20 ++
    contractsInvolvers sdk bech32Cfg ivs.tokenContracts.nft).filterMap
      (storedAddress sdk bech32Cfg)).dedup

/-- The number of pairs of a transaction and an account that it involves. -/
def involvedPairs (transactions : List TransactionInBlock) : ℕ :=
  (transactions.flatMap fun tx => tx.involvers.involvedAddresses sdk bech32Cfg).length

/-- The number of accounts that the transactions involve. -/
def involvedAccountsCount (transactions : List TransactionInBlock) : ℕ :=
  (transactions.flatMap fun tx => tx.involvers.involvedAddresses sdk bech32Cfg).dedup.length

end

section
variable {sdk : Sdk} {bech32Cfg : Bech32PrefixOfChainInfo} {chainId : String} {height : ℤ}
  {o : MapOrder} {block : BlockInResponse} {r : BlockRecords}

theorem storedAddress_eq_some_iff {involver addr : String} :
    storedAddress sdk bech32Cfg involver = some addr ↔ StoredUnder sdk bech32Cfg involver addr := by
  unfold storedAddress StoredUnder
  cases unsafeAnyAddressToBech32Address sdk involver bech32Cfg with
  | error e => simp
  | ok addr => simp

theorem mem_contractsInvolvers {contracts : Map String (List String)} {addr : String} :
    (∃ involver ∈ contractsInvolvers sdk bech32Cfg contracts,
      StoredUnder sdk bech32Cfg involver addr) ↔
      ∃ contract, ListedUnder sdk bech32Cfg contracts contract addr := by
  simp only [contractsInvolvers, List.mem_flatMap]
  constructor
  · rintro ⟨involver, ⟨⟨contract, involvers⟩, hm, hinvolver⟩, haddr⟩
    dsimp only at hinvolver
    split_ifs at hinvolver with hvalid
    · obtain ⟨a, ha⟩ := Option.isSome_iff_exists.1 hvalid
      exact ⟨contract, ⟨a, storedAddress_eq_some_iff.1 ha⟩, involvers, Map.mem_pairs.1 hm,
        involver, hinvolver, haddr⟩
    · cases hinvolver
  · rintro ⟨contract, ⟨a, ha⟩, involvers, hm, involver, hinvolver, haddr⟩
    refine ⟨involver, ⟨(contract, involvers), Map.mem_pairs.2 hm, ?_⟩, haddr⟩
    dsimp only
    rwa [storedAddress_eq_some_iff.2 ha, Option.isSome_some, if_pos rfl]

/-- The list is the involvement relation. -/
theorem InvolversInTransaction.mem_involvedAddresses {ivs : InvolversInTransaction}
    {addr : String} :
    addr ∈ ivs.involvedAddresses sdk bech32Cfg ↔ ivs.Involved sdk bech32Cfg addr := by
  simp only [involvedAddresses, List.mem_dedup, List.mem_filterMap, storedAddress_eq_some_iff,
    List.mem_append, or_and_right, exists_or, mem_contractsInvolvers]
  constructor
  · rintro (((((⟨i, hi, ha⟩ | ⟨i, hi, ha⟩) | ⟨i, hi, ha⟩) | ⟨i, hi, ha⟩) | ⟨c, hc⟩) | ⟨c, hc⟩)
    · exact ⟨_, .signer hi ha⟩
    · exact ⟨_, .other hi ha⟩
    · exact ⟨_, .erc20 hi ha⟩
    · exact ⟨_, .nft hi ha⟩
    · exact ⟨_, .erc20Contract hc⟩
    · exact ⟨_, .nftContract hc⟩
  · rintro ⟨type, hinv⟩
    cases hinv with
    | signer hi ha => exact .inl (.inl (.inl (.inl (.inl ⟨_, hi, ha⟩))))
    | other hi ha => exact .inl (.inl (.inl (.inl (.inr ⟨_, hi, ha⟩))))
    | erc20 hi ha => exact .inl (.inl (.inl (.inr ⟨_, hi, ha⟩)))
    | nft hi ha => exact .inl (.inl (.inr ⟨_, hi, ha⟩))
    | erc20Contract hc => exact .inl (.inr ⟨_, hc⟩)
    | nftContract hc => exact .inr ⟨_, hc⟩

/-- A map with the keys of a list without duplicates has as many entries. -/
theorem length_pairs_of_mem {υ : Type} {m : Map String υ} {l : List String} (hl : l.Nodup)
    (h : ∀ k, k ∈ m ↔ k ∈ l) : m.pairs.length = l.length := by
  have hperm : (m.pairs.map Prod.fst).Perm l := by
    rw [List.perm_ext_iff_of_nodup m.nodup_pairs hl]
    intro k
    rw [← h, Map.keys_pairs, AList.mem_keys]
  rw [← hperm.length_eq, List.length_map]

variable (sdk bech32Cfg) in
/-- How many records there are of the transactions. -/
structure BlockRecords.Counts (done : List TransactionInBlock) (r : BlockRecords) : Prop where
  txs : r.recordsTxs.length = done.length
  recent : r.recentAccountTxs.length ≤ done.length
  refs : r.refAccountToRecentTxs.length = involvedPairs sdk bech32Cfg done

/-- One iteration of the loop over the transactions. -/
theorem BlockRecords.Counts.transactionInformation {txs : List TransactionInBlock}
    {tx : TransactionInBlock} {i : ℕ} {r' : BlockRecords} (h : r.Counts sdk bech32Cfg txs)
    (he : transactionInformation sdk o chainId bech32Cfg height block r (tx, i) = .ok r') :
    r'.Counts sdk bech32Cfg (txs ++ [tx]) := by
  obtain ⟨value, s, -, hs, htxs, -, hrecent, hrefs⟩ := transactionInformation_ok he
  have hkeys : ∀ addr, addr ∈ s.flags ↔ addr ∈ tx.involvers.involvedAddresses sdk bech32Cfg := by
    intro addr
    have hflagged := handleInvolvers_flagged hs (.normal, addr)
    rw [or_iff_right InvolvedState.not_flagged_empty,
      InvolversInTransaction.flags_normal_iff] at hflagged
    rw [InvolversInTransaction.mem_involvedAddresses, ← hflagged, Map.mem_iff_pairs]
    exact exists_congr fun flag => Map.mem_pairs.trans (and_iff_left rfl).symm
  have hcount : s.flags.pairs.length = (tx.involvers.involvedAddresses sdk bech32Cfg).length :=
    length_pairs_of_mem (List.nodup_dedup _) hkeys
  constructor
  · rw [htxs, List.length_append, List.length_append, h.txs]
    rfl
  · have hle := h.recent
    rw [hrecent, List.length_append, List.length_append, List.length_singleton]
    split_ifs
    · exact hle.trans (Nat.le_succ _)
    · exact Nat.succ_le_succ hle
  · rw [hrefs, List.length_append, h.refs, List.length_map, (o.range_perm _ _).length_eq, hcount]
    simp [involvedPairs]

/-- **Records**: one reference for each pair of a transaction and an account that it involves. -/
theorem blockInformation_counts
    (he : blockInformation sdk o chainId bech32Cfg height block = .ok r) :
    r.Counts sdk bech32Cfg block.transactions := by
  have hempty : (BlockRecords.mk [] ∅ [] []).Counts sdk bech32Cfg [] := ⟨rfl, le_rfl, rfl⟩
  refine blockInformation_passed (J := fun done r => r.Counts sdk bech32Cfg done) hempty ?_ he
  intro done tx _ i r r' hr he
  exact hr.transactionInformation he

/-- **Accounts**: one for each account that a transaction involves. -/
theorem length_involvedAccounts {o' : MapOrder}
    (he : blockInformation sdk o chainId bech32Cfg height block = .ok r) :
    (r.involvedAccounts o').length = involvedAccountsCount sdk bech32Cfg block.transactions := by
  have hkeys : ∀ addr, addr ∈ r.mapInvolvedAccounts ↔ addr ∈
      (block.transactions.flatMap fun tx => tx.involvers.involvedAddresses sdk bech32Cfg).dedup := by
    intro addr
    rw [(blockInformation_collected he).mem_accounts, List.mem_dedup, List.mem_flatMap]
    exact exists_congr fun tx =>
      and_congr_right fun _ => InvolversInTransaction.mem_involvedAddresses.symm
  rw [BlockRecords.involvedAccounts, List.length_map, (o'.range_perm _ _).length_eq,
    length_pairs_of_mem (List.nodup_dedup _) hkeys]
  rfl

end

/-- **The statements of an accepted block fit** iff its references do, and its accounts, as far
    as they are not refused before their statement is built. -/
theorem queries_fit_iff (sdk : Sdk) (o o' o'' : MapOrder) (chainId : String)
    (bech32Cfg : Bech32PrefixOfChainInfo) (height now now' : ℤ)
    (response : ResponseBeTransactionsInBlockRange) (key : String) (block : BlockInResponse)
    (hresponse : response.validateBasic sdk o now = .ok ())
    (hblock : (key, block) ∈ response.blocks.pairs) :
    ∃ r, blockInformation sdk o' chainId bech32Cfg height { block with height := height } =
        .ok r ∧
      ((∀ q ∈ r.queries now' o'', q.Fits) ↔
        (RecordsRefAccountToRecentTx.validateBasic r.refAccountToRecentTxs = .ok () →
          involvedPairs sdk bech32Cfg block.transactions ≤ 9362) ∧
        (RecordsAccount.validateBasic (r.involvedAccounts o'') = .ok () ∧
            (∀ account ∈ r.involvedAccounts o'',
              account.continousInsertReferenceCurrentTxCounter = 0) →
          involvedAccountsCount sdk bech32Cfg block.transactions ≤ 16383)) := by
  have hlimits := (ResponseBeTransactionsInBlockRange.validateBasic_ok_iff.1 hresponse).blocks
    (key, block) hblock
  obtain ⟨r, he⟩ : ∃ r, blockInformation sdk o' chainId bech32Cfg height
      { block with height := height } = .ok r :=
    blockInformation_ok_iff.2 fun tx htx => getTxValueFromTx_ok (hlimits.each tx htx)
  have hcounts := blockInformation_counts he
  have htxs : block.transactions.length ≤ 100 := hlimits.txs
  have hrecords : r.recordsTxs.length * 9 ≤ maxParams := by
    have h : r.recordsTxs.length = block.transactions.length := hcounts.txs
    unfold maxParams
    omega
  have hrecent : r.recentAccountTxs.length * 7 ≤ maxParams := by
    have h : r.recentAccountTxs.length ≤ block.transactions.length := hcounts.recent
    unfold maxParams
    omega
  have hrefs : r.refAccountToRecentTxs.length * 7 ≤ maxParams ↔
      involvedPairs sdk bech32Cfg block.transactions ≤ 9362 := by
    have h : r.refAccountToRecentTxs.length =
        involvedPairs sdk bech32Cfg block.transactions := hcounts.refs
    unfold maxParams
    omega
  have haccounts : (r.involvedAccounts o'').length * 4 ≤ maxParams ↔
      involvedAccountsCount sdk bech32Cfg block.transactions ≤ 16383 := by
    have h : (r.involvedAccounts o'').length =
        involvedAccountsCount sdk bech32Cfg block.transactions := length_involvedAccounts he
    unfold maxParams
    omega
  refine ⟨r, he, ?_⟩
  simp only [BlockRecords.queries, List.reduceOption_mem_iff, List.mem_cons, List.not_mem_nil,
    or_false, or_imp, forall_and, eq_comm (a := some _)]
  rw [insertRecordTransactionsQuery_fits_iff, insertOrUpdateRecordsAccountQuery_fits_iff,
    insertRecordsRecentAccountTransactionQuery_fits_iff,
    insertRecordsRefAccountToRecentTxQuery_fits_iff, hrefs, haccounts]
  constructor
  · rintro ⟨-, ha, -, hr⟩
    exact ⟨hr, ha⟩
  · rintro ⟨hr, ha⟩
    exact ⟨fun _ => hrecords, ha, fun _ => hrecent, hr⟩

/-- The statements of the block with one contract fit. -/
theorem queries_fit_contract : ∃ r,
    blockInformation bech32Sdk default "rollappevm_1234-1" ⟨"rol", "rolvalcons", "rolvaloper"⟩ 7
        (blockWithContract "rol1contract") = .ok r ∧
      ∀ q ∈ r.queries 1720000000 default, q.Fits := by
  have hresponse : (responseWithContract "rol1contract").validateBasic bech32Sdk default
      1720000000 = .ok () := rfl
  obtain ⟨r, he, hiff⟩ := queries_fit_iff bech32Sdk default default default "rollappevm_1234-1"
    ⟨"rol", "rolvalcons", "rolvaloper"⟩ 7 1720000000 1720000000
    (responseWithContract "rol1contract") "7" (blockWithContract "rol1contract") hresponse
    (List.mem_singleton_self _)
  exact ⟨r, he, hiff.2 ⟨fun _ => by decide, fun _ => by decide⟩⟩

/-! ## A block with too many references -/

/-- An account of its own for each number. -/
def bulkData (i : ℕ) : List Char :=
  Bech32.toChar (i / 32) :: Bech32.toChar (i % 32) :: List.replicate 36 'q'

def bulkInvolver (i : ℕ) : String := "rol" ++ "1" ++ String.ofList (bulkData i)

/-- A transaction with 94 involved accounts. -/
def bulkTransaction (i : ℕ) : TransactionInBlock where
  transactionHash := String.ofList
    (Nat.digitChar (i / 10) :: Nat.digitChar (i % 10) :: List.replicate 62 'A')
  involvers := ⟨[], (List.range 94).map bulkInvolver, [], [], ⟨∅, ∅⟩⟩
  messagesType := ["/cosmos.bank.v1beta1.MsgMultiSend"]
  transactionType := "cosmos"
  evmTxInfo := none
  wasmTxInfo := none
  value := ""

def bulkBlock : BlockInResponse where
  height := 7
  timeEpochUTC := 1720000000
  transactions := (List.range 100).map bulkTransaction

def bulkResponse : ResponseBeTransactionsInBlockRange where
  chainId := "rollappevm_1234-1"
  blocks := AList.insert "7" bulkBlock ∅
  missingBlocks := []
  errorBlocks := []

theorem toChar_spec : ∀ v < 32, Bech32.toChar v ∈ Bech32.charset ∧
    ∀ w < 32, Bech32.toChar v = Bech32.toChar w → v = w := by decide

theorem bulkInvolver_injective {i j : ℕ} (hi : i < 94) (hj : j < 94)
    (h : bulkInvolver i = bulkInvolver j) : i = j := by
  have hl := congrArg String.toList h
  simp only [bulkInvolver, String.toList_append, String.toList_ofList] at hl
  obtain ⟨hhigh, hl⟩ := List.cons.inj (List.append_cancel_left hl)
  obtain ⟨hlow, -⟩ := List.cons.inj hl
  have hdiv := (toChar_spec (i / 32) (by omega)).2 (j / 32) (by omega) hhigh
  have hmod := (toChar_spec (i % 32) (by omega)).2 (j % 32) (by omega) hlow
  omega

theorem storedUnder_bulkInvolver {i : ℕ} (hi : i < 94) :
    StoredUnder bech32Sdk ⟨"rol", "rolvalcons", "rolvaloper"⟩ (bulkInvolver i)
      (bulkInvolver i) := by
  have hdata : ∀ c ∈ bulkData i, c ∈ Bech32.charset := by
    intro c hc
    rcases List.mem_cons.1 hc with rfl | hc
    · exact (toChar_spec (i / 32) (by omega)).1
    · rcases List.mem_cons.1 hc with rfl | hc
      · exact (toChar_spec (i % 32) (by omega)).1
      · rw [List.eq_of_mem_replicate hc]
        decide
  have hnormal : (normalizeAddress (bulkInvolver i)).toList = normalBech32 "rol" (bulkData i) :=
    normalize_bech32 hdata
  have hprefix : ("rol".toList.dropWhile isSpace).map toLowerRune = ['r', 'o', 'l'] := by decide
  have hlower : (normalizeAddress (bulkInvolver i)).toList =
      'r' :: 'o' :: 'l' :: '1' :: bulkData i := by
    rw [hnormal, normalBech32, hprefix]
    rfl
  have hself : normalizeAddress (bulkInvolver i) = bulkInvolver i := by
    rw [← String.toList_inj, hlower, bulkInvolver, String.toList_append]
    exact (congrArg (fun l => 'r' :: 'o' :: 'l' :: '1' :: l) String.toList_ofList).symm
  have hevm : isEvmAddress (bulkInvolver i) = false := by
    rw [isEvmAddress, hlower]
    rfl
  have hlen : (bulkData i).length = 38 := by simp [bulkData]
  have hhrp : (unsafeExtractBech32Hrp (normalizeAddress (bulkInvolver i))).2 = true :=
    (unsafeExtractBech32Hrp_normal hnormal hlen hdata).2 ⟨by decide, by decide⟩
  have hkey : unsafeAnyAddressToBech32Address bech32Sdk (bulkInvolver i)
      ⟨"rol", "rolvalcons", "rolvaloper"⟩ = .ok (some (normalizeAddress (bulkInvolver i))) :=
    (unsafeAnyAddressToBech32Address_bech32 hevm).2 hhrp
  rwa [hself] at hkey

theorem storedAddress_bulkInvolvers {n : ℕ} (hn : n ≤ 94) :
    ((List.range n).map bulkInvolver).filterMap
      (storedAddress bech32Sdk ⟨"rol", "rolvalcons", "rolvaloper"⟩) =
        (List.range n).map bulkInvolver := by
  have hstored : ∀ i < n, storedAddress bech32Sdk
      ⟨"rol", "rolvalcons", "rolvaloper"⟩ (bulkInvolver i) = some (bulkInvolver i) :=
    fun i hi => storedAddress_eq_some_iff.2 (storedUnder_bulkInvolver (hi.trans_le hn))
  generalize storedAddress bech32Sdk ⟨"rol", "rolvalcons", "rolvaloper"⟩ = stored at hstored ⊢
  rw [List.filterMap_map, ← List.filterMap_eq_map]
  exact List.filterMap_congr fun i hi => hstored i (List.mem_range.1 hi)

theorem nodup_bulkInvolvers {n : ℕ} (hn : n ≤ 94) : ((List.range n).map bulkInvolver).Nodup := by
  refine List.Nodup.map_on (fun j hj k hk h => bulkInvolver_injective ?_ ?_ h) List.nodup_range
  · have h := List.mem_range.1 hj
    omega
  · have h := List.mem_range.1 hk
    omega

theorem length_involvedAddresses_bulkTransaction (i : ℕ) :
    ((bulkTransaction i).involvers.involvedAddresses bech32Sdk
      ⟨"rol", "rolvalcons", "rolvaloper"⟩).length = 94 := by
  have hothers : (bulkTransaction i).involvers.involvedAddresses bech32Sdk
      ⟨"rol", "rolvalcons", "rolvaloper"⟩ =
        ((([] ++ (List.range 94).map bulkInvolver ++ [] ++ [] ++ [] ++ []).filterMap
          (storedAddress bech32Sdk ⟨"rol", "rolvalcons", "rolvaloper"⟩)).dedup) := rfl
  rw [hothers]
  simp only [List.nil_append, List.append_nil, storedAddress_bulkInvolvers le_rfl,
    (nodup_bulkInvolvers le_rfl).dedup, List.length_map, List.length_range]

theorem bulkTransaction_limits {i : ℕ} (hi : i < 100) :
    TxLimits bech32Sdk InvolversInTransaction.addressesButOthers (bulkTransaction i) := by
  have hdigit : ∀ n < 10, isUpperAlnum (Nat.digitChar n) = true := by decide
  have hmessages : MessageLimits ["/cosmos.bank.v1beta1.MsgMultiSend"] :=
    ⟨by decide, by decide, by decide, by decide⟩
  have hcontracts : ContractLimits ∅ := ⟨Nat.zero_le _, fun p hp => by cases hp⟩
  constructor
  case hash =>
    refine .inl ⟨.inl rfl, ?_⟩
    show allOfLength isUpperAlnum 64 (String.ofList _).toList = true
    rw [String.toList_ofList]
    simp only [allOfLength, List.length_cons, List.length_replicate, List.all_cons,
      hdigit (i / 10) (by omega), hdigit (i % 10) (by omega), Bool.true_and]
    decide
  case signers | erc20 | nft => exact Nat.zero_le _
  case others =>
    show ((List.range 94).map bulkInvolver).length ≤ 250
    simp
  case erc20Contracts | nftContracts => exact hcontracts
  case addresses => exact fun a ha => by cases ha
  case messages => exact hmessages
  case evmInfo | wasmInfo => exact fun info hinfo => by cases hinfo
  case value => exact .inl rfl

theorem bulkBlock_limits :
    BlockLimits bech32Sdk InvolversInTransaction.addressesButOthers 1720000000 bulkBlock := by
  refine ⟨by decide, by decide, fun tx htx => ?_⟩
  obtain ⟨i, hi, rfl⟩ := List.mem_map.1 htx
  exact bulkTransaction_limits (List.mem_range.1 hi)

theorem bulkResponse_accepted :
    bulkResponse.validateBasic bech32Sdk default 1720000000 = .ok () := by
  refine ResponseBeTransactionsInBlockRange.validateBasic_ok_iff.2
    ⟨by decide, (fun h hm => by cases hm), (fun h hm => by cases hm), fun p hp => ?_⟩
  obtain rfl : p = ("7", bulkBlock) := List.mem_singleton.1 hp
  exact bulkBlock_limits

/-- The block is accepted, and one of its statements has 65800 parameters. -/
theorem not_queries_fit :
    bulkResponse.validateBasic bech32Sdk default 1720000000 = .ok () ∧
    ("7", bulkBlock) ∈ bulkResponse.blocks.pairs ∧
    ∃ r, blockInformation bech32Sdk default "rollappevm_1234-1"
        ⟨"rol", "rolvalcons", "rolvaloper"⟩ 7 bulkBlock = .ok r ∧
      ¬ ∀ q ∈ r.queries 1720000000 default, q.Fits := by
  obtain ⟨r, he, hr⟩ : ∃ r, blockInformation bech32Sdk default "rollappevm_1234-1"
      ⟨"rol", "rolvalcons", "rolvaloper"⟩ 7 bulkBlock = .ok r ∧
        r.Built "rollappevm_1234-1" 7 bulkBlock.transactions :=
    blockInformation_spec bech32Sdk_bech32ifies (by decide) bulkBlock_limits
  refine ⟨bulkResponse_accepted, List.mem_singleton_self _, r, he, fun h => ?_⟩
  have hvalid : RecordsRefAccountToRecentTx.validateBasic r.refAccountToRecentTxs = .ok () :=
    (RecordsRefAccountToRecentTx.validateBasic_iff fun ref href => (hr.refs ref href).1).2
      fun ref href => (hr.refs ref href).2.2 ⟨by decide, by decide⟩
  have hpairs : involvedPairs bech32Sdk ⟨"rol", "rolvalcons", "rolvaloper"⟩
      bulkBlock.transactions = 9400 := by
    have htxs : bulkBlock.transactions = (List.range 100).map bulkTransaction := rfl
    rw [involvedPairs, htxs, List.length_flatMap, List.map_map]
    simp only [Function.comp_def, length_involvedAddresses_bulkTransaction, List.map_const',
      List.length_range, List.sum_replicate_nat]
  have hle := insertRecordsRefAccountToRecentTxQuery_fits_iff.1 (fun q hq => h q (by
    rw [BlockRecords.queries, List.reduceOption_mem_iff, ← hq]
    simp)) hvalid
  rw [(blockInformation_counts he).refs, hpairs] at hle
  exact absurd hle (by decide)

end RollappExplorer
