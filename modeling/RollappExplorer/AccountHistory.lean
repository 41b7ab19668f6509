/-
  What the page of an account shows of its chain, over the tables that the indexers write, prune
  and clean up.

  * `ChainBlocks`: the blocks of a chain; `Indexes`: the transactions of the chain are those of
    its blocks;
  * `Db.committed`: the transactions that were committed; `Db.record`: what they write if nothing
    is deleted;
  * `Db.Follows`: what the tables keep of this;
  * `addressPage_recent`: the first pages are those of the transactions of the chain that involve
    the account.
-/
import RollappExplorer.Isolation
import RollappExplorer.Pruning
import RollappExplorer.Reindexing
import RollappExplorer.Sql.Recent
import RollappExplorer.TransactionPages

namespace RollappExplorer

open Go Sql

/-! ## The blocks of a chain -/

/-- The blocks of a chain.  They do not change, and the hashes of a block are different. -/
structure ChainBlocks where
  block : ℤ → BlockInResponse
  height : ∀ height, (block height).height = height
  hashes : ∀ height, ((block height).transactions.map (·.transactionHash)).Nodup

/-- A transaction of the chain, as the pages list it. -/
def ChainBlocks.listed (chain : ChainBlocks) (height : ℤ) (tx : TransactionInBlock) :
    ListedRecentTransaction where
  hash := tx.transactionHash
  height := height
  epoch := (chain.block height).timeEpochUTC
  messageTypes := tx.messagesType
  action := nullString tx.action

section
variable {R : Type} (d : Indexer R) (chain : ChainBlocks)

/-- The row is the reference of an account that the transaction involves. -/
structure RefersTo (row : RefAccountToRecentTxRow) (height : ℤ) (tx : TransactionInBlock) :
    Prop where
  mem : tx ∈ (chain.block height).transactions
  of : ∃ ref, RefOf d.sdk d.chainId d.bech32Cfg height tx ref ∧ ref.row = row

/-- The references to transactions of the chain are those of the accounts they involve. -/
def Db.RefersToChain (db : Db) : Prop :=
  ∀ row ∈ db.refAccountToRecentTx, row.chainId = normalizeChainId d.chainId →
    ∃ height tx, RefersTo d chain row height tx

/-- The key and the listed data are those of a transaction of the chain. -/
def IsTxOf (k : TxKey) (listed : ListedRecentTransaction) : Prop :=
  ∃ height, ∃ tx ∈ (chain.block height).transactions,
    k = ⟨normalizeChainId d.chainId, height, tx.transactionHash⟩ ∧
    listed = chain.listed height tx

/-- The transaction is that of a block, if it is one of the chain. -/
def OfBlock (t : ChainTransaction) : Prop :=
  t.chainId = normalizeChainId d.chainId →
    ∃ height o records, InsertsBlock d (chain.block height) t.toBlockTransaction o records

end

section
variable {R : Type} {d : Indexer R} {chain : ChainBlocks} {height height' : ℤ}
  {tx tx' : TransactionInBlock} {t : BlockTransaction} {o : MapOrder} {records : BlockRecords}

theorem ChainBlocks.eq_of_hash (htx : tx ∈ (chain.block height).transactions)
    (htx' : tx' ∈ (chain.block height).transactions)
    (h : tx.transactionHash = tx'.transactionHash) : tx = tx' :=
  List.inj_on_of_nodup_map (chain.hashes height) htx htx' h

/-- The reference of an account to a transaction. -/
theorem RefOf.eq_of_address {sdk : Sdk} {chainId : String} {bech32Cfg : Bech32PrefixOfChainInfo}
    {ref ref' : RecordRefAccountToRecentTx} (h : RefOf sdk chainId bech32Cfg height tx ref)
    (h' : RefOf sdk chainId bech32Cfg height tx ref')
    (haddr : ref.bech32Address = ref'.bech32Address) : ref = ref' := by
  obtain ⟨hchain, hheight, hhash, -, hsigner, herc20, hnft⟩ := h
  obtain ⟨hchain', hheight', hhash', -, hsigner', herc20', hnft'⟩ := h'
  cases ref
  cases ref'
  cases haddr
  rw [RecordRefAccountToRecentTx.mk.injEq]
  exact ⟨hchain.trans hchain'.symm, rfl, hheight.trans hheight'.symm, hhash.trans hhash'.symm,
    Bool.eq_iff_iff.2 (hsigner.trans hsigner'.symm), Bool.eq_iff_iff.2 (herc20.trans herc20'.symm),
    Bool.eq_iff_iff.2 (hnft.trans hnft'.symm)⟩

theorem RefersTo.row_tx {row : RefAccountToRecentTxRow} (h : RefersTo d chain row height tx) :
    row.tx = ⟨normalizeChainId d.chainId, height, tx.transactionHash⟩ := by
  obtain ⟨-, ref, hof, rfl⟩ := h
  rw [← hof.chainId, ← hof.height, ← hof.hash]
  rfl

/-- A reference is to one transaction. -/
theorem RefersTo.unique {row : RefAccountToRecentTxRow} (h : RefersTo d chain row height tx)
    (h' : RefersTo d chain row height' tx') : height = height' ∧ tx = tx' := by
  obtain ⟨-, rfl, hhash⟩ := TxKey.mk.inj (h.row_tx.symm.trans h'.row_tx)
  exact ⟨rfl, ChainBlocks.eq_of_hash h.mem h'.mem hhash⟩

/-- The reference of an account to a transaction. -/
theorem RefersTo.eq_of_address {row row' : RefAccountToRecentTxRow}
    (h : RefersTo d chain row height tx) (h' : RefersTo d chain row' height tx)
    (haddr : row.bech32Address = row'.bech32Address) : row = row' := by
  obtain ⟨-, ref, hof, rfl⟩ := h
  obtain ⟨-, ref', hof', rfl⟩ := h'
  rw [hof.eq_of_address hof' haddr]

/-- A reference of the chain is determined by its key. -/
theorem RefersTo.eq_of_key {row row' : RefAccountToRecentTxRow}
    (h : RefersTo d chain row height tx) (h' : RefersTo d chain row' height' tx')
    (hk : row.key = row'.key) : row = row' := by
  obtain ⟨haccount, htxkey⟩ := Prod.mk.inj hk
  obtain ⟨-, rfl, hhash⟩ := TxKey.mk.inj (h.row_tx.symm.trans (htxkey.trans h'.row_tx))
  obtain rfl := ChainBlocks.eq_of_hash h.mem h'.mem hhash
  exact h.eq_of_address h' (congrArg AccountKey.bech32Address haccount)

/-- The data of a transaction of the chain. -/
theorem IsTxOf.listed_eq {k : TxKey} {listed : ListedRecentTransaction}
    (h : IsTxOf d chain k listed) (htx : tx ∈ (chain.block height).transactions)
    (hk : k = ⟨normalizeChainId d.chainId, height, tx.transactionHash⟩) :
    listed = chain.listed height tx := by
  obtain ⟨height', tx', htx', hk', rfl⟩ := h
  obtain ⟨-, rfl, hhash⟩ := TxKey.mk.inj (hk'.symm.trans hk)
  rw [ChainBlocks.eq_of_hash htx' htx hhash]

/-- The references that the transaction of a block inserts. -/
theorem InsertsBlock.mem_refs (h : InsertsBlock d (chain.block height) t o records)
    {ref : RecordRefAccountToRecentTx} : ref ∈ t.refAccountToRecentTxs ↔
      ∃ tx ∈ (chain.block height).transactions,
        RefOf d.sdk d.chainId d.bech32Cfg height tx ref := by
  have hinfo := h.information
  rw [chain.height] at hinfo
  rw [h.refAccountToRecentTxs, (blockInformation_collected hinfo).refs]

theorem InsertsBlock.isTxOf (h : InsertsBlock d (chain.block height) t o records)
    {record : RecordRecentAccountTransaction} (hrecord : record ∈ t.recentAccountTxs) :
    IsTxOf d chain record.row.key record.row.select := by
  have hinfo := h.information
  rw [chain.height] at hinfo
  rw [h.recentAccountTxs] at hrecord
  refine blockInformation_passed (J := fun _ r => ∀ record ∈ r.recentAccountTxs,
    IsTxOf d chain record.row.key record.row.select) (fun _ h => nomatch h)
    (fun _ tx htx i r r' hr he => ?_) hinfo record hrecord
  obtain ⟨value, s, -, -, -, -, hrecent, -⟩ := transactionInformation_ok he
  rw [hrecent]
  refine List.forall_mem_append.2 ⟨hr, fun record hrecord => ?_⟩
  split_ifs at hrecord with hnil
  · cases hrecord
  · obtain rfl := List.mem_singleton.1 hrecord
    exact ⟨height, tx, htx, rfl, rfl⟩

end

/-! ## What a statement does to the listed data -/

section
variable {P : TxKey → ListedRecentTransaction → Prop} {db db' : Db} {p : Planner}
  {new : RefAccountToRecentTxRow}

/-- The recent transactions, without the counts of their references, satisfy `P`. -/
def Db.Lists (P : TxKey → ListedRecentTransaction → Prop) (db : Db) : Prop :=
  ∀ row ∈ db.recentAccountTransaction, P row.key row.select

theorem Db.Lists.of_counted (h : db.Lists P) {r : Table RecentAccountTransactionRow.key}
    {k : TxKey} {f : ℤ → ℤ}
    (hr : ∀ b, b ∈ r ↔ ∃ a ∈ db.recentAccountTransaction,
      b = if a.key = k then a.setRefCount (f a.refCount) else a) :
    ∀ row ∈ r, P row.key row.select := by
  intro row hrow
  obtain ⟨a, ha, rfl⟩ := (hr row).1 hrow
  split_ifs
  · exact h a ha
  · exact h a ha

theorem Db.Lists.deleteRefs {q : RefAccountToRecentTxRow → Bool} (h : db.Lists P)
    (he : db.deleteRefs q = .ok db') : db'.Lists P := by
  refine foldlM_keeps (I := fun s => s.Lists P) (fun old _ s s' hs he => ?_)
    (show Db.Lists P { db with refAccountToRecentTx := _ } from h) he
  obtain ⟨s₁, h₁, he⟩ := bind_ok_iff.1 he
  obtain ⟨r, rfl, -, hr⟩ := Db.updateRefCount_ok h₁
  obtain rfl := Except.ok.inj he
  exact hs.of_counted (f := (· - 1)) hr

theorem Db.Lists.afterInsertRef (h : db.Lists P) (he : db.afterInsertRef p new = .ok db') :
    db'.Lists P := by
  obtain ⟨-, db₁, h₁, h₂⟩ := Db.afterInsertRef_ok he
  obtain ⟨t, r, rfl, -, -, -, hr⟩ := trigger00100AfterInsertRefAccountToRecentTx_ok h₁
  have hlists : Db.Lists P { db with account := t, recentAccountTransaction := r } :=
    h.of_counted (f := (· + 1)) hr
  rcases trigger00200AfterInsertRefAccountToRecentTx_cases h₂ with
    ⟨-, db₂, t', hdel, rfl, -⟩ | ⟨rfl, -⟩
  · have h₂ : db₂.Lists P := hlists.deleteRefs hdel
    exact h₂
  · exact hlists

theorem Db.Lists.insertRefs {refs : List RecordRefAccountToRecentTx} (h : db.Lists P)
    (he : db.insertRefs p refs = .ok db') : db'.Lists P :=
  foldlM_keeps (I := fun s => s.Lists P) (fun _ _ _ _ hs he => hs.afterInsertRef he)
    (show Db.Lists P (db.writeRefs refs).1 from h) he

theorem Db.Lists.insertRecentAccountTransactions {txs : List RecordRecentAccountTransaction}
    (h : db.Lists P) (htxs : ∀ tx ∈ txs, P tx.row.key tx.row.select) :
    (db.insertRecentAccountTransactions txs).Lists P := by
  obtain ⟨u, he, -⟩ := Db.insertRecentAccountTransactions_eq txs db
  rw [he]
  intro row hrow
  rcases Table.mem_insertAll.1 hrow with hrow | hrow
  · exact h row hrow
  · obtain ⟨tx, htx, rfl⟩ := List.mem_map.1 ((Table.insertAll_sublist _ _).subset hrow)
    exact htxs tx htx

theorem Db.Lists.cleanup (h : db.Lists P) (he : db.cleanupZeroRefCount = .ok db') :
    db'.Lists P := by
  refine foldlM_keeps (I := fun s => s.Lists P) (fun k _ s s' hs he => ?_) h he
  unfold Db.cleanupReduced at he
  dsimp only at he
  split_ifs at he
  · obtain ⟨s₁, h₁, he⟩ := bind_ok_iff.1 he
    obtain ⟨-, h₁⟩ := bind_unit_ok_iff.1 h₁
    obtain rfl := Except.ok.inj h₁
    obtain rfl := Except.ok.inj he
    exact fun row hrow => hs row (Table.mem_delete.1 hrow).1
  · obtain rfl := Except.ok.inj he
    exact hs

/-! ## What a statement does to the references -/

/-- The triggers of a reference delete references, and insert none. -/
theorem Db.afterInsertRef_refs (he : db.afterInsertRef p new = .ok db') :
    ∀ ref ∈ db'.refAccountToRecentTx, ref ∈ db.refAccountToRecentTx := by
  obtain ⟨-, db₁, h₁, h₂⟩ := Db.afterInsertRef_ok he
  obtain ⟨t, r, rfl, -⟩ := trigger00100AfterInsertRefAccountToRecentTx_ok h₁
  rcases trigger00200AfterInsertRefAccountToRecentTx_cases h₂ with
    ⟨-, db₂, t', hdel, rfl, -⟩ | ⟨rfl, -⟩
  · obtain ⟨r', u, -, rfl⟩ := Db.deleteRefs_ok hdel
    exact fun ref href => (Table.mem_delete.1 href).1
  · exact fun ref href => href

theorem Db.foldlM_afterInsertRef_refs {l : List RefAccountToRecentTxRow}
    (he : l.foldlM (Db.afterInsertRef p) db = .ok db') :
    ∀ ref ∈ db'.refAccountToRecentTx, ref ∈ db.refAccountToRecentTx :=
  foldlM_keeps (I := fun s => ∀ ref ∈ s.refAccountToRecentTx, ref ∈ db.refAccountToRecentTx)
    (fun _ _ _ _ hs he ref href => hs ref (Db.afterInsertRef_refs he ref href))
    (fun _ href => href) he

/-- Without a limit all heights are kept. -/
theorem Db.mem_keptHeights_of_no_chain {ref : RefAccountToRecentTxRow}
    (hkeep : pruningKeepRecent db.chainInfo ref.chainId = none)
    (href : ref ∈ db.refAccountToRecentTx) : ref.height ∈ db.keptHeights ref.account := by
  refine List.mem_flatMap.2 ⟨fun _ => true, List.mem_cons_self, ?_⟩
  rw [show ref.account.chainId = ref.chainId from rfl, hkeep]
  refine (orderByDesc_perm _).mem_iff.2 (List.mem_map_of_mem (List.mem_filter.2 ⟨href, ?_⟩))
  simp

/-- Tables with fewer references have fewer greater ones. -/
theorem Db.IsRecent.of_subset {db₁ db₂ : Db} {n : ℤ} {type : RefAccountToRecentTxRow → Bool}
    {ref : RefAccountToRecentTxRow} (h : db₂.IsRecent n type ref)
    (hsub : ∀ ref' ∈ db₁.refAccountToRecentTx, ref'.account = ref.account →
      ref' ∈ db₂.refAccountToRecentTx) : db₁.IsRecent n type ref := by
  refine ⟨h.1, lt_of_le_of_lt (Int.ofNat_le.2 ?_) h.2⟩
  rw [List.countP_eq_length_filter, List.countP_eq_length_filter]
  refine List.Subperm.length_le (List.Nodup.subperm (List.Nodup.filter _ (List.Nodup.filter _
    (List.Nodup.of_map _ db₁.refAccountToRecentTx.nodup))) fun ref' href' => ?_)
  obtain ⟨href', hlt⟩ := List.mem_filter.1 href'
  obtain ⟨href', htype⟩ := List.mem_filter.1 href'
  have haccount : ref'.account = ref.account := by
    rw [Bool.and_eq_true, decide_eq_true_eq] at htype
    exact htype.1
  exact List.mem_filter.2 ⟨List.mem_filter.2 ⟨hsub ref' href' haccount, htype⟩, hlt⟩

/-- While references are inserted, those that were there or are inserted are deleted only. -/
theorem Db.DeletesRef.refs_subset {refs : List RecordRefAccountToRecentTx}
    {ref : RefAccountToRecentTxRow} {dbm : Db} (h : db.DeletesRef p refs new ref dbm) :
    ∀ ref' ∈ dbm.refAccountToRecentTx, ref' ∈ (db.writeRefs refs).1.refAccountToRecentTx := by
  obtain ⟨done, todo, db₁, db₂, -, hdone, h₁, -⟩ := h
  obtain ⟨t, r, rfl, -⟩ := trigger00100AfterInsertRefAccountToRecentTx_ok h₁
  exact fun ref' href' => Db.foldlM_afterInsertRef_refs hdone ref' href'

/-- A statement that inserts references keeps the recent ones. -/
theorem Db.mem_insertRefs_of_isRecent {refs : List RecordRefAccountToRecentTx} {n : ℤ}
    {type : RefAccountToRecentTxRow → Bool} {ref : RefAccountToRecentTxRow}
    (he : db.insertRefs p refs = .ok db')
    (hkeep : ∀ m, pruningKeepRecent db.chainInfo ref.chainId = some m → n ≤ m)
    (href : ref ∈ (db.writeRefs refs).1.refAccountToRecentTx)
    (htype : type ∈ RefAccountToRecentTxRow.types)
    (hrecent : (db.writeRefs refs).1.IsRecent n type ref) : ref ∈ db'.refAccountToRecentTx := by
  by_contra hnot
  obtain ⟨new, dbm, hd⟩ := Db.insertRefs_deletes he href hnot
  obtain ⟨-, hin, hcut, hchain⟩ := hd.isPruned
  cases hm : pruningKeepRecent dbm.chainInfo ref.chainId with
  | none => exact hcut (Db.mem_keptHeights_of_no_chain hm hin)
  | some m =>
    have hle : n ≤ m := hkeep m (hchain ▸ hm)
    obtain ⟨htrue, hlt⟩ := hrecent.of_subset fun ref' href' _ => hd.refs_subset ref' href'
    exact Db.not_isRecent_of_not_mem_keptHeights hm hin hcut htype
      ⟨htrue, lt_of_lt_of_le hlt hle⟩

end

/-! ## Runs in which nothing is deleted -/

/-- The references that the transaction writes, if none is deleted. -/
def Db.record (all : Db) (t : ChainTransaction) : Db := (all.writeRefs t.refAccountToRecentTxs).1

/-- The transactions that are committed. -/
def Db.committed : List ChainEvent → Db → List ChainTransaction
  | [], _ => []
  | .keepRecent chainId keep :: events, db =>
    Db.committed events (db.afterEvent (.keepRecent chainId keep)).1
  | .transaction t :: events, db =>
    let later := Db.committed events (db.afterEvent (.transaction t)).1
    if t.commits && (db.blockTransaction t.toBlockTransaction).isOk then t :: later else later

section
variable {R : Type} {d : Indexer R} {chain : ChainBlocks} {n : ℤ} {all db db' : Db}
  {t : ChainTransaction}

variable (d chain n) in
/-- What the tables keep of all references of the chain: the recent ones, with the data of their
    transactions. -/
structure Db.Follows (all db : Db) : Prop where
  refs : ∀ ref ∈ db.refAccountToRecentTx, ref.chainId = normalizeChainId d.chainId →
    ref ∈ all.refAccountToRecentTx
  recent : ∀ ref ∈ all.refAccountToRecentTx, ref.chainId = normalizeChainId d.chainId →
    ∀ type ∈ RefAccountToRecentTxRow.types, all.IsRecent n type ref →
      ref ∈ db.refAccountToRecentTx
  refersTo : all.RefersToChain d chain
  listed : db.Lists fun k listed => k.chainId = normalizeChainId d.chainId →
    IsTxOf d chain k listed

/-- Other tables may change. -/
theorem Db.Follows.of_refs (h : Db.Follows d chain n all db)
    (hlisted : db'.Lists fun k listed => k.chainId = normalizeChainId d.chainId →
      IsTxOf d chain k listed)
    (hrefs : db'.refAccountToRecentTx = db.refAccountToRecentTx) :
    Db.Follows d chain n all db' :=
  ⟨fun ref href => h.refs ref (hrefs ▸ href),
    fun ref href hchain type htype hrecent => hrefs ▸ h.recent ref href hchain type htype hrecent,
    h.refersTo, hlisted⟩

theorem OfBlock.refersTo (ht : OfBlock d chain t) {ref : RecordRefAccountToRecentTx}
    (href : ref ∈ t.refAccountToRecentTxs) (hchain : ref.chainId = normalizeChainId d.chainId) :
    ∃ height tx, RefersTo d chain ref.row height tx := by
  obtain ⟨height, o, records, hins⟩ := ht ((t.ref_chainId ref href).symm.trans hchain)
  obtain ⟨tx, htx, hof⟩ := hins.mem_refs.1 href
  exact ⟨height, tx, htx, ref, hof, rfl⟩

/-- The references that are written are those of the transaction, and nothing else. -/
theorem Db.mem_writeRefs {refs : List RecordRefAccountToRecentTx} {ref : RefAccountToRecentTxRow}
    (h : ref ∈ (db.writeRefs refs).1.refAccountToRecentTx) :
    ref ∈ db.refAccountToRecentTx ∨ ∃ record ∈ refs, record.row = ref :=
  (Table.mem_insertAll.1 h).imp_right fun h =>
    List.mem_map.1 ((Table.insertAll_sublist _ _).subset h)

theorem Db.mem_writeRefs_of_mem {refs : List RecordRefAccountToRecentTx}
    {ref : RefAccountToRecentTxRow} (h : ref ∈ db.refAccountToRecentTx) :
    ref ∈ (db.writeRefs refs).1.refAccountToRecentTx :=
  Table.mem_insertAll.2 (.inl h)

theorem Db.RefersToChain.record (h : all.RefersToChain d chain) (ht : OfBlock d chain t) :
    (all.record t).RefersToChain d chain := by
  intro ref href hchain
  rcases Db.mem_writeRefs href with href | ⟨record, hrecord, rfl⟩
  · exact h ref href hchain
  · exact ht.refersTo hrecord hchain

/-- A reference of the transaction is written, into tables with references of the chain. -/
theorem OfBlock.mem_writeRefs (ht : OfBlock d chain t)
    (hdb : (db.writeRefs t.refAccountToRecentTxs).1.RefersToChain d chain)
    {record : RecordRefAccountToRecentTx} (hrecord : record ∈ t.refAccountToRecentTxs)
    (hchain : record.chainId = normalizeChainId d.chainId) :
    record.row ∈ (db.writeRefs t.refAccountToRecentTxs).1.refAccountToRecentTx := by
  have hhas : (db.writeRefs t.refAccountToRecentTxs).1.refAccountToRecentTx.Has record.row.key :=
    Table.insertAll_has (List.mem_map_of_mem hrecord)
  obtain ⟨ref, href, hk⟩ := Table.has_iff.1 hhas
  obtain ⟨height, tx, h⟩ := hdb ref href ((congrArg (fun k => k.1.chainId) hk).trans hchain)
  obtain ⟨height', tx', h'⟩ := ht.refersTo hrecord hchain
  rwa [← h.eq_of_key h' hk]

/-- **One transaction.**  The tables keep the recent references, with those of the transaction. -/
theorem Db.Follows.insertRefs (h : Db.Follows d chain n all db) (ht : OfBlock d chain t)
    (hkeep : ∀ m, pruningKeepRecent db.chainInfo (normalizeChainId d.chainId) = some m → n ≤ m)
    {p : Planner} (he : db.insertRefs p t.refAccountToRecentTxs = .ok db') :
    Db.Follows d chain n (all.record t) db' := by
  have hall := h.refersTo.record ht
  have hsub : ∀ ref ∈ (db.writeRefs t.refAccountToRecentTxs).1.refAccountToRecentTx,
      ref.chainId = normalizeChainId d.chainId → ref ∈ (all.record t).refAccountToRecentTx := by
    intro ref href hchain
    rcases Db.mem_writeRefs href with href | ⟨record, hrecord, rfl⟩
    · exact Db.mem_writeRefs_of_mem (h.refs ref href hchain)
    · exact ht.mem_writeRefs hall hrecord hchain
  refine ⟨fun ref href hchain => hsub ref (Db.foldlM_afterInsertRef_refs he ref href) hchain,
    fun ref href hchain type htype hrecent => ?_, hall, h.listed.insertRefs he⟩
  refine Db.mem_insertRefs_of_isRecent he (hchain ▸ hkeep) ?_ htype
    (hrecent.of_subset fun ref' href' haccount => ?_)
  · rcases Db.mem_writeRefs href with href | ⟨record, hrecord, rfl⟩
    · refine Db.mem_writeRefs_of_mem (h.recent ref href hchain type htype ?_)
      exact hrecent.of_subset fun ref' href' _ => Db.mem_writeRefs_of_mem href'
    · exact ht.mem_writeRefs (fun ref href hc => hall ref (hsub ref href hc) hc) hrecord hchain
  · exact hsub ref' href' ((congrArg AccountKey.chainId haccount).trans hchain)

/-- The statements around it. -/
theorem Db.Follows.blockTransaction (h : Db.Follows d chain n all db) (hs : db.Sound)
    (ht : OfBlock d chain t)
    (hkeep : ∀ m, pruningKeepRecent db.chainInfo (normalizeChainId d.chainId) = some m → n ≤ m)
    (he : db.blockTransaction t.toBlockTransaction = .ok db') :
    Db.Follows d chain n (all.record t) db' ∧ db'.chainInfo = db.chainInfo := by
  obtain ⟨-, -, db₀, r, u, h₀, rfl⟩ := hs.blockTransaction he
  obtain ⟨db₀', h₀', hcleanup⟩ := bind_ok_iff.1 he
  obtain rfl := Except.ok.inj (h₀'.symm.trans h₀)
  obtain ⟨db₁, h₁, h₃⟩ := bind_ok_iff.1 h₀
  obtain ⟨db₂, h₂, h₃⟩ := bind_ok_iff.1 h₃
  obtain ⟨rows, -, rfl⟩ := Db.insertTransactions_ok h₁
  obtain ⟨a, rfl⟩ := Db.insertAccounts_frame h₂
  have hlisted : Db.Lists (fun k listed => k.chainId = normalizeChainId d.chainId →
      IsTxOf d chain k listed) (Db.insertRecentAccountTransactions t.recentAccountTxs
        { db with transaction := (Table.insertAll rows db.transaction).1, account := a }) := by
    refine Db.Lists.insertRecentAccountTransactions h.listed fun tx htx hchain => ?_
    obtain ⟨height, o, records, hins⟩ := ht ((t.recent_chainId tx htx).symm.trans hchain)
    exact hins.isTxOf htx
  obtain ⟨u', hu, -⟩ := Db.insertRecentAccountTransactions_eq t.recentAccountTxs
    { db with transaction := (Table.insertAll rows db.transaction).1, account := a }
  rw [hu] at h₃ hlisted
  have hfollows := (h.of_refs hlisted rfl).insertRefs ht hkeep h₃
  exact ⟨hfollows.of_refs (hfollows.listed.cleanup hcleanup) rfl, (Db.insertRefs_frame h₃).1⟩

/-- A transaction that is rolled back changes nothing. -/
theorem Db.Follows.afterTransaction (h : Db.Follows d chain n all db) (hs : db.Sound)
    (ht : OfBlock d chain t)
    (hkeep : ∀ m, pruningKeepRecent db.chainInfo (normalizeChainId d.chainId) = some m → n ≤ m) :
    Db.Follows d chain n
      (if t.commits && (db.blockTransaction t.toBlockTransaction).isOk then all.record t else all)
      (db.afterTransaction t.toBlockTransaction) ∧
    (db.afterTransaction t.toBlockTransaction).chainInfo = db.chainInfo := by
  unfold Db.afterTransaction
  cases t.commits with
  | false => exact ⟨h, rfl⟩
  | true =>
    cases he : db.blockTransaction t.toBlockTransaction with
    | error e => exact ⟨h, rfl⟩
    | ok db' => exact h.blockTransaction hs ht hkeep he

/-! ## Runs -/

/-- The chain keeps at least `n` recent transactions of an account, whatever is configured. -/
def KeepsRecent (n : ℤ) (chainId : String) (chainInfo : Map String (Option ℤ))
    (events : List ChainEvent) : Prop :=
  ∀ keep, chainInfo.lookup chainId = some keep ∨ .keepRecent chainId keep ∈ events →
    n ≤ max (keep.getD pruningKeepRecentMinDefault) pruningKeepRecentMinDefault

theorem KeepsRecent.le {chainId : String} {chainInfo : Map String (Option ℤ)}
    {events : List ChainEvent} (h : KeepsRecent n chainId chainInfo events) {m : ℤ}
    (hm : pruningKeepRecent chainInfo chainId = some m) : n ≤ m := by
  obtain ⟨keep, hkeep, rfl⟩ := Option.map_eq_some_iff.1 hm
  exact h keep (.inl hkeep)

theorem KeepsRecent.tail {chainId : String} {chainInfo : Map String (Option ℤ)} {e : ChainEvent}
    {events : List ChainEvent} (h : KeepsRecent n chainId chainInfo (e :: events)) :
    KeepsRecent n chainId chainInfo events :=
  fun keep hkeep => h keep (hkeep.imp_right (List.mem_cons_of_mem e))

theorem KeepsRecent.insert {chainId chainId' : String} {keep : Option ℤ}
    {chainInfo : Map String (Option ℤ)} {events : List ChainEvent}
    (h : KeepsRecent n chainId chainInfo (.keepRecent chainId' keep :: events)) :
    KeepsRecent n chainId (chainInfo.insert chainId' keep) events := by
  intro keep' hkeep'
  rcases hkeep' with hkeep' | hkeep'
  · by_cases hid : chainId = chainId'
    · subst hid
      rw [AList.lookup_insert] at hkeep'
      cases hkeep'
      exact h keep (.inr List.mem_cons_self)
    · rw [AList.lookup_insert_ne hid] at hkeep'
      exact h keep' (.inl hkeep')
  · exact h keep' (.inr (List.mem_cons_of_mem _ hkeep'))

/-- The transactions of the chain are those of its blocks. -/
def Indexes (d : Indexer R) (chain : ChainBlocks) (events : List ChainEvent) : Prop :=
  ∀ t, .transaction t ∈ events → OfBlock d chain t

theorem Db.Sound.runEvents {events : List ChainEvent} (h : db.Sound)
    (hq : db.reducedRefCountRecentAccountTransaction.rows = []) :
    (Db.runEvents events db).1.Sound := by
  induction events generalizing db with
  | nil => exact h
  | cons e events ih =>
    obtain ⟨hs', hq'⟩ := h.afterEvent hq e
    exact ih hs' hq'

/-- **All transactions.**  After a run, the tables keep what they did before, with the references
    of the transactions that were committed. -/
theorem Db.Follows.runEvents {events : List ChainEvent} (h : Db.Follows d chain n all db)
    (hs : db.Sound) (hq : db.reducedRefCountRecentAccountTransaction.rows = [])
    (hindexes : Indexes d chain events)
    (hkeep : KeepsRecent n (normalizeChainId d.chainId) db.chainInfo events) :
    Db.Follows d chain n ((Db.committed events db).foldl Db.record all)
      (Db.runEvents events db).1 := by
  induction events generalizing db all with
  | nil => exact h
  | cons e events ih =>
    have hindexes' : Indexes d chain events := fun t ht => hindexes t (List.mem_cons_of_mem _ ht)
    obtain ⟨hs', hq'⟩ := hs.afterEvent hq e
    cases e with
    | keepRecent chainId keep =>
      exact ih (h.of_refs h.listed rfl) hs' hq' hindexes' hkeep.insert
    | transaction t =>
      obtain ⟨h', hchainInfo⟩ := h.afterTransaction hs (hindexes t List.mem_cons_self) fun m hm =>
        hkeep.le hm
      have hkeep' := hkeep.tail
      rw [← hchainInfo] at hkeep'
      show Db.Follows d chain n ((if _ then t :: _ else _ : List ChainTransaction).foldl _ all) _
      split_ifs at h' ⊢
      · exact ih h' hs' hq' hindexes' hkeep'
      · exact ih h' hs' hq' hindexes' hkeep'

/-- The references of all transactions. -/
theorem Db.mem_foldl_record {ts : List ChainTransaction} (hts : ∀ t ∈ ts, OfBlock d chain t)
    (hall : all.RefersToChain d chain) {ref : RefAccountToRecentTxRow}
    (hchain : ref.chainId = normalizeChainId d.chainId) :
    ref ∈ (ts.foldl Db.record all).refAccountToRecentTx ↔ ref ∈ all.refAccountToRecentTx ∨
      ∃ t ∈ ts, ∃ record ∈ t.refAccountToRecentTxs, record.row = ref := by
  induction ts generalizing all with
  | nil => simp
  | cons t ts ih =>
    obtain ⟨ht, hts⟩ := List.forall_mem_cons.1 hts
    have hrecord : ref ∈ (all.record t).refAccountToRecentTx ↔
        ref ∈ all.refAccountToRecentTx ∨ ∃ record ∈ t.refAccountToRecentTxs, record.row = ref := by
      constructor
      · exact Db.mem_writeRefs
      · rintro (href | ⟨record, hrecord, rfl⟩)
        · exact Db.mem_writeRefs_of_mem href
        · exact ht.mem_writeRefs (hall.record ht) hrecord hchain
    rw [List.foldl_cons, ih hts (hall.record ht), hrecord, or_assoc]
    simp only [List.mem_cons, exists_eq_or_imp]

theorem Db.mem_committed {events : List ChainEvent} {t : ChainTransaction}
    (h : t ∈ Db.committed events db) : .transaction t ∈ events := by
  induction events generalizing db with
  | nil => cases h
  | cons e events ih =>
    cases e with
    | keepRecent chainId keep => exact List.mem_cons_of_mem _ (ih h)
    | transaction t' =>
      unfold Db.committed at h
      dsimp only at h
      split_ifs at h
      · rcases List.mem_cons.1 h with rfl | h
        · exact List.mem_cons_self
        · exact List.mem_cons_of_mem _ (ih h)
      · exact List.mem_cons_of_mem _ (ih h)

end

/-! ## The tabs of the page -/

/-- `AddressTransactionType` -/
inductive AddressTransactionType
  | transactions
  | sentTransactions
  | erc20Transfer
  | nftTransfer

/-- What the parameter of the URL selects; other texts select all transactions. -/
def addressTransactionType (txType : SearchParam) : AddressTransactionType :=
  if txType = some "senttxs" then .sentTransactions
  else if txType = some "tokentransfers" then .erc20Transfer
  else if txType = some "nfttransfers" then .nftTransfer
  else .transactions

def getFilterOptionsFromTxType (txType : SearchParam) : AccountTransactionFilterOption :=
  match addressTransactionType txType with
  | .sentTransactions => ⟨some true, none, none⟩
  | .erc20Transfer => ⟨none, some true, none⟩
  | .nftTransfer => ⟨none, none, some true⟩
  | .transactions => ⟨none, none, none⟩

/-- The transactions that `Address` shows of an account. -/
def addressTransactions (db : Db) (chainId bech32Address : String)
    (txType pageSizeParam pageParam : SearchParam) :
    List (Option ListedRecentTransaction) → Prop :=
  let filterOptions := getFilterOptionsFromTxType txType
  PageOf (countAccountTransactions db chainId bech32Address filterOptions)
    (getAccountTransactions db chainId bech32Address filterOptions) pageSizeParam pageParam

/-- The references that a tab shows. -/
def AddressTransactionType.shows : AddressTransactionType → RefAccountToRecentTxRow → Bool
  | .transactions => fun _ => true
  | .sentTransactions => fun ref => (isTrue ref.signer).passes
  | .erc20Transfer => fun ref => (isTrue ref.erc20).passes
  | .nftTransfer => fun ref => (isTrue ref.nft).passes

theorem AddressTransactionType.shows_mem (type : AddressTransactionType) :
    type.shows ∈ RefAccountToRecentTxRow.types := by
  cases type <;> simp [RefAccountToRecentTxRow.types, AddressTransactionType.shows]

/-- The transaction involves the account as the tab says. -/
def AddressTransactionType.Involves (sdk : Sdk) (bech32Cfg : Bech32PrefixOfChainInfo)
    (type : AddressTransactionType) (tx : TransactionInBlock) (addr : String) : Prop :=
  match type with
  | .transactions => tx.involvers.Involved sdk bech32Cfg addr
  | .sentTransactions => tx.involvers.Involves sdk bech32Cfg .senderOrSigner addr
  | .erc20Transfer => tx.involvers.Involves sdk bech32Cfg .erc20 addr
  | .nftTransfer => tx.involvers.Involves sdk bech32Cfg .nft addr

theorem AddressTransactionType.Involves.involved {sdk : Sdk}
    {bech32Cfg : Bech32PrefixOfChainInfo} {type : AddressTransactionType} {tx : TransactionInBlock}
    {addr : String} (h : type.Involves sdk bech32Cfg tx addr) :
    tx.involvers.Involved sdk bech32Cfg addr := by
  cases type with
  | transactions => exact h
  | sentTransactions | erc20Transfer | nftTransfer => exact ⟨_, h⟩

theorem passes_isTrue_nullBool (b : Bool) : (isTrue (nullBool b)).passes = b := by
  cases b <;> rfl

theorem isTrue_passes_iff (truth : Truth) : (isTrue truth).passes = true ↔ truth = some true := by
  rcases truth with _ | _ | _ <;> decide

/-- The condition of the query of a tab. -/
theorem accountTransactionsOf_txType (db : Db) (chainId bech32Address : String)
    (txType : SearchParam) :
    db.accountTransactionsOf chainId bech32Address (getFilterOptionsFromTxType txType) =
      db.refsOf ⟨chainId, bech32Address⟩ (addressTransactionType txType).shows := by
  refine List.filter_congr fun row _ => ?_
  rw [Bool.eq_iff_iff]
  unfold getFilterOptionsFromTxType
  cases addressTransactionType txType <;>
    simp [RefAccountToRecentTxRow.account, AddressTransactionType.shows, isTrue_passes_iff,
      and_assoc]

section
variable {R : Type} {d : Indexer R} {chain : ChainBlocks} {n : ℕ} {all db : Db}

/-- A tab shows the references to the transactions that involve the account as it says. -/
theorem RefersTo.shows_iff {row : RefAccountToRecentTxRow} {height : ℤ} {tx : TransactionInBlock}
    (h : RefersTo d chain row height tx) (type : AddressTransactionType) :
    type.shows row = true ↔ type.Involves d.sdk d.bech32Cfg tx row.bech32Address := by
  obtain ⟨-, ref, hof, rfl⟩ := h
  cases type with
  | transactions => exact iff_of_true rfl hof.involved
  | sentTransactions =>
    exact (Bool.eq_iff_iff.1 (passes_isTrue_nullBool ref.signer)).trans hof.signer
  | erc20Transfer => exact (Bool.eq_iff_iff.1 (passes_isTrue_nullBool ref.erc20)).trans hof.erc20
  | nftTransfer => exact (Bool.eq_iff_iff.1 (passes_isTrue_nullBool ref.nft)).trans hof.nft

theorem Db.mem_refsOf {k : AccountKey} {type : RefAccountToRecentTxRow → Bool}
    {ref : RefAccountToRecentTxRow} : ref ∈ db.refsOf k type ↔
      ref ∈ db.refAccountToRecentTx ∧ ref.account = k ∧ type ref = true := by
  rw [Db.refsOf, List.mem_filter, Bool.and_eq_true, decide_eq_true_eq]
  rfl

/-- The first references of a tab are kept. -/
theorem Db.Follows.retains (h : Db.Follows d chain n all db) {k : AccountKey}
    (hk : k.chainId = normalizeChainId d.chainId) {type : RefAccountToRecentTxRow → Bool}
    (htype : type ∈ RefAccountToRecentTxRow.types) :
    Retains RefAccountToRecentTxRow.height n (all.refsOf k type) (db.refsOf k type) := by
  refine ⟨(List.Nodup.of_map _ all.refAccountToRecentTx.nodup).filter _,
    (List.Nodup.of_map _ db.refAccountToRecentTx.nodup).filter _, fun ref href => ?_,
    fun ref href hlt => ?_⟩
  · obtain ⟨hin, haccount, htrue⟩ := Db.mem_refsOf.1 href
    have hchain := (congrArg AccountKey.chainId haccount).trans hk
    exact Db.mem_refsOf.2 ⟨h.refs ref hin hchain, haccount, htrue⟩
  · obtain ⟨hin, haccount, htrue⟩ := Db.mem_refsOf.1 href
    have hchain := (congrArg AccountKey.chainId haccount).trans hk
    refine Db.mem_refsOf.2
      ⟨h.recent ref hin hchain type htype ⟨htrue, ?_⟩, haccount, htrue⟩
    rw [haccount]
    exact Int.ofNat_lt.2 hlt

/-- The transaction of a reference is listed. -/
theorem Db.Follows.selectRef (h : Db.Follows d chain n all db) (hs : db.Sound)
    {ref : RefAccountToRecentTxRow} (href : ref ∈ db.refAccountToRecentTx) {height : ℤ}
    {tx : TransactionInBlock} (hrefers : RefersTo d chain ref height tx) :
    db.selectRef ref = some (chain.listed height tx) := by
  obtain ⟨row, hrow, hk⟩ := Table.has_iff.1 (hs.consistent.refs_nil href).2
  have hkey := hk.trans hrefers.row_tx
  have hfind : db.recentAccountTransaction.find? ref.tx = some row :=
    Table.find?_eq_some_iff.2 ⟨hrow, hk⟩
  have hlisted : IsTxOf d chain row.key row.select := h.listed row hrow (by rw [hkey])
  rw [Db.selectRef, hfind, Option.map_some, hlisted.listed_eq hrefers.mem hkey]

end

/-! ## The first pages -/

section
variable {α β γ κ : Type} [LinearOrder κ] {key : α → κ} {key' : γ → κ} {select : α → β}
  {select' : γ → β} {f : α → γ} {n page pageSize : ℕ} {rows kept : List α} {result : List β}
  {pageSizeParam pageParam : SearchParam}

theorem le_lastPage {total : ℕ} (hpos : 1 ≤ pageSize) (h : (page + 1) * pageSize ≤ total) :
    page ≤ lastPage total pageSize := by
  have hle : (page + 1) * pageSize ≤ (lastPage total pageSize + 1) * pageSize :=
    h.trans (le_lastPage_mul hpos)
  have hsucc := Nat.le_of_mul_le_mul_right hle hpos
  omega

/-- A page of the first rows does not depend on the others. -/
theorem paginate_eq {order order' : List α} (hpage : (page + 1) * pageSize ≤ n)
    (h : order'.take n = order.take n) :
    paginate ⟨some (page * pageSize), some pageSize⟩ order' =
      paginate ⟨some (page * pageSize), some pageSize⟩ order := by
  have htake : ∀ l : List α, paginate ⟨some (page * pageSize), some pageSize⟩ l =
      ((l.take n).drop (page * pageSize)).take pageSize := by
    intro l
    rw [Nat.succ_mul] at hpage
    rw [List.drop_take, List.take_take, min_eq_left (by omega)]
    rfl
  rw [htake, htake, h]

theorem mem_of_mem_paginate {options : QueryPaginationOption} {l : List α} {a : α}
    (h : a ∈ paginate options l) : a ∈ l := by
  obtain ⟨skip, take⟩ := options
  cases take with
  | none => exact List.mem_of_mem_drop h
  | some take => exact List.mem_of_mem_drop (List.mem_of_mem_take h)

/-- Pages of a list that is shown by a function of its elements. -/
theorem findMany_map_iff {options : QueryPaginationOption} :
    FindMany key' select' (rows.map f) options result ↔
      FindMany (key' ∘ f) (select' ∘ f) rows options result := by
  have hpaginate : ∀ l : List α, paginate options (l.map f) = (paginate options l).map f := by
    intro l
    unfold paginate
    cases options.take with
    | none => exact (List.map_drop ..).symm
    | some take =>
      show ((l.map f).drop _).take take = ((l.drop _).take take).map f
      rw [List.map_take, List.map_drop]
  constructor
  · rintro ⟨order, horder, rfl⟩
    obtain ⟨order', horder', rfl⟩ := isOrder_map_iff.1 horder
    exact ⟨order', horder', by rw [hpaginate, List.map_map]⟩
  · rintro ⟨order, horder, rfl⟩
    exact ⟨_, isOrder_map_iff.2 ⟨order, horder, rfl⟩, by rw [hpaginate, List.map_map]⟩

/-- A page of the first rows is one of the rows that are kept. -/
theorem findMany_iff_of_retains {select₂ : α → β} (h : Retains key n rows kept)
    (hselect : ∀ a ∈ kept, select a = select₂ a) (hpage : (page + 1) * pageSize ≤ n) :
    FindMany key select kept ⟨some (page * pageSize), some pageSize⟩ result ↔
      FindMany key select₂ rows ⟨some (page * pageSize), some pageSize⟩ result := by
  have hmap : ∀ {order}, IsOrder key kept order →
      (paginate ⟨some (page * pageSize), some pageSize⟩ order).map select =
        (paginate ⟨some (page * pageSize), some pageSize⟩ order).map select₂ := fun horder =>
    List.map_congr_left fun a ha => hselect a (horder.perm.mem_iff.1 (mem_of_mem_paginate ha))
  constructor
  · rintro ⟨order, horder, rfl⟩
    obtain ⟨order', horder', htop⟩ := (h.order_iff (order.take n)).1 ⟨order, horder, rfl⟩
    exact ⟨order', horder', by rw [hmap horder, paginate_eq hpage htop]⟩
  · rintro ⟨order, horder, rfl⟩
    obtain ⟨order', horder', htop⟩ := (h.order_iff (order.take n)).2 ⟨order, horder, rfl⟩
    exact ⟨order', horder', by rw [hmap horder', paginate_eq hpage htop]⟩

/-- **The first pages** of the rows that are kept are those of all rows. -/
theorem pageOf_iff_of_retains {select₂ : α → β} (h : Retains key n rows kept)
    (hselect : ∀ a ∈ kept, select a = select₂ a)
    (hpage : ((getNumberFromStringParam pageParam).getD 0 + 1) * pageSizeOf pageSizeParam ≤ n) :
    PageOf kept.length (FindMany key select kept) pageSizeParam pageParam result ↔
      PageOf rows.length (FindMany key select₂ rows) pageSizeParam pageParam result := by
  have hpos : 1 ≤ pageSizeOf pageSizeParam := (getValidPageSize_bounds _).1
  have hvalid : getValidPage (getNumberFromStringParam pageParam) (pageSizeOf pageSizeParam)
      (some kept.length) = getValidPage (getNumberFromStringParam pageParam)
        (pageSizeOf pageSizeParam) (some rows.length) := by
    rcases h.length with hlength | ⟨hkept, hrows⟩
    · rw [hlength]
    · rw [getValidPage_eq, getValidPage_eq, min_eq_right (le_lastPage hpos (hpage.trans hkept)),
        min_eq_right (le_lastPage hpos (hpage.trans hrows))]
  have hle : getValidPage (getNumberFromStringParam pageParam) (pageSizeOf pageSizeParam)
      (some rows.length) ≤ (getNumberFromStringParam pageParam).getD 0 := by
    rw [getValidPage_eq]
    exact min_le_right _ _
  have hpage' : (getValidPage (getNumberFromStringParam pageParam) (pageSizeOf pageSizeParam)
      (some rows.length) + 1) * pageSizeOf pageSizeParam ≤ n :=
    (Nat.mul_le_mul_right _ (Nat.succ_le_succ hle)).trans hpage
  unfold pageSizeOf at hvalid hpage'
  unfold PageOf getPageAndPageSizeFromStringParam getOffsetFromPageAndPageSize
  dsimp only
  rw [hvalid]
  exact findMany_iff_of_retains h hselect hpage'

end

/-! ## The page of an account -/

section
variable {R : Type} {d : Indexer R} {chain : ChainBlocks} {chainInfo : Map String (Option ℤ)}
  {events : List ChainEvent}

variable (d chain chainInfo events) in
/-- The transaction of a block of the chain was committed. -/
def IsCommitted (height : ℤ) : Prop :=
  ∃ t ∈ Db.committed events (Db.empty chainInfo), t.chainId = normalizeChainId d.chainId ∧
    ∃ o records, InsertsBlock d (chain.block height) t.toBlockTransaction o records

theorem Indexes.committed (h : Indexes d chain events) :
    ∀ t ∈ Db.committed events (Db.empty chainInfo), OfBlock d chain t :=
  fun t ht => h t (Db.mem_committed ht)

variable (chainInfo events) in
/-- The references that were ever written, in tables from which none is deleted. -/
def Db.everWritten : Db :=
  (Db.committed events (Db.empty chainInfo)).foldl Db.record (Db.empty chainInfo)

/-- They are those of the committed blocks. -/
theorem Indexes.mem_everWritten (h : Indexes d chain events) {row : RefAccountToRecentTxRow}
    (hchain : row.chainId = normalizeChainId d.chainId) :
    row ∈ (Db.everWritten chainInfo events).refAccountToRecentTx ↔
      ∃ height tx, IsCommitted d chain chainInfo events height ∧
        RefersTo d chain row height tx := by
  rw [Db.everWritten,
    Db.mem_foldl_record h.committed (fun ref href => absurd href Table.not_mem_empty) hchain]
  constructor
  · rintro (href | ⟨t, ht, record, hrecord, rfl⟩)
    · exact absurd href Table.not_mem_empty
    · have hid := (t.ref_chainId record hrecord).symm.trans hchain
      obtain ⟨height, o, records, hins⟩ := h.committed t ht hid
      obtain ⟨tx, htx, hof⟩ := hins.mem_refs.1 hrecord
      exact ⟨height, tx, ⟨t, ht, hid, o, records, hins⟩, htx, record, hof, rfl⟩
  · rintro ⟨height, tx, ⟨t, ht, hid, o, records, hins⟩, htx, record, hof, rfl⟩
    exact .inr ⟨t, ht, record, hins.mem_refs.2 ⟨tx, htx, hof⟩, rfl⟩

/-- The transactions that references are to. -/
theorem exists_refersTo {refs : List RefAccountToRecentTxRow}
    (h : ∀ row ∈ refs, ∃ height tx, RefersTo d chain row height tx) :
    ∃ tx : RefAccountToRecentTxRow → TransactionInBlock,
      ∀ row ∈ refs, RefersTo d chain row row.height (tx row) := by
  have hchoose : ∀ row : RefAccountToRecentTxRow, ∃ tx, row ∈ refs →
      RefersTo d chain row row.height tx := by
    intro row
    by_cases hrow : row ∈ refs
    · obtain ⟨height, tx, h⟩ := h row hrow
      obtain rfl : row.height = height := congrArg TxKey.height h.row_tx
      exact ⟨tx, fun _ => h⟩
    · exact ⟨⟨"", ⟨[], [], [], [], ∅, ∅⟩, [], "", none, none, ""⟩, fun h => absurd h hrow⟩
  choose tx htx using hchoose
  exact ⟨tx, htx⟩

/-- The references of an account are to different transactions. -/
theorem nodup_map_refersTo {k : AccountKey} {refs : List RefAccountToRecentTxRow}
    {tx : RefAccountToRecentTxRow → TransactionInBlock} (hrefs : refs.Nodup)
    (haccount : ∀ row ∈ refs, row.account = k)
    (htx : ∀ row ∈ refs, RefersTo d chain row row.height (tx row)) :
    (refs.map fun row => (row.height, tx row)).Nodup := by
  refine hrefs.map_on fun row hrow row' hrow' heq => ?_
  obtain ⟨hheight, htx'⟩ := Prod.mk.inj heq
  have hrefers' := htx row' hrow'
  rw [← hheight, ← htx'] at hrefers'
  refine (htx row hrow).eq_of_address hrefers' ?_
  exact congrArg AccountKey.bech32Address ((haccount row hrow).trans (haccount row' hrow').symm)

/-- The transactions that the references of a tab are to are those that involve the account. -/
theorem Indexes.mem_history (h : Indexes d chain events) {bech32Address : String}
    {type : AddressTransactionType} {tx : RefAccountToRecentTxRow → TransactionInBlock}
    (htx : ∀ row ∈ (Db.everWritten chainInfo events).refsOf
      ⟨normalizeChainId d.chainId, bech32Address⟩ type.shows,
      RefersTo d chain row row.height (tx row)) (height : ℤ) (tx' : TransactionInBlock) :
    (height, tx') ∈ ((Db.everWritten chainInfo events).refsOf
        ⟨normalizeChainId d.chainId, bech32Address⟩ type.shows).map
          (fun row => (row.height, tx row)) ↔
      IsCommitted d chain chainInfo events height ∧ tx' ∈ (chain.block height).transactions ∧
        type.Involves d.sdk d.bech32Cfg tx' bech32Address := by
  rw [List.mem_map]
  constructor
  · rintro ⟨row, hrow, heq⟩
    obtain ⟨rfl, rfl⟩ := Prod.mk.inj heq
    obtain ⟨hin, haccount, htrue⟩ := Db.mem_refsOf.1 hrow
    obtain ⟨height, tx', hheight, hrefers⟩ :=
      (h.mem_everWritten (congrArg AccountKey.chainId haccount)).1 hin
    obtain ⟨rfl, -⟩ := (htx row hrow).unique hrefers
    have haddr : row.bech32Address = bech32Address := congrArg AccountKey.bech32Address haccount
    exact ⟨hheight, (htx row hrow).mem, haddr ▸ ((htx row hrow).shows_iff _).1 htrue⟩
  · rintro ⟨hheight, htx', hinvolves⟩
    obtain ⟨ref, hof, rfl⟩ := exists_refOf d.chainId height hinvolves.involved
    have hrefers : RefersTo d chain ref.row height tx' := ⟨htx', ref, hof, rfl⟩
    have hin := (h.mem_everWritten hof.chainId).2 ⟨height, tx', hheight, hrefers⟩
    have hrow := Db.mem_refsOf.2
      ⟨hin, congrArg (AccountKey.mk · _) hof.chainId, (hrefers.shows_iff type).2 hinvolves⟩
    obtain ⟨hheight', htx''⟩ := (htx _ hrow).unique hrefers
    exact ⟨ref.row, hrow, Prod.ext hheight' htx''⟩

/-- What the tables keep, after a run, of all that was ever written. -/
theorem Indexes.follows (h : Indexes d chain events) {n : ℤ}
    (hkeep : KeepsRecent n (normalizeChainId d.chainId) chainInfo events) :
    Db.Follows d chain n (Db.everWritten chainInfo events)
      (Db.runEvents events (Db.empty chainInfo)).1 :=
  Db.Follows.runEvents ⟨fun _ h _ => h, fun _ h _ _ _ _ => h,
    fun _ h => absurd h Table.not_mem_empty, fun _ h => absurd h Table.not_mem_empty⟩
    (Db.Sound.empty chainInfo) rfl h hkeep

/-- **The page of an account.**  After every run of the transactions of all chains, in which the
    triggers prune the references and the transactions that are not referenced are deleted, each
    tab shows on its first pages what it would show of a list of all transactions of the committed
    blocks of the chain that involve the account, the most recent first. -/
theorem addressPage_recent (d : Indexer R) (chain : ChainBlocks) (chainInfo : Map String (Option ℤ))
    (events : List ChainEvent) (hindexes : Indexes d chain events) (n : ℕ)
    (hkeep : KeepsRecent n (normalizeChainId d.chainId) chainInfo events) (bech32Address : String)
    (txType : SearchParam) :
    ∃ history : List (ℤ × TransactionInBlock), history.Nodup ∧
      (∀ height tx, (height, tx) ∈ history ↔ IsCommitted d chain chainInfo events height ∧
        tx ∈ (chain.block height).transactions ∧
        (addressTransactionType txType).Involves d.sdk d.bech32Cfg tx bech32Address) ∧
      ∀ pageSizeParam pageParam,
        ((getNumberFromStringParam pageParam).getD 0 + 1) * pageSizeOf pageSizeParam ≤ n →
        ∀ result, addressTransactions (Db.runEvents events (Db.empty chainInfo)).1
            (normalizeChainId d.chainId) bech32Address txType pageSizeParam pageParam result ↔
          PageOf history.length
            (FindMany Prod.fst (fun entry => some (chain.listed entry.1 entry.2)) history)
            pageSizeParam pageParam result := by
  let k : AccountKey := ⟨normalizeChainId d.chainId, bech32Address⟩
  let db := (Db.runEvents events (Db.empty chainInfo)).1
  let shows := (addressTransactionType txType).shows
  have hfollows := hindexes.follows hkeep
  have hsound : db.Sound := (Db.Sound.empty chainInfo).runEvents rfl
  have hretains := hfollows.retains (k := k) rfl (addressTransactionType txType).shows_mem
  have hrefers : ∀ row ∈ (Db.everWritten chainInfo events).refsOf k shows,
      ∃ height tx, RefersTo d chain row height tx := by
    intro row hrow
    obtain ⟨hin, haccount, -⟩ := Db.mem_refsOf.1 hrow
    exact hfollows.refersTo row hin (congrArg AccountKey.chainId haccount)
  obtain ⟨tx, htx⟩ := exists_refersTo hrefers
  refine ⟨_, nodup_map_refersTo hretains.nodup (fun row hrow => (Db.mem_refsOf.1 hrow).2.1) htx,
    hindexes.mem_history htx, fun pageSizeParam pageParam hpage result => ?_⟩
  have hselect : ∀ row ∈ db.refsOf k shows,
      db.selectRef row = some (chain.listed row.height (tx row)) := fun row hrow =>
    hfollows.selectRef hsound (Db.mem_refsOf.1 hrow).1 (htx row (hretains.subset hrow))
  unfold addressTransactions countAccountTransactions getAccountTransactions
  rw [accountTransactionsOf_txType]
  refine (pageOf_iff_of_retains hretains hselect hpage).trans ?_
  unfold PageOf
  dsimp only
  rw [findMany_map_iff, List.length_map]
  rfl

end

/-! ## Sixty blocks -/

/-- The blocks of a chain, each of which involves the account. -/
def blocksOfOne : ChainBlocks where
  block := blockOfOne
  height _ := rfl
  hashes _ := List.nodup_singleton _

/-- The transaction of such a block. -/
def chainTransactionOfOne (height : ℤ) : ChainTransaction where
  toBlockTransaction := (recordsOfOne height).transaction default 0 default
  chainId := "rollappevm_1234-1"
  tx_chainId := List.forall_mem_singleton.2 rfl
  account_chainId := List.forall_mem_singleton.2 rfl
  recent_chainId := List.forall_mem_singleton.2 rfl
  ref_chainId := List.forall_mem_singleton.2 rfl

def eventsOfOne (l : List ℤ) : List ChainEvent :=
  l.map fun height => .transaction (chainTransactionOfOne height)

theorem recordsOfOne_insertsBlock {height : ℤ} (hpos : 1 ≤ height) :
    InsertsBlock indexerOfOne (blocksOfOne.block height)
      (chainTransactionOfOne height).toBlockTransaction default (recordsOfOne height) := by
  refine ⟨blockInformation_ofOne height, .inr ?_, rfl, rfl, rfl, rfl⟩
  refine (RecordsTransaction.validateBasic_iff (List.forall_mem_singleton.2 ⟨rfl, rfl⟩)).2 ?_
  refine List.forall_mem_singleton.2 ?_
  simp only [RecordTransaction.validateBasic, bind_unit_ok_iff]
  have hchain : validateChainId (normalizeChainId "rollappevm_1234-1") = .ok () := by
    decide +kernel
  refine ⟨hchain, validateHeight_ok_iff.2 hpos, rfl, rfl, rfl, ?_⟩
  have hhash : (!isValidCosmosTransactionHash transactionOfOne.transactionHash) = false := by
    decide +kernel
  rw [validateHashOfType, if_pos (.inl rfl), failIf_ok_iff]
  exact Bool.eq_false_iff.1 hhash

/-- The blocks at the heights `l` are committed one after the other. -/
theorem runEvents_ofOne {l : List ℤ} {s : ℤ × List ℤ} {db : Db} (hs : db.Sound)
    (hq : db.reducedRefCountRecentAccountTransaction.rows = []) (h : db.CountsOne s)
    (hnodup : (s.2 ++ l).Nodup) (hfew : (s.2 ++ l).length ≤ 1000) :
    Db.committed (eventsOfOne l) db = l.map chainTransactionOfOne ∧
      (Db.runEvents (eventsOfOne l) db).1.CountsOne (l.foldl nextReference s) := by
  induction l generalizing s db with
  | nil => exact ⟨rfl, h⟩
  | cons height l ih =>
    have hsub := nextReference_append_sublist s height l
    have hnew : height ∉ s.2 := fun hm =>
      (List.disjoint_of_nodup_append hnodup) hm List.mem_cons_self
    have hlen : s.2.length ≤ 1000 := (List.sublist_append_left _ _).length_le.trans hfew
    have hfits : ((recordsOfOne height).transaction default 0 default).Fits db :=
      transactionOfOne_fits h hlen
    obtain ⟨db', he⟩ := hs.exists_blockTransaction hfits
    have he : db.blockTransaction (chainTransactionOfOne height).toBlockTransaction = .ok db' := he
    have hafter : (db.afterEvent (.transaction (chainTransactionOfOne height))).1 = db' := by
      have hcommits : (chainTransactionOfOne height).commits = true := rfl
      rw [Db.afterEvent, Db.afterTransaction, if_pos hcommits, he, Db.orSelf]
    obtain ⟨hs', hq'⟩ := hs.afterEvent hq (.transaction (chainTransactionOfOne height))
    rw [hafter] at hs' hq'
    obtain ⟨hcommitted, hcounts⟩ := ih hs' hq' (h.transaction hs hnew he) (hnodup.sublist hsub)
      (hsub.length_le.trans hfew)
    constructor
    · have hcommits : ((chainTransactionOfOne height).commits && (db.blockTransaction
          (chainTransactionOfOne height).toBlockTransaction).isOk) = true := by
        rw [he]
        rfl
      rw [eventsOfOne, List.map_cons, Db.committed, hafter, if_pos hcommits]
      exact congrArg (chainTransactionOfOne height :: ·) hcommitted
    · rw [eventsOfOne, List.map_cons, Db.runEvents, hafter]
      exact hcounts

/-- The heights of sixty blocks. -/
def sixtyHeights : List ℤ := (List.range 60).map fun i => 1 + (i : ℤ)

/-- The references of the last fifty blocks are kept. -/
theorem foldl_sixtyHeights : sixtyHeights.foldl nextReference (0, []) =
    (0, sixtyHeights.drop 10) := by
  decide +kernel

/-- After sixty blocks, the references of the first ten are gone, and the pages are still those of
    all sixty transactions. -/
theorem addressPage_recent_sixty : ∃ history : List (ℤ × TransactionInBlock), history.Nodup ∧
    (∀ height tx, (height, tx) ∈ history ↔
      IsCommitted indexerOfOne blocksOfOne (AList.insert "rollappevm_1234-1" none ∅)
          (eventsOfOne sixtyHeights) height ∧
        tx ∈ (blocksOfOne.block height).transactions ∧
        (addressTransactionType none).Involves indexerOfOne.sdk indexerOfOne.bech32Cfg tx
          "rol1qqqqqqqqqqqq") ∧
    (∀ height ∈ sixtyHeights, (height, transactionOfOne) ∈ history) ∧
    (Db.runEvents (eventsOfOne sixtyHeights) (Db.empty (AList.insert "rollappevm_1234-1" none
        ∅))).1.refAccountToRecentTx.rows =
      (sixtyHeights.drop 10).map (fun height => (refOfOne height).row) ∧
    ∀ result, addressTransactions (Db.runEvents (eventsOfOne sixtyHeights)
        (Db.empty (AList.insert "rollappevm_1234-1" none ∅))).1
        "rollappevm_1234-1" "rol1qqqqqqqqqqqq" none none none result ↔
      PageOf history.length
        (FindMany Prod.fst (fun entry => some (blocksOfOne.listed entry.1 entry.2)) history)
        none none result := by
  obtain ⟨hcommitted, hcounts⟩ := runEvents_ofOne (l := sixtyHeights)
    (Db.Sound.empty (AList.insert "rollappevm_1234-1" none ∅)) rfl countsOne_empty
    (by decide +kernel) (by decide)
  rw [foldl_sixtyHeights] at hcounts
  have hpos : ∀ height ∈ sixtyHeights, 1 ≤ height := by decide +kernel
  obtain ⟨history, hnodup, hmem, hpages⟩ := addressPage_recent indexerOfOne blocksOfOne
    (AList.insert "rollappevm_1234-1" none ∅) (eventsOfOne sixtyHeights)
    (fun t ht _ => by
      obtain ⟨height, hheight, he⟩ := List.mem_map.1 ht
      obtain rfl := ChainEvent.transaction.inj he
      exact ⟨height, default, recordsOfOne height, recordsOfOne_insertsBlock (hpos height hheight)⟩)
    50 (fun keep _ => le_max_right _ _) "rol1qqqqqqqqqqqq" none
  refine ⟨history, hnodup, hmem, fun height hheight => ?_, hcounts.refs,
    hpages none none (by decide)⟩
  refine (hmem height transactionOfOne).2 ⟨⟨chainTransactionOfOne height, ?_, rfl, default,
    recordsOfOne height, recordsOfOne_insertsBlock (hpos height hheight)⟩,
    List.mem_singleton_self _, ?_⟩
  · rw [hcommitted]
    exact List.mem_map_of_mem hheight
  · have hstored : StoredUnder indexerOfOne.sdk indexerOfOne.bech32Cfg "rol1qqqqqqqqqqqq"
        "rol1qqqqqqqqqqqq" := rfl
    exact ⟨.normal, .other (List.mem_singleton_self _) hstored⟩

end RollappExplorer
