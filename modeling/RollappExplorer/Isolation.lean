/-
  Chains that share the tables do not interfere.

  The slice of a set of chains are the rows of these chains.  The statements of the transaction
  of a block, their triggers and the clean-up, whose queue belongs to all chains, only read and
  write rows of the chain of the block.

  * `Db.blockTransaction_slice`: a transaction of a chain of the slice does on the slice what it
    does on the tables;
  * `Db.slice_blockTransaction`: one of another chain leaves the slice as it is;
  * `runEvents_isolated`: in every interleaving of the transactions of many chains, some of them
    see and leave what they would see and leave without the others;
  * `CommitsBlock.slice`: the block of an indexer changes nothing of another chain.
-/
import RollappExplorer.Committing
import RollappExplorer.InvolvedAccounts
import RollappExplorer.References
import RollappExplorer.Sql.Slice

namespace RollappExplorer

open Go Sql

/-! ## Slices -/

/-- The rows of the chains in `S`. -/
def Db.slice (S : String → Bool) (db : Db) : Db where
  chainInfo := db.chainInfo.slice S
  account := db.account.slice fun k => S k.chainId
  recentAccountTransaction := db.recentAccountTransaction.slice fun k => S k.chainId
  reducedRefCountRecentAccountTransaction :=
    db.reducedRefCountRecentAccountTransaction.slice fun k => S k.chainId
  refAccountToRecentTx := db.refAccountToRecentTx.slice fun k => S k.1.chainId
  transaction := db.transaction.slice fun k => S k.1.chainId

theorem Db.slice_empty {S : String → Bool} (chainInfo : Map String (Option ℤ)) :
    (Db.empty chainInfo).slice S = Db.empty (chainInfo.slice S) := rfl

theorem foreignKey_congr {P Q : Prop} [Decidable P] [Decidable Q] (h : P ↔ Q)
    (constraint : String) : foreignKey P constraint = foreignKey Q constraint := by
  by_cases hP : P
  · simp [foreignKey, failIf, hP, h.1 hP]
  · have hQ : ¬ Q := fun hQ => hP (h.2 hQ)
    simp [foreignKey, failIf, hP, hQ]

/-! ## A transaction of the slice -/

section
variable {S : String → Bool} {db db' : Db} {p : Planner} {new : RefAccountToRecentTxRow}

theorem Db.updateAccount_slice {k : AccountKey} {f : AccountRow → Except Error AccountRow}
    (hk : S k.chainId = true) :
    (db.slice S).updateAccount p k f = (db.updateAccount p k f).map (Db.slice S) :=
  bind_map (Table.update_slice hk) fun _ _ => rfl

theorem Db.updateRefCount_slice {k : TxKey} {f : ℤ → ℤ} (hk : S k.chainId = true) :
    (db.slice S).updateRefCount k f = (db.updateRefCount k f).map (Db.slice S) :=
  bind_map (Table.update_slice hk) fun _ _ => rfl

theorem trigger00300_slice {old : RefAccountToRecentTxRow} (hold : S old.chainId = true) :
    trigger00300AfterDeleteRefAccountToRecentTx (db.slice S) old =
      (trigger00300AfterDeleteRefAccountToRecentTx db old).map (Db.slice S) := by
  refine bind_map (Db.updateRefCount_slice hold) fun db₁ _ => ?_
  have hqueue : (db₁.slice S).reducedRefCountRecentAccountTransaction.insert old.tx =
      (db₁.reducedRefCountRecentAccountTransaction.insert old.tx).slice fun k => S k.chainId :=
    Table.insert_slice hold
  exact congrArg (fun u => Except.ok
    { db₁.slice S with reducedRefCountRecentAccountTransaction := u }) hqueue

theorem Db.deleteRefs_slice {q : RefAccountToRecentTxRow → Bool}
    (hq : ∀ ref, q ref = true → S ref.chainId = true) :
    (db.slice S).deleteRefs q = (db.deleteRefs q).map (Db.slice S) := by
  have hrows : (db.slice S).refAccountToRecentTx.rows.filter q =
      db.refAccountToRecentTx.rows.filter q := Table.filter_slice fun ref _ hp => hq ref hp
  have hdb :
      { db.slice S with refAccountToRecentTx := (db.slice S).refAccountToRecentTx.delete q } =
      Db.slice S { db with refAccountToRecentTx := db.refAccountToRecentTx.delete q } := by
    simp only [Db.slice, Table.delete_slice]
  unfold Db.deleteRefs
  rw [hrows, hdb]
  refine foldlM_map (fun ref href s => trigger00300_slice ?_) _
  exact hq ref (List.mem_filter.1 href).2

theorem Db.keptHeights_slice {k : AccountKey} (hk : S k.chainId = true) :
    (db.slice S).keptHeights k = db.keptHeights k := by
  have hrefs : ∀ type, (db.slice S).refsOf k type = db.refsOf k type := by
    intro type
    refine Table.filter_slice fun ref _ hp => ?_
    rw [Bool.and_eq_true, decide_eq_true_eq] at hp
    rw [← hp.1] at hk
    exact hk
  have hkeep : pruningKeepRecent (db.slice S).chainInfo k.chainId =
      pruningKeepRecent db.chainInfo k.chainId := by
    unfold pruningKeepRecent
    rw [show (db.slice S).chainInfo = db.chainInfo.slice S from rfl, Map.lookup_slice hk]
  simp only [Db.keptHeights, hrefs, hkeep]

theorem Db.isPruned_slice (hnew : S new.chainId = true) :
    (db.slice S).isPruned new = db.isPruned new := by
  funext ref
  have hk : S new.account.chainId = true := hnew
  rw [Db.isPruned, Db.isPruned, Db.keptHeights_slice hk]

/-- The account of a reference that is pruned. -/
theorem Db.account_of_isPruned {ref : RefAccountToRecentTxRow} (h : db.isPruned new ref = true) :
    ref.chainId = new.chainId := by
  rw [Db.isPruned, Bool.and_eq_true, decide_eq_true_eq] at h
  exact congrArg AccountKey.chainId h.1

theorem trigger00100AfterInsertRefAccountToRecentTx_slice (hnew : S new.chainId = true) :
    trigger00100AfterInsertRefAccountToRecentTx p new (db.slice S) =
      (trigger00100AfterInsertRefAccountToRecentTx p new db).map (Db.slice S) := by
  have haccount : S new.account.chainId = true := hnew
  exact bind_map (Db.updateAccount_slice haccount) fun db₁ _ => Db.updateRefCount_slice hnew

theorem trigger00200AfterInsertRefAccountToRecentTx_slice (hnew : S new.chainId = true) :
    trigger00200AfterInsertRefAccountToRecentTx p new (db.slice S) =
      (trigger00200AfterInsertRefAccountToRecentTx p new db).map (Db.slice S) := by
  have haccount : S new.account.chainId = true := hnew
  have hfind : (db.slice S).account.find? new.account = db.account.find? new.account :=
    Table.find?_slice haccount
  unfold trigger00200AfterInsertRefAccountToRecentTx
  rw [hfind, Db.isPruned_slice hnew]
  dsimp only
  split_ifs
  · refine bind_map (Db.deleteRefs_slice fun ref hp => ?_) fun db₁ _ =>
      Db.updateAccount_slice haccount
    rw [Db.account_of_isPruned hp]
    exact hnew
  · rfl

theorem Db.afterInsertRef_slice (hnew : S new.chainId = true) :
    (db.slice S).afterInsertRef p new = (db.afterInsertRef p new).map (Db.slice S) := by
  have htriggers : (do
      let db ← trigger00100AfterInsertRefAccountToRecentTx p new (db.slice S)
      trigger00200AfterInsertRefAccountToRecentTx p new db) = (do
      let db ← trigger00100AfterInsertRefAccountToRecentTx p new db
      trigger00200AfterInsertRefAccountToRecentTx p new db : Except Error Db).map (Db.slice S) :=
    bind_map (trigger00100AfterInsertRefAccountToRecentTx_slice hnew) fun db₁ _ =>
      trigger00200AfterInsertRefAccountToRecentTx_slice hnew
  have hhas : (db.slice S).refAccountToRecentTx.Has new.key ↔ db.refAccountToRecentTx.Has new.key :=
    Table.has_slice_of hnew
  have haccount : (db.slice S).account.Has new.account ↔ db.account.Has new.account :=
    Table.has_slice_of hnew
  have htx : (db.slice S).recentAccountTransaction.Has new.tx ↔
      db.recentAccountTransaction.Has new.tx := Table.has_slice_of hnew
  unfold Db.afterInsertRef
  by_cases h : db.refAccountToRecentTx.Has new.key
  · rw [if_pos h, if_pos (hhas.2 h), foreignKey_congr haccount, foreignKey_congr htx]
    cases foreignKey (db.account.Has new.account) "ref_recent_acc_tx_to_account_fkey" with
    | error e => rfl
    | ok _ =>
      cases foreignKey (db.recentAccountTransaction.Has new.tx)
          "ref_recent_acc_tx_to_recent_tx_fkey" with
      | error e => rfl
      | ok _ => exact htriggers
  · rw [if_neg h, if_neg fun h' => h (hhas.1 h')]
    exact htriggers

/-- The references are written, and their triggers fire. -/
theorem Db.insertRefs_slice {refs : List RecordRefAccountToRecentTx}
    (hrefs : ∀ ref ∈ refs, S ref.chainId = true) :
    (db.slice S).insertRefs p refs = (db.insertRefs p refs).map (Db.slice S) := by
  have hrows : ∀ row ∈ refs.map (·.row), S row.key.1.chainId = true := by
    intro row hrow
    obtain ⟨ref, href, rfl⟩ := List.mem_map.1 hrow
    exact hrefs ref href
  have hwrite : (db.slice S).writeRefs refs =
      ((db.writeRefs refs).1.slice S, (db.writeRefs refs).2) := by
    have hinsert : Table.insertAll (refs.map (·.row)) (db.slice S).refAccountToRecentTx =
        ((Table.insertAll (refs.map (·.row)) db.refAccountToRecentTx).1.slice
            fun k => S k.1.chainId,
          (Table.insertAll (refs.map (·.row)) db.refAccountToRecentTx).2) :=
      Table.insertAll_slice (S := fun k : AccountKey × TxKey => S k.1.chainId) hrows
    unfold Db.writeRefs
    rw [hinsert]
    rfl
  unfold Db.insertRefs
  rw [hwrite]
  refine foldlM_map (fun ref href s => Db.afterInsertRef_slice ?_) _
  exact hrows ref ((Table.insertAll_sublist _ _).subset href)

theorem Db.insertTransactions_slice {now : ℤ} {txs : List RecordTransaction}
    (htxs : ∀ tx ∈ txs, S tx.chainId = true) :
    (db.slice S).insertTransactions now txs = (db.insertTransactions now txs).map (Db.slice S) := by
  unfold Db.insertTransactions
  refine bind_map (g := id) (by cases txs.mapM (RecordTransaction.row now) <;> rfl)
    fun rows hrows => ?_
  have hchain : ∀ row ∈ rows, S row.key.1.chainId = true := by
    intro row hrow
    obtain ⟨tx, htx, he⟩ := mem_of_mapM_ok hrows hrow
    obtain ⟨partitionId, -, he⟩ := bind_ok_iff.1 he
    rw [← Except.ok.inj he]
    exact htxs tx htx
  have hinsert : Table.insertAll rows (db.slice S).transaction =
      ((Table.insertAll rows db.transaction).1.slice fun k => S k.1.chainId,
        (Table.insertAll rows db.transaction).2) :=
    Table.insertAll_slice (S := fun k : TxKey × String => S k.1.chainId) hchain
  have hfkey : (∀ row ∈ (Table.insertAll rows db.transaction).2,
        row.chainId ∈ (db.slice S).chainInfo) ↔
      ∀ row ∈ (Table.insertAll rows db.transaction).2, row.chainId ∈ db.chainInfo := by
    refine forall₂_congr fun row hrow => Map.mem_slice.trans (and_iff_left ?_)
    exact hchain row ((Table.insertAll_sublist _ _).subset hrow)
  dsimp only [id]
  rw [hinsert, foreignKey_congr hfkey]
  cases foreignKey (∀ row ∈ (Table.insertAll rows db.transaction).2, row.chainId ∈ db.chainInfo)
      "transaction_to_chain_info_fkey" with
  | error e => rfl
  | ok _ => rfl

theorem Db.insertAccount_slice {record : RecordAccount} (hrecord : S record.chainId = true) :
    (db.slice S).insertAccount p record = (db.insertAccount p record).map (Db.slice S) := by
  have hkey : S (trigger00100BeforeInsertOrUpdateAccount p record.row).key.chainId = true := hrecord
  have hhas : (db.slice S).account.Has (trigger00100BeforeInsertOrUpdateAccount p record.row).key ↔
      db.account.Has (trigger00100BeforeInsertOrUpdateAccount p record.row).key :=
    Table.has_slice_of hkey
  have hfkey : (trigger00100BeforeInsertOrUpdateAccount p record.row).chainId ∈
        (db.slice S).chainInfo ↔
      (trigger00100BeforeInsertOrUpdateAccount p record.row).chainId ∈ db.chainInfo :=
    Map.mem_slice.trans (and_iff_left hrecord)
  unfold Db.insertAccount
  dsimp only
  by_cases h : db.account.Has (trigger00100BeforeInsertOrUpdateAccount p record.row).key
  · rw [if_pos h, if_pos (hhas.2 h)]
    exact Db.updateAccount_slice hkey
  · rw [if_neg h, if_neg fun h' => h (hhas.1 h'), foreignKey_congr hfkey]
    have hinsert :
        (db.slice S).account.insert (trigger00100BeforeInsertOrUpdateAccount p record.row) =
        (db.account.insert (trigger00100BeforeInsertOrUpdateAccount p record.row)).slice
          fun k => S k.chainId := Table.insert_slice hkey
    rw [hinsert]
    cases foreignKey ((trigger00100BeforeInsertOrUpdateAccount p record.row).chainId ∈ db.chainInfo)
        "account_to_chain_info_fkey" with
    | error e => rfl
    | ok _ => rfl

theorem Db.insertAccounts_slice {accounts : List RecordAccount}
    (haccounts : ∀ account ∈ accounts, S account.chainId = true) :
    (db.slice S).insertAccounts p accounts = (db.insertAccounts p accounts).map (Db.slice S) := by
  refine bind_map (g := id) ?_ fun _ _ => foldlM_map (fun record hrecord s => ?_) _
  · cases failIf (¬ (accounts.map fun account => account.row.key).Nodup)
      "ON CONFLICT DO UPDATE command cannot affect row a second time" <;> rfl
  · exact Db.insertAccount_slice (haccounts record hrecord)

theorem Db.insertRecentAccountTransactions_slice {txs : List RecordRecentAccountTransaction}
    (htxs : ∀ tx ∈ txs, S tx.chainId = true) :
    (db.slice S).insertRecentAccountTransactions txs =
      (db.insertRecentAccountTransactions txs).slice S := by
  have hrows : ∀ row ∈ txs.map (·.row), S row.key.chainId = true := by
    intro row hrow
    obtain ⟨tx, htx, rfl⟩ := List.mem_map.1 hrow
    exact htxs tx htx
  have hloop : ∀ rows : List RecentAccountTransactionRow, (∀ row ∈ rows, S row.key.chainId = true) →
      ∀ s : Db, rows.foldl trigger00100AfterInsertRecentAccountTransaction (s.slice S) =
        (rows.foldl trigger00100AfterInsertRecentAccountTransaction s).slice S := by
    intro rows
    induction rows with
    | nil => exact fun _ _ => rfl
    | cons row rows ih =>
      intro h s
      obtain ⟨hrow, hrows⟩ := List.forall_mem_cons.1 h
      have hqueue : (s.slice S).reducedRefCountRecentAccountTransaction.insert row.key =
          (s.reducedRefCountRecentAccountTransaction.insert row.key).slice fun k => S k.chainId :=
        Table.insert_slice hrow
      rw [List.foldl_cons, List.foldl_cons, ← ih hrows,
        trigger00100AfterInsertRecentAccountTransaction, hqueue]
      rfl
  have hinsert : Table.insertAll (txs.map (·.row)) (db.slice S).recentAccountTransaction =
      ((Table.insertAll (txs.map (·.row)) db.recentAccountTransaction).1.slice fun k => S k.chainId,
        (Table.insertAll (txs.map (·.row)) db.recentAccountTransaction).2) :=
    Table.insertAll_slice (S := fun k : TxKey => S k.chainId) hrows
  unfold Db.insertRecentAccountTransactions
  dsimp only
  rw [hinsert]
  refine hloop _ (fun row hrow => ?_) { db with recentAccountTransaction :=
    (Table.insertAll (txs.map (·.row)) db.recentAccountTransaction).1 }
  exact hrows row ((Table.insertAll_sublist _ _).subset hrow)

theorem Db.cleanupReduced_slice {k : TxKey} (hk : S k.chainId = true) :
    (db.slice S).cleanupReduced k = (db.cleanupReduced k).map (Db.slice S) := by
  have hfind : (db.slice S).recentAccountTransaction.find? k =
      db.recentAccountTransaction.find? k := Table.find?_slice hk
  have hhas : (db.slice S).recentAccountTransaction.Has k ↔ db.recentAccountTransaction.Has k :=
    Table.has_slice_of hk
  have hrefs : (∀ ref ∈ (db.slice S).refAccountToRecentTx.rows, ref.tx ≠ k) ↔
      ∀ ref ∈ db.refAccountToRecentTx.rows, ref.tx ≠ k := by
    refine ⟨fun h ref href hx => h ref (Table.mem_slice.2 ⟨href, ?_⟩) hx, fun h ref href =>
      h ref (Table.mem_slice.1 href).1⟩
    show S ref.tx.chainId = true
    rw [hx]
    exact hk
  have hdelete : (db.slice S).deleteRecentAccountTransaction k =
      (db.deleteRecentAccountTransaction k).map (Db.slice S) := by
    refine bind_map (g := id) ?_ fun _ _ => ?_
    · rw [foreignKey_congr (imp_congr hhas hrefs)]
      cases foreignKey (db.recentAccountTransaction.Has k →
        ∀ ref ∈ db.refAccountToRecentTx.rows, ref.tx ≠ k) "ref_recent_acc_tx_to_recent_tx_fkey" <;>
          rfl
    · show Except.ok _ = Except.ok _
      simp only [Db.slice, Table.delete_slice]
  have hqueue : ∀ s : Db, ({ s.slice S with reducedRefCountRecentAccountTransaction :=
        (s.slice S).reducedRefCountRecentAccountTransaction.delete (· = k) } : Db) =
      Db.slice S { s with reducedRefCountRecentAccountTransaction :=
        s.reducedRefCountRecentAccountTransaction.delete (· = k) } := by
    intro s
    simp only [Db.slice, Table.delete_slice]
  unfold Db.cleanupReduced
  rw [hfind]
  dsimp only
  split_ifs
  · exact bind_map hdelete fun s _ => congrArg Except.ok (hqueue s)
  · exact congrArg Except.ok (hqueue db)

/-- The queue is that of the slice. -/
theorem Db.cleanupZeroRefCount_slice
    (hq : ∀ k ∈ db.reducedRefCountRecentAccountTransaction, S k.chainId = true) :
    (db.slice S).cleanupZeroRefCount = db.cleanupZeroRefCount.map (Db.slice S) := by
  have hrows : (db.slice S).reducedRefCountRecentAccountTransaction =
      db.reducedRefCountRecentAccountTransaction :=
    Table.slice_eq_self (S := fun k : TxKey => S k.chainId) hq
  unfold Db.cleanupZeroRefCount
  rw [hrows]
  exact foldlM_map (fun k hk s => Db.cleanupReduced_slice (hq k hk)) _

end

/-! ## The queue -/

/-- The transactions in the queue are of a chain. -/
def Db.QueueOf (chainId : String) (db : Db) : Prop :=
  ∀ k ∈ db.reducedRefCountRecentAccountTransaction, k.chainId = chainId

section
variable {chainId : String} {db db' : Db} {p : Planner}

theorem Db.QueueOf.of_eq (h : db.QueueOf chainId)
    (he : db'.reducedRefCountRecentAccountTransaction =
      db.reducedRefCountRecentAccountTransaction) :
    db'.QueueOf chainId := fun k hk => h k (he ▸ hk)

theorem Db.QueueOf.insert (h : db.QueueOf chainId) {k : TxKey} (hk : k.chainId = chainId)
    (he : db'.reducedRefCountRecentAccountTransaction =
      db.reducedRefCountRecentAccountTransaction.insert k) : db'.QueueOf chainId := by
  intro k' hk'
  rw [he, Table.mem_insert] at hk'
  rcases hk' with hk' | ⟨rfl, -⟩
  · exact h k' hk'
  · exact hk

theorem Db.QueueOf.deleteRefs (h : db.QueueOf chainId) {q : RefAccountToRecentTxRow → Bool}
    (hq : ∀ ref, q ref = true → ref.chainId = chainId) (he : db.deleteRefs q = .ok db') :
    db'.QueueOf chainId := by
  refine foldlM_keeps (I := fun s => s.QueueOf chainId) (fun old hold s s' hs he => ?_) ?_ he
  · obtain ⟨s₁, h₁, he⟩ := bind_ok_iff.1 he
    obtain ⟨t, rfl, -⟩ := Db.updateRefCount_ok h₁
    obtain rfl := Except.ok.inj he
    exact hs.insert (k := old.tx) (hq old (List.mem_filter.1 hold).2) rfl
  · exact h.of_eq rfl

theorem Db.QueueOf.afterInsertRef (h : db.QueueOf chainId) {new : RefAccountToRecentTxRow}
    (hnew : new.chainId = chainId) (he : db.afterInsertRef p new = .ok db') :
    db'.QueueOf chainId := by
  obtain ⟨-, db₁, h₁, h₂⟩ := Db.afterInsertRef_ok he
  obtain ⟨t, r, rfl, -⟩ := trigger00100AfterInsertRefAccountToRecentTx_ok h₁
  have hq₁ : Db.QueueOf chainId { db with account := t, recentAccountTransaction := r } :=
    h.of_eq rfl
  rcases trigger00200AfterInsertRefAccountToRecentTx_cases h₂ with
    ⟨-, db₂, t', hdel, rfl, -⟩ | ⟨rfl, -⟩
  · have hq₂ : db₂.QueueOf chainId :=
      hq₁.deleteRefs (fun ref hp => (Db.account_of_isPruned hp).trans hnew) hdel
    exact hq₂.of_eq rfl
  · exact hq₁

theorem Db.QueueOf.insertRefs (h : db.QueueOf chainId) {refs : List RecordRefAccountToRecentTx}
    (hrefs : ∀ ref ∈ refs, ref.chainId = chainId) (he : db.insertRefs p refs = .ok db') :
    db'.QueueOf chainId := by
  refine foldlM_keeps (I := fun s => s.QueueOf chainId) (fun new hnew s s' hs he => ?_)
    (h.of_eq rfl) he
  refine hs.afterInsertRef ?_ he
  obtain ⟨ref, href, rfl⟩ := List.mem_map.1 ((Table.insertAll_sublist _ _).subset hnew)
  exact hrefs ref href

theorem Db.QueueOf.insertRecentAccountTransactions (h : db.QueueOf chainId)
    {txs : List RecordRecentAccountTransaction} (htxs : ∀ tx ∈ txs, tx.chainId = chainId) :
    (db.insertRecentAccountTransactions txs).QueueOf chainId := by
  obtain ⟨u, he, hu⟩ := Db.insertRecentAccountTransactions_eq txs db
  rw [he]
  intro k hk
  rcases (hu k).1 (Table.has_of_mem hk) with hk | ⟨row, hrow, rfl⟩
  · obtain ⟨k', hk', rfl⟩ := Table.has_iff.1 hk
    exact h k' hk'
  · obtain ⟨tx, htx, rfl⟩ := List.mem_map.1 ((Table.insertAll_sublist _ _).subset hrow)
    exact htxs tx htx

end

/-! ## A transaction of another chain -/

section
variable {S : String → Bool} {db db' : Db} {p : Planner} {new : RefAccountToRecentTxRow}

theorem Db.slice_account {t : Table AccountRow.key}
    (h : t.slice (fun k => S k.chainId) = db.account.slice fun k => S k.chainId) :
    Db.slice S { db with account := t } = db.slice S :=
  congrArg (fun t => { db.slice S with account := t }) h

theorem Db.slice_recent {t : Table RecentAccountTransactionRow.key}
    (h : t.slice (fun k => S k.chainId) =
      db.recentAccountTransaction.slice fun k => S k.chainId) :
    Db.slice S { db with recentAccountTransaction := t } = db.slice S :=
  congrArg (fun t => { db.slice S with recentAccountTransaction := t }) h

theorem Db.slice_queue {t : Table (id : TxKey → TxKey)}
    (h : t.slice (fun k => S k.chainId) =
      db.reducedRefCountRecentAccountTransaction.slice fun k => S k.chainId) :
    Db.slice S { db with reducedRefCountRecentAccountTransaction := t } = db.slice S :=
  congrArg (fun t => { db.slice S with reducedRefCountRecentAccountTransaction := t }) h

theorem Db.slice_refs {t : Table RefAccountToRecentTxRow.key}
    (h : t.slice (fun k => S k.1.chainId) =
      db.refAccountToRecentTx.slice fun k => S k.1.chainId) :
    Db.slice S { db with refAccountToRecentTx := t } = db.slice S :=
  congrArg (fun t => { db.slice S with refAccountToRecentTx := t }) h

theorem Db.slice_transaction {t : Table TransactionRow.key}
    (h : t.slice (fun k => S k.1.chainId) = db.transaction.slice fun k => S k.1.chainId) :
    Db.slice S { db with transaction := t } = db.slice S :=
  congrArg (fun t => { db.slice S with transaction := t }) h

theorem Db.slice_updateAccount {k : AccountKey} {f : AccountRow → Except Error AccountRow}
    (hk : S k.chainId = false) (hf : ∀ a b, f a = .ok b → b.key = a.key)
    (h : db.updateAccount p k f = .ok db') : db'.slice S = db.slice S := by
  obtain ⟨t, ht, h⟩ := bind_ok_iff.1 h
  obtain rfl := Except.ok.inj h
  refine Db.slice_account (Table.slice_update hk (fun a b hb => ?_) ht)
  obtain ⟨c, hc, hb⟩ := bind_ok_iff.1 hb
  rw [← Except.ok.inj hb]
  exact hf a c hc

theorem Db.slice_updateRefCount {k : TxKey} {f : ℤ → ℤ} (hk : S k.chainId = false)
    (h : db.updateRefCount k f = .ok db') : db'.slice S = db.slice S := by
  obtain ⟨t, ht, h⟩ := bind_ok_iff.1 h
  obtain rfl := Except.ok.inj h
  refine Db.slice_recent (Table.slice_update hk (fun a b hb => ?_) ht)
  obtain ⟨n, -, hb⟩ := bind_ok_iff.1 hb
  rw [← Except.ok.inj hb]
  rfl

theorem Db.slice_deleteRefs {q : RefAccountToRecentTxRow → Bool}
    (hq : ∀ ref, q ref = true → S ref.chainId = false) (h : db.deleteRefs q = .ok db') :
    db'.slice S = db.slice S := by
  refine foldlM_keeps (I := fun s => s.slice S = db.slice S) (fun old hold s s' hs he => ?_) ?_ h
  · have hchain : S old.tx.chainId = false := hq old (List.mem_filter.1 hold).2
    obtain ⟨s₁, h₁, he⟩ := bind_ok_iff.1 he
    obtain rfl := Except.ok.inj he
    rw [← hs, ← Db.slice_updateRefCount hchain h₁]
    exact Db.slice_queue (Table.slice_insert hchain)
  · exact Db.slice_refs (Table.slice_delete fun ref _ hp => hq ref hp)

theorem Db.slice_afterInsertRef (hnew : S new.chainId = false)
    (h : db.afterInsertRef p new = .ok db') : db'.slice S = db.slice S := by
  have haccount : S new.account.chainId = false := hnew
  obtain ⟨-, db₁, h₁, h₂⟩ := Db.afterInsertRef_ok h
  have hs₁ : db₁.slice S = db.slice S := by
    obtain ⟨db₀, h₀, h₁⟩ := bind_ok_iff.1 h₁
    rw [Db.slice_updateRefCount hnew h₁]
    refine Db.slice_updateAccount haccount (fun a b hb => ?_) h₀
    obtain ⟨n, -, hb⟩ := bind_ok_iff.1 hb
    rw [← Except.ok.inj hb]
    rfl
  rw [← hs₁]
  unfold trigger00200AfterInsertRefAccountToRecentTx at h₂
  dsimp only at h₂
  split_ifs at h₂
  · obtain ⟨db₂, h₂, h₃⟩ := bind_ok_iff.1 h₂
    have hf : ∀ a b : AccountRow, (.ok (a.setCounter 0) : Except Error AccountRow) = .ok b →
        b.key = a.key := fun a b hb => Except.ok.inj hb ▸ rfl
    rw [Db.slice_updateAccount haccount hf h₃]
    refine Db.slice_deleteRefs (fun ref hp => ?_) h₂
    rw [Db.account_of_isPruned hp]
    exact hnew
  · rw [Except.ok.inj h₂]

theorem Db.slice_insertRefs {refs : List RecordRefAccountToRecentTx}
    (hrefs : ∀ ref ∈ refs, S ref.chainId = false) (h : db.insertRefs p refs = .ok db') :
    db'.slice S = db.slice S := by
  have hrows : ∀ row ∈ refs.map (·.row), S row.key.1.chainId = false := by
    intro row hrow
    obtain ⟨ref, href, rfl⟩ := List.mem_map.1 hrow
    exact hrefs ref href
  refine foldlM_keeps (I := fun s => s.slice S = db.slice S) (fun new hnew s s' hs he => ?_) ?_ h
  · rw [← hs]
    exact Db.slice_afterInsertRef (hrows new ((Table.insertAll_sublist _ _).subset hnew)) he
  · exact Db.slice_refs
      (Table.slice_insertAll (S := fun k : AccountKey × TxKey => S k.1.chainId) hrows)

theorem Db.slice_insertTransactions {now : ℤ} {txs : List RecordTransaction}
    (htxs : ∀ tx ∈ txs, S tx.chainId = false) (h : db.insertTransactions now txs = .ok db') :
    db'.slice S = db.slice S := by
  obtain ⟨rows, hrows, rfl⟩ := Db.insertTransactions_ok h
  refine Db.slice_transaction
    (Table.slice_insertAll (S := fun k : TxKey × String => S k.1.chainId) fun row hrow => ?_)
  obtain ⟨tx, htx, he⟩ := mem_of_mapM_ok hrows hrow
  obtain ⟨partitionId, -, he⟩ := bind_ok_iff.1 he
  rw [← Except.ok.inj he]
  exact htxs tx htx

theorem Db.slice_insertAccount {record : RecordAccount} (hrecord : S record.chainId = false)
    (h : db.insertAccount p record = .ok db') : db'.slice S = db.slice S := by
  unfold Db.insertAccount at h
  dsimp only at h
  split_ifs at h
  · have hf : ∀ a b : AccountRow, (.ok (a.onConflict
        (trigger00100BeforeInsertOrUpdateAccount p record.row)) : Except Error AccountRow) = .ok b →
          b.key = a.key := fun a b hb => Except.ok.inj hb ▸ rfl
    exact Db.slice_updateAccount hrecord hf h
  · obtain ⟨-, h⟩ := bind_unit_ok_iff.1 h
    obtain rfl := Except.ok.inj h
    exact Db.slice_account (Table.slice_insert hrecord)

theorem Db.slice_insertAccounts {accounts : List RecordAccount}
    (haccounts : ∀ account ∈ accounts, S account.chainId = false)
    (h : db.insertAccounts p accounts = .ok db') : db'.slice S = db.slice S := by
  obtain ⟨-, h⟩ := bind_unit_ok_iff.1 h
  refine foldlM_keeps (I := fun s => s.slice S = db.slice S) (fun record hm s s' hs he => ?_) rfl h
  rw [← hs]
  exact Db.slice_insertAccount (haccounts record hm) he

theorem Db.slice_insertRecentAccountTransactions {txs : List RecordRecentAccountTransaction}
    (htxs : ∀ tx ∈ txs, S tx.chainId = false) :
    (db.insertRecentAccountTransactions txs).slice S = db.slice S := by
  have hrows : ∀ row ∈ txs.map (·.row), S row.key.chainId = false := by
    intro row hrow
    obtain ⟨tx, htx, rfl⟩ := List.mem_map.1 hrow
    exact htxs tx htx
  have hloop : ∀ rows : List RecentAccountTransactionRow,
      (∀ row ∈ rows, S row.key.chainId = false) → ∀ s : Db,
        (rows.foldl trigger00100AfterInsertRecentAccountTransaction s).slice S = s.slice S := by
    intro rows
    induction rows with
    | nil => exact fun _ _ => rfl
    | cons row rows ih =>
      intro h s
      obtain ⟨hrow, hrows⟩ := List.forall_mem_cons.1 h
      rw [List.foldl_cons, ih hrows]
      exact Db.slice_queue (Table.slice_insert hrow)
  unfold Db.insertRecentAccountTransactions
  refine (hloop _ (fun row hrow => ?_) _).trans ?_
  · exact hrows row ((Table.insertAll_sublist _ _).subset hrow)
  · exact Db.slice_recent (Table.slice_insertAll (S := fun k : TxKey => S k.chainId) hrows)

theorem Db.slice_cleanupReduced {k : TxKey} (hk : S k.chainId = false)
    (h : db.cleanupReduced k = .ok db') : db'.slice S = db.slice S := by
  have hdelete : ∀ s : Db, ({ s with reducedRefCountRecentAccountTransaction :=
      s.reducedRefCountRecentAccountTransaction.delete (· = k) } : Db).slice S = s.slice S := by
    intro s
    refine Db.slice_queue (Table.slice_delete fun k' _ hk' => ?_)
    rw [of_decide_eq_true hk']
    exact hk
  unfold Db.cleanupReduced at h
  dsimp only at h
  split_ifs at h
  · obtain ⟨s, hs, h⟩ := bind_ok_iff.1 h
    obtain ⟨-, hs⟩ := bind_unit_ok_iff.1 hs
    obtain rfl := Except.ok.inj hs
    obtain rfl := Except.ok.inj h
    refine (hdelete _).trans (Db.slice_recent (Table.slice_delete fun row _ hrow => ?_))
    rw [of_decide_eq_true hrow]
    exact hk
  · obtain rfl := Except.ok.inj h
    exact hdelete db

theorem Db.slice_cleanupZeroRefCount
    (hq : ∀ k ∈ db.reducedRefCountRecentAccountTransaction, S k.chainId = false)
    (h : db.cleanupZeroRefCount = .ok db') : db'.slice S = db.slice S := by
  refine foldlM_keeps (I := fun s => s.slice S = db.slice S) (fun k hk s s' hs he => ?_) rfl h
  rw [← hs]
  exact Db.slice_cleanupReduced (hq k hk) he

end

/-! ## Transactions -/

/-- The transaction of a block of the chain. -/
structure ChainTransaction extends BlockTransaction where
  chainId : String
  tx_chainId : ∀ tx ∈ recordsTxs, tx.chainId = chainId
  account_chainId : ∀ account ∈ involvedAccounts, account.chainId = chainId
  recent_chainId : ∀ tx ∈ recentAccountTxs, tx.chainId = chainId
  ref_chainId : ∀ ref ∈ refAccountToRecentTxs, ref.chainId = chainId

section
variable {S : String → Bool} {db db' : Db} (t : ChainTransaction)

theorem Db.insertBlockInformation_slice (ht : S t.chainId = true) :
    (db.slice S).insertBlockInformation t.toBlockTransaction =
      (db.insertBlockInformation t.toBlockTransaction).map (Db.slice S) := by
  refine bind_map (Db.insertTransactions_slice fun tx htx => t.tx_chainId tx htx ▸ ht)
    fun db₁ _ => ?_
  refine bind_map (Db.insertAccounts_slice fun a ha => t.account_chainId a ha ▸ ht) fun db₂ _ => ?_
  rw [Db.insertRecentAccountTransactions_slice fun tx htx => t.recent_chainId tx htx ▸ ht]
  exact Db.insertRefs_slice fun ref href => t.ref_chainId ref href ▸ ht

theorem Db.slice_insertBlockInformation (ht : S t.chainId = false)
    (h : db.insertBlockInformation t.toBlockTransaction = .ok db') : db'.slice S = db.slice S := by
  obtain ⟨db₁, h₁, h⟩ := bind_ok_iff.1 h
  obtain ⟨db₂, h₂, h⟩ := bind_ok_iff.1 h
  rw [Db.slice_insertRefs (fun ref href => t.ref_chainId ref href ▸ ht) h,
    Db.slice_insertRecentAccountTransactions fun tx htx => t.recent_chainId tx htx ▸ ht,
    Db.slice_insertAccounts (fun a ha => t.account_chainId a ha ▸ ht) h₂,
    Db.slice_insertTransactions (fun tx htx => t.tx_chainId tx htx ▸ ht) h₁]

/-- What the transaction has queued before the clean-up. -/
theorem Db.QueueOf.insertBlockInformation
    (hq : db.reducedRefCountRecentAccountTransaction.rows = [])
    (h : db.insertBlockInformation t.toBlockTransaction = .ok db') : db'.QueueOf t.chainId := by
  obtain ⟨db₁, h₁, h⟩ := bind_ok_iff.1 h
  obtain ⟨db₂, h₂, h⟩ := bind_ok_iff.1 h
  obtain ⟨rows, -, rfl⟩ := Db.insertTransactions_ok h₁
  obtain ⟨a, rfl⟩ := Db.insertAccounts_frame h₂
  have hnone : db.QueueOf t.chainId := by
    intro k hk
    rw [Table.mem_def, hq] at hk
    cases hk
  refine Db.QueueOf.insertRefs (Db.QueueOf.insertRecentAccountTransactions ?_ t.recent_chainId)
    t.ref_chainId h
  exact hnone.of_eq rfl

/-- A transaction of a chain of the slice. -/
theorem Db.blockTransaction_slice (ht : S t.chainId = true)
    (hq : db.reducedRefCountRecentAccountTransaction.rows = []) :
    (db.slice S).blockTransaction t.toBlockTransaction =
      (db.blockTransaction t.toBlockTransaction).map (Db.slice S) := by
  refine bind_map (Db.insertBlockInformation_slice t ht) fun db₁ h₁ => ?_
  refine Db.cleanupZeroRefCount_slice fun k hk => ?_
  rw [Db.QueueOf.insertBlockInformation t hq h₁ k hk]
  exact ht

/-- A transaction of another chain. -/
theorem Db.slice_blockTransaction (ht : S t.chainId = false)
    (hq : db.reducedRefCountRecentAccountTransaction.rows = [])
    (h : db.blockTransaction t.toBlockTransaction = .ok db') : db'.slice S = db.slice S := by
  obtain ⟨db₁, h₁, h⟩ := bind_ok_iff.1 h
  rw [← Db.slice_insertBlockInformation t ht h₁]
  refine Db.slice_cleanupZeroRefCount (fun k hk => ?_) h
  rw [Db.QueueOf.insertBlockInformation t hq h₁ k hk]
  exact ht

end

/-! ## The transaction of an indexer -/

/-- The records that an indexer inserts are of its chain. -/
theorem InsertsBlock.ofChain {R : Type} {d : Indexer R} {block : BlockInResponse}
    {t : BlockTransaction} {o : MapOrder} {records : BlockRecords}
    (h : InsertsBlock d block t o records) :
    ∃ t' : ChainTransaction, t'.toBlockTransaction = t ∧
      t'.chainId = normalizeChainId d.chainId := by
  have hplaced := blockInformation_placed h.information
  have hcollected := blockInformation_collected h.information
  have hrefs : ∀ ref ∈ records.refAccountToRecentTxs, ref.chainId = normalizeChainId d.chainId := by
    intro ref href
    obtain ⟨tx, -, hk⟩ := hplaced.refs ref href
    exact congrArg TxKey.chainId hk
  refine ⟨⟨t, normalizeChainId d.chainId, ?_, ?_, ?_, ?_⟩, rfl, rfl⟩
  · rw [h.recordsTxs]
    exact fun tx htx => (hplaced.txs tx htx).1
  · rw [h.involvedAccounts]
    intro account ha
    obtain ⟨entry, hm, rfl⟩ := List.mem_map.1 ha
    exact congrArg AccountKey.chainId (hcollected.account_key ((MapOrder.mem_range o []).1 hm))
  · rw [h.recentAccountTxs]
    intro tx htx
    obtain ⟨ref, href, hk⟩ := hplaced.recent tx htx
    exact (congrArg TxKey.chainId hk).symm.trans (hrefs ref href)
  · rw [h.refAccountToRecentTxs]
    exact hrefs

/-- The block of an indexer changes nothing of another chain. -/
theorem CommitsBlock.slice {R : Type} {d : Indexer R} {block : BlockInResponse}
    {db db' : Tables Db} {S : String → Bool} (h : CommitsBlock d block db db')
    (hdb : db.records.Committed) (hd : S (normalizeChainId d.chainId) = false) :
    db'.records.slice S = db.records.slice S := by
  obtain ⟨t, o, records, hins, hok⟩ := h.records
  obtain ⟨t', rfl, ht'⟩ := hins.ofChain
  exact Db.slice_blockTransaction t' (ht' ▸ hd) hdb.sound.2 hok

/-! ## Interleavings -/

/-- What happens to the tables: the transaction of a block, or a change of the number of recent
    transactions that a chain keeps. -/
inductive ChainEvent
  | transaction (t : ChainTransaction)
  | keepRecent (chainId : String) (keepRecentAccountTxCount : Option ℤ)

def ChainEvent.chainId : ChainEvent → String
  | .transaction t => t.chainId
  | .keepRecent chainId _ => chainId

/-- The tables after an event, and what its statements return. -/
def Db.afterEvent : ChainEvent → Db → Db × Except Error Unit
  | .transaction t, db => (db.afterTransaction t.toBlockTransaction,
      (db.blockTransaction t.toBlockTransaction).map fun _ => ())
  | .keepRecent chainId keep, db =>
    ({ db with chainInfo := db.chainInfo.insert chainId keep }, .ok ())

/-- The tables after the events, and what each of them has returned. -/
def Db.runEvents : List ChainEvent → Db → Db × List (String × Except Error Unit)
  | [], db => (db, [])
  | e :: events, db =>
    let after := db.afterEvent e
    let rest := Db.runEvents events after.1
    (rest.1, (e.chainId, after.2) :: rest.2)

section
variable {S : String → Bool} {db : Db} {e : ChainEvent}

/-- An event leaves the tables as they are between two transactions. -/
theorem Db.Sound.afterEvent (h : db.Sound)
    (hq : db.reducedRefCountRecentAccountTransaction.rows = []) (e : ChainEvent) :
    (db.afterEvent e).1.Sound ∧
      (db.afterEvent e).1.reducedRefCountRecentAccountTransaction.rows = [] := by
  cases e with
  | transaction t => exact h.afterTransaction hq t.toBlockTransaction
  | keepRecent chainId keep => exact ⟨h.of_others _ _, hq⟩

/-- An event of a chain of the slice. -/
theorem Db.afterEvent_slice (he : S e.chainId = true)
    (hq : db.reducedRefCountRecentAccountTransaction.rows = []) :
    (db.slice S).afterEvent e = ((db.afterEvent e).1.slice S, (db.afterEvent e).2) := by
  cases e with
  | keepRecent chainId keep =>
    have hinsert : (db.slice S).chainInfo.insert chainId keep =
        Map.slice S (db.chainInfo.insert chainId keep) := Map.insert_slice he
    exact congrArg (fun m => (({ db.slice S with chainInfo := m } : Db), Except.ok ())) hinsert
  | transaction t =>
    have ht : S t.chainId = true := he
    simp only [Db.afterEvent, Db.afterTransaction, Db.blockTransaction_slice t ht hq]
    cases db.blockTransaction t.toBlockTransaction <;> split_ifs <;> rfl

/-- An event of another chain. -/
theorem Db.slice_afterEvent (he : S e.chainId = false)
    (hq : db.reducedRefCountRecentAccountTransaction.rows = []) :
    (db.afterEvent e).1.slice S = db.slice S := by
  cases e with
  | keepRecent chainId keep =>
    exact congrArg (fun m => ({ db.slice S with chainInfo := m } : Db)) (Map.slice_insert he)
  | transaction t =>
    have ht : S t.chainId = false := he
    simp only [Db.afterEvent, Db.afterTransaction]
    cases hok : db.blockTransaction t.toBlockTransaction with
    | error err => split_ifs <;> rfl
    | ok db' =>
      split_ifs
      · exact Db.slice_blockTransaction t ht hq hok
      · rfl

/-- A run from tables between two transactions. -/
theorem Db.runEvents_slice (events : List ChainEvent) (h : db.Sound)
    (hq : db.reducedRefCountRecentAccountTransaction.rows = []) :
    Db.runEvents (events.filter fun e => S e.chainId) (db.slice S) =
      ((Db.runEvents events db).1.slice S,
        (Db.runEvents events db).2.filter fun returned => S returned.1) := by
  induction events generalizing db with
  | nil => rfl
  | cons e events ih =>
    obtain ⟨hs, hq'⟩ := h.afterEvent hq e
    cases he : S e.chainId with
    | true =>
      rw [List.filter_cons_of_pos (by exact he)]
      simp only [Db.runEvents, Db.afterEvent_slice he hq, ih hs hq']
      rw [List.filter_cons_of_pos (by exact he)]
    | false =>
      rw [List.filter_cons_of_neg (by simp [he]), ← Db.slice_afterEvent he hq, ih hs hq']
      simp only [Db.runEvents]
      rw [List.filter_cons_of_neg (by simp [he])]

end

/-- **Chains do not interfere.**  In every interleaving of the transactions of many chains, with
    the changes of what they keep, the rows of some of the chains, and what each of their
    transactions returns, are those of the run of these chains alone. -/
theorem runEvents_isolated (S : String → Bool) (chainInfo : Map String (Option ℤ))
    (events : List ChainEvent) :
    (Db.runEvents events (Db.empty chainInfo)).1.slice S =
        (Db.runEvents (events.filter fun e => S e.chainId) (Db.empty (chainInfo.slice S))).1 ∧
      ((Db.runEvents events (Db.empty chainInfo)).2.filter fun returned => S returned.1) =
        (Db.runEvents (events.filter fun e => S e.chainId) (Db.empty (chainInfo.slice S))).2 := by
  have h := Db.runEvents_slice (S := S) events (Db.Sound.empty chainInfo) rfl
  rw [Db.slice_empty] at h
  rw [h]
  exact ⟨rfl, rfl⟩

end RollappExplorer
