/-
  The transaction of a block succeeds.

  Its statements can only fail when a key is missing or a counter leaves its range: the keys are
  inserted before they are referred to, the counters of the accounts are reset, and a reference
  count is at most the number of references.

  * `BlockTransaction.Fits`: the transactions that are considered;
  * `Db.Sound.exists_blockTransaction`: they succeed.
-/
import RollappExplorer.Contracts

namespace RollappExplorer

open Go Sql

variable {db db' : Db} {p : Planner} {todo gone : List RefAccountToRecentTxRow}
  {new old : RefAccountToRecentTxRow}

/-! ## Updates -/

theorem smallint_eq {n : ℤ} (hlow : -32768 ≤ n) (hhigh : n ≤ 32767) : smallint n = .ok n := by
  have hrange : ¬ (n < -32768 ∨ 32767 < n) := by omega
  rw [smallint, failIf, if_neg hrange]
  rfl

theorem Db.exists_updateAccount {k : AccountKey} {f : AccountRow → Except Error AccountRow}
    (h : ∀ a ∈ db.account, a.key = k → ∃ b, f a = .ok b) :
    ∃ db', db.updateAccount p k f = .ok db' := by
  have hrow : ∀ a ∈ db.account, a.key = k →
      ∃ b, (do return trigger00100BeforeInsertOrUpdateAccount p (← f a)) = Except.ok b := by
    intro a ha hk
    obtain ⟨b, hb⟩ := h a ha hk
    exact ⟨_, by rw [hb]; rfl⟩
  obtain ⟨t, ht⟩ := Table.exists_update hrow
  exact ⟨{ db with account := t }, by rw [updateAccount, ht]; rfl⟩

theorem Db.exists_updateRefCount {k : TxKey} {f : ℤ → ℤ}
    (h : ∀ row ∈ db.recentAccountTransaction, row.key = k →
      -32768 ≤ f row.refCount ∧ f row.refCount ≤ 32767) :
    ∃ db', db.updateRefCount k f = .ok db' := by
  have hrow : ∀ row ∈ db.recentAccountTransaction, row.key = k →
      ∃ b, (do return row.setRefCount (← smallint (f row.refCount))) = Except.ok b := by
    intro row hrow hk
    obtain ⟨hlow, hhigh⟩ := h row hrow hk
    exact ⟨_, by rw [smallint_eq hlow hhigh]; rfl⟩
  obtain ⟨t, ht⟩ := Table.exists_update hrow
  exact ⟨{ db with recentAccountTransaction := t }, by rw [updateRefCount, ht]; rfl⟩

/-! ## References -/

theorem Db.Consistent.exists_trigger00300 (h : db.Consistent todo (old :: gone))
    (hfew : db.refAccountToRecentTx.rows.length + (old :: gone).length + todo.length ≤ 32767) :
    ∃ db', trigger00300AfterDeleteRefAccountToRecentTx db old = .ok db' ∧
      db'.refAccountToRecentTx = db.refAccountToRecentTx := by
  have hrow : ∀ row ∈ db.recentAccountTransaction, row.key = old.tx →
      -32768 ≤ row.refCount - 1 ∧ row.refCount - 1 ≤ 32767 := by
    intro row hrow hk
    have hcount := h.refCount row hrow
    have hgone := numRefs_le_length (old :: gone) row.key
    have hrefs := numRefs_le_length db.refAccountToRecentTx.rows row.key
    have htodo := numRefs_le_length todo row.key
    have hnonneg := numRefs_nonneg db.refAccountToRecentTx.rows row.key
    have hnonneg' := numRefs_nonneg (old :: gone) row.key
    have hnonneg'' := numRefs_nonneg todo row.key
    omega
  obtain ⟨db₁, h₁⟩ := Db.exists_updateRefCount (f := fun n => n - 1) hrow
  obtain ⟨t, rfl, -⟩ := Db.updateRefCount_ok h₁
  refine ⟨{ db with
    recentAccountTransaction := t
    reducedRefCountRecentAccountTransaction :=
      db.reducedRefCountRecentAccountTransaction.insert old.tx }, ?_, rfl⟩
  rw [trigger00300AfterDeleteRefAccountToRecentTx, h₁, ok_bind]
  rfl

theorem Db.Consistent.exists_deleteRefs {q : RefAccountToRecentTxRow → Bool}
    (h : db.Consistent todo [])
    (hq : ∀ ref ∈ db.refAccountToRecentTx, q ref = true → db.account.Has ref.account)
    (hfew : db.refAccountToRecentTx.rows.length + todo.length ≤ 32767) :
    ∃ db', db.deleteRefs q = .ok db' := by
  refine foldlM_proceeds (J := fun gone s => Db.Consistent todo gone s ∧
    s.refAccountToRecentTx.rows.length + gone.length + todo.length ≤ 32767) ?_
    ⟨h.removeRefs hq, ?_⟩
  · rintro old gone s ⟨hs, hfew⟩
    obtain ⟨s', he, hrefs⟩ := hs.exists_trigger00300 hfew
    refine ⟨s', he, hs.trigger00300 he, ?_⟩
    rw [hrefs]
    rw [List.length_cons] at hfew
    omega
  · have hsplit := List.length_eq_length_filter_add (l := db.refAccountToRecentTx.rows) q
    show (db.refAccountToRecentTx.rows.filter fun ref => !q ref).length + _ + _ ≤ _
    omega

/-- The triggers of an inserted reference whose keys exist succeed. -/
theorem Db.Consistent.exists_afterInsertRef (h : db.Consistent (new :: todo) [])
    (hcounters : db.CountersWithin fun _ => 9) (haccount : db.account.Has new.account)
    (htx : db.recentAccountTransaction.Has new.tx)
    (hfew : db.refAccountToRecentTx.rows.length + (new :: todo).length ≤ 32767) :
    ∃ db', db.afterInsertRef p new = .ok db' := by
  have hcounter : ∀ a ∈ db.account, a.key = new.account → ∃ b,
      (do return a.setCounter (← smallint (a.continousInsertRefCurTxCounter + 1))) =
        Except.ok b := by
    intro a ha _
    obtain ⟨hlow, hhigh⟩ : 0 ≤ a.continousInsertRefCurTxCounter ∧
      a.continousInsertRefCurTxCounter ≤ 9 := hcounters a ha
    exact ⟨_, by rw [smallint_eq (by omega) (by omega)]; rfl⟩
  obtain ⟨db₁, h₁⟩ := Db.exists_updateAccount (p := p) hcounter
  obtain ⟨t, ht⟩ : ∃ t, db₁ = { db with account := t } := by
    obtain ⟨t, -, h₁⟩ := bind_ok_iff.1 h₁
    exact ⟨t, (Except.ok.inj h₁).symm⟩
  have hcount : ∀ row ∈ db₁.recentAccountTransaction, row.key = new.tx →
      -32768 ≤ row.refCount + 1 ∧ row.refCount + 1 ≤ 32767 := by
    subst ht
    intro row hrow hk
    have hcount := h.refCount row hrow
    rw [numRefs_nil, numRefs_cons, if_pos hk] at hcount
    have hrefs := numRefs_le_length db.refAccountToRecentTx.rows row.key
    have htodo := numRefs_le_length todo row.key
    have hnonneg := numRefs_nonneg db.refAccountToRecentTx.rows row.key
    have hnonneg' := numRefs_nonneg todo row.key
    rw [List.length_cons] at hfew
    omega
  obtain ⟨db₂, h₂⟩ := Db.exists_updateRefCount (f := fun n => n + 1) hcount
  have h₃ : trigger00100AfterInsertRefAccountToRecentTx p new db = .ok db₂ := by
    rw [trigger00100AfterInsertRefAccountToRecentTx, h₁, ok_bind, h₂]
  obtain ⟨hs, hhas⟩ := h.trigger00100 (fun _ => ⟨haccount, htx⟩) h₃
  have hrefs : db₂.refAccountToRecentTx = db.refAccountToRecentTx := by
    obtain ⟨t, r, rfl, -⟩ := trigger00100AfterInsertRefAccountToRecentTx_ok h₃
    rfl
  have h₄ : ∃ db', trigger00200AfterInsertRefAccountToRecentTx p new db₂ = .ok db' := by
    unfold trigger00200AfterInsertRefAccountToRecentTx
    simp only []
    split_ifs
    · obtain ⟨db₃, h₄⟩ : ∃ db₃, db₂.deleteRefs (db₂.isPruned new) = .ok db₃ := by
        refine hs.exists_deleteRefs (fun ref _ hp => ?_) ?_
        · rw [Db.isPruned, Bool.and_eq_true, decide_eq_true_eq] at hp
          exact hp.1 ▸ hhas
        · rw [hrefs]
          rw [List.length_cons] at hfew
          omega
      obtain ⟨db₄, h₅⟩ := db₃.exists_updateAccount (p := p) (k := new.account)
        (f := fun row => .ok (row.setCounter 0)) fun a _ _ => ⟨_, rfl⟩
      exact ⟨db₄, by rw [h₄, ok_bind, h₅]⟩
    · exact ⟨db₂, rfl⟩
  obtain ⟨db', h₄⟩ := h₄
  refine ⟨db', ?_⟩
  rw [Db.afterInsertRef]
  split_ifs
  · rw [foreignKey_ok_iff (u := ()) |>.2 haccount, ok_bind,
      foreignKey_ok_iff (u := ()) |>.2 htx, ok_bind, h₃, ok_bind, h₄]
  · rw [h₃, ok_bind, h₄]

/-- The triggers keep all keys, and add no references. -/
theorem Db.afterInsertRef_keys (he : db.afterInsertRef p new = .ok db') :
    (∀ k, db'.account.Has k ↔ db.account.Has k) ∧
      (∀ k, db'.recentAccountTransaction.Has k ↔ db.recentAccountTransaction.Has k) ∧
      db'.refAccountToRecentTx.rows.length ≤ db.refAccountToRecentTx.rows.length := by
  obtain ⟨-, db₁, h₁, h₂⟩ := Db.afterInsertRef_ok he
  obtain ⟨t, r, rfl, ht, -, hr, -⟩ := trigger00100AfterInsertRefAccountToRecentTx_ok h₁
  rcases trigger00200AfterInsertRefAccountToRecentTx_cases h₂ with
    ⟨-, db₂, t', hdel, rfl, ht', -⟩ | ⟨rfl, -⟩
  · obtain ⟨r', u, hr', rfl⟩ := Db.deleteRefs_ok hdel
    exact ⟨fun k => (ht' k).trans (ht k), fun k => (hr' k).trans (hr k),
      List.length_filter_le _ _⟩
  · exact ⟨ht, hr, le_rfl⟩

/-- References whose keys exist are inserted. -/
theorem Db.Sound.exists_insertRefs (h : db.Sound) {refs : List RecordRefAccountToRecentTx}
    (hkeys : ∀ ref ∈ refs,
      db.account.Has ref.row.account ∧ db.recentAccountTransaction.Has ref.row.tx)
    (hfew : db.refAccountToRecentTx.rows.length + 2 * refs.length ≤ 32767) :
    ∃ db', db.insertRefs p refs = .ok db' := by
  refine foldlM_proceeds (J := fun todo s => (s.Consistent todo [] ∧ s.CountersWithin fun _ => 9) ∧
    (∀ ref ∈ todo, s.account.Has ref.account ∧ s.recentAccountTransaction.Has ref.tx) ∧
    s.refAccountToRecentTx.rows.length + todo.length ≤ 32767) ?_
    ⟨⟨h.consistent.writeRefs refs, h.counters⟩, fun ref href => ?_, ?_⟩
  · rintro new todo s ⟨⟨hs, hc⟩, hkeys, hfew⟩
    obtain ⟨⟨haccount, htx⟩, hrest⟩ := List.forall_mem_cons.1 hkeys
    obtain ⟨s', he⟩ := hs.exists_afterInsertRef hc haccount htx hfew
    obtain ⟨ha, hr, hlen⟩ := Db.afterInsertRef_keys he
    refine ⟨s', he, ⟨hs.afterInsertRef he, hc.afterInsertRef he⟩, fun ref href => ?_, ?_⟩
    · exact ⟨(ha _).2 (hrest ref href).1, (hr _).2 (hrest ref href).2⟩
    · rw [List.length_cons] at hfew
      omega
  · obtain ⟨record, hm, rfl⟩ := List.mem_map.1 ((Table.insertAll_sublist _ _).subset href)
    exact hkeys record hm
  · have hle := (Table.insertAll_sublist (refs.map (·.row)) db.refAccountToRecentTx).length_le
    have hrows := congrArg List.length
      (Table.insertAll_rows (refs.map (·.row)) db.refAccountToRecentTx)
    rw [List.length_append] at hrows
    rw [List.length_map] at hle
    show (Table.insertAll _ _).1.rows.length + (Table.insertAll _ _).2.length ≤ 32767
    omega

/-! ## Transactions -/

theorem Db.exists_insertAccount {record : RecordAccount} (h : record.chainId ∈ db.chainInfo) :
    ∃ db', db.insertAccount p record = .ok db' := by
  unfold insertAccount
  simp only []
  split_ifs
  · exact Db.exists_updateAccount fun _ _ _ => ⟨_, rfl⟩
  · have hchain : foreignKey ((trigger00100BeforeInsertOrUpdateAccount p record.row).chainId ∈
        db.chainInfo) "account_to_chain_info_fkey" = .ok () := foreignKey_ok_iff.2 h
    rw [hchain]
    exact ⟨_, rfl⟩

/-- Accounts of known chains are inserted, and exist afterwards. -/
theorem Db.exists_insertAccounts {accounts : List RecordAccount}
    (hnodup : (accounts.map fun account => account.row.key).Nodup)
    (hchains : ∀ account ∈ accounts, account.chainId ∈ db.chainInfo) :
    ∃ db', db.insertAccounts p accounts = .ok db' := by
  have hcheck : failIf (¬ (accounts.map fun account => account.row.key).Nodup)
      "ON CONFLICT DO UPDATE command cannot affect row a second time" = .ok () :=
    failIf_ok_iff.2 (not_not.2 hnodup)
  rw [insertAccounts, hcheck, ok_bind]
  refine foldlM_proceeds (J := fun todo s => s.chainInfo = db.chainInfo ∧
    ∀ account ∈ todo, account.chainId ∈ db.chainInfo) ?_ ⟨rfl, hchains⟩
  rintro account todo s ⟨hs, htodo⟩
  obtain ⟨hchain, hrest⟩ := List.forall_mem_cons.1 htodo
  obtain ⟨s', he⟩ := Db.exists_insertAccount (p := p) (hs.symm ▸ hchain)
  obtain ⟨t, rfl, -⟩ := Db.insertAccount_ok he
  exact ⟨_, he, hs, hrest⟩

/-- The records of a transaction have partitions, and the rows they refer to. -/
structure BlockTransaction.Fits (t : BlockTransaction) (db : Db) : Prop where
  txs : ∃ rows, t.recordsTxs.mapM (RecordTransaction.row t.now) = .ok rows ∧
    ∀ row ∈ rows, row.chainId ∈ db.chainInfo
  accounts : (t.involvedAccounts.map fun account => account.row.key).Nodup ∧
    ∀ account ∈ t.involvedAccounts, account.chainId ∈ db.chainInfo
  refs : ∀ ref ∈ t.refAccountToRecentTxs,
    (∃ account ∈ t.involvedAccounts, account.row.key = ref.row.account) ∧
      ∃ tx ∈ t.recentAccountTxs, tx.row.key = ref.row.tx
  few : db.refAccountToRecentTx.rows.length + 2 * t.refAccountToRecentTxs.length ≤ 32767

/-- **The transaction of a block succeeds.** -/
theorem Db.Sound.exists_blockTransaction (h : db.Sound) {t : BlockTransaction} (ht : t.Fits db) :
    ∃ db', db.blockTransaction t = .ok db' := by
  obtain ⟨rows, hrows, hchains⟩ := ht.txs
  have hchain : foreignKey (∀ row ∈ (Table.insertAll rows db.transaction).2,
      row.chainId ∈ db.chainInfo) "transaction_to_chain_info_fkey" = .ok () :=
    foreignKey_ok_iff.2 fun row hrow => hchains row ((Table.insertAll_sublist _ _).subset hrow)
  have h₁ : db.insertTransactions t.now t.recordsTxs =
      .ok { db with transaction := (Table.insertAll rows db.transaction).1 } := by
    rw [Db.insertTransactions, hrows, ok_bind]
    simp only [hchain, ok_bind]
    rfl
  have hs₁ := h.insertTransactions h₁
  obtain ⟨db₂, h₂⟩ : ∃ db₂, Db.insertAccounts t.accountsPlanner t.involvedAccounts { db with
      transaction := (Table.insertAll rows db.transaction).1 } = .ok db₂ :=
    Db.exists_insertAccounts ht.accounts.1 ht.accounts.2
  have hs₂ := hs₁.insertAccounts h₂
  have hcovers := Db.insertAccounts_covers h₂
  obtain ⟨a, rfl⟩ := Db.insertAccounts_frame h₂
  have hs₃ := hs₂.insertRecentAccountTransactions t.recentAccountTxs
  obtain ⟨u, h₃, -⟩ := Db.insertRecentAccountTransactions_eq t.recentAccountTxs _
  rw [h₃] at hs₃
  have hkeys : ∀ ref ∈ t.refAccountToRecentTxs, a.Has ref.row.account ∧
      (Table.insertAll (t.recentAccountTxs.map (·.row)) db.recentAccountTransaction).1.Has
        ref.row.tx := by
    intro ref href
    obtain ⟨⟨account, ha, hk⟩, tx, hm, hkey⟩ := ht.refs ref href
    obtain ⟨row, hrow, hrowkey, -⟩ := hcovers account ha
    exact ⟨hk ▸ hrowkey ▸ Table.has_of_mem hrow,
      hkey ▸ Table.insertAll_has (List.mem_map_of_mem hm)⟩
  obtain ⟨db₄, h₄⟩ := hs₃.exists_insertRefs (p := t.refsPlanner) hkeys ht.few
  have hins : db.insertBlockInformation t = .ok db₄ := by
    rw [Db.insertBlockInformation, h₁, ok_bind, h₂, ok_bind, h₃, h₄]
  obtain ⟨r, u', h₅, -⟩ := (hs₃.insertRefs h₄).consistent.cleanup
  exact ⟨_, by rw [Db.blockTransaction, hins, ok_bind, h₅]⟩

end RollappExplorer
