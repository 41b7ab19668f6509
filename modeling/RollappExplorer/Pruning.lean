/-
  The pruning of references.

  Every tenth reference that is inserted for an account prunes the references of the account:
  those at the most recent heights stay, of all and of each type.

  * `Db.DeletesRef`: a reference is deleted while a statement inserts references;
  * `pruning_keeps_recent`: no deleted reference was among the most recent ones, only
    references of the account are deleted, and the references that stay are bounded.
-/
import RollappExplorer.References

namespace RollappExplorer

open Go Sql

variable {db db' dbm : Db} {p : Planner} {todo : List RefAccountToRecentTxRow}
  {new ref : RefAccountToRecentTxRow} {refs : List RecordRefAccountToRecentTx} {k : AccountKey}
  {n : ℤ}

/-! ## Deletions -/

/-- While the statement that inserts `refs` into `db` is executed, a trigger of `new` deletes
    `ref`; `dbm` are the tables at this moment. -/
def Db.DeletesRef (p : Planner) (refs : List RecordRefAccountToRecentTx)
    (new ref : RefAccountToRecentTxRow) (db dbm : Db) : Prop :=
  ∃ done todo db₁ db₂, (db.writeRefs refs).2 = done ++ new :: todo ∧
    done.foldlM (Db.afterInsertRef p) (db.writeRefs refs).1 = .ok db₁ ∧
    trigger00100AfterInsertRefAccountToRecentTx p new db₁ = .ok dbm ∧
    trigger00200AfterInsertRefAccountToRecentTx p new dbm = .ok db₂ ∧
    ref ∈ dbm.refAccountToRecentTx ∧ ref ∉ db₂.refAccountToRecentTx

/-- The reference is among the `n` highest ones of its account and of the type, those of the
    same height included. -/
def Db.IsRecent (n : ℤ) (type : RefAccountToRecentTxRow → Bool) (ref : RefAccountToRecentTxRow)
    (db : Db) : Prop :=
  type ref = true ∧
    ((db.refsOf ref.account type).countP fun ref' => ref.height < ref'.height) < n

/-- What is missing after a statement was deleted while it was executed. -/
theorem Db.insertRefs_deletes (he : db.insertRefs p refs = .ok db')
    (hm : ref ∈ (db.writeRefs refs).1.refAccountToRecentTx)
    (hn : ref ∉ db'.refAccountToRecentTx) : ∃ new dbm, db.DeletesRef p refs new ref dbm := by
  obtain ⟨done, new, todo, db₁, db₂, hl, h₁, h₂, hin, hout⟩ :=
    foldlM_ends (P := fun s : Db => ref ∈ s.refAccountToRecentTx) hm hn he
  obtain ⟨-, dbm, hm₁, hm₂⟩ := Db.afterInsertRef_ok h₂
  refine ⟨new, dbm, done, todo, db₁, db₂, hl, h₁, hm₁, hm₂, ?_, hout⟩
  obtain ⟨t, r, rfl, -⟩ := trigger00100AfterInsertRefAccountToRecentTx_ok hm₁
  exact hin

/-- A height that is not kept is below as many heights of each of its types as are kept. -/
theorem Db.not_isRecent_of_not_mem_keptHeights
    (hkeep : pruningKeepRecent db.chainInfo ref.chainId = some n)
    (hm : ref ∈ db.refAccountToRecentTx) (hn : ref.height ∉ db.keptHeights ref.account)
    {type : RefAccountToRecentTxRow → Bool} (htype : type ∈ RefAccountToRecentTxRow.types) :
    ¬ db.IsRecent n type ref := by
  rintro ⟨htrue, hlt⟩
  have hmem : ref.height ∈ (db.refsOf ref.account type).map (·.height) :=
    List.mem_map_of_mem (List.mem_filter.2 ⟨hm, by simp [htrue]⟩)
  have hcut : ref.height ∉ recentHeights (db.refsOf ref.account type) (some n) := by
    intro hin
    refine hn (List.mem_flatMap.2 ⟨type, htype, ?_⟩)
    show ref.height ∈ recentHeights _ (pruningKeepRecent db.chainInfo ref.chainId)
    rwa [hkeep]
  have hle := le_countP_of_not_mem_limit hmem hcut
  rw [List.countP_map] at hle
  exact absurd (Int.lt_of_le_of_lt hle hlt) (Int.lt_irrefl n)

/-- What the pruning deletes. -/
theorem Db.DeletesRef.isPruned (h : db.DeletesRef p refs new ref dbm) :
    ref.account = new.account ∧ ref ∈ dbm.refAccountToRecentTx ∧
      ref.height ∉ dbm.keptHeights ref.account ∧ dbm.chainInfo = db.chainInfo := by
  obtain ⟨done, todo, db₁, db₂, -, hdone, h₁, h₂, hin, hout⟩ := h
  have hchain : db₁.chainInfo = db.chainInfo :=
    foldlM_pending (J := fun _ s => s.chainInfo = db.chainInfo)
      (fun _ _ _ _ hs he => (Db.afterInsertRef_frame he).1.trans hs) rfl hdone
  have hchain' : dbm.chainInfo = db₁.chainInfo := by
    obtain ⟨t, r, rfl, -⟩ := trigger00100AfterInsertRefAccountToRecentTx_ok h₁
    rfl
  rcases trigger00200AfterInsertRefAccountToRecentTx_cases h₂ with
    ⟨-, db₃, t, hdel, rfl, -⟩ | ⟨rfl, -⟩
  · obtain ⟨r, u, -, rfl⟩ := Db.deleteRefs_ok hdel
    have hpruned : dbm.isPruned new ref = true := by
      by_contra hp
      exact hout (Table.mem_delete.2 ⟨hin, Bool.eq_false_iff.2 hp⟩)
    rw [Db.isPruned, Bool.and_eq_true, decide_eq_true_eq, decide_eq_true_eq] at hpruned
    exact ⟨hpruned.1, hin, hpruned.1 ▸ hpruned.2, hchain'.trans hchain⟩
  · exact absurd hin hout

/-! ## Heights -/

/-- The heights of the references of an account. -/
def Db.heights (k : AccountKey) (db : Db) : List ℤ := (db.refsOf k fun _ => true).map (·.height)

theorem Db.mem_heights {h : ℤ} :
    h ∈ db.heights k ↔ ∃ ref ∈ db.refAccountToRecentTx, ref.account = k ∧ ref.height = h := by
  simp only [heights, refsOf, List.mem_map, List.mem_filter, Bool.and_true, decide_eq_true_eq,
    and_assoc, Table.mem_def]

theorem length_dedup_le {l l' : List ℤ} (h : l ⊆ l') : l.dedup.length ≤ l'.length :=
  (List.subperm_of_subset (List.nodup_dedup l) fun _ ha => h (List.mem_dedup.1 ha)).length_le

theorem Db.length_keptHeights_le (hkeep : pruningKeepRecent db.chainInfo k.chainId = some n)
    (hn : 0 ≤ n) : ((db.keptHeights k).length : ℤ) ≤ 4 * n := by
  have hlen : ∀ type, ((recentHeights (db.refsOf k type) (some n)).length : ℤ) ≤ n :=
    fun type => length_limit_le hn _
  simp only [keptHeights, hkeep, RefAccountToRecentTxRow.types, List.flatMap_cons,
    List.flatMap_nil, List.length_append, List.length_nil]
  have h₁ := hlen fun _ => true
  have h₂ := hlen fun ref => (isTrue ref.signer).passes
  have h₃ := hlen fun ref => (isTrue ref.erc20).passes
  have h₄ := hlen fun ref => (isTrue ref.nft).passes
  omega

/-- The heights of an account that is pruned. -/
theorem Db.heights_pruned_subset {r : Table RecentAccountTransactionRow.key}
    {u : Table (id : TxKey → TxKey)} : Db.heights new.account { db with
      recentAccountTransaction := r
      reducedRefCountRecentAccountTransaction := u
      refAccountToRecentTx := db.refAccountToRecentTx.delete (db.isPruned new) } ⊆
    db.keptHeights new.account := by
  intro h hh
  obtain ⟨ref, href, hk, rfl⟩ := Db.mem_heights.1 hh
  obtain ⟨-, hp⟩ := Table.mem_delete.1 href
  by_contra hn
  simp [Db.isPruned, hk, hn] at hp

/-- The number of heights of an account when the triggers of `todo` have still to fire. -/
structure Db.HeightsWithin (k : AccountKey) (n : ℤ) (todo : List RefAccountToRecentTxRow)
    (db : Db) : Prop where
  keep : pruningKeepRecent db.chainInfo k.chainId = some n
  heights : ∀ row ∈ db.account, row.key = k → ((db.heights k).dedup.length : ℤ) ≤
    4 * n + row.continousInsertRefCurTxCounter + todo.countP (·.account = k)

theorem Db.HeightsWithin.afterInsertRef (h : db.HeightsWithin k n (new :: todo)) (hn : 0 ≤ n)
    (he : db.afterInsertRef p new = .ok db') : db'.HeightsWithin k n todo := by
  refine ⟨(Db.afterInsertRef_frame he).1.symm ▸ h.keep, ?_⟩
  obtain ⟨-, db₁, h₁, h₂⟩ := Db.afterInsertRef_ok he
  obtain ⟨t, r, rfl, -, hmem, -, -⟩ := trigger00100AfterInsertRefAccountToRecentTx_ok h₁
  have hcount : ∀ row ∈ t, row.key = k → ((db.heights k).dedup.length : ℤ) ≤
      4 * n + row.continousInsertRefCurTxCounter + todo.countP (·.account = k) := by
    intro row hrow hk
    obtain ⟨a, ha, rfl⟩ := (hmem row).1 hrow
    have hak : a.key = k := by
      split_ifs at hk
      · exact hk
      · exact hk
    have hold := h.heights a ha hak
    rw [List.countP_cons] at hold
    split_ifs with hnew
    · rw [if_pos (decide_eq_true (hnew.symm.trans hak))] at hold
      show _ ≤ 4 * n + (a.continousInsertRefCurTxCounter + 1) + _
      push_cast at hold
      omega
    · rw [if_neg (by simp [← hak, Ne.symm hnew])] at hold
      exact hold
  rcases trigger00200AfterInsertRefAccountToRecentTx_cases h₂ with
    ⟨-, db₂, t', hdel, rfl, -, hmem'⟩ | ⟨rfl, -⟩
  · obtain ⟨r', u, -, rfl⟩ := Db.deleteRefs_ok hdel
    intro row hrow hk
    obtain ⟨a, ha, rfl⟩ := (hmem' row).1 hrow
    split_ifs at hk ⊢ with hnew
    · -- the account is pruned: what stays is at the heights that are kept
      obtain rfl : new.account = k := hnew.symm.trans hk
      let db₁ : Db := { db with account := t, recentAccountTransaction := r }
      have hkept : (Db.heights new.account { db₁ with
          recentAccountTransaction := r'
          reducedRefCountRecentAccountTransaction := u
          refAccountToRecentTx := db₁.refAccountToRecentTx.delete (db₁.isPruned new) }).dedup.length
          ≤ (db₁.keptHeights new.account).length := length_dedup_le Db.heights_pruned_subset
      have hle : ((db₁.keptHeights new.account).length : ℤ) ≤ 4 * n :=
        Db.length_keptHeights_le h.keep hn
      show _ ≤ 4 * n + 0 + _
      exact (Int.ofNat_le.2 hkept).trans (by omega)
    · -- another account is pruned
      refine (Int.ofNat_le.2 ?_).trans (hcount a ha hk)
      refine length_dedup_le fun h hh => List.mem_dedup.2 ?_
      obtain ⟨ref, href, hx⟩ := Db.mem_heights.1 hh
      exact Db.mem_heights.2 ⟨ref, (Table.mem_delete.1 href).1, hx⟩
  · exact hcount

/-- The references are written before their triggers fire. -/
theorem Db.HeightsWithin.writeRefs (h : db.HeightsWithin k n [])
    (refs : List RecordRefAccountToRecentTx) :
    (db.writeRefs refs).1.HeightsWithin k n (db.writeRefs refs).2 := by
  refine ⟨h.keep, fun row hrow hk => ?_⟩
  have hold := h.heights row hrow hk
  have hsub : ((db.writeRefs refs).1.heights k) ⊆ (db.heights k).dedup ++
      ((db.writeRefs refs).2.filter (·.account = k)).map (·.height) := by
    intro height hh
    obtain ⟨ref, href, hx, rfl⟩ := Db.mem_heights.1 hh
    rw [List.mem_append, List.mem_dedup]
    rcases Table.mem_insertAll.1 href with href | href
    · exact .inl (Db.mem_heights.2 ⟨ref, href, hx, rfl⟩)
    · exact .inr (List.mem_map_of_mem (List.mem_filter.2 ⟨href, decide_eq_true hx⟩))
  have hle := length_dedup_le hsub
  rw [List.length_append, List.length_map, ← List.countP_eq_length_filter] at hle
  rw [List.countP_nil] at hold
  omega

/-- Accounts may change, and be added without references. -/
theorem Db.HeightsWithin.of_account (h : db.HeightsWithin k n []) (hn : 0 ≤ n)
    {t : Table AccountRow.key}
    (ht : ∀ row ∈ t, (∃ a ∈ db.account, a.key = row.key ∧
        a.continousInsertRefCurTxCounter = row.continousInsertRefCurTxCounter) ∨
      (¬ db.account.Has row.key ∧ 0 ≤ row.continousInsertRefCurTxCounter))
    (hrefs : ∀ ref ∈ db.refAccountToRecentTx, db.account.Has ref.account) :
    Db.HeightsWithin k n [] { db with account := t } := by
  refine ⟨h.keep, fun row hrow hk => ?_⟩
  rcases ht row hrow with ⟨a, ha, hkey, hc⟩ | ⟨hnew, hc⟩
  · exact hc ▸ h.heights a ha (hkey.trans hk)
  · have hnil : db.heights k = [] := by
      refine List.eq_nil_iff_forall_not_mem.2 fun height hh => hnew ?_
      obtain ⟨ref, href, hx, -⟩ := Db.mem_heights.1 hh
      exact hk ▸ hx ▸ hrefs ref href
    show ((db.heights k).dedup.length : ℤ) ≤ _
    rw [hnil, List.dedup_nil, List.length_nil, List.countP_nil]
    omega

theorem Db.HeightsWithin.insertAccount (hs : db.Sound) (h : db.HeightsWithin k n []) (hn : 0 ≤ n)
    {record : RecordAccount} (he : db.insertAccount p record = .ok db') :
    db'.HeightsWithin k n [] := by
  obtain ⟨t, rfl, -, hmem⟩ := Db.insertAccount_ok he
  refine h.of_account hn (fun row hrow => ?_) fun ref href => (hs.consistent.refs_nil href).1
  rcases (hmem row).1 hrow with ⟨a, ha, rfl⟩ | ⟨hnew, rfl⟩
  · refine .inl ⟨a, ha, ?_⟩
    split_ifs
    · exact ⟨rfl, rfl⟩
    · exact ⟨rfl, rfl⟩
  · exact .inr ⟨hnew, Int.le_refl 0⟩

/-- Every statement keeps the bound. -/
theorem Db.HeightsWithin.exec (hs : db.Sound) (h : db.HeightsWithin k n []) (hn : 0 ≤ n)
    {now : ℤ} {stmt : Stmt} (he : db.exec p now stmt = .ok db') : db'.HeightsWithin k n [] := by
  cases stmt with
  | insertTransactions txs =>
    obtain ⟨rows, -, rfl⟩ := Db.insertTransactions_ok he
    exact ⟨h.keep, h.heights⟩
  | insertAccounts accounts =>
    obtain ⟨-, he⟩ := bind_unit_ok_iff.1 he
    exact (foldlM_pending (J := fun _ s => s.Sound ∧ s.HeightsWithin k n [])
      (fun _ _ _ _ hJ he => ⟨hJ.1.insertAccount he, hJ.2.insertAccount hJ.1 hn he⟩)
      ⟨hs, h⟩ he).2
  | insertRecentAccountTransactions txs =>
    obtain ⟨u, hu, -⟩ := Db.insertRecentAccountTransactions_eq txs db
    obtain rfl := hu.symm.trans (Except.ok.inj he)
    exact ⟨h.keep, h.heights⟩
  | insertRefAccountToRecentTx refs =>
    exact foldlM_pending (J := fun todo s => s.HeightsWithin k n todo)
      (fun _ _ _ _ hJ he => hJ.afterInsertRef hn he) (h.writeRefs refs) he
  | cleanupZeroRefCount =>
    obtain ⟨r, u, hu, -⟩ := hs.consistent.cleanup
    obtain rfl := Except.ok.inj (hu.symm.trans he)
    exact ⟨h.keep, h.heights⟩
  | updateLatestIndexedBlock height now => exact Except.ok.inj he ▸ h
  | upsertFailedBlocks now errs heights => exact Except.ok.inj he ▸ h
  | deleteFailedBlock height => exact Except.ok.inj he ▸ h

/-! ## Sequences of statements -/

/-- `pruning_keep_recent` of a chain. -/
theorem pruningKeepRecent_eq {chainInfo : Map String (Option ℤ)} {chainId : String}
    {keep : Option ℤ} (h : chainInfo.lookup chainId = some keep) :
    pruningKeepRecent chainInfo chainId = some (max (keep.getD 50) 50) := by
  rw [pruningKeepRecent, h]
  rfl

theorem Db.Reached.heightsWithin {keep : Option ℤ}
    (h : Db.Reached (fun chainInfo => chainInfo.lookup k.chainId = some keep) db) :
    db.HeightsWithin k (max (keep.getD 50) 50) [] := by
  induction h with
  | empty chainInfo hC => exact ⟨pruningKeepRecent_eq hC, nofun⟩
  | chainInfo chainInfo h hC ih => exact ⟨pruningKeepRecent_eq hC, ih.heights⟩
  | @exec db p now stmt h ih =>
    cases he : db.exec p now stmt with
    | error e => exact ih
    | ok db' => exact ih.exec h.sound (by omega) he

/-- **Pruning keeps the recent history and bounds the rest.**  For every account of a chain whose
    `keep_recent_account_tx_count` is `keep`, after every sequence of statements: a reference of
    the account is deleted, while the next references are inserted, only by a trigger of one of
    the account, and not when a reference at its height is among the most recent ones of some
    type; what the statement leaves out is deleted so.  The references of the account are at a
    bounded number of heights. -/
theorem pruning_keeps_recent (account : AccountKey) (keep : Option ℤ) (db : Db)
    (h : Db.Reached (fun chainInfo => chainInfo.lookup account.chainId = some keep) db) :
    (∀ p refs new ref dbm, db.DeletesRef p refs new ref dbm → ref.account = account →
      new.account = account ∧
      ∀ type ∈ RefAccountToRecentTxRow.types, ∀ ref' ∈ dbm.refAccountToRecentTx,
        ref'.account = account → ref'.height = ref.height →
          ¬ dbm.IsRecent (max (keep.getD 50) 50) type ref') ∧
    (∀ p refs db', db.insertRefs p refs = .ok db' →
      ∀ ref ∈ (db.writeRefs refs).1.refAccountToRecentTx, ref ∉ db'.refAccountToRecentTx →
        ∃ new dbm, db.DeletesRef p refs new ref dbm) ∧
    ((db.heights account).dedup.length : ℤ) ≤ 4 * max (keep.getD 50) 50 + 9 := by
  have hw := h.heightsWithin
  refine ⟨fun p refs new ref dbm hd hk => ?_, fun p refs db' he ref hm hn =>
    Db.insertRefs_deletes he hm hn, ?_⟩
  · obtain ⟨hnew, -, hcut, hchain⟩ := hd.isPruned
    refine ⟨hnew.symm.trans hk, fun type htype ref' href' hk' hheight => ?_⟩
    refine Db.not_isRecent_of_not_mem_keptHeights ?_ href' ?_ htype
    · have hid : ref'.chainId = account.chainId := congrArg AccountKey.chainId hk'
      rw [hchain, hid]
      exact hw.keep
    · rwa [hheight, hk', ← hk]
  · by_cases hhas : db.account.Has account
    · obtain ⟨row, hrow, hk⟩ := Table.has_iff.1 hhas
      have hle := hw.heights row hrow hk
      have hcounter : row.continousInsertRefCurTxCounter ≤ 9 := (h.sound.counters row hrow).2
      rw [List.countP_nil] at hle
      omega
    · have hnil : db.heights account = [] := by
        refine List.eq_nil_iff_forall_not_mem.2 fun height hh => hhas ?_
        obtain ⟨ref, href, hx, -⟩ := Db.mem_heights.1 hh
        exact hx ▸ (h.sound.consistent.refs_nil href).1
      rw [hnil, List.dedup_nil, List.length_nil]
      omega

/-- References of an account at the heights from one to fifty-one. -/
def manyRefs : List RecordRefAccountToRecentTx := (List.range 51).map fun h =>
  newRecordRefAccountToRecentTxForInsert "rollapp_1-1" "rol1a" (h + 1) "AA"

/-- The transactions that they refer to. -/
def manyTxs : List RecordRecentAccountTransaction := (List.range 51).map fun h =>
  newRecordRecentAccountTransactionForInsert "rollapp_1-1" (h + 1) "AA" 1720000000 ["msg"]

/-- The tables before these references are inserted. -/
def beforeManyRefs : Db :=
  let db := (Db.empty sampleChains).orSelf ((Db.empty sampleChains).exec default 0
    (.insertAccounts sampleBlockTransaction.involvedAccounts))
  db.orSelf (db.exec default 0 (.insertRecentAccountTransactions manyTxs))

theorem beforeManyRefs_reached :
    Db.Reached (fun chainInfo => chainInfo.lookup "rollapp_1-1" = some none) beforeManyRefs :=
  .exec default 0 (.insertRecentAccountTransactions manyTxs) <|
    .exec default 0 (.insertAccounts sampleBlockTransaction.involvedAccounts) <|
    .empty sampleChains (by decide)

/-- What is left of these references. -/
theorem insertRefs_manyRefs : ∃ db', beforeManyRefs.insertRefs default manyRefs = .ok db' ∧
    db'.heights ⟨"rollapp_1-1", "rol1a"⟩ = (List.range 50).map fun h : ℕ => (h : ℤ) + 2 := by
  have h : (beforeManyRefs.insertRefs default manyRefs).toOption.map
      (Db.heights ⟨"rollapp_1-1", "rol1a"⟩) =
        some ((List.range 50).map fun h : ℕ => (h : ℤ) + 2) := by
    decide +kernel
  cases he : beforeManyRefs.insertRefs default manyRefs with
  | error err =>
    rw [he] at h
    cases h
  | ok db' =>
    rw [he] at h
    exact ⟨db', rfl, Option.some.inj h⟩

/-- The oldest one of these references is deleted, and was not among the fifty most recent. -/
theorem pruning_keeps_recent_oldest : ∃ (db db' : Db) (ref new : RefAccountToRecentTxRow)
    (dbm : Db), db.insertRefs default manyRefs = .ok db' ∧ ref.height = 1 ∧
      db'.heights ⟨"rollapp_1-1", "rol1a"⟩ = ((List.range 50).map fun h : ℕ => (h : ℤ) + 2) ∧
      db.DeletesRef default manyRefs new ref dbm ∧ new.account = ⟨"rollapp_1-1", "rol1a"⟩ ∧
      ¬ dbm.IsRecent 50 (fun _ => true) ref ∧
      ((db'.heights ⟨"rollapp_1-1", "rol1a"⟩).dedup.length : ℤ) ≤ 4 * 50 + 9 := by
  obtain ⟨db', he, hheights⟩ := insertRefs_manyRefs
  have hone : 1 ∈ (beforeManyRefs.writeRefs manyRefs).1.heights ⟨"rollapp_1-1", "rol1a"⟩ := by
    decide +kernel
  obtain ⟨ref, hin, haccount, hheight⟩ := Db.mem_heights.1 hone
  have hout : ref ∉ db'.refAccountToRecentTx := by
    intro hm
    have hleft : 1 ∈ db'.heights ⟨"rollapp_1-1", "rol1a"⟩ :=
      Db.mem_heights.2 ⟨ref, hm, haccount, hheight⟩
    rw [hheights] at hleft
    obtain ⟨h, -, hh⟩ := List.mem_map.1 hleft
    omega
  have hreached : Db.Reached (fun chainInfo => chainInfo.lookup "rollapp_1-1" = some none)
      (beforeManyRefs.orSelf (beforeManyRefs.insertRefs default manyRefs)) :=
    .exec default 0 (.insertRefAccountToRecentTx manyRefs) beforeManyRefs_reached
  rw [he] at hreached
  obtain ⟨hold, hdeleted, -⟩ := pruning_keeps_recent ⟨"rollapp_1-1", "rol1a"⟩ none _
    beforeManyRefs_reached
  obtain ⟨new, dbm, hd⟩ := hdeleted default manyRefs db' he ref hin hout
  obtain ⟨hnew, hrecent⟩ := hold default manyRefs new ref dbm hd haccount
  exact ⟨beforeManyRefs, db', ref, new, dbm, he, hheight, hheights, hd, hnew,
    hrecent _ List.mem_cons_self ref hd.isPruned.2.1 haccount rfl,
    (pruning_keeps_recent ⟨"rollapp_1-1", "rol1a"⟩ none db' hreached).2.2⟩

end RollappExplorer
