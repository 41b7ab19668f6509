/-
  The contracts of an account grow as sets.

  * `AccountRun`: calls of `InsertOrUpdateRecordsAccount` and the updates of the counters by the
    triggers, in any order;
  * `Db.HoldsRecords`: the contracts of each account are those of the records, each one once;
  * `contractLists_are_sets`: so it is after every run, a call changes no other account and no
    counter, and the order and the repetition of the calls do not matter.
-/
import RollappExplorer.Indexing
import RollappExplorer.Progress

namespace RollappExplorer

open Go Sql Effect

variable {db₀ db db' : Db} {p : Planner} {record : RecordAccount}
  {records accounts : List RecordAccount} {calls calls' : List (List RecordAccount)}

/-! ## Runs -/

/-- Valid records are inserted with the statement that `Db.insertAccounts` models. -/
theorem insertOrUpdateRecordsAccount_eq (hne : accounts ≠ [])
    (hvalid : RecordsAccount.validateBasic accounts = .ok ())
    (hcounter : ∀ account ∈ accounts, account.continousInsertReferenceCurrentTxCounter = 0) :
    insertOrUpdateRecordsAccount accounts = execute true (.insertAccounts accounts) := by
  have hchecks : (accounts.forM fun account =>
      failIf (account.continousInsertReferenceCurrentTxCounter ≠ 0)
        ("continous insert reference current tx counter must be 0, " ++
          "as it must be altered via triggers")) = .ok () :=
    forM_ok_iff.2 fun account ha => failIf_ok_iff.2 (not_not.2 (hcounter account ha))
  unfold insertOrUpdateRecordsAccount insertRecords
  rw [if_neg (mt List.length_eq_zero_iff.1 hne), mapError_ok_iff.2 hvalid, ok_bind, hchecks]

/-- The calls, each with its accounts, and the updates of the counters by the triggers of
    references. -/
inductive AccountRun (db₀ : Db) : List (List RecordAccount) → Db → Prop
  | start : AccountRun db₀ [] db₀
  | call {calls : List (List RecordAccount)} {db db' : Db} (p : Planner)
      (accounts : List RecordAccount) : AccountRun db₀ calls db →
      db.insertAccounts p accounts = .ok db' → AccountRun db₀ (calls ++ [accounts]) db'
  | count {calls : List (List RecordAccount)} {db db' : Db} (p : Planner)
      (new : RefAccountToRecentTxRow) : AccountRun db₀ calls db →
      trigger00100AfterInsertRefAccountToRecentTx p new db = .ok db' → AccountRun db₀ calls db'
  | prune {calls : List (List RecordAccount)} {db db' : Db} (p : Planner)
      (new : RefAccountToRecentTxRow) : AccountRun db₀ calls db →
      trigger00200AfterInsertRefAccountToRecentTx p new db = .ok db' → AccountRun db₀ calls db'

/-! ## The contracts of records -/

/-- The records list the contract for the account. -/
def ListsContract (records : List RecordAccount) (k : AccountKey) (type : InvolversType)
    (c : String) : Prop :=
  ∃ record ∈ records, record.row.key = k ∧ c ∈ record.contractsOf type

/-- The accounts are those of the records, each with the contracts of its records, and each
    contract once. -/
structure Db.HoldsRecords (records : List RecordAccount) (db : Db) : Prop where
  keys : ∀ k, db.account.Has k ↔ ∃ record ∈ records, record.row.key = k
  contracts : ∀ row ∈ db.account, ∀ type c,
    c ∈ row.contractsOf type ↔ ListsContract records row.key type c
  nodup : ∀ row ∈ db.account, ∀ type, (row.contractsOf type).Nodup

theorem ListsContract.append_singleton {k : AccountKey} {type : InvolversType} {c : String} :
    ListsContract (records ++ [record]) k type c ↔
      ListsContract records k type c ∨ record.row.key = k ∧ c ∈ record.contractsOf type := by
  unfold ListsContract
  simp only [List.mem_append, List.mem_singleton, or_and_right, exists_or, exists_eq_left]

/-- A record adds its contracts to its account. -/
theorem Db.HoldsRecords.insertAccount (h : db.HoldsRecords records)
    (he : db.insertAccount p record = .ok db') : db'.HoldsRecords (records ++ [record]) := by
  obtain ⟨t, rfl, hkeys, hmem⟩ := Db.insertAccount_ok he
  refine ⟨fun k => ?_, fun row hrow type c => ?_, fun row hrow type => ?_⟩
  · show t.Has k ↔ _
    rw [hkeys, h.keys]
    simp only [List.mem_append, List.mem_singleton, or_and_right, exists_or, exists_eq_left,
      eq_comm (a := k)]
  · rw [ListsContract.append_singleton]
    rcases (hmem row).1 hrow with ⟨a, ha, rfl⟩ | ⟨hnew, rfl⟩
    · split_ifs with hk
      · have hkey : (trigger00100BeforeInsertOrUpdateAccount p (a.onConflict
            (trigger00100BeforeInsertOrUpdateAccount p record.row))).key = a.key := rfl
        rw [hkey, mem_contractsOf_trigger, contractsOf_onConflict, List.mem_append,
          mem_contractsOf_trigger, contractsOf_row, h.contracts a ha]
        simp only [hk, true_and]
      · rw [h.contracts a ha]
        simp only [Ne.symm hk, false_and, or_false]
    · have hkey : (trigger00100BeforeInsertOrUpdateAccount p record.row).key = record.row.key := rfl
      have hnone : ¬ ListsContract records record.row.key type c := by
        rintro ⟨record', hrecord', hk, -⟩
        exact hnew ((h.keys _).2 ⟨record', hrecord', hk⟩)
      rw [hkey, mem_contractsOf_trigger, contractsOf_row]
      simp only [hnone, false_or, true_and]
  · rcases (hmem row).1 hrow with ⟨a, ha, rfl⟩ | ⟨-, rfl⟩
    · split_ifs
      · exact nodup_contractsOf_trigger
      · exact h.nodup a ha type
    · exact nodup_contractsOf_trigger

theorem Db.HoldsRecords.insertAccounts (h : db.HoldsRecords records)
    (he : db.insertAccounts p accounts = .ok db') : db'.HoldsRecords (records ++ accounts) := by
  obtain ⟨-, he⟩ := bind_unit_ok_iff.1 he
  refine foldlM_passed (J := fun done s => Db.HoldsRecords (records ++ done) s)
    ((List.append_nil records).symm ▸ h) ?_ he
  intro done record _ s s' hs he
  rw [← List.append_assoc]
  exact hs.insertAccount he

/-- An update of a counter. -/
theorem Db.HoldsRecords.update (h : db.HoldsRecords records) {t : Table AccountRow.key}
    {k : AccountKey} {n : AccountRow → ℤ} (hkeys : ∀ k, t.Has k ↔ db.account.Has k)
    (hmem : ∀ b, b ∈ t ↔ ∃ a ∈ db.account, b = if a.key = k then
      trigger00100BeforeInsertOrUpdateAccount p (a.setCounter (n a)) else a) :
    Db.HoldsRecords records { db with account := t } := by
  refine ⟨fun k' => (hkeys k').trans (h.keys k'), fun row hrow type c => ?_,
    fun row hrow type => ?_⟩
  · obtain ⟨a, ha, rfl⟩ := (hmem row).1 hrow
    split_ifs
    · have hset : (a.setCounter (n a)).contractsOf type = a.contractsOf type := by
        cases type <;> rfl
      rw [mem_contractsOf_trigger, hset]
      exact h.contracts a ha type c
    · exact h.contracts a ha type c
  · obtain ⟨a, ha, rfl⟩ := (hmem row).1 hrow
    split_ifs
    · exact nodup_contractsOf_trigger
    · exact h.nodup a ha type

theorem Db.HoldsRecords.of_eq (h : db.HoldsRecords records) (he : db'.account = db.account) :
    db'.HoldsRecords records :=
  ⟨he ▸ h.keys, he ▸ h.contracts, he ▸ h.nodup⟩

/-- The contracts after a run are those of its calls. -/
theorem AccountRun.holdsRecords (h : AccountRun db₀ calls db) (h₀ : ∀ k, ¬ db₀.account.Has k) :
    db.HoldsRecords calls.flatten := by
  induction h with
  | start =>
    refine ⟨fun k => ⟨fun hk => absurd hk (h₀ k), ?_⟩, fun row hrow => ?_, fun row hrow => ?_⟩
    · rintro ⟨record, hrecord, -⟩
      cases hrecord
    · exact absurd (Table.has_of_mem hrow) (h₀ _)
    · exact absurd (Table.has_of_mem hrow) (h₀ _)
  | call p accounts _ he ih =>
    rw [List.flatten_append, List.flatten_singleton]
    exact ih.insertAccounts he
  | count p new _ he ih =>
    obtain ⟨t, r, rfl, hkeys, hmem, -⟩ := trigger00100AfterInsertRefAccountToRecentTx_ok he
    exact (ih.update hkeys hmem).of_eq rfl
  | prune p new _ he ih =>
    rcases trigger00200AfterInsertRefAccountToRecentTx_cases he with
      ⟨-, db₁, t, hdel, rfl, hkeys, hmem⟩ | ⟨rfl, -⟩
    · obtain ⟨r, u, -, hdb₁⟩ := Db.deleteRefs_ok hdel
      have hdeleted : db₁.account = _ := congrArg Db.account hdb₁
      exact (ih.of_eq hdeleted).update hkeys hmem
    · exact ih

/-! ## What a call leaves alone -/

/-- The other accounts are left unchanged, and so are the counters. -/
structure Db.KeepsOthers (accounts : List RecordAccount) (db db' : Db) : Prop where
  others : ∀ row, (∀ account ∈ accounts, account.row.key ≠ row.key) →
    (row ∈ db'.account ↔ row ∈ db.account)
  counters : ∀ row ∈ db.account, ∃ row' ∈ db'.account, row'.key = row.key ∧
    row'.continousInsertRefCurTxCounter = row.continousInsertRefCurTxCounter
  tables : db' = { db with account := db'.account }

theorem Db.insertAccount_keepsOthers (he : db.insertAccount p record = .ok db') :
    db.KeepsOthers [record] db' := by
  obtain ⟨t, rfl, -, hmem⟩ := Db.insertAccount_ok he
  refine ⟨fun row hrow => ?_, fun row hrow => ⟨_, (hmem _).2 (.inl ⟨row, hrow, rfl⟩), ?_⟩, rfl⟩
  · have hne : record.row.key ≠ row.key := hrow record List.mem_cons_self
    show row ∈ t ↔ _
    rw [hmem]
    constructor
    · rintro (⟨a, ha, rfl⟩ | ⟨-, rfl⟩)
      · split_ifs at hne ⊢ with hk
        · exact absurd hk.symm hne
        · exact ha
      · exact absurd rfl hne
    · intro hrow
      exact .inl ⟨row, hrow, (if_neg (Ne.symm hne)).symm⟩
  · split_ifs
    · exact ⟨rfl, rfl⟩
    · exact ⟨rfl, rfl⟩

theorem Db.insertAccounts_keepsOthers (he : db.insertAccounts p accounts = .ok db') :
    db.KeepsOthers accounts db' := by
  obtain ⟨-, he⟩ := bind_unit_ok_iff.1 he
  refine foldlM_passed (J := fun done s => db.KeepsOthers done s)
    ⟨fun _ _ => Iff.rfl, fun row hrow => ⟨row, hrow, rfl, rfl⟩, rfl⟩ ?_ he
  intro done record _ s s' hs he
  have hstep := Db.insertAccount_keepsOthers he
  refine ⟨fun row hrow => ?_, fun row hrow => ?_, ?_⟩
  · obtain ⟨hdone, hrecord⟩ := List.forall_mem_append.1 hrow
    exact (hstep.others row hrecord).trans (hs.others row hdone)
  · obtain ⟨row₁, hrow₁, hk₁, hc₁⟩ := hs.counters row hrow
    obtain ⟨row', hrow', hk', hc'⟩ := hstep.counters row₁ hrow₁
    exact ⟨row', hrow', hk'.trans hk₁, hc'.trans hc₁⟩
  · rw [hstep.tables, hs.tables]

/-! ## The result -/

/-- The same accounts with the same contracts. -/
def Db.SameContracts (db db' : Db) : Prop :=
  (∀ k, db.account.Has k ↔ db'.account.Has k) ∧
    ∀ row ∈ db.account, ∀ row' ∈ db'.account, row'.key = row.key →
      ∀ type, (row.contractsOf type).Perm (row'.contractsOf type)

theorem Db.HoldsRecords.sameContracts (h : db.HoldsRecords records)
    {records' : List RecordAccount} (h' : db'.HoldsRecords records')
    (hmem : ∀ record, record ∈ records ↔ record ∈ records') : db.SameContracts db' := by
  refine ⟨fun k => ?_, fun row hrow row' hrow' hk type => ?_⟩
  · rw [h.keys, h'.keys]
    simp only [hmem]
  · refine (List.perm_ext_iff_of_nodup (h.nodup row hrow type) (h'.nodup row' hrow' type)).2 ?_
    intro c
    rw [h.contracts row hrow, h'.contracts row' hrow', hk]
    unfold ListsContract
    simp only [hmem]

/-- **Contract lists are sets.** From tables without accounts, the contracts of an account are
    after every run those that the calls list for it, each one once; a call succeeds if it has one
    row per account and the chain is known, and leaves the other accounts and the counters alone;
    the contracts do not depend on the order of the calls or on their repetition. -/
theorem contractLists_are_sets (db₀ : Db) (h₀ : ∀ k, ¬ db₀.account.Has k) :
    (∀ calls db, AccountRun db₀ calls db → db.HoldsRecords calls.flatten) ∧
    (∀ p accounts, ∀ db db' : Db, db.insertAccounts p accounts = .ok db' →
      db.KeepsOthers accounts db') ∧
    (∀ p accounts, ∀ db : Db, (accounts.map fun account => account.row.key).Nodup →
      (∀ record ∈ accounts, record.chainId ∈ db.chainInfo) →
        ∃ db', db.insertAccounts p accounts = .ok db') ∧
    ∀ calls calls' db db', AccountRun db₀ calls db → AccountRun db₀ calls' db' →
      (∀ accounts, accounts ∈ calls ↔ accounts ∈ calls') → db.SameContracts db' := by
  refine ⟨fun calls db h => h.holdsRecords h₀,
    fun p accounts db db' => Db.insertAccounts_keepsOthers,
    fun _ _ _ hnodup hchains => Db.exists_insertAccounts hnodup hchains, ?_⟩
  intro calls calls' db db' h h' hmem
  refine (h.holdsRecords h₀).sameContracts (h'.holdsRecords h₀) fun record => ?_
  simp only [List.mem_flatten, hmem]

/-- An account with ERC-20 contracts. -/
def holder (contracts : List String) : RecordAccount :=
  { newRecordAccountForInsert "rollapp_1-1" "rol1a" with balanceOnErc20Contracts := contracts }

theorem contractLists_are_sets_two : ∃ db,
    AccountRun (Db.empty sampleChains) [[holder ["0xa"]], [holder ["0xb", "0xa"]]] db ∧
    ∀ row ∈ db.account, (row.contractsOf .erc20).Nodup ∧
      ∀ c, c ∈ row.contractsOf .erc20 → c = "0xa" ∨ c = "0xb" := by
  have hchain : ∀ contracts, ∀ record ∈ [holder contracts], record.chainId ∈ sampleChains :=
    fun contracts record hrecord => by
      rw [List.mem_singleton.1 hrecord]
      exact (by decide : "rollapp_1-1" ∈ sampleChains)
  obtain ⟨hruns, hkeeps, htotal, -⟩ := contractLists_are_sets (Db.empty sampleChains)
    fun _ => Table.not_has_empty
  obtain ⟨db₁, h₁⟩ := htotal default [holder ["0xa"]] (Db.empty sampleChains)
    (List.nodup_singleton _) (hchain _)
  have hchainInfo : db₁.chainInfo = sampleChains :=
    congrArg Db.chainInfo (hkeeps _ _ _ _ h₁).tables
  obtain ⟨db, h₂⟩ := htotal default [holder ["0xb", "0xa"]] db₁ (List.nodup_singleton _)
    (hchainInfo ▸ hchain _)
  have hrun := (AccountRun.start.call default _ h₁).call default _ h₂
  refine ⟨db, hrun, fun row hrow => ⟨(hruns _ _ hrun).nodup row hrow _, fun c hc => ?_⟩⟩
  obtain ⟨record, hrecord, -, hc⟩ := ((hruns _ _ hrun).contracts row hrow .erc20 c).1 hc
  rcases List.mem_pair.1 hrecord with rfl | rfl
  · exact .inl (List.mem_singleton.1 hc)
  · exact (List.mem_pair.1 hc).symm

end RollappExplorer
