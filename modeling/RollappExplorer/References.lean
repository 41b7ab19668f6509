/-
  The counts of references, and the clean-up of the transactions without any.

  In the middle of a statement some triggers have still to fire: those of the inserted
  references `todo`, some of which may already be deleted again, and those of the deleted
  references `gone`.

  * `Db.Consistent`: what holds of the tables then;
  * `refCount_exact`: after every statement `ref_count` is the number of references, and the
    counters of the accounts are at most nine;
  * `committed_clean`: after every transaction of a block the queue is empty, and the
    transactions that are left are those that are referenced.
-/
import RollappExplorer.Schema

namespace RollappExplorer

open Go Sql

/-! ## Invariants -/

/-- The number of references to a transaction. -/
def numRefs (refs : List RefAccountToRecentTxRow) (k : TxKey) : ℤ := refs.countP (·.tx = k)

/-- The tables when the triggers of `todo` and `gone` have still to fire. -/
structure Db.Consistent (todo gone : List RefAccountToRecentTxRow) (db : Db) : Prop where
  refCount : ∀ row ∈ db.recentAccountTransaction, row.refCount + numRefs todo row.key =
    numRefs db.refAccountToRecentTx.rows row.key + numRefs gone row.key
  refs : ∀ ref ∈ db.refAccountToRecentTx, ref ∈ todo ∨
    (db.account.Has ref.account ∧ db.recentAccountTransaction.Has ref.tx)
  queued : ∀ row ∈ db.recentAccountTransaction,
    (∃ ref ∈ db.refAccountToRecentTx.rows ++ gone, ref.tx = row.key) ∨
      db.reducedRefCountRecentAccountTransaction.Has row.key
  todo : ∀ ref ∈ todo, ref ∈ db.refAccountToRecentTx ∨ db.account.Has ref.account

/-- The counters of the accounts. -/
def Db.CountersWithin (bound : AccountKey → ℤ) (db : Db) : Prop :=
  ∀ row ∈ db.account,
    0 ≤ row.continousInsertRefCurTxCounter ∧ row.continousInsertRefCurTxCounter ≤ bound row.key

variable {db db' : Db} {p : Planner} {todo gone : List RefAccountToRecentTxRow}
  {new : RefAccountToRecentTxRow}

theorem numRefs_nil (k : TxKey) : numRefs [] k = 0 := rfl

theorem numRefs_cons (ref : RefAccountToRecentTxRow) (refs : List RefAccountToRecentTxRow)
    (k : TxKey) : numRefs (ref :: refs) k = numRefs refs k + if k = ref.tx then 1 else 0 := by
  rw [numRefs, List.countP_cons, Int.natCast_add, ← numRefs]
  by_cases hk : k = ref.tx
  · simp [hk]
  · simp [hk, Ne.symm hk]

theorem numRefs_append (refs refs' : List RefAccountToRecentTxRow) (k : TxKey) :
    numRefs (refs ++ refs') k = numRefs refs k + numRefs refs' k := by
  rw [numRefs, List.countP_append, Int.natCast_add]
  rfl

theorem numRefs_pos {refs : List RefAccountToRecentTxRow} {k : TxKey} :
    0 < numRefs refs k ↔ ∃ ref ∈ refs, ref.tx = k := by
  rw [numRefs, Int.natCast_pos, List.countP_pos_iff]
  simp only [decide_eq_true_eq]

theorem numRefs_nonneg (refs : List RefAccountToRecentTxRow) (k : TxKey) : 0 ≤ numRefs refs k :=
  Int.natCast_nonneg _

theorem numRefs_le_length (refs : List RefAccountToRecentTxRow) (k : TxKey) :
    numRefs refs k ≤ refs.length :=
  Int.ofNat_le.2 List.countP_le_length

/-- The references that are kept and those that are not. -/
theorem numRefs_filter (q : RefAccountToRecentTxRow → Bool)
    (refs : List RefAccountToRecentTxRow) (k : TxKey) :
    numRefs (refs.filter fun ref => !q ref) k + numRefs (refs.filter q) k = numRefs refs k := by
  induction refs with
  | nil => rfl
  | cons ref refs ih =>
    cases hq : q ref with
    | true =>
      rw [List.filter_cons_of_neg (by simp [hq]), List.filter_cons_of_pos hq, numRefs_cons,
        numRefs_cons, ← ih, Int.add_assoc]
    | false =>
      rw [List.filter_cons_of_pos (by simp [hq]), List.filter_cons_of_neg (by simp [hq]),
        numRefs_cons, numRefs_cons, ← ih, Int.add_right_comm]

/-! ## Triggers -/

/-- Accounts may change, and be added. -/
theorem Db.Consistent.of_account (h : db.Consistent todo gone) {t : Table AccountRow.key}
    (ht : ∀ k, db.account.Has k → t.Has k) :
    Db.Consistent todo gone { db with account := t } :=
  ⟨h.refCount, fun ref hr => (h.refs ref hr).imp_right fun hk => ⟨ht _ hk.1, hk.2⟩, h.queued,
    fun ref hr => (h.todo ref hr).imp_right (ht _)⟩

/-- The count of an inserted reference. -/
theorem Db.Consistent.trigger00100 (h : db.Consistent (new :: todo) [])
    (hfk : db.refAccountToRecentTx.Has new.key →
      db.account.Has new.account ∧ db.recentAccountTransaction.Has new.tx)
    (he : trigger00100AfterInsertRefAccountToRecentTx p new db = .ok db') :
    db'.Consistent todo [] ∧ db'.account.Has new.account := by
  obtain ⟨t, r, rfl, ht, -, hr, hmem⟩ := trigger00100AfterInsertRefAccountToRecentTx_ok he
  have hkey : ∀ row : RecentAccountTransactionRow, ∀ a : RecentAccountTransactionRow,
      row = (if a.key = new.tx then a.setRefCount (a.refCount + 1) else a) →
        row.key = a.key ∧ row.refCount = a.refCount + if a.key = new.tx then 1 else 0 := by
    rintro row a rfl
    split_ifs
    · exact ⟨rfl, rfl⟩
    · exact ⟨rfl, (Int.add_zero _).symm⟩
  refine ⟨⟨fun row hrow => ?_, fun ref href => ?_, fun row hrow => ?_, fun ref href => ?_⟩, ?_⟩
  · obtain ⟨a, ha, hrow⟩ := (hmem row).1 hrow
    obtain ⟨hk, hc⟩ := hkey row a hrow
    have hcount := h.refCount a ha
    rw [numRefs_cons] at hcount
    rw [hk, hc]
    show _ = numRefs db.refAccountToRecentTx.rows a.key + numRefs [] a.key
    omega
  · rcases h.refs ref href with hm | ⟨ha, hx⟩
    · rcases List.mem_cons.1 hm with rfl | hm
      · obtain ⟨ha, hx⟩ := hfk (Table.has_of_mem href)
        exact .inr ⟨(ht _).2 ha, (hr _).2 hx⟩
      · exact .inl hm
    · exact .inr ⟨(ht _).2 ha, (hr _).2 hx⟩
  · obtain ⟨a, ha, hrow⟩ := (hmem row).1 hrow
    rw [(hkey row a hrow).1]
    exact h.queued a ha
  · exact (h.todo ref (List.mem_cons_of_mem _ href)).imp_right (ht _).2
  · rcases h.todo new List.mem_cons_self with hm | ha
    · exact (ht _).2 (hfk (Table.has_of_mem hm)).1
    · exact (ht _).2 ha

/-- The count of a deleted reference. -/
theorem Db.Consistent.trigger00300 {old : RefAccountToRecentTxRow}
    (h : db.Consistent todo (old :: gone))
    (he : trigger00300AfterDeleteRefAccountToRecentTx db old = .ok db') :
    db'.Consistent todo gone := by
  obtain ⟨db₁, h₁, he⟩ := bind_ok_iff.1 he
  obtain rfl := Except.ok.inj he
  obtain ⟨r, rfl, hr, hmem⟩ := Db.updateRefCount_ok h₁
  have hkey : ∀ row : RecentAccountTransactionRow, ∀ a : RecentAccountTransactionRow,
      row = (if a.key = old.tx then a.setRefCount (a.refCount - 1) else a) →
        row.key = a.key ∧ row.refCount = a.refCount - if a.key = old.tx then 1 else 0 := by
    rintro row a rfl
    split_ifs
    · exact ⟨rfl, rfl⟩
    · exact ⟨rfl, (Int.sub_zero _).symm⟩
  refine ⟨fun row hrow => ?_, fun ref href => ?_, fun row hrow => ?_, h.todo⟩
  · obtain ⟨a, ha, hrow⟩ := (hmem row).1 hrow
    obtain ⟨hk, hc⟩ := hkey row a hrow
    have hcount := h.refCount a ha
    rw [numRefs_cons] at hcount
    rw [hk, hc]
    show _ = numRefs db.refAccountToRecentTx.rows a.key + numRefs gone a.key
    omega
  · exact (h.refs ref href).imp_right fun hk => ⟨hk.1, (hr _).2 hk.2⟩
  · obtain ⟨a, ha, hrow⟩ := (hmem row).1 hrow
    rw [(hkey row a hrow).1]
    rcases h.queued a ha with ⟨ref, href, hx⟩ | hq
    · rcases List.mem_append.1 href with href | href
      · exact .inl ⟨ref, List.mem_append_left _ href, hx⟩
      · rcases List.mem_cons.1 href with rfl | href
        · exact .inr (Table.has_insert.2 (.inr hx.symm))
        · exact .inl ⟨ref, List.mem_append_right _ href, hx⟩
    · exact .inr (Table.has_insert.2 (.inl hq))

/-- References of accounts that exist are deleted, and their triggers have still to fire. -/
theorem Db.Consistent.removeRefs {q : RefAccountToRecentTxRow → Bool} (h : db.Consistent todo [])
    (hq : ∀ ref ∈ db.refAccountToRecentTx, q ref = true → db.account.Has ref.account) :
    Db.Consistent todo (db.refAccountToRecentTx.rows.filter q)
      { db with refAccountToRecentTx := db.refAccountToRecentTx.delete q } := by
  refine ⟨fun row hrow => ?_, fun ref href => ?_, fun row hrow => ?_, fun ref href => ?_⟩
  · have hcount := h.refCount row hrow
    have hsplit := numRefs_filter q db.refAccountToRecentTx.rows row.key
    rw [numRefs_nil] at hcount
    show _ = numRefs (db.refAccountToRecentTx.rows.filter fun ref => !q ref) row.key + _
    omega
  · exact h.refs ref (Table.mem_delete.1 href).1
  · refine (h.queued row hrow).imp_left fun ⟨ref, href, hx⟩ => ⟨ref, ?_, hx⟩
    rw [List.append_nil] at href
    cases hqr : q ref with
    | true => exact List.mem_append_right _ (List.mem_filter.2 ⟨href, hqr⟩)
    | false => exact List.mem_append_left _ (Table.mem_delete.2 ⟨href, hqr⟩)
  · rcases h.todo ref href with hm | ha
    · cases hqr : q ref with
      | true => exact .inr (hq ref hm hqr)
      | false => exact .inl (Table.mem_delete.2 ⟨hm, hqr⟩)
    · exact .inr ha

/-- Deleting references of accounts that exist. -/
theorem Db.Consistent.deleteRefs {q : RefAccountToRecentTxRow → Bool} (h : db.Consistent todo [])
    (hq : ∀ ref ∈ db.refAccountToRecentTx, q ref = true → db.account.Has ref.account)
    (he : db.deleteRefs q = .ok db') : db'.Consistent todo [] :=
  foldlM_pending (J := fun gone db => Db.Consistent todo gone db)
    (fun _ _ _ _ h₁ he₁ => h₁.trigger00300 he₁) (h.removeRefs hq) he

/-- The triggers of an inserted reference. -/
theorem Db.Consistent.afterInsertRef (h : db.Consistent (new :: todo) [])
    (he : db.afterInsertRef p new = .ok db') : db'.Consistent todo [] := by
  obtain ⟨hfk, db₁, h₁, h₂⟩ := Db.afterInsertRef_ok he
  obtain ⟨hc, hhas⟩ := h.trigger00100 hfk h₁
  rcases trigger00200AfterInsertRefAccountToRecentTx_cases h₂ with
    ⟨-, db₂, t, hdel, rfl, ht, -⟩ | ⟨rfl, -⟩
  · refine (hc.deleteRefs (fun ref _ hp => ?_) hdel).of_account fun k => (ht k).2
    rw [Db.isPruned, Bool.and_eq_true, decide_eq_true_eq] at hp
    exact hp.1 ▸ hhas
  · exact hc

/-- A counter that reaches ten is reset. -/
theorem Db.CountersWithin.afterInsertRef (h : db.CountersWithin fun _ => 9)
    (he : db.afterInsertRef p new = .ok db') : db'.CountersWithin fun _ => 9 := by
  obtain ⟨-, db₁, h₁, h₂⟩ := Db.afterInsertRef_ok he
  obtain ⟨t, r, rfl, -, hmem, -, -⟩ := trigger00100AfterInsertRefAccountToRecentTx_ok h₁
  have hc : ∀ row ∈ t, 0 ≤ row.continousInsertRefCurTxCounter ∧
      (row.key ≠ new.account → row.continousInsertRefCurTxCounter ≤ 9) := by
    intro row hrow
    obtain ⟨a, ha, rfl⟩ := (hmem row).1 hrow
    obtain ⟨hlow, hhigh⟩ := h a ha
    split_ifs with hk
    · exact ⟨Int.add_nonneg hlow (by decide), fun hne => absurd hk hne⟩
    · exact ⟨hlow, fun _ => hhigh⟩
  rcases trigger00200AfterInsertRefAccountToRecentTx_cases h₂ with
    ⟨-, db₂, t', hdel, rfl, -, hmem'⟩ | ⟨rfl, hsmall⟩
  · obtain ⟨r', u, -, rfl⟩ := Db.deleteRefs_ok hdel
    intro row hrow
    obtain ⟨a, ha, rfl⟩ := (hmem' row).1 hrow
    split_ifs with hk
    · exact ⟨Int.le_refl 0, show (0 : ℤ) ≤ 9 by decide⟩
    · exact ⟨(hc a ha).1, (hc a ha).2 hk⟩
  · intro row hrow
    refine ⟨(hc row hrow).1, ?_⟩
    by_cases hk : row.key = new.account
    · exact hsmall row hrow hk
    · exact (hc row hrow).2 hk

/-! ## Statements -/

/-- The tables after a statement. -/
structure Db.Sound (db : Db) : Prop where
  consistent : db.Consistent [] []
  counters : db.CountersWithin fun _ => 9

theorem Db.Sound.insertAccount (h : db.Sound) {record : RecordAccount}
    (he : db.insertAccount p record = .ok db') : db'.Sound := by
  obtain ⟨t, rfl, ht, hmem⟩ := Db.insertAccount_ok he
  refine ⟨h.consistent.of_account fun k hk => (ht k).2 (.inl hk), fun row hrow => ?_⟩
  rcases (hmem row).1 hrow with ⟨a, ha, rfl⟩ | ⟨-, rfl⟩
  · split_ifs
    · exact h.counters a ha
    · exact h.counters a ha
  · exact ⟨Int.le_refl 0, show (0 : ℤ) ≤ 9 by decide⟩

theorem Db.Sound.insertAccounts (h : db.Sound) {accounts : List RecordAccount}
    (he : db.insertAccounts p accounts = .ok db') : db'.Sound := by
  obtain ⟨-, he⟩ := bind_unit_ok_iff.1 he
  exact foldlM_pending (J := fun _ s => s.Sound) (fun _ _ _ _ hs he => hs.insertAccount he) h he

theorem Db.Sound.insertRecentAccountTransactions (h : db.Sound)
    (txs : List RecordRecentAccountTransaction) :
    (db.insertRecentAccountTransactions txs).Sound := by
  obtain ⟨u, he, hu⟩ := Db.insertRecentAccountTransactions_eq txs db
  rw [he]
  refine ⟨⟨fun row hrow => ?_, fun ref href => ?_, fun row hrow => ?_, nofun⟩, h.counters⟩
  · rcases Table.mem_insertAll.1 hrow with hrow | hrow
    · exact h.consistent.refCount row hrow
    · have hcount : row.refCount = 0 := by
        obtain ⟨record, -, rfl⟩ := List.mem_map.1 ((Table.insertAll_sublist _ _).subset hrow)
        rfl
      have hnone : ¬ 0 < numRefs db.refAccountToRecentTx.rows row.key := by
        rw [numRefs_pos]
        rintro ⟨ref, href, hk⟩
        rcases h.consistent.refs ref href with hm | ⟨-, hx⟩
        · cases hm
        · exact Table.insertAll_not_has hrow (hk ▸ hx)
      have hnonneg := numRefs_nonneg db.refAccountToRecentTx.rows row.key
      rw [hcount, numRefs_nil]
      show (0 : ℤ) + 0 = numRefs db.refAccountToRecentTx.rows row.key + 0
      omega
  · refine (h.consistent.refs ref href).imp_right fun ⟨ha, hx⟩ => ⟨ha, ?_⟩
    obtain ⟨row, hrow, hk⟩ := Table.has_iff.1 hx
    exact Table.has_iff.2 ⟨row, Table.mem_insertAll.2 (.inl hrow), hk⟩
  · rcases Table.mem_insertAll.1 hrow with hrow | hrow
    · exact (h.consistent.queued row hrow).imp_right fun hq => (hu _).2 (.inl hq)
    · exact .inr ((hu _).2 (.inr ⟨row, hrow, rfl⟩))

/-- The references are written before their triggers fire. -/
theorem Db.Consistent.writeRefs (h : db.Consistent [] [])
    (refs : List RecordRefAccountToRecentTx) :
    (db.writeRefs refs).1.Consistent (db.writeRefs refs).2 [] := by
  refine ⟨fun row hrow => ?_, fun ref href => ?_, fun row hrow => ?_, fun ref href => ?_⟩
  · have hcount := h.refCount row hrow
    show _ + _ = numRefs (Table.insertAll _ _).1.rows row.key + numRefs [] row.key
    rw [Table.insertAll_rows, numRefs_append]
    rw [numRefs_nil] at hcount ⊢
    show _ + numRefs (Table.insertAll (refs.map (·.row)) db.refAccountToRecentTx).2 row.key = _
    omega
  · rcases Table.mem_insertAll.1 href with href | href
    · exact h.refs ref href |>.imp_left nofun
    · exact .inl href
  · refine (h.queued row hrow).imp_left fun ⟨ref, href, hk⟩ => ⟨ref, ?_, hk⟩
    rw [List.append_nil] at href ⊢
    exact Table.mem_insertAll.2 (.inl href)
  · exact .inl (Table.mem_insertAll.2 (.inr href))

theorem Db.Sound.insertRefs (h : db.Sound) {refs : List RecordRefAccountToRecentTx}
    (he : db.insertRefs p refs = .ok db') : db'.Sound := by
  have hloop := foldlM_pending
    (J := fun todo s => s.Consistent todo [] ∧ s.CountersWithin fun _ => 9)
    (fun new todo s s' hs he => ⟨hs.1.afterInsertRef he, hs.2.afterInsertRef he⟩)
    ⟨h.consistent.writeRefs refs, h.counters⟩ he
  exact ⟨hloop.1, hloop.2⟩

/-! ## The clean-up -/

/-- The references between two statements. -/
theorem Db.Consistent.refs_nil (h : db.Consistent [] []) {ref : RefAccountToRecentTxRow}
    (href : ref ∈ db.refAccountToRecentTx) :
    db.account.Has ref.account ∧ db.recentAccountTransaction.Has ref.tx :=
  (h.refs ref href).resolve_left List.not_mem_nil

/-- The count tells whether there are references. -/
theorem Db.Consistent.referenced_iff (h : db.Consistent [] []) {row : RecentAccountTransactionRow}
    (hrow : row ∈ db.recentAccountTransaction) :
    (∃ ref ∈ db.refAccountToRecentTx, ref.tx = row.key) ↔ 1 ≤ row.refCount := by
  have hcount := h.refCount row hrow
  rw [numRefs_nil] at hcount
  rw [show row.refCount = numRefs db.refAccountToRecentTx.rows row.key by omega]
  exact numRefs_pos.symm

/-- One row of the queue: its transaction is deleted unless it is referenced. -/
theorem Db.Consistent.cleanupReduced (h : db.Consistent [] []) (k : TxKey) :
    ∃ r, db.cleanupReduced k = .ok { db with
        recentAccountTransaction := r
        reducedRefCountRecentAccountTransaction :=
          db.reducedRefCountRecentAccountTransaction.delete (· = k) } ∧
      ∀ row, row ∈ r ↔
        row ∈ db.recentAccountTransaction ∧ (row.key = k → 1 ≤ row.refCount) := by
  unfold Db.cleanupReduced
  cases hfind : db.recentAccountTransaction.find? k with
  | none =>
    refine ⟨_, rfl, fun row => ⟨fun hrow => ⟨hrow, fun hk => ?_⟩, fun hrow => hrow.1⟩⟩
    exact absurd (hk ▸ Table.has_of_mem hrow) (Table.find?_eq_none_iff.1 hfind)
  | some row =>
    obtain ⟨hrow, rfl⟩ := Table.find?_eq_some_iff.1 hfind
    simp only [Option.map_some, passes_compare, Option.any_some, decide_eq_true_eq]
    split_ifs with hcount
    · have hnone : db.recentAccountTransaction.Has row.key →
          ∀ ref ∈ db.refAccountToRecentTx.rows, ref.tx ≠ row.key := by
        intro _ ref href hk
        exact absurd ((h.referenced_iff hrow).1 ⟨ref, href, hk⟩) (Int.not_le.2 hcount)
      have hok : db.deleteRecentAccountTransaction row.key = .ok { db with
          recentAccountTransaction :=
            db.recentAccountTransaction.delete (·.key = row.key) } := by
        rw [Db.deleteRecentAccountTransaction, foreignKey_ok_iff (u := ()) |>.2 hnone]
        rfl
      rw [hok]
      refine ⟨_, rfl, fun row' => ?_⟩
      rw [Table.mem_delete, decide_eq_false_iff_not]
      refine and_congr_right fun hrow' => ⟨fun hk hk' => absurd hk' hk, fun hk hk' => ?_⟩
      rw [Table.eq_of_key hrow' hrow hk'] at hk
      exact absurd (hk rfl) (Int.not_le.2 hcount)
    · refine ⟨_, rfl, fun row' => ⟨fun hrow' => ⟨hrow', fun hk => ?_⟩, fun hrow' => hrow'.1⟩⟩
      rw [Table.eq_of_key hrow' hrow hk]
      exact Int.not_lt.1 hcount

/-- Transactions that are not referenced may be deleted, and then need not be queued. -/
theorem Db.Consistent.delete (h : db.Consistent [] []) {k : TxKey}
    {r : Table RecentAccountTransactionRow.key} {u : Table (id : TxKey → TxKey)}
    (hr : ∀ row, row ∈ r ↔
      row ∈ db.recentAccountTransaction ∧ (row.key = k → 1 ≤ row.refCount))
    (hu : ∀ k', k' ≠ k → db.reducedRefCountRecentAccountTransaction.Has k' → u.Has k') :
    Db.Consistent [] [] { db with
      recentAccountTransaction := r
      reducedRefCountRecentAccountTransaction := u } := by
  refine ⟨fun row hrow => ?_, fun ref href => ?_, fun row hrow => ?_, nofun⟩
  · exact h.refCount row ((hr row).1 hrow).1
  · refine (h.refs ref href).imp_right fun ⟨ha, hx⟩ => ⟨ha, ?_⟩
    obtain ⟨row, hrow, hk⟩ := Table.has_iff.1 hx
    exact Table.has_iff.2
      ⟨row, (hr row).2 ⟨hrow, fun _ => (h.referenced_iff hrow).1 ⟨ref, href, hk.symm⟩⟩, hk⟩
  · obtain ⟨hrow, hone⟩ := (hr row).1 hrow
    rcases h.queued row hrow with href | hq
    · exact .inl href
    · by_cases hk : row.key = k
      · obtain ⟨ref, href, hx⟩ := (h.referenced_iff hrow).2 (hone hk)
        exact .inl ⟨ref, List.mem_append_left _ href, hx⟩
      · exact .inr (hu _ hk hq)

/-- **The clean-up is complete and safe.** -/
theorem Db.Consistent.cleanup (h : db.Consistent [] []) :
    ∃ r u, db.cleanupZeroRefCount = .ok { db with
        recentAccountTransaction := r
        reducedRefCountRecentAccountTransaction := u } ∧
      Db.Consistent [] [] { db with
        recentAccountTransaction := r
        reducedRefCountRecentAccountTransaction := u } ∧ u.rows = [] ∧
      ∀ row ∈ db.recentAccountTransaction, 1 ≤ row.refCount → row ∈ r := by
  have hloop : ∃ s, db.reducedRefCountRecentAccountTransaction.rows.foldlM Db.cleanupReduced db =
      .ok s ∧ _ := foldlM_spec
    (J := fun done s => ∃ r u, s = { db with
        recentAccountTransaction := r
        reducedRefCountRecentAccountTransaction := u } ∧ s.Consistent [] [] ∧
      (∀ k, u.Has k → db.reducedRefCountRecentAccountTransaction.Has k ∧ k ∉ done) ∧
      ∀ row ∈ db.recentAccountTransaction, 1 ≤ row.refCount → row ∈ r)
    ⟨_, _, rfl, h, fun k hk => ⟨hk, List.not_mem_nil⟩, fun _ hrow _ => hrow⟩ (by
      rintro done k - s ⟨r, u, rfl, hs, hu, hr⟩
      obtain ⟨r', he, hr'⟩ := hs.cleanupReduced k
      refine ⟨_, he, r', _, rfl, hs.delete hr' fun k' hne hk' => ?_, fun k' hk' => ?_,
        fun row hrow hone => (hr' row).2 ⟨hr row hrow hone, fun _ => hone⟩⟩
      · obtain ⟨k₁, hm, rfl⟩ := Table.has_iff.1 hk'
        exact Table.has_of_mem (Table.mem_delete.2 ⟨hm, decide_eq_false hne⟩)
      · obtain ⟨k₁, hm, rfl⟩ := Table.has_iff.1 hk'
        obtain ⟨hm, hne⟩ := Table.mem_delete.1 hm
        obtain ⟨hq, hdone⟩ := hu _ (Table.has_of_mem hm)
        refine ⟨hq, fun hm' => ?_⟩
        rcases List.mem_append.1 hm' with hm' | hm'
        · exact hdone hm'
        · exact of_decide_eq_false hne (List.mem_singleton.1 hm'))
  obtain ⟨s, he, r, u, rfl, hs, hu, hr⟩ := hloop
  refine ⟨r, u, he, hs, Table.rows_eq_nil fun k hk => ?_, hr⟩
  obtain ⟨hq, hdone⟩ := hu k hk
  obtain ⟨k', hk', rfl⟩ := Table.has_iff.1 hq
  exact hdone hk'

/-! ## Sequences of statements -/

theorem Db.Sound.empty (chainInfo : Map String (Option ℤ)) : (Db.empty chainInfo).Sound :=
  ⟨⟨nofun, nofun, nofun, nofun⟩, nofun⟩

/-- A change of `chain_info` or of the table `transaction`. -/
theorem Db.Sound.of_others (h : db.Sound) (chainInfo : Map String (Option ℤ))
    (t : Table TransactionRow.key) :
    Db.Sound { db with chainInfo := chainInfo, transaction := t } :=
  ⟨⟨h.consistent.refCount, h.consistent.refs, h.consistent.queued, nofun⟩, h.counters⟩

theorem Db.Sound.insertTransactions (h : db.Sound) {now : ℤ} {txs : List RecordTransaction}
    (he : db.insertTransactions now txs = .ok db') : db'.Sound := by
  obtain ⟨rows, -, rfl⟩ := Db.insertTransactions_ok he
  exact h.of_others _ _

theorem Db.Sound.cleanup (h : db.Sound) (he : db.cleanupZeroRefCount = .ok db') : db'.Sound := by
  obtain ⟨r, u, he', hs, -⟩ := h.consistent.cleanup
  obtain rfl := Except.ok.inj (he'.symm.trans he)
  exact ⟨hs, h.counters⟩

/-- Every statement leaves the tables sound. -/
theorem Db.Sound.exec (h : db.Sound) {now : ℤ} {stmt : Stmt}
    (he : db.exec p now stmt = .ok db') : db'.Sound := by
  cases stmt with
  | insertTransactions txs => exact h.insertTransactions he
  | insertAccounts accounts => exact h.insertAccounts he
  | insertRecentAccountTransactions txs =>
    obtain rfl := Except.ok.inj he
    exact h.insertRecentAccountTransactions txs
  | insertRefAccountToRecentTx refs => exact h.insertRefs he
  | cleanupZeroRefCount => exact h.cleanup he
  | updateLatestIndexedBlock height now => exact Except.ok.inj he ▸ h
  | upsertFailedBlocks now errs heights => exact Except.ok.inj he ▸ h
  | deleteFailedBlock height => exact Except.ok.inj he ▸ h

theorem Db.Sound.orSelf (h : db.Sound) {x : Except Error Db}
    (hx : ∀ db', x = .ok db' → db'.Sound) : (db.orSelf x).Sound := by
  cases x with
  | error e => exact h
  | ok db' => exact hx db' rfl

theorem Db.Reached.sound {C : Map String (Option ℤ) → Prop} (h : Db.Reached C db) : db.Sound := by
  induction h with
  | empty chainInfo hC => exact Db.Sound.empty chainInfo
  | chainInfo chainInfo h hC ih => exact ih.of_others chainInfo _
  | exec p now stmt h ih => exact ih.orSelf fun db' he => ih.exec he

/-- **Reference counts are exact** after every sequence of statements, and the counters of the
    accounts are between zero and nine. -/
theorem refCount_exact (C : Map String (Option ℤ) → Prop) (db : Db) (h : Db.Reached C db) :
    (∀ row ∈ db.recentAccountTransaction,
      row.refCount = numRefs db.refAccountToRecentTx.rows row.key) ∧
    ∀ row ∈ db.account, 0 ≤ row.continousInsertRefCurTxCounter ∧
      row.continousInsertRefCurTxCounter ≤ 9 := by
  refine ⟨fun row hrow => ?_, h.sound.counters⟩
  have hcount := h.sound.consistent.refCount row hrow
  rw [numRefs_nil] at hcount
  omega

/-- A chain. -/
def sampleChains : Map String (Option ℤ) := AList.insert "rollapp_1-1" none ∅

/-- The transaction of a block with one transaction, which involves one account. -/
def sampleBlockTransaction : BlockTransaction where
  accountsPlanner := default
  refsPlanner := default
  now := 0
  recordsTxs := [newRecordTransactionForInsert "rollapp_1-1" 7 "AA" 1720000000 ["msg"] "cosmos"]
  involvedAccounts := [newRecordAccountForInsert "rollapp_1-1" "rol1a"]
  recentAccountTxs :=
    [newRecordRecentAccountTransactionForInsert "rollapp_1-1" 7 "AA" 1720000000 ["msg"]]
  refAccountToRecentTxs := [newRecordRefAccountToRecentTxForInsert "rollapp_1-1" "rol1a" 7 "AA"]
  commits := true

/-- One reference is counted. -/
theorem refCount_exact_one : ∃ db : Db, (db.recentAccountTransaction.rows.map (·.refCount) = [1] ∧
      db.account.rows.map (·.continousInsertRefCurTxCounter) = [1]) ∧
    (∀ row ∈ db.recentAccountTransaction,
      row.refCount = numRefs db.refAccountToRecentTx.rows row.key) ∧
    ∀ row ∈ db.account, 0 ≤ row.continousInsertRefCurTxCounter ∧
      row.continousInsertRefCurTxCounter ≤ 9 := by
  have h : Db.Reached (fun _ => True) _ :=
    .exec default 0 (.insertRefAccountToRecentTx sampleBlockTransaction.refAccountToRecentTxs) <|
    .exec default 0 (.insertRecentAccountTransactions sampleBlockTransaction.recentAccountTxs) <|
    .exec default 0 (.insertAccounts sampleBlockTransaction.involvedAccounts) <|
    .empty sampleChains trivial
  exact ⟨_, ⟨by decide, by decide⟩, refCount_exact _ _ h⟩

/-! ## Sequences of transactions -/

theorem Db.Sound.insertBlockInformation (h : db.Sound) {t : BlockTransaction}
    (he : db.insertBlockInformation t = .ok db') : db'.Sound := by
  obtain ⟨db₁, h₁, he⟩ := bind_ok_iff.1 he
  obtain ⟨db₂, h₂, he⟩ := bind_ok_iff.1 he
  exact (((h.insertTransactions h₁).insertAccounts h₂).insertRecentAccountTransactions _).insertRefs
    he

/-- What the clean-up of a transaction leaves. -/
theorem Db.Sound.blockTransaction (h : db.Sound) {t : BlockTransaction}
    (he : db.blockTransaction t = .ok db') :
    db'.Sound ∧ db'.reducedRefCountRecentAccountTransaction.rows = [] ∧
      ∃ db₁ r u, db.insertBlockInformation t = .ok db₁ ∧ db' = { db₁ with
        recentAccountTransaction := r
        reducedRefCountRecentAccountTransaction := u } := by
  obtain ⟨db₁, h₁, he⟩ := bind_ok_iff.1 he
  have hs := h.insertBlockInformation h₁
  obtain ⟨r, u, he', hc, hu, -⟩ := hs.consistent.cleanup
  obtain rfl := Except.ok.inj (he'.symm.trans he)
  exact ⟨⟨hc, hs.counters⟩, hu, db₁, r, u, h₁, rfl⟩

/-- The tables between two transactions. -/
theorem Db.Sound.afterTransaction (h : db.Sound)
    (hq : db.reducedRefCountRecentAccountTransaction.rows = []) (t : BlockTransaction) :
    (db.afterTransaction t).Sound ∧
      (db.afterTransaction t).reducedRefCountRecentAccountTransaction.rows = [] := by
  unfold Db.afterTransaction
  split_ifs
  · cases he : db.blockTransaction t with
    | error e => exact ⟨h, hq⟩
    | ok db' =>
      obtain ⟨hs, hu, -⟩ := h.blockTransaction he
      exact ⟨hs, hu⟩
  · exact ⟨h, hq⟩

theorem Db.Committed.sound (h : db.Committed) :
    db.Sound ∧ db.reducedRefCountRecentAccountTransaction.rows = [] := by
  induction h with
  | empty chainInfo => exact ⟨Db.Sound.empty chainInfo, rfl⟩
  | chainInfo chainInfo h ih => exact ⟨ih.1.of_others chainInfo _, ih.2⟩
  | transaction t h ih => exact ih.1.afterTransaction ih.2 t

/-- **The clean-up is complete and safe.**  Between two transactions the queue is empty, every
    transaction is referenced, and every reference has its transaction and its account; the
    clean-up of the next transaction does not fail, and deletes no referenced transaction. -/
theorem committed_clean (db : Db) (h : db.Committed) :
    db.reducedRefCountRecentAccountTransaction.rows = [] ∧
    (∀ row ∈ db.recentAccountTransaction, ∃ ref ∈ db.refAccountToRecentTx, ref.tx = row.key) ∧
    (∀ ref ∈ db.refAccountToRecentTx,
      db.recentAccountTransaction.Has ref.tx ∧ db.account.Has ref.account) ∧
    ∀ t db₁, db.insertBlockInformation t = .ok db₁ →
      ∃ db₂, db₁.cleanupZeroRefCount = .ok db₂ ∧
        db₂.refAccountToRecentTx = db₁.refAccountToRecentTx ∧
        ∀ row ∈ db₁.recentAccountTransaction,
          (∃ ref ∈ db₁.refAccountToRecentTx, ref.tx = row.key) →
            row ∈ db₂.recentAccountTransaction := by
  obtain ⟨hs, hq⟩ := h.sound
  refine ⟨hq, fun row hrow => ?_, fun ref href => ?_, fun t db₁ h₁ => ?_⟩
  · rcases hs.consistent.queued row hrow with href | hhas
    · rwa [List.append_nil] at href
    · rw [Table.Has, hq] at hhas
      cases hhas
  · exact (hs.consistent.refs_nil href).symm
  · have hs₁ := (hs.insertBlockInformation h₁).consistent
    obtain ⟨r, u, he, -, -, hr⟩ := hs₁.cleanup
    exact ⟨_, he, rfl, fun row hrow href => hr row hrow ((hs₁.referenced_iff hrow).1 href)⟩

/-- The tables after a transaction that keeps a transaction. -/
theorem committed_clean_one :
    let db := (Db.empty sampleChains).afterTransaction sampleBlockTransaction
    db.recentAccountTransaction.rows.map (·.refCount) = [1] ∧
    db.reducedRefCountRecentAccountTransaction.rows = [] ∧
    ∀ row ∈ db.recentAccountTransaction, ∃ ref ∈ db.refAccountToRecentTx, ref.tx = row.key :=
  have h := committed_clean _ (.transaction sampleBlockTransaction (.empty sampleChains))
  ⟨by decide, h.1, h.2.1⟩

end RollappExplorer
