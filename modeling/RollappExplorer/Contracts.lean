/-
  The contracts of the accounts: they are only added, and never twice.

  * `Db.Extends`: what every statement does to the accounts that exist;
  * `Db.insertAccounts_covers`: the accounts a statement inserts have their contracts;
  * `Db.insertAccounts_same`: inserting them again changes nothing but the order of the arrays.
-/
import RollappExplorer.Involvement
import RollappExplorer.References

namespace RollappExplorer

open Go Sql

/-! ## Contracts of a row -/

/-- The contracts of a type. -/
def AccountRow.contractsOf (row : AccountRow) : InvolversType → List String
  | .erc20 => row.balanceOnErc20Contracts.getD []
  | .nft => row.balanceOnNftContracts.getD []
  | .senderOrSigner | .normal => []

variable {db db' db'' : Db} {p : Planner} {row row' row'' : AccountRow} {record : RecordAccount}
  {type : InvolversType} {c : String}

theorem mem_distinct {a : Option (List String)} :
    c ∈ (a.map p.distinct).getD [] ↔ c ∈ a.getD [] := by
  cases a with
  | none => exact Iff.rfl
  | some l => exact p.mem l c

theorem nodup_distinct {a : Option (List String)} : ((a.map p.distinct).getD []).Nodup := by
  cases a with
  | none => exact List.nodup_nil
  | some l => exact p.nodup l

theorem getD_pqArray (l : List String) : (pqArray l).getD [] = l := by
  unfold pqArray
  split_ifs with h
  · exact h.symm
  · rfl

theorem getD_arrayCat (a b : Option (List String)) :
    (arrayCat a b).getD [] = a.getD [] ++ b.getD [] := by
  cases a with
  | none => rfl
  | some l =>
    cases b with
    | none => exact (List.append_nil l).symm
    | some l' => rfl

theorem mem_contractsOf_trigger :
    c ∈ (trigger00100BeforeInsertOrUpdateAccount p row).contractsOf type ↔
      c ∈ row.contractsOf type := by
  cases type with
  | erc20 | nft => exact mem_distinct
  | senderOrSigner | normal => exact Iff.rfl

theorem nodup_contractsOf_trigger :
    ((trigger00100BeforeInsertOrUpdateAccount p row).contractsOf type).Nodup := by
  cases type with
  | erc20 | nft => exact nodup_distinct
  | senderOrSigner | normal => exact List.nodup_nil

theorem contractsOf_row : record.row.contractsOf type = record.contractsOf type := by
  cases type with
  | erc20 | nft => exact getD_pqArray _
  | senderOrSigner | normal => rfl

theorem contractsOf_onConflict {new : AccountRow} :
    (row.onConflict new).contractsOf type = row.contractsOf type ++ new.contractsOf type := by
  cases type with
  | erc20 | nft => exact getD_arrayCat _ _
  | senderOrSigner | normal => rfl

/-! ## Accounts that are kept -/

/-- The row has further contracts. -/
structure AccountRow.Grows (row row' : AccountRow) : Prop where
  key : row'.key = row.key
  contracts : ∀ type, row.contractsOf type ⊆ row'.contractsOf type

/-- No contract is in an array twice. -/
def Db.Deduplicated (db : Db) : Prop :=
  ∀ row ∈ db.account, ∀ type, (row.contractsOf type).Nodup

/-- The accounts are kept with their contracts. -/
structure Db.Extends (db db' : Db) : Prop where
  grows : ∀ row ∈ db.account, ∃ row' ∈ db'.account, row.Grows row'
  nodup : db.Deduplicated → db'.Deduplicated

theorem Db.Extends.of_eq (h : db'.account = db.account) : db.Extends db' :=
  ⟨fun row hrow => ⟨row, h ▸ hrow, rfl, fun _ => List.Subset.refl _⟩,
    fun hd row hrow => hd row (h ▸ hrow)⟩

theorem Db.Extends.trans (h : db.Extends db') (h' : db'.Extends db'') : db.Extends db'' := by
  refine ⟨fun row hrow => ?_, fun hd => h'.nodup (h.nodup hd)⟩
  obtain ⟨row', hrow', hk, hc⟩ := h.grows row hrow
  obtain ⟨row'', hrow'', hk', hc'⟩ := h'.grows row' hrow'
  exact ⟨row'', hrow'', hk'.trans hk, fun type => List.Subset.trans (hc type) (hc' type)⟩

/-- An update that removes no contract. -/
theorem Db.Extends.update {t : Table AccountRow.key} {k : AccountKey} {g : AccountRow → AccountRow}
    (hmem : ∀ b, b ∈ t ↔ ∃ a ∈ db.account,
      b = if a.key = k then trigger00100BeforeInsertOrUpdateAccount p (g a) else a)
    (hg : ∀ a : AccountRow, a.Grows (g a)) : db.Extends { db with account := t } := by
  refine ⟨fun row hrow => ⟨_, (hmem _).2 ⟨row, hrow, rfl⟩, ?_⟩, fun hd row hrow type => ?_⟩
  · split_ifs
    · exact ⟨(hg row).key, fun type c hc => mem_contractsOf_trigger.2 ((hg row).contracts type hc)⟩
    · exact ⟨rfl, fun _ => List.Subset.refl _⟩
  · obtain ⟨a, ha, rfl⟩ := (hmem row).1 hrow
    split_ifs
    · exact nodup_contractsOf_trigger
    · exact hd a ha type

theorem AccountRow.grows_setCounter (row : AccountRow) (n : ℤ) : row.Grows (row.setCounter n) :=
  ⟨rfl, fun type => by cases type <;> exact List.Subset.refl _⟩

theorem AccountRow.grows_onConflict (row new : AccountRow) : row.Grows (row.onConflict new) :=
  ⟨rfl, fun _ => contractsOf_onConflict ▸ List.subset_append_left _ _⟩

theorem Db.Extends.deleteRefs {q : RefAccountToRecentTxRow → Bool}
    (he : db.deleteRefs q = .ok db') : db.Extends db' := by
  obtain ⟨r, u, -, rfl⟩ := Db.deleteRefs_ok he
  exact .of_eq rfl

/-- The triggers of an inserted reference. -/
theorem Db.Extends.afterInsertRef {new : RefAccountToRecentTxRow}
    (he : db.afterInsertRef p new = .ok db') : db.Extends db' := by
  obtain ⟨-, db₁, h₁, h₂⟩ := Db.afterInsertRef_ok he
  obtain ⟨t, r, rfl, -, hmem, -⟩ := trigger00100AfterInsertRefAccountToRecentTx_ok h₁
  have hfirst : db.Extends { db with account := t, recentAccountTransaction := r } :=
    (Db.Extends.update hmem fun a => a.grows_setCounter _).trans (.of_eq rfl)
  rcases trigger00200AfterInsertRefAccountToRecentTx_cases h₂ with
    ⟨-, db₂, t', hdel, rfl, -, hmem'⟩ | ⟨rfl, -⟩
  · exact (hfirst.trans (.deleteRefs hdel)).trans (.update hmem' fun a => a.grows_setCounter 0)
  · exact hfirst

theorem Db.Extends.insertRefs {refs : List RecordRefAccountToRecentTx}
    (he : db.insertRefs p refs = .ok db') : db.Extends db' := by
  have hwrite : db.Extends (db.writeRefs refs).1 := .of_eq rfl
  exact foldlM_keeps (I := fun s => db.Extends s)
    (fun _ _ _ _ hs he => hs.trans (.afterInsertRef he)) hwrite he

theorem Db.Extends.insertTransactions {now : ℤ} {txs : List RecordTransaction}
    (he : db.insertTransactions now txs = .ok db') : db.Extends db' := by
  obtain ⟨rows, -, rfl⟩ := Db.insertTransactions_ok he
  exact .of_eq rfl

theorem Db.Extends.insertRecentAccountTransactions (txs : List RecordRecentAccountTransaction) :
    db.Extends (db.insertRecentAccountTransactions txs) := by
  obtain ⟨u, he, -⟩ := Db.insertRecentAccountTransactions_eq txs db
  exact .of_eq (by rw [he])

/-- An account that is inserted or updated. -/
theorem Db.Extends.insertAccount (he : db.insertAccount p record = .ok db') : db.Extends db' := by
  obtain ⟨t, rfl, -, hmem⟩ := Db.insertAccount_ok he
  refine ⟨fun row hrow => ⟨_, (hmem _).2 (.inl ⟨row, hrow, rfl⟩), ?_⟩, fun hd row hrow type => ?_⟩
  · split_ifs
    · have hg := row.grows_onConflict (trigger00100BeforeInsertOrUpdateAccount p record.row)
      exact ⟨hg.key, fun type c hc => mem_contractsOf_trigger.2 (hg.contracts type hc)⟩
    · exact ⟨rfl, fun _ => List.Subset.refl _⟩
  · rcases (hmem row).1 hrow with ⟨a, ha, rfl⟩ | ⟨-, rfl⟩
    · split_ifs
      · exact nodup_contractsOf_trigger
      · exact hd a ha type
    · exact nodup_contractsOf_trigger

theorem Db.Extends.insertAccounts {accounts : List RecordAccount}
    (he : db.insertAccounts p accounts = .ok db') : db.Extends db' := by
  obtain ⟨-, he⟩ := bind_unit_ok_iff.1 he
  exact foldlM_keeps (I := fun s => db.Extends s)
    (fun _ _ _ _ hs he => hs.trans (.insertAccount he)) (.of_eq rfl) he

/-! ## Accounts that are inserted -/

/-- The account exists, with its contracts. -/
def Db.Covers (record : RecordAccount) (db : Db) : Prop :=
  ∃ row ∈ db.account, row.key = record.row.key ∧
    ∀ type, record.contractsOf type ⊆ row.contractsOf type

theorem Db.Covers.mono (h : db.Covers record) (he : db.Extends db') : db'.Covers record := by
  obtain ⟨row, hrow, hk, hc⟩ := h
  obtain ⟨row', hrow', hk', hc'⟩ := he.grows row hrow
  exact ⟨row', hrow', hk'.trans hk, fun type => List.Subset.trans (hc type) (hc' type)⟩

theorem Db.insertAccount_covers (he : db.insertAccount p record = .ok db') :
    db'.Covers record := by
  obtain ⟨t, rfl, -, hmem⟩ := Db.insertAccount_ok he
  by_cases hhas : db.account.Has record.row.key
  · obtain ⟨row, hrow, hk⟩ := Table.has_iff.1 hhas
    refine ⟨_, (hmem _).2 (.inl ⟨row, hrow, rfl⟩), ?_, fun type c hc => ?_⟩
    · rw [if_pos hk]
      exact hk
    · rw [if_pos hk, mem_contractsOf_trigger, contractsOf_onConflict, List.mem_append,
        mem_contractsOf_trigger, contractsOf_row]
      exact .inr hc
  · refine ⟨_, (hmem _).2 (.inr ⟨hhas, rfl⟩), rfl, fun type c hc => ?_⟩
    rwa [mem_contractsOf_trigger, contractsOf_row]

theorem Db.insertAccounts_covers {accounts : List RecordAccount}
    (he : db.insertAccounts p accounts = .ok db') : ∀ record ∈ accounts, db'.Covers record := by
  obtain ⟨-, he⟩ := bind_unit_ok_iff.1 he
  intro record hrecord
  have hloop := foldlM_pending
    (J := fun todo s => record ∈ todo ∨ Db.Covers record s) ?_ (.inl hrecord) he
  · exact hloop.resolve_left List.not_mem_nil
  · rintro record' todo s s' (hm | hc) he
    · rcases List.mem_cons.1 hm with rfl | hm
      · exact .inr (Db.insertAccount_covers he)
      · exact .inl hm
    · exact .inr (hc.mono (.insertAccount he))

/-- The accounts of a block are covered in every order of the maps. -/
theorem BlockRecords.Similar.covers {chainId : String} {r r' : BlockRecords} {o o' : MapOrder}
    (h : r.Similar chainId r') (hc : ∀ a ∈ r.involvedAccounts o, db.Covers a) :
    ∀ a ∈ r'.involvedAccounts o', db.Covers a := by
  intro a' ha'
  obtain ⟨⟨addr, a'⟩, hm, rfl⟩ := List.mem_map.1 ha'
  have hlookup' := Map.mem_pairs.1 ((MapOrder.mem_range o' _).1 hm)
  obtain ⟨a, hm⟩ := Map.mem_iff_pairs.1
    ((h.accounts (.account addr)).1 (AList.lookup_isSome.1 (hlookup' ▸ rfl)))
  have hlookup := Map.mem_pairs.1 hm
  obtain ⟨row, hrow, hk, hcontracts⟩ :=
    hc a (List.mem_map.2 ⟨(addr, a), (MapOrder.mem_range o _).2 hm, rfl⟩)
  refine ⟨row, hrow, hk.trans ?_, fun type c hc => hcontracts type ?_⟩
  · obtain ⟨hid, haddr⟩ := h.keyed addr a hlookup
    obtain ⟨hid', haddr'⟩ := h.keyed' addr _ hlookup'
    exact congrArg₂ AccountKey.mk (hid.trans hid'.symm) (haddr.trans haddr'.symm)
  · obtain ⟨a₀, h₀, hc₀⟩ := (h.accounts (.contract type addr c)).1 ⟨_, hlookup', hc⟩
    obtain rfl := Option.some.inj (hlookup.symm.trans h₀)
    exact hc₀

/-! ## Accounts that are inserted again -/

/-- The same row, up to the order of its arrays. -/
structure AccountRow.Same (row row' : AccountRow) : Prop where
  chainId : row'.chainId = row.chainId
  bech32Address : row'.bech32Address = row.bech32Address
  counter : row'.continousInsertRefCurTxCounter = row.continousInsertRefCurTxCounter
  erc20 : Option.Rel List.Perm row.balanceOnErc20Contracts row'.balanceOnErc20Contracts
  nft : Option.Rel List.Perm row.balanceOnNftContracts row'.balanceOnNftContracts

/-- The same rows, up to the order of their arrays. -/
def SameAccounts (t t' : Table AccountRow.key) : Prop :=
  (∀ row ∈ t, ∃ row' ∈ t', row.Same row') ∧ ∀ row' ∈ t', ∃ row ∈ t, row.Same row'

theorem relPerm_refl (a : Option (List String)) : Option.Rel List.Perm a a := by
  cases a with
  | none => exact .none
  | some l => exact .some (.refl l)

theorem relPerm_trans {a b c : Option (List String)} (h : Option.Rel List.Perm a b)
    (h' : Option.Rel List.Perm b c) : Option.Rel List.Perm a c := by
  cases h with
  | none => exact h'
  | some h =>
    cases h' with
    | some h' => exact .some (h.trans h')

theorem AccountRow.Same.refl (row : AccountRow) : row.Same row :=
  ⟨rfl, rfl, rfl, relPerm_refl _, relPerm_refl _⟩

theorem AccountRow.Same.trans (h : row.Same row') (h' : row'.Same row'') : row.Same row'' :=
  ⟨h'.chainId.trans h.chainId, h'.bech32Address.trans h.bech32Address, h'.counter.trans h.counter,
    relPerm_trans h.erc20 h'.erc20, relPerm_trans h.nft h'.nft⟩

theorem SameAccounts.refl (t : Table AccountRow.key) : SameAccounts t t :=
  ⟨fun row hrow => ⟨row, hrow, .refl row⟩, fun row hrow => ⟨row, hrow, .refl row⟩⟩

theorem SameAccounts.trans {t t' t'' : Table AccountRow.key} (h : SameAccounts t t')
    (h' : SameAccounts t' t'') : SameAccounts t t'' := by
  constructor
  · intro row hrow
    obtain ⟨row', hrow', hs⟩ := h.1 row hrow
    obtain ⟨row'', hrow'', hs'⟩ := h'.1 row' hrow'
    exact ⟨row'', hrow'', hs.trans hs'⟩
  · intro row'' hrow''
    obtain ⟨row', hrow', hs'⟩ := h'.2 row'' hrow''
    obtain ⟨row, hrow, hs⟩ := h.2 row' hrow'
    exact ⟨row, hrow, hs.trans hs'⟩

/-- Elements that are in an array already, appended and made distinct. -/
theorem relPerm_again {a : Option (List String)} {l : List String} (hd : (a.getD []).Nodup)
    (hl : l ⊆ a.getD []) : Option.Rel List.Perm a
      ((arrayCat a ((pqArray l).map p.distinct)).map p.distinct) := by
  cases a with
  | none =>
    obtain rfl := List.subset_nil.1 hl
    exact .none
  | some l' =>
    have hmem : ∀ c, c ∈ ((arrayCat (some l') ((pqArray l).map p.distinct)).map p.distinct).getD []
        ↔ c ∈ l' := by
      intro c
      rw [mem_distinct, getD_arrayCat, List.mem_append, mem_distinct, getD_pqArray]
      exact ⟨fun h => h.elim id fun h => hl h, .inl⟩
    have hnodup :
        (((arrayCat (some l') ((pqArray l).map p.distinct)).map p.distinct).getD []).Nodup :=
      nodup_distinct
    cases hcat : arrayCat (some l') ((pqArray l).map p.distinct) with
    | none => cases hp : pqArray l <;> rw [hp] at hcat <;> cases hcat
    | some l'' =>
      rw [hcat] at hmem hnodup
      exact .some ((List.perm_ext_iff_of_nodup hd hnodup).2 fun c => (hmem c).symm)

/-- A covered account that is inserted again. -/
theorem Db.insertAccount_same (hd : db.Deduplicated) (hc : db.Covers record)
    (he : db.insertAccount p record = .ok db') :
    ∃ t, db' = { db with account := t } ∧ SameAccounts db.account t := by
  obtain ⟨t, rfl, -, hmem⟩ := Db.insertAccount_ok he
  obtain ⟨row₀, hrow₀, hk₀, hc₀⟩ := hc
  have hhas : db.account.Has record.row.key := hk₀ ▸ Table.has_of_mem hrow₀
  have hsame : ∀ row ∈ db.account, row.Same (if row.key = record.row.key then
      trigger00100BeforeInsertOrUpdateAccount p
        (row.onConflict (trigger00100BeforeInsertOrUpdateAccount p record.row)) else row) := by
    intro row hrow
    split_ifs with hk
    · obtain rfl := Table.eq_of_key hrow hrow₀ (hk.trans hk₀.symm)
      exact ⟨rfl, rfl, rfl, relPerm_again (hd row hrow .erc20) (hc₀ .erc20),
        relPerm_again (hd row hrow .nft) (hc₀ .nft)⟩
    · exact .refl row
  refine ⟨t, rfl, fun row hrow => ⟨_, (hmem _).2 (.inl ⟨row, hrow, rfl⟩), hsame row hrow⟩, ?_⟩
  intro row' hrow'
  rcases (hmem row').1 hrow' with ⟨row, hrow, rfl⟩ | ⟨hnot, -⟩
  · exact ⟨row, hrow, hsame row hrow⟩
  · exact absurd hhas hnot

/-- **Inserting covered accounts** changes nothing but the order of their arrays. -/
theorem Db.insertAccounts_same {accounts : List RecordAccount} (hd : db.Deduplicated)
    (hc : ∀ record ∈ accounts, db.Covers record) (he : db.insertAccounts p accounts = .ok db') :
    ∃ t, db' = { db with account := t } ∧ SameAccounts db.account t := by
  obtain ⟨-, he⟩ := bind_unit_ok_iff.1 he
  have hloop := foldlM_keeps (I := fun s => (∃ t, s = { db with account := t } ∧
    SameAccounts db.account t) ∧ db.Extends s) ?_ ⟨⟨_, rfl, .refl _⟩, .of_eq rfl⟩ he
  · exact hloop.1
  · rintro record hrecord s s' ⟨⟨t, rfl, ht⟩, hs⟩ he
    obtain ⟨t', rfl, ht'⟩ := Db.insertAccount_same (hs.nodup hd) ((hc record hrecord).mono hs) he
    exact ⟨⟨t', rfl, ht.trans ht'⟩, hs.trans (.insertAccount he)⟩

end RollappExplorer
