/-
  The records of a block do not depend on the order its maps are ranged over.

  * `Involvement`: what the loops over the involvers of a transaction collect;
  * `handleInvolvers_holds`: they collect the same in every order;
  * `blockInformation_similar`: the records of a block in two orders: the same transactions,
    references with the same keys, and accounts with the same contracts;
  * `blockInformation_placed`: where the records of a block stand.
-/
import RollappExplorer.Schema

namespace RollappExplorer

open Go

/-! ## Involvements -/

/-- What the loops over the involvers collect: the accounts of the transaction, the accounts
    of the block, and their contracts. -/
inductive Involvement where
  | involved (addr : String)
  | account (addr : String)
  | contract (type : InvolversType) (addr contract : String)

/-- The contracts of a type. -/
def RecordAccount.contractsOf (a : RecordAccount) : InvolversType → List String
  | .erc20 => a.balanceOnErc20Contracts
  | .nft => a.balanceOnNftContracts
  | .senderOrSigner | .normal => []

def InvolvedState.Holds (s : InvolvedState) : Involvement → Prop
  | .involved addr => addr ∈ s.flags
  | .account addr => addr ∈ s.accounts
  | .contract type addr contract =>
    ∃ a, s.accounts.lookup addr = some a ∧ contract ∈ a.contractsOf type

/-- The accounts stand under their addresses. -/
def AccountsKeyed (chainId : String) (accounts : Map String RecordAccount) : Prop :=
  ∀ addr a, accounts.lookup addr = some a →
    a.chainId = normalizeChainId chainId ∧ a.bech32Address = normalizeAddress addr

theorem AccountsKeyed.empty {chainId : String} : AccountsKeyed chainId ∅ := by
  intro addr a h
  rw [AList.lookup_empty] at h
  cases h

section
variable {sdk : Sdk} {chainId : String} {bech32Cfg : Bech32PrefixOfChainInfo}
  {type : InvolversType} {s s' : InvolvedState} {addr : String}

theorem mem_involvedAccount {contract : String} :
    contract ∈ (involvedAccount chainId s.accounts addr).contractsOf type ↔
      s.Holds (.contract type addr contract) := by
  simp only [involvedAccount, InvolvedState.Holds]
  cases h : s.accounts.lookup addr with
  | none => cases type <;> simp [RecordAccount.contractsOf, newRecordAccountForInsert]
  | some a => simp

theorem involvedAccount_keyed (hs : AccountsKeyed chainId s.accounts) :
    (involvedAccount chainId s.accounts addr).chainId = normalizeChainId chainId ∧
      (involvedAccount chainId s.accounts addr).bech32Address = normalizeAddress addr := by
  unfold involvedAccount
  cases h : s.accounts.lookup addr with
  | none => exact ⟨rfl, rfl⟩
  | some a => exact hs addr a h

/-- An account with further contracts is put under its address. -/
theorem InvolvedState.holds_put (flagType : InvolversType) {account : RecordAccount}
    {more : InvolversType → String → Prop} (hs : AccountsKeyed chainId s.accounts)
    (hkeyed : account.chainId = normalizeChainId chainId ∧
      account.bech32Address = normalizeAddress addr)
    (hmore : ∀ type contract, contract ∈ account.contractsOf type ↔
      s.Holds (.contract type addr contract) ∨ more type contract) :
    AccountsKeyed chainId (s.accounts.insert addr account) ∧
      ∀ x, InvolvedState.Holds ⟨putInvolvedFlag s.flags addr flagType,
          s.accounts.insert addr account⟩ x ↔
        s.Holds x ∨ x = .involved addr ∨ x = .account addr ∨
          ∃ type contract, more type contract ∧ x = .contract type addr contract := by
  refine ⟨fun addr' a h => ?_, fun x => ?_⟩
  · by_cases he : addr' = addr
    · subst he
      rw [AList.lookup_insert] at h
      exact Option.some.inj h ▸ hkeyed
    · rw [AList.lookup_insert_ne he] at h
      exact hs addr' a h
  · cases x with
    | involved addr' => simp [Holds, putInvolvedFlag, AList.mem_insert, or_comm]
    | account addr' => simp [Holds, AList.mem_insert, or_comm]
    | contract type addr' contract =>
      by_cases he : addr' = addr
      · subst he
        have h := hmore type contract
        simp only [Holds, AList.lookup_insert, Option.some.injEq, exists_eq_left', h]
        simp
      · have hne : ∀ type' contract', more type' contract' →
            Involvement.contract type addr' contract ≠ .contract type' addr contract' := by
          rintro _ _ _ h
          exact he (Involvement.contract.inj h).2.1
        simp only [Holds, AList.lookup_insert_ne he]
        constructor
        · exact .inl
        · rintro (h | h | h | ⟨type', contract', hm, h⟩)
          · exact h
          · cases h
          · cases h
          · exact absurd h (hne type' contract' hm)

/-! ## Involvers -/

variable (sdk bech32Cfg) in
/-- What an involver contributes, with the contract that is added to its account. -/
def Contributes (type : InvolversType) (contract : Option String) (involver : String)
    (x : Involvement) : Prop :=
  ∃ addr, involverAddress sdk bech32Cfg involver = .ok (some addr) ∧
    (x = .involved addr ∨ x = .account addr ∨
      ∃ c ∈ contract, type.OfContracts ∧ x = .contract type addr c)

theorem handleInvolver_holds {involver : String} (hs : AccountsKeyed chainId s.accounts)
    (he : handleInvolver sdk chainId bech32Cfg type s involver = .ok s') :
    AccountsKeyed chainId s'.accounts ∧ ∀ x, s'.Holds x ↔
      s.Holds x ∨ Contributes sdk bech32Cfg type none involver x := by
  obtain ⟨addr, haddr, he⟩ := bind_ok_iff.1 he
  cases addr with
  | none =>
    obtain rfl : s = s' := Except.ok.inj he
    exact ⟨hs, fun x => by simp [Contributes, haddr]⟩
  | some addr =>
    obtain rfl : InvolvedState.mk (putInvolvedFlag s.flags addr type)
      (s.accounts.insert addr (involvedAccount chainId s.accounts addr)) = s' := Except.ok.inj he
    have hmore : ∀ ty c, c ∈ (involvedAccount chainId s.accounts addr).contractsOf ty ↔
        s.Holds (.contract ty addr c) ∨ False := by
      intro ty c
      rw [mem_involvedAccount, or_false]
    obtain ⟨hkeyed, hx⟩ := InvolvedState.holds_put type hs
      (involvedAccount_keyed hs) hmore
    refine ⟨hkeyed, fun x => (hx x).trans ?_⟩
    simp [Contributes, haddr]

/-- The contract is added to the account. -/
def addContract (type : InvolversType) (contract : String) (account : RecordAccount) :
    RecordAccount :=
  match type with
  | .erc20 => { account with
      balanceOnErc20Contracts := account.balanceOnErc20Contracts ++ [contract] }
  | .nft => { account with
      balanceOnNftContracts := account.balanceOnNftContracts ++ [contract] }
  | _ => account

theorem mem_addContract {ty : InvolversType} {contract c : String} {account : RecordAccount} :
    c ∈ (addContract type contract account).contractsOf ty ↔
      c ∈ account.contractsOf ty ∨ (ty = type ∧ type.OfContracts ∧ c = contract) := by
  cases type <;> cases ty <;>
    simp [addContract, RecordAccount.contractsOf, InvolversType.OfContracts]

theorem handleContractInvolver_eq (contract : String) (s : InvolvedState) (involver : String) :
    handleContractInvolver sdk chainId bech32Cfg type contract s involver = do
      match ← involverAddress sdk bech32Cfg involver with
      | none => return s
      | some addr => return ⟨putInvolvedFlag s.flags addr type, s.accounts.insert addr
          (addContract type contract (involvedAccount chainId s.accounts addr))⟩ := by
  cases type <;> rfl

theorem handleContractInvolver_holds {contract involver : String}
    (hs : AccountsKeyed chainId s.accounts)
    (he : handleContractInvolver sdk chainId bech32Cfg type contract s involver = .ok s') :
    AccountsKeyed chainId s'.accounts ∧ ∀ x, s'.Holds x ↔
      s.Holds x ∨ Contributes sdk bech32Cfg type (some contract) involver x := by
  rw [handleContractInvolver_eq] at he
  obtain ⟨addr, haddr, he⟩ := bind_ok_iff.1 he
  cases addr with
  | none =>
    obtain rfl : s = s' := Except.ok.inj he
    exact ⟨hs, fun x => by simp [Contributes, haddr]⟩
  | some addr =>
    obtain rfl : InvolvedState.mk (putInvolvedFlag s.flags addr type) (s.accounts.insert addr
      (addContract type contract (involvedAccount chainId s.accounts addr))) = s' :=
        Except.ok.inj he
    have hmore : ∀ ty c,
        c ∈ (addContract type contract (involvedAccount chainId s.accounts addr)).contractsOf ty ↔
          s.Holds (.contract ty addr c) ∨ (ty = type ∧ type.OfContracts ∧ c = contract) := by
      intro ty c
      rw [mem_addContract, mem_involvedAccount]
    have hkeyed : (involvedAccount chainId s.accounts addr).chainId = normalizeChainId chainId ∧
        (involvedAccount chainId s.accounts addr).bech32Address = normalizeAddress addr :=
      involvedAccount_keyed hs
    obtain ⟨hkeyed, hx⟩ := InvolvedState.holds_put type hs
      (by cases type <;> exact hkeyed) hmore
    refine ⟨hkeyed, fun x => (hx x).trans ?_⟩
    simp only [Contributes, haddr, Except.ok.injEq, Option.some.injEq, exists_eq_left',
      Option.mem_def]
    refine or_congr_right (or_congr_right (or_congr_right ⟨?_, ?_⟩))
    · rintro ⟨_, _, ⟨rfl, hty, rfl⟩, rfl⟩
      exact ⟨hty, rfl⟩
    · rintro ⟨hty, rfl⟩
      exact ⟨_, _, ⟨rfl, hty, rfl⟩, rfl⟩

variable (sdk bech32Cfg) in
/-- What a token contract with its involvers contributes. -/
def ContractContributes (type : InvolversType) (entry : String × List String)
    (x : Involvement) : Prop :=
  (∃ addr, unsafeAnyAddressToBech32Address sdk entry.1 bech32Cfg = .ok (some addr)) ∧
    ∃ involver ∈ entry.2, Contributes sdk bech32Cfg type (some entry.1) involver x

theorem handleContract_holds {entry : String × List String} (hs : AccountsKeyed chainId s.accounts)
    (he : handleContract sdk chainId bech32Cfg type s entry = .ok s') :
    AccountsKeyed chainId s'.accounts ∧ ∀ x, s'.Holds x ↔
      s.Holds x ∨ ContractContributes sdk bech32Cfg type entry x := by
  unfold handleContract at he
  by_cases hempty : entry.2.length = 0
  · rw [if_pos hempty] at he
    obtain rfl : s = s' := Except.ok.inj he
    have hnil : entry.2 = [] := List.length_eq_zero_iff.1 hempty
    exact ⟨hs, fun x => by simp [ContractContributes, hnil]⟩
  · rw [if_neg hempty] at he
    obtain ⟨addr, haddr, he⟩ := bind_ok_iff.1 he
    rw [mapError_ok_iff] at haddr
    cases addr with
    | none =>
      obtain rfl : s = s' := Except.ok.inj he
      exact ⟨hs, fun x => by simp [ContractContributes, haddr]⟩
    | some addr =>
      obtain ⟨hkeyed, hx⟩ := foldlM_collects (v := InvolvedState.Holds)
        (I := fun s => AccountsKeyed chainId s.accounts)
        (fun _ _ _ hs he => handleContractInvolver_holds hs he) hs he
      exact ⟨hkeyed, fun x => by simp [hx, ContractContributes, haddr]⟩

/-! ## Transactions -/

variable (sdk bech32Cfg) in
/-- What the involvers of a transaction contribute. -/
def InvolversInTransaction.Contributes (ivs : InvolversInTransaction) (x : Involvement) : Prop :=
  (∃ entry ∈ [(InvolversType.senderOrSigner, ivs.signers), (.erc20, ivs.erc20), (.nft, ivs.nft),
      (.normal, ivs.others)],
    ∃ involver ∈ entry.2, RollappExplorer.Contributes sdk bech32Cfg entry.1 none involver x) ∨
  ∃ entry ∈ [(InvolversType.erc20, ivs.tokenContracts.erc20), (.nft, ivs.tokenContracts.nft)],
    ∃ e ∈ entry.2.pairs, ContractContributes sdk bech32Cfg entry.1 e x

/-- **What the loops over the involvers collect** is the same in every order of the maps. -/
theorem handleInvolvers_holds {o : MapOrder} {site : List ℕ} {ivs : InvolversInTransaction}
    (hs : AccountsKeyed chainId s.accounts)
    (he : handleInvolvers sdk chainId bech32Cfg o site ivs s = .ok s') :
    AccountsKeyed chainId s'.accounts ∧ ∀ x, s'.Holds x ↔
      s.Holds x ∨ ivs.Contributes sdk bech32Cfg x := by
  obtain ⟨s₁, he₁, he₂⟩ := bind_ok_iff.1 he
  obtain ⟨hs₁, hx₁⟩ := foldlM_collects (v := InvolvedState.Holds)
    (I := fun s => AccountsKeyed chainId s.accounts)
    (g := fun entry x => ∃ involver ∈ entry.2,
      RollappExplorer.Contributes sdk bech32Cfg entry.1 none involver x)
    (fun _ _ _ hs he => foldlM_collects (fun _ _ _ hs he => handleInvolver_holds hs he) hs he)
    hs he₁
  obtain ⟨hs₂, hx₂⟩ := foldlM_collects (v := InvolvedState.Holds)
    (I := fun s => AccountsKeyed chainId s.accounts)
    (g := fun entry x => ∃ e ∈ entry.2.pairs, ContractContributes sdk bech32Cfg entry.1 e x)
    (fun entry _ _ hs he => by
      obtain ⟨hs', hx⟩ := foldlM_collects (v := InvolvedState.Holds)
        (I := fun s => AccountsKeyed chainId s.accounts)
        (fun _ _ _ hs he => handleContract_holds hs he) hs he
      exact ⟨hs', fun x => by simp only [hx, MapOrder.mem_range]⟩)
    hs₁ he₂
  refine ⟨hs₂, fun x => ?_⟩
  rw [hx₂, hx₁, or_assoc]
  simp only [MapOrder.mem_range, InvolversInTransaction.Contributes]

/-- The key of the reference of an address to a transaction. -/
def refKey (chainId : String) (height : ℤ) (tx : TransactionInBlock) (addr : String) :
    AccountKey × TxKey :=
  (⟨normalizeChainId chainId, normalizeAddress addr⟩,
    ⟨normalizeChainId chainId, height, tx.transactionHash⟩)

variable {o o' : MapOrder} {height : ℤ} {block : BlockInResponse} {tx : TransactionInBlock} {i : ℕ}
  {r r' r₁ r₁' : BlockRecords}

/-- What one iteration of the loop over the transactions adds. -/
theorem transactionInformation_ok
    (he : transactionInformation sdk o chainId bech32Cfg height block r (tx, i) = .ok r₁) :
    ∃ value s, getTxValueFromTx sdk tx = .ok value ∧
      handleInvolvers sdk chainId bech32Cfg o [i] tx.involvers ⟨∅, r.mapInvolvedAccounts⟩ =
        .ok s ∧
      r₁.recordsTxs = r.recordsTxs ++ [recordTx chainId height block tx value] ∧
      r₁.mapInvolvedAccounts = s.accounts ∧
      r₁.recentAccountTxs = r.recentAccountTxs ++
        (if s.flags.pairs = [] then [] else [recentAccountTx chainId height block tx value]) ∧
      r₁.refAccountToRecentTxs = r.refAccountToRecentTxs ++
        (o.range [i] s.flags.pairs).map (refAccountToRecentTx chainId height tx) := by
  obtain ⟨value, hvalue, he⟩ := bind_ok_iff.1 he
  obtain ⟨s, hs, he⟩ := bind_ok_iff.1 he
  refine ⟨value, s, mapError_ok_iff.1 hvalue, hs, ?_⟩
  by_cases hnil : s.flags.pairs = []
  · rw [if_neg (by simp [hnil])] at he
    obtain rfl := Except.ok.inj he
    have hrange : o.range [i] s.flags.pairs = [] :=
      List.perm_nil.1 (hnil ▸ o.range_perm [i] s.flags.pairs)
    rw [if_pos hnil, hrange, List.map_nil, List.append_nil, List.append_nil]
    exact ⟨rfl, rfl, rfl, rfl⟩
  · rw [if_pos (List.length_pos_iff.2 hnil)] at he
    obtain rfl := Except.ok.inj he
    simp [hnil]

theorem refs_of_flags {s : InvolvedState} {k : AccountKey × TxKey} :
    (∃ ref ∈ (o.range [i] s.flags.pairs).map (refAccountToRecentTx chainId height tx),
      ref.row.key = k) ↔ ∃ addr, s.Holds (.involved addr) ∧ refKey chainId height tx addr = k := by
  constructor
  · rintro ⟨ref, href, rfl⟩
    obtain ⟨⟨addr, flag⟩, hm, rfl⟩ := List.mem_map.1 href
    exact ⟨addr, Map.mem_iff_pairs.2 ⟨flag, (MapOrder.mem_range o _).1 hm⟩, rfl⟩
  · rintro ⟨addr, hinv, rfl⟩
    obtain ⟨flag, hm⟩ := Map.mem_iff_pairs.1 hinv
    exact ⟨_, List.mem_map_of_mem ((MapOrder.mem_range o _).2 hm), rfl⟩

/-! ## Blocks -/

/-- The records of a block in two orders. -/
structure BlockRecords.Similar (chainId : String) (r r' : BlockRecords) : Prop where
  txs : r'.recordsTxs = r.recordsTxs
  accounts : ∀ x, InvolvedState.Holds ⟨∅, r'.mapInvolvedAccounts⟩ x ↔
    InvolvedState.Holds ⟨∅, r.mapInvolvedAccounts⟩ x
  recent : r'.recentAccountTxs = r.recentAccountTxs
  refs : ∀ k, (∃ ref ∈ r'.refAccountToRecentTxs, ref.row.key = k) ↔
    ∃ ref ∈ r.refAccountToRecentTxs, ref.row.key = k
  keyed : AccountsKeyed chainId r.mapInvolvedAccounts
  keyed' : AccountsKeyed chainId r'.mapInvolvedAccounts

/-- The flags are those of one transaction only. -/
theorem InvolvedState.holds_of_flags {s : InvolvedState} {x : Involvement} :
    InvolvedState.Holds ⟨∅, s.accounts⟩ x ↔ s.Holds x ∧ ∀ addr, x ≠ .involved addr := by
  cases x with
  | involved addr => simp [Holds]
  | account addr => simp [Holds]
  | contract type addr contract => simp [Holds]

theorem BlockRecords.Similar.transactionInformation (h : r.Similar chainId r')
    (he : transactionInformation sdk o chainId bech32Cfg height block r (tx, i) = .ok r₁)
    (he' : transactionInformation sdk o' chainId bech32Cfg height block r' (tx, i) = .ok r₁') :
    r₁.Similar chainId r₁' := by
  obtain ⟨value, s, hvalue, hs, htxs, haccounts, hrecent, hrefs⟩ := transactionInformation_ok he
  obtain ⟨value', s', hvalue', hs', htxs', haccounts', hrecent', hrefs'⟩ :=
    transactionInformation_ok he'
  obtain rfl := Except.ok.inj (hvalue.symm.trans hvalue')
  obtain ⟨hkeyed, hx⟩ := handleInvolvers_holds (s := ⟨∅, _⟩) h.keyed hs
  obtain ⟨hkeyed', hx'⟩ := handleInvolvers_holds (s := ⟨∅, _⟩) h.keyed' hs'
  have hholds : ∀ x, s'.Holds x ↔ s.Holds x := fun x => by rw [hx, hx', h.accounts]
  have hnil : s'.flags.pairs = [] ↔ s.flags.pairs = [] := by
    simp only [List.eq_nil_iff_forall_not_mem, Prod.forall]
    have hflags : ∀ addr, (∃ flag, (addr, flag) ∈ s'.flags.pairs) ↔
        ∃ flag, (addr, flag) ∈ s.flags.pairs := fun addr => by
      rw [← Map.mem_iff_pairs, ← Map.mem_iff_pairs]
      exact hholds (.involved addr)
    simp only [← not_exists, hflags]
  refine ⟨?_, fun x => ?_, ?_, fun k => ?_, haccounts ▸ hkeyed, haccounts' ▸ hkeyed'⟩
  · rw [htxs, htxs', h.txs]
  · rw [haccounts, haccounts', InvolvedState.holds_of_flags, InvolvedState.holds_of_flags, hholds]
  · rw [hrecent, hrecent', h.recent, if_congr hnil rfl rfl]
  · simp only [hrefs, hrefs', List.mem_append, or_and_right, exists_or, refs_of_flags, hholds,
      h.refs]

/-- **The records of a block** are similar in all orders of the maps. -/
theorem blockInformation_similar
    (he : blockInformation sdk o chainId bech32Cfg height block = .ok r)
    (he' : blockInformation sdk o' chainId bech32Cfg height block = .ok r') :
    r.Similar chainId r' := by
  unfold blockInformation at he he'
  refine foldlM_parallel (J := BlockRecords.Similar chainId) ?_ ?_ he he'
  · rintro ⟨tx, i⟩ - r r' r₁ r₁' hJ he he'
    exact hJ.transactionInformation he he'
  · exact ⟨rfl, fun _ => Iff.rfl, rfl, fun _ => Iff.rfl, AccountsKeyed.empty, AccountsKeyed.empty⟩

/-- Where the records of the transactions of a block stand. -/
structure BlockRecords.Placed (chainId : String) (height : ℤ)
    (transactions : List TransactionInBlock) (r : BlockRecords) : Prop where
  txs : ∀ t ∈ r.recordsTxs, t.chainId = normalizeChainId chainId ∧ t.height = height ∧
    ∃ tx ∈ transactions, t.hash = tx.transactionHash
  refs : ∀ ref ∈ r.refAccountToRecentTxs,
    ∃ tx ∈ transactions, ref.row.tx = ⟨normalizeChainId chainId, height, tx.transactionHash⟩
  recent : ∀ t ∈ r.recentAccountTxs, ∃ ref ∈ r.refAccountToRecentTxs, ref.row.tx = t.row.key

theorem BlockRecords.Placed.transactionInformation {transactions : List TransactionInBlock}
    (htx : tx ∈ transactions) (h : r.Placed chainId height transactions)
    (he : transactionInformation sdk o chainId bech32Cfg height block r (tx, i) = .ok r₁) :
    r₁.Placed chainId height transactions := by
  obtain ⟨value, s, -, -, htxs, -, hrecent, hrefs⟩ := transactionInformation_ok he
  refine ⟨?_, ?_, ?_⟩
  · rw [htxs]
    exact List.forall_mem_append.2
      ⟨h.txs, List.forall_mem_singleton.2 ⟨rfl, rfl, tx, htx, rfl⟩⟩
  · rw [hrefs]
    refine List.forall_mem_append.2 ⟨h.refs, fun ref href => ⟨tx, htx, ?_⟩⟩
    obtain ⟨entry, -, rfl⟩ := List.mem_map.1 href
    rfl
  · rw [hrecent, hrefs]
    refine List.forall_mem_append.2 ⟨fun t ht => ?_, fun t ht => ?_⟩
    · obtain ⟨ref, href, hk⟩ := h.recent t ht
      exact ⟨ref, List.mem_append_left _ href, hk⟩
    · split_ifs at ht with hnil
      · cases ht
      · obtain rfl := List.mem_singleton.1 ht
        obtain ⟨entry, hm⟩ := List.exists_mem_of_ne_nil _ hnil
        exact ⟨_, List.mem_append_right _
          (List.mem_map_of_mem ((MapOrder.mem_range o _).2 hm)), rfl⟩

theorem blockInformation_placed
    (he : blockInformation sdk o chainId bech32Cfg height block = .ok r) :
    r.Placed chainId height block.transactions := by
  refine blockInformation_passed
    (J := fun _ r => r.Placed chainId height block.transactions) ?_ ?_ he
  · constructor <;> intro _ h <;> cases h
  · intro done tx htx i r r' hr he
    exact hr.transactionInformation htx he

end

end RollappExplorer
