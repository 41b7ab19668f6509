/-
  The records of a block are the involvement relation.

  * `InvolversInTransaction.Involves`: the accounts a transaction involves, each as what;
  * `BlockRecords.Exact`: the references, the accounts and their contracts are those of the
    relation, and every reference has its account and its transaction;
  * `insertBlockInformation_exact`: the records of a block are exact, and they are inserted in
    the order that the foreign keys ask for.
-/
import RollappExplorer.Involvement
import RollappExplorer.Simulation

namespace RollappExplorer

open Go Effect

/-! ## The relation -/

section
variable (sdk : Sdk) (bech32Cfg : Bech32PrefixOfChainInfo)

/-- The address is not absolutely invalid, and stored as `addr`. -/
def StoredUnder (involver addr : String) : Prop :=
  unsafeAnyAddressToBech32Address sdk involver bech32Cfg = .ok (some addr)

/-- A token contract that is not absolutely invalid lists the account. -/
structure ListedUnder (contracts : Map String (List String)) (contract addr : String) : Prop where
  valid : ∃ a, StoredUnder sdk bech32Cfg contract a
  listed : ∃ involvers, contracts.lookup contract = some involvers ∧
    ∃ involver ∈ involvers, StoredUnder sdk bech32Cfg involver addr

/-- The transaction involves the account as a signer, an involver of tokens, or otherwise. -/
inductive InvolversInTransaction.Involves (ivs : InvolversInTransaction) :
    InvolversType → String → Prop
  | signer {involver addr : String} : involver ∈ ivs.signers →
      StoredUnder sdk bech32Cfg involver addr → Involves ivs .senderOrSigner addr
  | other {involver addr : String} : involver ∈ ivs.others →
      StoredUnder sdk bech32Cfg involver addr → Involves ivs .normal addr
  | erc20 {involver addr : String} : involver ∈ ivs.erc20 →
      StoredUnder sdk bech32Cfg involver addr → Involves ivs .erc20 addr
  | nft {involver addr : String} : involver ∈ ivs.nft →
      StoredUnder sdk bech32Cfg involver addr → Involves ivs .nft addr
  | erc20Contract {contract addr : String} :
      ListedUnder sdk bech32Cfg ivs.tokenContracts.erc20 contract addr → Involves ivs .erc20 addr
  | nftContract {contract addr : String} :
      ListedUnder sdk bech32Cfg ivs.tokenContracts.nft contract addr → Involves ivs .nft addr

/-- The transaction involves the account. -/
def InvolversInTransaction.Involved (ivs : InvolversInTransaction) (addr : String) : Prop :=
  ∃ type, ivs.Involves sdk bech32Cfg type addr

/-- The references, the accounts and their contracts are those of the transactions. -/
structure BlockRecords.Exact (chainId : String) (height : ℤ)
    (transactions : List TransactionInBlock) (o : MapOrder) (records : BlockRecords) : Prop where
  refs : ∀ tx ∈ transactions, ∀ addr, (∃ ref ∈ records.refAccountToRecentTxs,
    ref.bech32Address = addr ∧ ref.hash = tx.transactionHash) ↔
      tx.involvers.Involved sdk bech32Cfg addr
  refs_unique :
    (records.refAccountToRecentTxs.map fun ref => (ref.bech32Address, ref.hash)).Nodup
  refs_placed : ∀ ref ∈ records.refAccountToRecentTxs,
    ∃ tx ∈ transactions, ref.row.tx = ⟨normalizeChainId chainId, height, tx.transactionHash⟩
  flags : ∀ tx ∈ transactions, ∀ ref ∈ records.refAccountToRecentTxs,
    ref.hash = tx.transactionHash →
      (ref.signer = true ↔ tx.involvers.Involves sdk bech32Cfg .senderOrSigner ref.bech32Address) ∧
      (ref.erc20 = true ↔ tx.involvers.Involves sdk bech32Cfg .erc20 ref.bech32Address) ∧
      (ref.nft = true ↔ tx.involvers.Involves sdk bech32Cfg .nft ref.bech32Address)
  accounts : ∀ addr, (∃ account ∈ records.involvedAccounts o,
    account.row.key = ⟨normalizeChainId chainId, addr⟩) ↔
      ∃ tx ∈ transactions, tx.involvers.Involved sdk bech32Cfg addr
  accounts_unique : ((records.involvedAccounts o).map fun account => account.row.key).Nodup
  contracts : ∀ account ∈ records.involvedAccounts o, ∀ contract,
    (contract ∈ account.balanceOnErc20Contracts ↔ ∃ tx ∈ transactions,
      ListedUnder sdk bech32Cfg tx.involvers.tokenContracts.erc20 contract
        account.bech32Address) ∧
    (contract ∈ account.balanceOnNftContracts ↔ ∃ tx ∈ transactions,
      ListedUnder sdk bech32Cfg tx.involvers.tokenContracts.nft contract account.bech32Address)
  ref_account : ∀ ref ∈ records.refAccountToRecentTxs,
    ∃ account ∈ records.involvedAccounts o, account.row.key = ref.row.account
  ref_tx : ∀ ref ∈ records.refAccountToRecentTxs,
    ∃ tx ∈ records.recentAccountTxs, tx.row.key = ref.row.tx

end

/-! ## Flags -/

/-- The flag of a type; every involved account is one of the type `normal`. -/
def InvolvedFlag.has (flag : InvolvedFlag) : InvolversType → Bool
  | .senderOrSigner => flag.signer
  | .erc20 => flag.erc20
  | .nft => flag.nft
  | .normal => true

/-- The account has the flag. -/
def InvolvedState.Flagged (s : InvolvedState) (x : InvolversType × String) : Prop :=
  ∃ flag, s.flags.lookup x.2 = some flag ∧ flag.has x.1 = true

section
variable {sdk : Sdk} {chainId : String} {bech32Cfg : Bech32PrefixOfChainInfo}
  {type : InvolversType} {s s' : InvolvedState} {addr involver : String}

theorem StoredUnder.normalized (h : StoredUnder sdk bech32Cfg involver addr) :
    normalizeAddress addr = addr := by
  unfold StoredUnder unsafeAnyAddressToBech32Address at h
  dsimp only at h
  split_ifs at h with hevm hhrp
  · cases hbech : sdk.bech32ifyAddressBytes bech32Cfg.bech32PrefixAccAddr
        (hexToAddress (normalizeAddress involver)) with
    | error e =>
      simp only [hbech] at h
      obtain rfl := Option.some.inj (Except.ok.inj h)
      rfl
    | ok bech32Address =>
      simp only [hbech] at h
      obtain rfl := Option.some.inj (Except.ok.inj h)
      exact normalizeAddress_idem _
  · obtain rfl := Option.some.inj (Except.ok.inj h)
    exact normalizeAddress_idem _
  · cases h

theorem involverAddress_ok_iff :
    involverAddress sdk bech32Cfg involver = .ok (some addr) ↔
      StoredUnder sdk bech32Cfg involver addr := mapError_ok_iff

theorem flagged_put {accounts : Map String RecordAccount} {x : InvolversType × String} :
    InvolvedState.Flagged ⟨putInvolvedFlag s.flags addr type, accounts⟩ x ↔
      s.Flagged x ∨ x.2 = addr ∧ (x.1 = type ∨ x.1 = .normal) := by
  obtain ⟨type', addr'⟩ := x
  by_cases he : addr' = addr
  · subst he
    simp only [InvolvedState.Flagged, putInvolvedFlag, AList.lookup_insert]
    cases s.flags.lookup addr' with
    | none => cases type <;> cases type' <;> simp [InvolvedFlag.has]
    | some flag => cases type <;> cases type' <;> simp [InvolvedFlag.has]
  · simp [InvolvedState.Flagged, putInvolvedFlag, AList.lookup_insert_ne he, he]

variable (sdk bech32Cfg) in
/-- The flags that an involver of the type contributes. -/
def Flags (type : InvolversType) (involver : String) (x : InvolversType × String) : Prop :=
  StoredUnder sdk bech32Cfg involver x.2 ∧ (x.1 = type ∨ x.1 = .normal)

theorem flagged_involver {a : String → Map String RecordAccount} {r : Option String}
    (haddr : involverAddress sdk bech32Cfg involver = .ok r)
    (he : s' = match r with
      | none => s
      | some addr => ⟨putInvolvedFlag s.flags addr type, a addr⟩)
    (x : InvolversType × String) :
    s'.Flagged x ↔ s.Flagged x ∨ Flags sdk bech32Cfg type involver x := by
  unfold Flags
  rw [← involverAddress_ok_iff, haddr]
  subst he
  cases r with
  | none => simp
  | some addr => rw [flagged_put]; simp [eq_comm]

theorem handleInvolver_flagged (he : handleInvolver sdk chainId bech32Cfg type s involver = .ok s')
    (x : InvolversType × String) :
    s'.Flagged x ↔ s.Flagged x ∨ Flags sdk bech32Cfg type involver x := by
  obtain ⟨r, haddr, he⟩ := bind_ok_iff.1 he
  refine flagged_involver (a := fun addr =>
    s.accounts.insert addr (involvedAccount chainId s.accounts addr)) haddr ?_ x
  cases r with
  | none => exact (Except.ok.inj he).symm
  | some addr => exact (Except.ok.inj he).symm

theorem handleContractInvolver_flagged {contract : String}
    (he : handleContractInvolver sdk chainId bech32Cfg type contract s involver = .ok s')
    (x : InvolversType × String) :
    s'.Flagged x ↔ s.Flagged x ∨ Flags sdk bech32Cfg type involver x := by
  rw [handleContractInvolver_eq] at he
  obtain ⟨r, haddr, he⟩ := bind_ok_iff.1 he
  refine flagged_involver (a := fun addr => s.accounts.insert addr
    (addContract type contract (involvedAccount chainId s.accounts addr))) haddr ?_ x
  cases r with
  | none => exact (Except.ok.inj he).symm
  | some addr => exact (Except.ok.inj he).symm

variable (sdk bech32Cfg) in
/-- The flags that a token contract with its involvers contributes. -/
def ContractFlags (type : InvolversType) (entry : String × List String)
    (x : InvolversType × String) : Prop :=
  (∃ a, StoredUnder sdk bech32Cfg entry.1 a) ∧
    ∃ involver ∈ entry.2, Flags sdk bech32Cfg type involver x

theorem handleContract_flagged {entry : String × List String}
    (he : handleContract sdk chainId bech32Cfg type s entry = .ok s')
    (x : InvolversType × String) :
    s'.Flagged x ↔ s.Flagged x ∨ ContractFlags sdk bech32Cfg type entry x := by
  unfold handleContract at he
  split_ifs at he with hempty
  · obtain rfl : s = s' := Except.ok.inj he
    simp [ContractFlags, List.length_eq_zero_iff.1 hempty]
  · obtain ⟨r, haddr, he⟩ := bind_ok_iff.1 he
    rw [mapError_ok_iff] at haddr
    cases r with
    | none =>
      obtain rfl : s = s' := Except.ok.inj he
      simp [ContractFlags, StoredUnder, haddr]
    | some addr =>
      have hx := (foldlM_collects (v := InvolvedState.Flagged) (I := fun _ => True)
        (fun _ _ _ _ he => ⟨trivial, handleContractInvolver_flagged he⟩) trivial he).2
      simp [hx, ContractFlags, StoredUnder, haddr]

variable (sdk bech32Cfg) in
/-- The flags that the involvers of a transaction contribute. -/
def InvolversInTransaction.Flags (ivs : InvolversInTransaction) (x : InvolversType × String) :
    Prop :=
  (∃ entry ∈ [(InvolversType.senderOrSigner, ivs.signers), (.erc20, ivs.erc20), (.nft, ivs.nft),
      (.normal, ivs.others)],
    ∃ involver ∈ entry.2, RollappExplorer.Flags sdk bech32Cfg entry.1 involver x) ∨
  ∃ entry ∈ [(InvolversType.erc20, ivs.tokenContracts.erc20), (.nft, ivs.tokenContracts.nft)],
    ∃ e ∈ entry.2.pairs, ContractFlags sdk bech32Cfg entry.1 e x

theorem handleInvolvers_flagged {o : MapOrder} {site : List ℕ} {ivs : InvolversInTransaction}
    (he : handleInvolvers sdk chainId bech32Cfg o site ivs s = .ok s')
    (x : InvolversType × String) :
    s'.Flagged x ↔ s.Flagged x ∨ ivs.Flags sdk bech32Cfg x := by
  obtain ⟨s₁, he₁, he₂⟩ := bind_ok_iff.1 he
  have hx₁ := (foldlM_collects (v := InvolvedState.Flagged) (I := fun _ => True)
    (g := fun entry x => ∃ involver ∈ entry.2,
      RollappExplorer.Flags sdk bech32Cfg entry.1 involver x)
    (fun _ _ _ hs he => foldlM_collects
      (fun _ _ _ _ he => ⟨trivial, handleInvolver_flagged he⟩) hs he) trivial he₁).2
  have hx₂ := (foldlM_collects (v := InvolvedState.Flagged) (I := fun _ => True)
    (g := fun entry x => ∃ e ∈ entry.2.pairs, ContractFlags sdk bech32Cfg entry.1 e x)
    (fun entry _ _ hs he => by
      obtain ⟨hs', hx⟩ := foldlM_collects (v := InvolvedState.Flagged) (I := fun _ => True)
        (fun _ _ _ _ he => ⟨trivial, handleContract_flagged he⟩) hs he
      exact ⟨hs', fun x => by simp only [hx, MapOrder.mem_range]⟩) trivial he₂).2
  rw [hx₂, hx₁, or_assoc]
  simp only [MapOrder.mem_range, InvolversInTransaction.Flags]

/-! ## What the loops collect is the relation -/

theorem contractFlags_iff {contracts : Map String (List String)} {x : InvolversType × String} :
    (∃ e ∈ contracts.pairs, ContractFlags sdk bech32Cfg type e x) ↔
      (∃ contract, ListedUnder sdk bech32Cfg contracts contract x.2) ∧
        (x.1 = type ∨ x.1 = .normal) := by
  constructor
  · rintro ⟨⟨contract, involvers⟩, hm, hvalid, involver, hinvolver, haddr, htype⟩
    exact ⟨⟨contract, hvalid, involvers, Map.mem_pairs.1 hm, involver, hinvolver, haddr⟩, htype⟩
  · rintro ⟨⟨contract, hvalid, involvers, hm, involver, hinvolver, haddr⟩, htype⟩
    exact ⟨(contract, involvers), Map.mem_pairs.2 hm, hvalid, involver, hinvolver, haddr, htype⟩

/-- An account has the flags of what it is involved as. -/
theorem InvolversInTransaction.flags_iff {ivs : InvolversInTransaction} :
    ivs.Flags sdk bech32Cfg (type, addr) ↔
      ∃ type', ivs.Involves sdk bech32Cfg type' addr ∧ (type = type' ∨ type = .normal) := by
  simp only [Flags, contractFlags_iff, List.mem_cons, List.not_mem_nil, or_false,
    exists_eq_or_imp, exists_eq_left]
  constructor
  · rintro ((⟨_, hi, ha, h⟩ | ⟨_, hi, ha, h⟩ | ⟨_, hi, ha, h⟩ | ⟨_, hi, ha, h⟩) |
      ⟨⟨_, hc⟩, h⟩ | ⟨⟨_, hc⟩, h⟩)
    · exact ⟨_, .signer hi ha, h⟩
    · exact ⟨_, .erc20 hi ha, h⟩
    · exact ⟨_, .nft hi ha, h⟩
    · exact ⟨_, .other hi ha, h⟩
    · exact ⟨_, .erc20Contract hc, h⟩
    · exact ⟨_, .nftContract hc, h⟩
  · rintro ⟨type', hinv, h⟩
    cases hinv with
    | signer hi ha => exact .inl (.inl ⟨_, hi, ha, h⟩)
    | erc20 hi ha => exact .inl (.inr (.inl ⟨_, hi, ha, h⟩))
    | nft hi ha => exact .inl (.inr (.inr (.inl ⟨_, hi, ha, h⟩)))
    | other hi ha => exact .inl (.inr (.inr (.inr ⟨_, hi, ha, h⟩)))
    | erc20Contract hc => exact .inr (.inl ⟨⟨_, hc⟩, h⟩)
    | nftContract hc => exact .inr (.inr ⟨⟨_, hc⟩, h⟩)

theorem InvolversInTransaction.flags_normal_iff {ivs : InvolversInTransaction} :
    ivs.Flags sdk bech32Cfg (.normal, addr) ↔ ivs.Involved sdk bech32Cfg addr := by
  simp [flags_iff, Involved]

theorem InvolversInTransaction.flags_of_ne_normal {ivs : InvolversInTransaction}
    (h : type ≠ .normal) :
    ivs.Flags sdk bech32Cfg (type, addr) ↔ ivs.Involves sdk bech32Cfg type addr := by
  simp [flags_iff, h]

/-- The contracts of an account are those that list it. -/
theorem contractContributes_iff {contracts : Map String (List String)} {x : Involvement} :
    (∃ e ∈ contracts.pairs, ContractContributes sdk bech32Cfg type e x) ↔
      ∃ contract addr, ListedUnder sdk bech32Cfg contracts contract addr ∧
        (x = .involved addr ∨ x = .account addr ∨
          type.OfContracts ∧ x = .contract type addr contract) := by
  constructor
  · rintro ⟨⟨contract, involvers⟩, hm, hvalid, involver, hinvolver, addr, haddr, hx⟩
    rw [involverAddress_ok_iff] at haddr
    refine ⟨contract, addr, ⟨hvalid, involvers, Map.mem_pairs.1 hm, involver, hinvolver, haddr⟩,
      hx.imp_right (Or.imp_right ?_)⟩
    rintro ⟨c, hc, h⟩
    obtain rfl := Option.some.inj hc
    exact h
  · rintro ⟨contract, addr, ⟨hvalid, involvers, hm, involver, hinvolver, haddr⟩, hx⟩
    exact ⟨(contract, involvers), Map.mem_pairs.2 hm, hvalid, involver, hinvolver, addr,
      involverAddress_ok_iff.2 haddr, hx.imp_right (Or.imp_right fun h => ⟨contract, rfl, h⟩)⟩

theorem contributes_iff {x : Involvement} :
    Contributes sdk bech32Cfg type none involver x ↔ ∃ addr,
      StoredUnder sdk bech32Cfg involver addr ∧ (x = .involved addr ∨ x = .account addr) := by
  simp [Contributes, involverAddress_ok_iff]

theorem InvolversInTransaction.contributes_account_iff {ivs : InvolversInTransaction} :
    ivs.Contributes sdk bech32Cfg (.account addr) ↔ ivs.Involved sdk bech32Cfg addr := by
  rw [← flags_normal_iff]
  simp only [Contributes, Flags, contributes_iff, contractContributes_iff, contractFlags_iff,
    List.mem_cons, List.not_mem_nil, or_false, exists_eq_or_imp, exists_eq_left]
  simp [RollappExplorer.Flags]

theorem InvolversInTransaction.contributes_contract_iff {ivs : InvolversInTransaction}
    {contract : String} :
    (ivs.Contributes sdk bech32Cfg (.contract .erc20 addr contract) ↔
      ListedUnder sdk bech32Cfg ivs.tokenContracts.erc20 contract addr) ∧
    (ivs.Contributes sdk bech32Cfg (.contract .nft addr contract) ↔
      ListedUnder sdk bech32Cfg ivs.tokenContracts.nft contract addr) := by
  simp only [Contributes, contributes_iff, contractContributes_iff, List.mem_cons,
    List.not_mem_nil, or_false, exists_eq_or_imp, exists_eq_left]
  simp [InvolversType.OfContracts]

end

/-! ## The records of a transaction -/

section
variable {sdk : Sdk} {o : MapOrder} {chainId : String} {bech32Cfg : Bech32PrefixOfChainInfo}
  {height : ℤ} {block : BlockInResponse} {tx : TransactionInBlock} {txs : List TransactionInBlock}
  {site : List ℕ} {r r' : BlockRecords} {s s' : InvolvedState}

variable (sdk chainId bech32Cfg height) in
/-- The record is the reference of an account that the transaction involves. -/
structure RefOf (tx : TransactionInBlock) (ref : RecordRefAccountToRecentTx) : Prop where
  chainId : ref.chainId = normalizeChainId chainId
  height : ref.height = height
  hash : ref.hash = tx.transactionHash
  involved : tx.involvers.Involved sdk bech32Cfg ref.bech32Address
  signer : ref.signer = true ↔ tx.involvers.Involves sdk bech32Cfg .senderOrSigner ref.bech32Address
  erc20 : ref.erc20 = true ↔ tx.involvers.Involves sdk bech32Cfg .erc20 ref.bech32Address
  nft : ref.nft = true ↔ tx.involvers.Involves sdk bech32Cfg .nft ref.bech32Address

theorem InvolversInTransaction.Involved.normalized {ivs : InvolversInTransaction} {addr : String}
    (h : ivs.Involved sdk bech32Cfg addr) : normalizeAddress addr = addr := by
  obtain ⟨type, h⟩ := h
  cases h with
  | signer _ ha | other _ ha | erc20 _ ha | nft _ ha => exact ha.normalized
  | erc20Contract hc | nftContract hc =>
    obtain ⟨_, _, _, _, ha⟩ := hc.listed
    exact ha.normalized

theorem InvolvedState.flagged_of_lookup {addr : String} {flag : InvolvedFlag}
    (h : s.flags.lookup addr = some flag) (type : InvolversType) :
    s.Flagged (type, addr) ↔ flag.has type = true := by
  simp [Flagged, h]

theorem InvolvedState.not_flagged_empty {accounts : Map String RecordAccount}
    {x : InvolversType × String} : ¬ InvolvedState.Flagged ⟨∅, accounts⟩ x := by
  rintro ⟨flag, h, -⟩
  cases h

theorem involved_of_flags (hs : ∀ x, s.Flagged x ↔ tx.involvers.Flags sdk bech32Cfg x)
    {entry : String × InvolvedFlag} (hm : entry ∈ s.flags.pairs) :
    tx.involvers.Involved sdk bech32Cfg entry.1 := by
  rw [← InvolversInTransaction.flags_normal_iff, ← hs]
  exact ⟨entry.2, Map.mem_pairs.1 hm, rfl⟩

/-- The references of the flags of a transaction. -/
theorem mem_refs_iff (hs : ∀ x, s.Flagged x ↔ tx.involvers.Flags sdk bech32Cfg x)
    {ref : RecordRefAccountToRecentTx} :
    ref ∈ (o.range site s.flags.pairs).map (refAccountToRecentTx chainId height tx) ↔
      RefOf sdk chainId bech32Cfg height tx ref := by
  have hhas : ∀ {addr flag}, s.flags.lookup addr = some flag → ∀ type ≠ .normal,
      (flag.has type = true ↔ tx.involvers.Involves sdk bech32Cfg type addr) := by
    intro addr flag h type hne
    rw [← InvolvedState.flagged_of_lookup h, hs, InvolversInTransaction.flags_of_ne_normal hne]
  constructor
  · intro h
    obtain ⟨⟨addr, flag⟩, hm, rfl⟩ := List.mem_map.1 h
    have hpair := (MapOrder.mem_range o site).1 hm
    have hlookup := Map.mem_pairs.1 hpair
    have hinv := involved_of_flags hs hpair
    have haddr : (refAccountToRecentTx chainId height tx (addr, flag)).bech32Address = addr :=
      hinv.normalized
    refine ⟨rfl, rfl, rfl, ?_, ?_, ?_, ?_⟩ <;> rw [haddr]
    · exact hinv
    · exact hhas hlookup .senderOrSigner (by decide)
    · exact hhas hlookup .erc20 (by decide)
    · exact hhas hlookup .nft (by decide)
  · intro h
    have hflagged := (hs (.normal, ref.bech32Address)).2
      (InvolversInTransaction.flags_normal_iff.2 h.involved)
    obtain ⟨flag, hlookup, -⟩ := hflagged
    refine List.mem_map.2 ⟨(ref.bech32Address, flag),
      (MapOrder.mem_range o site).2 (Map.mem_pairs.2 hlookup), ?_⟩
    have hsigner := (hhas hlookup .senderOrSigner (by decide)).trans h.signer.symm
    have herc20 := (hhas hlookup .erc20 (by decide)).trans h.erc20.symm
    have hnft := (hhas hlookup .nft (by decide)).trans h.nft.symm
    obtain ⟨chainId', addr, height', hash, signer, erc20, nft⟩ := ref
    obtain ⟨rfl, rfl, rfl, hinv, -, -, -⟩ := h
    have haddr : normalizeAddress addr = addr := hinv.normalized
    simp only [refAccountToRecentTx, newRecordRefAccountToRecentTxForInsert, haddr,
      RecordRefAccountToRecentTx.mk.injEq, true_and]
    exact ⟨Bool.eq_iff_iff.2 hsigner, Bool.eq_iff_iff.2 herc20, Bool.eq_iff_iff.2 hnft⟩

theorem nodup_refs (hs : ∀ x, s.Flagged x ↔ tx.involvers.Flags sdk bech32Cfg x) :
    (((o.range site s.flags.pairs).map (refAccountToRecentTx chainId height tx)).map
      fun ref => (ref.bech32Address, ref.hash)).Nodup := by
  have hkeys : ((o.range site s.flags.pairs).map Prod.fst).Nodup :=
    ((o.range_perm site _).map Prod.fst).nodup_iff.2 s.flags.nodup_pairs
  have hmap : ((o.range site s.flags.pairs).map (refAccountToRecentTx chainId height tx)).map
        (fun ref => (ref.bech32Address, ref.hash)) =
      ((o.range site s.flags.pairs).map Prod.fst).map fun addr => (addr, tx.transactionHash) := by
    rw [List.map_map, List.map_map]
    refine List.map_congr_left fun entry hm => ?_
    have haddr := (involved_of_flags hs ((MapOrder.mem_range o site).1 hm)).normalized
    exact congrArg (·, tx.transactionHash) haddr
  rw [hmap]
  exact hkeys.map fun _ _ h => (Prod.mk.inj h).1

/-! ## The records of a block -/

variable (sdk chainId bech32Cfg height) in
/-- What the loop over the transactions has collected. -/
structure BlockRecords.Collected (txs : List TransactionInBlock) (r : BlockRecords) : Prop where
  keyed : AccountsKeyed chainId r.mapInvolvedAccounts
  holds : ∀ x, InvolvedState.Holds ⟨∅, r.mapInvolvedAccounts⟩ x ↔
    (∃ tx ∈ txs, tx.involvers.Contributes sdk bech32Cfg x) ∧ ∀ addr, x ≠ .involved addr
  refs : ∀ ref, ref ∈ r.refAccountToRecentTxs ↔
    ∃ tx ∈ txs, RefOf sdk chainId bech32Cfg height tx ref
  refs_unique : (txs.map (·.transactionHash)).Nodup →
    (r.refAccountToRecentTxs.map fun ref => (ref.bech32Address, ref.hash)).Nodup
  recent : ∀ ref ∈ r.refAccountToRecentTxs, ∃ t ∈ r.recentAccountTxs, t.row.key = ref.row.tx

theorem BlockRecords.Collected.empty :
    (BlockRecords.mk [] ∅ [] []).Collected sdk chainId bech32Cfg height [] := by
  refine ⟨AccountsKeyed.empty, fun x => ?_, fun ref => by simp, fun _ => List.nodup_nil,
    fun _ h => nomatch h⟩
  cases x <;> simp [InvolvedState.Holds]

/-- One iteration of the loop over the transactions. -/
theorem BlockRecords.Collected.transactionInformation {i : ℕ}
    (h : r.Collected sdk chainId bech32Cfg height txs)
    (he : transactionInformation sdk o chainId bech32Cfg height block r (tx, i) = .ok r') :
    r'.Collected sdk chainId bech32Cfg height (txs ++ [tx]) := by
  obtain ⟨value, s, -, hs, -, haccounts, hrecent, hrefs⟩ := transactionInformation_ok he
  obtain ⟨hkeyed, hx⟩ := handleInvolvers_holds (s := ⟨∅, _⟩) h.keyed hs
  have hflagged : ∀ x, s.Flagged x ↔ tx.involvers.Flags sdk bech32Cfg x := fun x => by
    rw [handleInvolvers_flagged hs, or_iff_right InvolvedState.not_flagged_empty]
  refine ⟨haccounts ▸ hkeyed, fun x => ?_, fun ref => ?_, fun hhashes => ?_, fun ref href => ?_⟩
  · rw [haccounts, InvolvedState.holds_of_flags, hx, h.holds]
    simp only [List.mem_append, List.mem_singleton, or_and_right, exists_or, exists_eq_left,
      and_assoc, and_self]
  · rw [hrefs, List.mem_append, h.refs, mem_refs_iff hflagged]
    simp only [List.mem_append, List.mem_singleton, or_and_right, exists_or, exists_eq_left]
  · rw [List.map_append, List.nodup_append'] at hhashes
    obtain ⟨hdone, -, hnew⟩ := hhashes
    rw [hrefs, List.map_append, List.nodup_append']
    refine ⟨h.refs_unique hdone, nodup_refs hflagged, fun k hk hk' => ?_⟩
    obtain ⟨ref, href, rfl⟩ := List.mem_map.1 hk
    obtain ⟨ref', href', he⟩ := List.mem_map.1 hk'
    obtain ⟨tx', htx', hof⟩ := (h.refs ref).1 href
    have hof' := (mem_refs_iff hflagged).1 href'
    -- the reference is one of `tx` and of a transaction before
    refine hnew (List.mem_map_of_mem htx') (List.mem_singleton.2 ?_)
    exact hof.hash.symm.trans ((Prod.mk.inj he).2.symm.trans hof'.hash)
  · rw [hrefs] at href
    rw [hrecent]
    rcases List.mem_append.1 href with href | href
    · obtain ⟨t, ht, hk⟩ := h.recent ref href
      exact ⟨t, List.mem_append_left _ ht, hk⟩
    · obtain ⟨entry, hm, rfl⟩ := List.mem_map.1 href
      have hne : s.flags.pairs ≠ [] := List.ne_nil_of_mem ((MapOrder.mem_range o _).1 hm)
      refine ⟨recentAccountTx chainId height block tx value, List.mem_append_right _ ?_, rfl⟩
      rw [if_neg hne]
      exact List.mem_singleton_self _

variable (sdk bech32Cfg) in
theorem unsafeAnyAddressToBech32Address_ok (involver : String) :
    ∃ r, unsafeAnyAddressToBech32Address sdk involver bech32Cfg = .ok r := by
  unfold unsafeAnyAddressToBech32Address
  dsimp only
  split_ifs
  · cases sdk.bech32ifyAddressBytes bech32Cfg.bech32PrefixAccAddr
        (hexToAddress (normalizeAddress involver)) with
    | error e => exact ⟨_, rfl⟩
    | ok addr => exact ⟨_, rfl⟩
  · exact ⟨_, rfl⟩
  · exact ⟨_, rfl⟩

theorem handleInvolver_ok (type : InvolversType) (s : InvolvedState) (involver : String) :
    ∃ s', handleInvolver sdk chainId bech32Cfg type s involver = .ok s' := by
  obtain ⟨r, hr⟩ := unsafeAnyAddressToBech32Address_ok sdk bech32Cfg involver
  rw [handleInvolver, involverAddress, mapError_ok_iff.2 hr, ok_bind]
  cases r with
  | none => exact ⟨_, rfl⟩
  | some addr => exact ⟨_, rfl⟩

theorem handleContractInvolver_ok (type : InvolversType) (contract : String) (s : InvolvedState)
    (involver : String) :
    ∃ s', handleContractInvolver sdk chainId bech32Cfg type contract s involver = .ok s' := by
  obtain ⟨r, hr⟩ := unsafeAnyAddressToBech32Address_ok sdk bech32Cfg involver
  rw [handleContractInvolver_eq, involverAddress, mapError_ok_iff.2 hr, ok_bind]
  cases r with
  | none => exact ⟨_, rfl⟩
  | some addr => exact ⟨_, rfl⟩

theorem handleContract_ok (type : InvolversType) (s : InvolvedState)
    (entry : String × List String) :
    ∃ s', handleContract sdk chainId bech32Cfg type s entry = .ok s' := by
  obtain ⟨r, hr⟩ := unsafeAnyAddressToBech32Address_ok sdk bech32Cfg entry.1
  rw [handleContract, mapError_ok_iff.2 hr, ok_bind]
  split_ifs
  · exact ⟨_, rfl⟩
  · cases r with
    | none => exact ⟨_, rfl⟩
    | some addr => exact foldlM_total (handleContractInvolver_ok type entry.1) _ s

/-- The loops over the involvers return no error. -/
theorem handleInvolvers_ok (ivs : InvolversInTransaction) (s : InvolvedState) :
    ∃ s', handleInvolvers sdk chainId bech32Cfg o site ivs s = .ok s' := by
  have hlists (s : InvolvedState) (entry : InvolversType × List String) :
      ∃ s', handleInvolversOfType sdk chainId bech32Cfg s entry = .ok s' :=
    foldlM_total (handleInvolver_ok entry.1) _ s
  have hcontracts (s : InvolvedState) (entry : InvolversType × Map String (List String)) :
      ∃ s', handleContractsOfType sdk chainId bech32Cfg o site s entry = .ok s' :=
    foldlM_total (handleContract_ok entry.1) _ s
  obtain ⟨s₁, h₁⟩ := foldlM_total hlists (o.range (0 :: site)
    [(InvolversType.senderOrSigner, ivs.signers), (.erc20, ivs.erc20), (.nft, ivs.nft),
      (.normal, ivs.others)]) s
  rw [handleInvolvers, h₁, ok_bind]
  exact foldlM_total hcontracts _ s₁

variable (r) in
theorem transactionInformation_ok_iff {entry : TransactionInBlock × ℕ} :
    (∃ r', transactionInformation sdk o chainId bech32Cfg height block r entry = .ok r') ↔
      ∃ value, getTxValueFromTx sdk entry.1 = .ok value := by
  constructor
  · rintro ⟨r', he⟩
    obtain ⟨value, -, hvalue, -⟩ := transactionInformation_ok he
    exact ⟨value, hvalue⟩
  · rintro ⟨value, hvalue⟩
    have hinvolvers : ∃ s, handleInvolvers sdk chainId bech32Cfg o [entry.2] entry.1.involvers
        ⟨∅, r.mapInvolvedAccounts⟩ = .ok s := handleInvolvers_ok _ _
    obtain ⟨s, hs⟩ := hinvolvers
    rw [transactionInformation, mapError_ok_iff.2 hvalue, ok_bind, hs, ok_bind]
    split_ifs
    · exact ⟨_, rfl⟩
    · exact ⟨_, rfl⟩

/-- The records of a block are built iff the values of its transactions can be parsed. -/
theorem blockInformation_ok_iff :
    (∃ r, blockInformation sdk o chainId bech32Cfg height block = .ok r) ↔
      ∀ tx ∈ block.transactions, ∃ value, getTxValueFromTx sdk tx = .ok value := by
  have hstep : ∀ entry ∈ block.transactions.zipIdx, ∀ r : BlockRecords, True →
      ((∃ value, getTxValueFromTx sdk entry.1 = .ok value) ∧ ∃ r',
        transactionInformation sdk o chainId bech32Cfg height block r entry = .ok r' ∧ True) ∨
      (¬ ∃ value, getTxValueFromTx sdk entry.1 = .ok value) ∧ ∀ r',
        transactionInformation sdk o chainId bech32Cfg height block r entry ≠ .ok r' := by
    intro entry _ r _
    have hiff : (∃ r', transactionInformation sdk o chainId bech32Cfg height block r entry =
        .ok r') ↔ ∃ value, getTxValueFromTx sdk entry.1 = .ok value :=
      transactionInformation_ok_iff r
    rw [← hiff]
    simp only [and_true, ne_eq, ← not_exists, and_self]
    exact em _
  unfold blockInformation
  rw [foldlM_ok_iff hstep trivial]
  constructor
  · intro h tx htx
    obtain ⟨i, hi, rfl⟩ := List.mem_iff_getElem.1 htx
    exact h (block.transactions[i], i) (List.mem_zipIdx_iff_getElem?.2 (by simp))
  · intro h entry hentry
    exact h entry.1 (List.fst_mem_of_mem_zipIdx hentry)

theorem blockInformation_collected
    (he : blockInformation sdk o chainId bech32Cfg height block = .ok r) :
    r.Collected sdk chainId bech32Cfg height block.transactions := by
  refine blockInformation_passed
    (J := fun done r => r.Collected sdk chainId bech32Cfg height done) .empty ?_ he
  intro done tx _ i r r' hr he
  exact hr.transactionInformation he

variable (chainId height) in
/-- The reference of an account that the transaction involves. -/
theorem exists_refOf {addr : String} (h : tx.involvers.Involved sdk bech32Cfg addr) :
    ∃ ref, RefOf sdk chainId bech32Cfg height tx ref ∧ ref.bech32Address = addr := by
  classical
  exact ⟨⟨normalizeChainId chainId, addr, height, tx.transactionHash,
    decide (tx.involvers.Involves sdk bech32Cfg .senderOrSigner addr),
    decide (tx.involvers.Involves sdk bech32Cfg .erc20 addr),
    decide (tx.involvers.Involves sdk bech32Cfg .nft addr)⟩,
    ⟨rfl, rfl, rfl, h, decide_eq_true_iff, decide_eq_true_iff, decide_eq_true_iff⟩, rfl⟩

theorem BlockRecords.Collected.mem_accounts (h : r.Collected sdk chainId bech32Cfg height txs)
    {addr : String} : addr ∈ r.mapInvolvedAccounts ↔
      ∃ tx ∈ txs, tx.involvers.Involved sdk bech32Cfg addr := by
  have hx := h.holds (.account addr)
  simp only [InvolversInTransaction.contributes_account_iff] at hx
  exact hx.trans (and_iff_left fun _ h => by cases h)

theorem BlockRecords.Collected.mem_contracts (h : r.Collected sdk chainId bech32Cfg height txs)
    {addr : String} {account : RecordAccount}
    (ha : r.mapInvolvedAccounts.lookup addr = some account) (contract : String) :
    (contract ∈ account.balanceOnErc20Contracts ↔ ∃ tx ∈ txs,
      ListedUnder sdk bech32Cfg tx.involvers.tokenContracts.erc20 contract addr) ∧
    (contract ∈ account.balanceOnNftContracts ↔ ∃ tx ∈ txs,
      ListedUnder sdk bech32Cfg tx.involvers.tokenContracts.nft contract addr) := by
  have herc20 := h.holds (.contract .erc20 addr contract)
  have hnft := h.holds (.contract .nft addr contract)
  simp only [InvolvedState.Holds, ha, Option.some.injEq, exists_eq_left',
    InvolversInTransaction.contributes_contract_iff] at herc20 hnft
  exact ⟨herc20.trans (and_iff_left fun _ h => by cases h),
    hnft.trans (and_iff_left fun _ h => by cases h)⟩

/-- The accounts stand under the addresses of the relation. -/
theorem BlockRecords.Collected.account_key (h : r.Collected sdk chainId bech32Cfg height txs)
    {entry : String × RecordAccount} (hm : entry ∈ r.mapInvolvedAccounts.pairs) :
    entry.2.row.key = ⟨normalizeChainId chainId, entry.1⟩ := by
  obtain ⟨hchain, haddr⟩ := h.keyed entry.1 entry.2 (Map.mem_pairs.1 hm)
  obtain ⟨tx, -, hinv⟩ := h.mem_accounts.1 (Map.mem_iff_pairs.2 ⟨entry.2, hm⟩)
  exact congrArg₂ AccountKey.mk hchain (haddr.trans hinv.normalized)

/-- **The records of a block are the involvement relation**, in every order of the maps. -/
theorem blockInformation_exact (hhashes : (block.transactions.map (·.transactionHash)).Nodup)
    (he : blockInformation sdk o chainId bech32Cfg height block = .ok r) :
    r.Exact sdk bech32Cfg chainId height block.transactions o := by
  have h := blockInformation_collected he
  have hmem : ∀ account, account ∈ r.involvedAccounts o ↔
      ∃ addr, (addr, account) ∈ r.mapInvolvedAccounts.pairs := fun account => by
    simp [BlockRecords.involvedAccounts]
  have hsame : ∀ tx ∈ block.transactions, ∀ tx' ∈ block.transactions,
      tx.transactionHash = tx'.transactionHash → tx = tx' := fun tx htx tx' htx' heq =>
    List.inj_on_of_nodup_map hhashes htx htx' heq
  have haccount : ∀ addr, (∃ tx ∈ block.transactions, tx.involvers.Involved sdk bech32Cfg addr) →
      ∃ account ∈ r.involvedAccounts o,
        account.row.key = ⟨normalizeChainId chainId, addr⟩ := by
    intro addr hinv
    obtain ⟨account, hm⟩ := Map.mem_iff_pairs.1 (h.mem_accounts.2 hinv)
    exact ⟨account, (hmem account).2 ⟨addr, hm⟩, h.account_key hm⟩
  constructor
  case refs =>
    intro tx htx addr
    constructor
    · rintro ⟨ref, href, rfl, hhash⟩
      obtain ⟨tx', htx', hof⟩ := (h.refs ref).1 href
      obtain rfl := hsame tx' htx' tx htx (hof.hash.symm.trans hhash)
      exact hof.involved
    · intro hinv
      obtain ⟨ref, hof, haddr⟩ := exists_refOf chainId height hinv
      exact ⟨ref, (h.refs ref).2 ⟨tx, htx, hof⟩, haddr, hof.hash⟩
  case refs_unique => exact h.refs_unique hhashes
  case refs_placed => exact (blockInformation_placed he).refs
  case flags =>
    intro tx htx ref href hhash
    obtain ⟨tx', htx', hof⟩ := (h.refs ref).1 href
    obtain rfl := hsame tx' htx' tx htx (hof.hash.symm.trans hhash)
    exact ⟨hof.signer, hof.erc20, hof.nft⟩
  case accounts =>
    refine fun addr => ⟨?_, haccount addr⟩
    rintro ⟨account, ha, hk⟩
    obtain ⟨addr', hm⟩ := (hmem account).1 ha
    obtain rfl := (AccountKey.mk.inj ((h.account_key hm).symm.trans hk)).2
    exact h.mem_accounts.1 (Map.mem_iff_pairs.2 ⟨account, hm⟩)
  case accounts_unique =>
    have hmap : (r.involvedAccounts o).map (fun account => account.row.key) =
        ((o.range [] r.mapInvolvedAccounts.pairs).map Prod.fst).map
          fun addr => ⟨normalizeChainId chainId, addr⟩ := by
      rw [BlockRecords.involvedAccounts, List.map_map, List.map_map]
      exact List.map_congr_left fun entry hm => h.account_key ((MapOrder.mem_range o _).1 hm)
    have hkeys : ((o.range [] r.mapInvolvedAccounts.pairs).map Prod.fst).Nodup :=
      ((o.range_perm [] _).map Prod.fst).nodup_iff.2 r.mapInvolvedAccounts.nodup_pairs
    rw [hmap]
    exact hkeys.map fun _ _ heq => (AccountKey.mk.inj heq).2
  case contracts =>
    intro account ha contract
    obtain ⟨addr, hm⟩ := (hmem account).1 ha
    obtain rfl : account.bech32Address = addr := (AccountKey.mk.inj (h.account_key hm)).2
    exact h.mem_contracts (Map.mem_pairs.1 hm) contract
  case ref_account =>
    intro ref href
    obtain ⟨tx, htx, hof⟩ := (h.refs ref).1 href
    obtain ⟨account, ha, hk⟩ := haccount ref.bech32Address ⟨tx, htx, hof.involved⟩
    exact ⟨account, ha, hk.trans (congrArg (AccountKey.mk · _) hof.chainId.symm)⟩
  case ref_tx => exact h.recent

end

/-! ## The insertion of the records -/

/-- The statement that inserts records, unless there are none. -/
def insertion {α : Type} (records : List α) (stmt : Stmt) : List Stmt :=
  if records = [] then [] else [stmt]

/-- The statements that insert the records of a block. -/
def BlockRecords.statements (o : MapOrder) (records : BlockRecords) : List Stmt :=
  insertion records.recordsTxs (.insertTransactions records.recordsTxs) ++
    insertion (records.involvedAccounts o) (.insertAccounts (records.involvedAccounts o)) ++
    insertion records.recentAccountTxs
      (.insertRecentAccountTransactions records.recentAccountTxs) ++
    insertion records.refAccountToRecentTxs
      (.insertRefAccountToRecentTx records.refAccountToRecentTxs)

/-- The statements have been executed in the open transaction, after the calls `before`. -/
def Executed {R : Type} (stmts : List Stmt) (before : List Answered) (w : World R) : Prop :=
  w.history.log = (stmts.map fun stmt => ⟨.txExec stmt, .ok ()⟩).reverse ++ before

section
variable {R : Type} {d : Indexer R} {rpc : Answers} {w : World R} {before : List Answered}
  {stmts : List Stmt} {α : Type}

theorem wp_insertRecords_executed {records : List α} {valid : Except Error Unit} {stmt : Stmt}
    (h : Executed stmts before w) :
    (Spec.anything _).wp (environment d rpc) (insertRecords records valid stmt)
      (Outcome (fun _ => True) fun _ => Executed (stmts ++ insertion records stmt) before) w := by
  unfold insertRecords insertion
  split_ifs with hempty hnil hnil
  · show Executed _ before w
    rwa [List.append_nil]
  · exact absurd (List.length_eq_zero_iff.1 hempty) hnil
  · exact absurd (List.length_eq_zero_iff.2 hnil) hempty
  · cases valid with
    | error e => trivial
    | ok u =>
      refine ⟨trivial, fun a _ => ⟨trivial, ?_⟩⟩
      cases a with
      | error e => trivial
      | ok u' =>
        show _ :: w.history.log = _
        rw [h, List.map_append, List.reverse_append]
        rfl

theorem wp_insertBlockInformation_executed (height : ℤ) (block : BlockInResponse) :
    (Spec.anything _).wp (environment d rpc) (insertBlockInformation d height block)
      (Outcome (fun _ => True) fun _ w' => ∃ o records,
        blockInformation d.sdk o d.chainId d.bech32Cfg height block = .ok records ∧
        Executed (records.statements o) (⟨.mapOrder, o⟩ :: w.history.log) w') w := by
  refine Spec.wp_call_bind trivial fun o _ => ⟨trivial, ?_⟩
  cases hinfo : blockInformation d.sdk o d.chainId d.bech32Cfg height block with
  | error e => trivial
  | ok records =>
    have h₀ : Executed [] (⟨.mapOrder, o⟩ :: w.history.log)
        ((environment d rpc).effect .mapOrder o w) := rfl
    refine wp_orReturn (wp_wrapping (wp_insertRecords_executed h₀)) (fun _ _ _ => trivial) ?_
    intro _ w₁ h₁
    refine wp_orReturn (wp_wrapping (wp_insertRecords_executed h₁)) (fun _ _ _ => trivial) ?_
    intro _ w₂ h₂
    refine wp_orReturn (wp_wrapping (wp_insertRecords_executed h₂)) (fun _ _ _ => trivial) ?_
    intro _ w₃ h₃
    refine Spec.wp_mono ?_ (wp_wrapping (wp_insertRecords_executed h₃))
    rintro (e | u) w' hw
    · trivial
    · exact ⟨o, records, hinfo, hw⟩

/-- **The insertion of a block records exactly the involvement relation**: its records are
    built in every order of the maps if the values of its transactions can be parsed, they are
    the relation, and an insertion without an error has inserted the accounts and the
    transactions of the references before the references. -/
theorem insertBlockInformation_exact (d : Indexer R) (rpc : Answers) (height : ℤ)
    (block : BlockInResponse)
    (hhashes : (block.transactions.map (·.transactionHash)).Nodup) :
    (∀ o, (∃ records, blockInformation d.sdk o d.chainId d.bech32Cfg height block = .ok records) ↔
      ∀ tx ∈ block.transactions, ∃ value, getTxValueFromTx d.sdk tx = .ok value) ∧
    (∀ o records, blockInformation d.sdk o d.chainId d.bech32Cfg height block = .ok records →
      records.Exact d.sdk d.bech32Cfg d.chainId height block.transactions o) ∧
    ∀ w w', Run (environment d rpc) (insertBlockInformation d height block, w)
        (.ret (.ok ()), w') → ∃ o records,
      blockInformation d.sdk o d.chainId d.bech32Cfg height block = .ok records ∧
      Executed (records.statements o) (⟨.mapOrder, o⟩ :: w.history.log) w' :=
  ⟨fun _ => blockInformation_ok_iff, fun _ _ he => blockInformation_exact hhashes he,
    fun _ _ hrun => Spec.wp_result (wp_insertBlockInformation_executed height block) hrun⟩

/-- An indexer of a chain whose addresses begin with `rol`. -/
def indexerOfRol : Indexer Unit where
  chainId := "rollappevm_1234-1"
  sdk := bech32Sdk
  tables := ⟨fun _ r => r, fun _ r => r, fun _ r => r, fun _ r => r, id⟩
  bech32Cfg := ⟨"rol", "rolvalcons", "rolvaloper"⟩
  disableRetryIndexFailedBlocks := false

/-- The signer of a transaction that is also listed under a token contract. -/
theorem insertBlockInformation_exact_contract : ∃ records,
    blockInformation bech32Sdk default "rollappevm_1234-1" ⟨"rol", "rolvalcons", "rolvaloper"⟩ 7
      (blockWithContract "rol1contract") = .ok records ∧
    records.Exact bech32Sdk ⟨"rol", "rolvalcons", "rolvaloper"⟩ "rollappevm_1234-1" 7
      (blockWithContract "rol1contract").transactions default := by
  obtain ⟨hok, hexact, -⟩ := insertBlockInformation_exact indexerOfRol AnyAnswer 7
    (blockWithContract "rol1contract") (List.nodup_singleton _)
  obtain ⟨records, he⟩ := (hok default).2 fun tx htx => ⟨[], by
    obtain rfl := List.mem_singleton.1 htx
    rfl⟩
  exact ⟨records, he, hexact default records he⟩

end

end RollappExplorer
