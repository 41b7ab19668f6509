/-
  The records built from a block (`insertBlockInformation`).

  * `unsafeAnyAddressToBech32Address`, `getTxValueFromTx`: the conversions of
    addresses and of values;
  * `blockInformation`: the four lists of records, with the accounts collected in a
    map over all transactions of the block;
  * `blockInformation_spec`: what the lists hold, whatever the order the maps are
    ranged over;
  * `accepted_block_storable_iff`: when the lists of an accepted block pass the
    validation of the records.
-/
import Mathlib.Data.Set.Lattice
import RollappExplorer.Query
import RollappExplorer.Records

namespace RollappExplorer

open Go

/-! ## Conversions -/

/-- The value of a hexadecimal digit. -/
def hexValue (c : Char) : ℕ :=
  if c.isDigit then c.toNat - '0'.toNat else c.toNat - 'a'.toNat + 10

/-- The bytes of an even number of hexadecimal digits. -/
def hexToBytes : List Char → List UInt8
  | a :: b :: l => UInt8.ofNat (16 * hexValue a + hexValue b) :: hexToBytes l
  | _ => []

/-- `common.HexToAddress` of a lower case address with its `0x`. -/
def hexToAddress (addr : String) : List UInt8 := hexToBytes (addr.toList.drop 2)

theorem length_hexToBytes (l : List Char) : (hexToBytes l).length = l.length / 2 := by
  fun_induction hexToBytes l with
  | case1 a b l ih =>
    rw [List.length_cons, ih, List.length_cons, List.length_cons]
    omega
  | case2 l h =>
    rcases l with _ | ⟨a, _ | ⟨b, l⟩⟩
    · rfl
    · simp
    · exact absurd rfl (h a b l)

/-- The bytes of a `0x` address. -/
theorem length_hexToAddress {s : String} (h : isEvmAddress s = true) :
    (hexToAddress (normalizeAddress s)).length = 20 := by
  unfold isEvmAddress at h
  unfold hexToAddress
  rw [length_hexToBytes, List.length_drop]
  generalize (normalizeAddress s).toList = l at h ⊢
  unfold hexPrefixed at h
  split at h
  · simp only [allOfLength, Bool.and_eq_true, beq_iff_eq] at h
    simp [h.1]
  · cases h

/-- The bech32 address an address is stored under; `none` if it is absolutely
    invalid. -/
def unsafeAnyAddressToBech32Address (sdk : Sdk) (involver : String)
    (bech32Cfg : Bech32PrefixOfChainInfo) : Except Error (Option String) :=
  let normalizedAddress := normalizeAddress involver
  if isEvmAddress normalizedAddress then
    match sdk.bech32ifyAddressBytes bech32Cfg.bech32PrefixAccAddr
        (hexToAddress normalizedAddress) with
    -- wraps `err`, which is nil, and not the error of the conversion: no error is returned
    | .error _ => .ok (some "")
    | .ok bech32Address => .ok (some (normalizeAddress bech32Address))
  else if (unsafeExtractBech32Hrp normalizedAddress).2 then .ok (some normalizedAddress)
  else .ok none

/-- The coins of a transaction, each with its amount; none if all are zero. -/
def getTxValueFromTx (sdk : Sdk) (tx : TransactionInBlock) : Except Error (List String) :=
  if tx.value = "" then .ok []
  else do
    let coins ← sdk.parseCoinsNormalized tx.value
    if coins.all (·.amount = 0) then return []
    else return coins.map fun coin => s!"{coin.amount} {coin.denom}"

/-! ## Involvers -/

/-- `constants.InvolversType…` -/
inductive InvolversType where
  | senderOrSigner
  | normal
  | erc20
  | nft
  deriving DecidableEq

/-- `structInvolvedFlag` -/
structure InvolvedFlag where
  signer : Bool
  erc20 : Bool
  nft : Bool

/-- The flags of the involved accounts of one transaction, and the accounts of the
    block. -/
structure InvolvedState where
  flags : Map String InvolvedFlag
  accounts : Map String RecordAccount

def putInvolvedFlag (flags : Map String InvolvedFlag) (bech32Address : String)
    (involvedType : InvolversType) : Map String InvolvedFlag :=
  let sif := (flags.lookup bech32Address).getD ⟨false, false, false⟩
  flags.insert bech32Address <| match involvedType with
    | .senderOrSigner => { sif with signer := true }
    | .erc20 => { sif with erc20 := true }
    | .nft => { sif with nft := true }
    | .normal => sif

/-- The account of an address, new if the block has not involved it yet. -/
def involvedAccount (chainId : String) (accounts : Map String RecordAccount)
    (bech32Address : String) : RecordAccount :=
  (accounts.lookup bech32Address).getD (newRecordAccountForInsert chainId bech32Address)

section
variable (sdk : Sdk) (chainId : String) (bech32Cfg : Bech32PrefixOfChainInfo)

/-- The conversion of an involver. -/
def involverAddress (involver : String) : Except Error (Option String) :=
  (unsafeAnyAddressToBech32Address sdk involver bech32Cfg).mapError fun err =>
    wrap err s!"failed to convert involver address {involver} to bech32 address"

/-- An involver of one of the four lists. -/
def handleInvolver (involvedType : InvolversType) (s : InvolvedState) (involver : String) :
    Except Error InvolvedState := do
  match ← involverAddress sdk bech32Cfg involver with
  | none => return s -- ignore invalid records
  | some bech32Address =>
    return ⟨putInvolvedFlag s.flags bech32Address involvedType,
      s.accounts.insert bech32Address (involvedAccount chainId s.accounts bech32Address)⟩

/-- An involver of a token contract: the contract is added to its account. -/
def handleContractInvolver (involvedType : InvolversType) (contract : String)
    (s : InvolvedState) (involver : String) : Except Error InvolvedState := do
  match ← involverAddress sdk bech32Cfg involver with
  | none => return s
  | some bech32Address =>
    let account := involvedAccount chainId s.accounts bech32Address
    let account := match involvedType with
      | .erc20 => { account with
          balanceOnErc20Contracts := account.balanceOnErc20Contracts ++ [contract] }
      | .nft => { account with
          balanceOnNftContracts := account.balanceOnNftContracts ++ [contract] }
      | _ => account
    return ⟨putInvolvedFlag s.flags bech32Address involvedType,
      s.accounts.insert bech32Address account⟩

/-- A token contract with its involvers. -/
def handleContract (involvedType : InvolversType) (s : InvolvedState)
    (entry : String × List String) : Except Error InvolvedState := do
  if entry.2.length = 0 then return s
  match ← (unsafeAnyAddressToBech32Address sdk entry.1 bech32Cfg).mapError fun err =>
      wrap err s!"failed to check contract address {entry.1} by converting to bech32 address" with
  | none => return s
  | some _ => entry.2.foldlM (handleContractInvolver sdk chainId bech32Cfg involvedType entry.1) s

/-- One of the four lists of involvers. -/
def handleInvolversOfType (s : InvolvedState) (entry : InvolversType × List String) :
    Except Error InvolvedState :=
  entry.2.foldlM (handleInvolver sdk chainId bech32Cfg entry.1) s

/-- One of the two maps of token contracts. -/
def handleContractsOfType (o : MapOrder) (site : List ℕ) (s : InvolvedState)
    (entry : InvolversType × Map String (List String)) : Except Error InvolvedState :=
  (o.range (2 :: (if entry.1 = .nft then 1 else 0) :: site) entry.2.pairs).foldlM
    (handleContract sdk chainId bech32Cfg entry.1) s

/-- All involvers of a transaction. -/
def handleInvolvers (o : MapOrder) (site : List ℕ) (ivs : InvolversInTransaction)
    (s : InvolvedState) : Except Error InvolvedState := do
  let s ← (o.range (0 :: site) [(InvolversType.senderOrSigner, ivs.signers), (.erc20, ivs.erc20),
      (.nft, ivs.nft), (.normal, ivs.others)]).foldlM
    (handleInvolversOfType sdk chainId bech32Cfg) s
  (o.range (1 :: site) [(InvolversType.erc20, ivs.tokenContracts.erc20),
      (.nft, ivs.tokenContracts.nft)]).foldlM (handleContractsOfType sdk chainId bech32Cfg o site) s

end

/-! ## Records -/

/-- The records of a block. -/
structure BlockRecords where
  recordsTxs : List RecordTransaction
  mapInvolvedAccounts : Map String RecordAccount
  recentAccountTxs : List RecordRecentAccountTransaction
  refAccountToRecentTxs : List RecordRefAccountToRecentTx

/-- The action of a transaction, of its EVM info if there is one. -/
def TransactionInBlock.action (tx : TransactionInBlock) : String :=
  match tx.evmTxInfo, tx.wasmTxInfo with
  | some info, _ => info.action
  | none, some info => info.action
  | none, none => ""

section
variable (sdk : Sdk) (o : MapOrder) (chainId : String) (bech32Cfg : Bech32PrefixOfChainInfo)
  (height : ℤ) (block : BlockInResponse)

/-- The record of a transaction. -/
def recordTx (tx : TransactionInBlock) (value : List String) : RecordTransaction :=
  { newRecordTransactionForInsert chainId height tx.transactionHash block.timeEpochUTC
      tx.messagesType tx.transactionType with action := tx.action, value := value }

/-- The record of a transaction that involves accounts. -/
def recentAccountTx (tx : TransactionInBlock) (value : List String) :
    RecordRecentAccountTransaction :=
  { newRecordRecentAccountTransactionForInsert chainId height tx.transactionHash
      block.timeEpochUTC tx.messagesType with action := tx.action, value := value }

/-- The reference of an involved account to the transaction. -/
def refAccountToRecentTx (tx : TransactionInBlock) (entry : String × InvolvedFlag) :
    RecordRefAccountToRecentTx :=
  { newRecordRefAccountToRecentTxForInsert chainId entry.1 height tx.transactionHash with
    signer := entry.2.signer, erc20 := entry.2.erc20, nft := entry.2.nft }

/-- One iteration of the loop over the transactions of the block. -/
def transactionInformation (records : BlockRecords) (entry : TransactionInBlock × ℕ) :
    Except Error BlockRecords := do
  let tx := entry.1
  let value ← (getTxValueFromTx sdk tx).mapError fun err =>
    wrap err s!"failed to parse coins from value {tx.value}"
  let recordsTxs := records.recordsTxs ++ [recordTx chainId height block tx value]
  let s ← handleInvolvers sdk chainId bech32Cfg o [entry.2] tx.involvers
    ⟨∅, records.mapInvolvedAccounts⟩
  if s.flags.pairs.length > 0 then
    return ⟨recordsTxs, s.accounts,
      records.recentAccountTxs ++ [recentAccountTx chainId height block tx value],
      records.refAccountToRecentTxs ++
        (o.range [entry.2] s.flags.pairs).map (refAccountToRecentTx chainId height tx)⟩
  else return ⟨recordsTxs, s.accounts, records.recentAccountTxs, records.refAccountToRecentTxs⟩

/-- The records `insertBlockInformation` inserts. -/
def blockInformation : Except Error BlockRecords :=
  block.transactions.zipIdx.foldlM
    (transactionInformation sdk o chainId bech32Cfg height block) ⟨[], ∅, [], []⟩

/-- The accounts in the order they are inserted in. -/
def BlockRecords.involvedAccounts (records : BlockRecords) : List RecordAccount :=
  (o.range [] records.mapInvolvedAccounts.pairs).map Prod.snd

end

/-! ## Addresses -/

/-- The assumption on the Cosmos SDK: under every prefix the 20 bytes of an address
    have a bech32 form, with its separator. -/
def Bech32ifies (sdk : Sdk) : Prop :=
  ∀ hrp bytes, hrp ≠ "" → bytes.length = 20 →
    ∃ addr, sdk.bech32ifyAddressBytes hrp bytes = .ok addr ∧ '1' ∈ addr.toList

/-- The address is not absolutely invalid. -/
def possibleAddress (addr : String) : Bool :=
  isEvmAddress (normalizeAddress addr) || (unsafeExtractBech32Hrp (normalizeAddress addr)).2

/-- An address as it is stored. -/
def StoredAddress (addr : String) : Prop := normalizeAddress addr = addr ∧ addr ≠ ""

section
variable {sdk : Sdk} {o : MapOrder} {chainId : String} {bech32Cfg : Bech32PrefixOfChainInfo}

theorem unsafeAnyAddressToBech32Address_spec (hsdk : Bech32ifies sdk)
    (hcfg : bech32Cfg.bech32PrefixAccAddr ≠ "") (involver : String) :
    (possibleAddress involver = true ∧ ∃ addr, StoredAddress addr ∧
        unsafeAnyAddressToBech32Address sdk involver bech32Cfg = .ok (some addr)) ∨
      (possibleAddress involver = false ∧
        unsafeAnyAddressToBech32Address sdk involver bech32Cfg = .ok none) := by
  unfold possibleAddress unsafeAnyAddressToBech32Address
  by_cases hevm : isEvmAddress (normalizeAddress involver)
  · have hlength : (hexToAddress (normalizeAddress involver)).length = 20 := by
      rw [← normalizeAddress_idem involver]
      exact length_hexToAddress hevm
    obtain ⟨addr, hok, hone⟩ := hsdk _ _ hcfg hlength
    refine Or.inl ⟨by simp [hevm], normalizeAddress addr,
      ⟨normalizeAddress_idem addr, normalizeAddress_ne_empty hone (by decide)⟩, ?_⟩
    simp [hevm, hok]
  · by_cases hhrp : (unsafeExtractBech32Hrp (normalizeAddress involver)).2
    · refine Or.inl ⟨by simp [hhrp], normalizeAddress involver,
        ⟨normalizeAddress_idem involver, ?_⟩, by simp [hevm, hhrp]⟩
      intro hempty
      rw [hempty] at hhrp
      exact absurd hhrp (by decide)
    · exact Or.inr ⟨by simp [hevm, hhrp], by simp [hevm, hhrp]⟩

/-! ## Accounts -/

/-- The contracts an account is recorded to have a balance on. -/
def RecordAccount.contracts (a : RecordAccount) : List String :=
  a.balanceOnErc20Contracts ++ a.balanceOnNftContracts

/-- The account recorded under its address, except for its contracts. -/
structure AccountOf (chainId : String) (addr : String) (a : RecordAccount) : Prop where
  chainId : a.chainId = normalizeChainId chainId
  address : a.bech32Address = addr
  counter : a.continousInsertReferenceCurrentTxCounter = 0
  stored : StoredAddress addr

/-- The accounts and the flags are recorded under stored addresses. -/
structure InvolvedState.Good (chainId : String) (s : InvolvedState) : Prop where
  accounts : ∀ addr a, (addr, a) ∈ s.accounts.pairs → AccountOf chainId addr a
  flags : ∀ addr flag, (addr, flag) ∈ s.flags.pairs → StoredAddress addr

/-- What the loops over the involvers collect: whether there is an involved account
    (`none`), and the contracts added to accounts. -/
def InvolvedState.marks (s : InvolvedState) : Option String → Prop
  | none => s.flags.pairs ≠ []
  | some contract => ∃ addr a, (addr, a) ∈ s.accounts.pairs ∧ contract ∈ a.contracts

theorem mem_putInvolvedFlag {flags : Map String InvolvedFlag} {addr addr' : String}
    {ty : InvolversType} {flag : InvolvedFlag}
    (h : (addr', flag) ∈ (putInvolvedFlag flags addr ty).pairs) :
    addr' = addr ∨ (addr', flag) ∈ flags.pairs := by
  rcases Map.mem_pairs_insert.1 h with ⟨h, -⟩ | ⟨-, h⟩
  · exact Or.inl h
  · exact Or.inr h

theorem putInvolvedFlag_ne_nil {flags : Map String InvolvedFlag} {addr : String}
    {ty : InvolversType} : (putInvolvedFlag flags addr ty).pairs ≠ [] :=
  List.ne_nil_of_mem (Map.mem_pairs_insert.2 (Or.inl ⟨rfl, rfl⟩))

theorem involvedAccount_of {s : InvolvedState} (hs : s.Good chainId) {addr : String}
    (haddr : StoredAddress addr) :
    AccountOf chainId addr (involvedAccount chainId s.accounts addr) ∧
      ∀ c ∈ (involvedAccount chainId s.accounts addr).contracts, s.marks (some c) := by
  unfold involvedAccount
  cases hl : s.accounts.lookup addr with
  | none => exact ⟨⟨rfl, haddr.1, rfl, haddr⟩, fun c hc => by simp [RecordAccount.contracts,
      newRecordAccountForInsert] at hc⟩
  | some a =>
    have hm := Map.mem_pairs.2 hl
    exact ⟨hs.accounts _ _ hm, fun c hc => ⟨addr, a, hm, hc⟩⟩

/-- Recording an involved account with the contracts `cs` added. -/
theorem InvolvedState.Good.involve {s : InvolvedState} (hs : s.Good chainId) {addr : String}
    (haddr : StoredAddress addr) (ty : InvolversType) {account : RecordAccount} (cs : List String)
    (ha : AccountOf chainId addr account)
    (hcs : ∀ c, c ∈ account.contracts ↔
      c ∈ (involvedAccount chainId s.accounts addr).contracts ∨ c ∈ cs) :
    (InvolvedState.mk (putInvolvedFlag s.flags addr ty) (s.accounts.insert addr account)).Good
        chainId ∧
      ∀ x, InvolvedState.marks ⟨putInvolvedFlag s.flags addr ty, s.accounts.insert addr account⟩ x
        ↔ s.marks x ∨ ∀ c ∈ x, c ∈ cs := by
  refine ⟨⟨fun addr' a h => ?_, fun addr' flag h => ?_⟩, fun x => ?_⟩
  · rcases Map.mem_pairs_insert.1 h with ⟨rfl, rfl⟩ | ⟨-, h⟩
    · exact ha
    · exact hs.accounts _ _ h
  · rcases mem_putInvolvedFlag h with rfl | h
    · exact haddr
    · exact hs.flags _ _ h
  · cases x with
    | none => exact ⟨fun _ => Or.inr (by simp), fun _ => putInvolvedFlag_ne_nil⟩
    | some c =>
      simp only [Option.mem_some_iff, forall_eq']
      constructor
      · rintro ⟨addr', a, hm, hc⟩
        rcases Map.mem_pairs_insert.1 hm with ⟨rfl, rfl⟩ | ⟨-, hm⟩
        · exact ((hcs c).1 hc).imp_left ((involvedAccount_of hs haddr).2 c)
        · exact Or.inl ⟨addr', a, hm, hc⟩
      · rintro (⟨addr', a, hm, hc⟩ | hc)
        · by_cases he : addr' = addr
          · subst he
            refine ⟨addr', account, Map.mem_pairs_insert.2 (Or.inl ⟨rfl, rfl⟩), (hcs c).2 ?_⟩
            rw [involvedAccount, Map.mem_pairs.1 hm]
            exact Or.inl hc
          · exact ⟨addr', a, Map.mem_pairs_insert.2 (Or.inr ⟨he, hm⟩), hc⟩
        · exact ⟨addr, account, Map.mem_pairs_insert.2 (Or.inl ⟨rfl, rfl⟩), (hcs c).2 (Or.inr hc)⟩

/-! ## Involvers of a transaction -/

theorem involverAddress_spec (hsdk : Bech32ifies sdk) (hcfg : bech32Cfg.bech32PrefixAccAddr ≠ "")
    (involver : String) :
    (possibleAddress involver = true ∧ ∃ addr, StoredAddress addr ∧
        involverAddress sdk bech32Cfg involver = .ok (some addr)) ∨
      (possibleAddress involver = false ∧ involverAddress sdk bech32Cfg involver = .ok none) := by
  simp only [involverAddress, mapError_ok_iff]
  exact unsafeAnyAddressToBech32Address_spec hsdk hcfg involver

theorem handleInvolver_spec (hsdk : Bech32ifies sdk) (hcfg : bech32Cfg.bech32PrefixAccAddr ≠ "")
    (ty : InvolversType) {s : InvolvedState} (hs : s.Good chainId) (involver : String) :
    ∃ s', handleInvolver sdk chainId bech32Cfg ty s involver = .ok s' ∧ s'.Good chainId ∧
      ∀ x, s'.marks x ↔ s.marks x ∨ possibleAddress involver ∧ x = none := by
  unfold handleInvolver
  rcases involverAddress_spec hsdk hcfg involver with ⟨hp, addr, haddr, hok⟩ | ⟨hp, hok⟩
  · obtain ⟨hgood, hmarks⟩ := hs.involve haddr ty [] (involvedAccount_of hs haddr).1
      (fun c => by simp)
    refine ⟨_, ?_, hgood, fun x => ?_⟩
    · rw [hok, ok_bind]; rfl
    · rw [hmarks, hp]
      cases x <;> simp
  · refine ⟨s, ?_, hs, fun x => by simp [hp]⟩
    rw [hok, ok_bind]; rfl

/-- The types of the token contracts. -/
def InvolversType.OfContracts (ty : InvolversType) : Prop := ty = .erc20 ∨ ty = .nft

theorem handleContractInvolver_spec (hsdk : Bech32ifies sdk)
    (hcfg : bech32Cfg.bech32PrefixAccAddr ≠ "") {ty : InvolversType} (hty : ty.OfContracts)
    (contract : String) {s : InvolvedState} (hs : s.Good chainId) (involver : String) :
    ∃ s', handleContractInvolver sdk chainId bech32Cfg ty contract s involver = .ok s' ∧
      s'.Good chainId ∧
      ∀ x, s'.marks x ↔ s.marks x ∨ possibleAddress involver ∧ ∀ c ∈ x, c = contract := by
  unfold handleContractInvolver
  rcases involverAddress_spec hsdk hcfg involver with ⟨hp, addr, haddr, hok⟩ | ⟨hp, hok⟩
  · have ha := (involvedAccount_of hs haddr).1
    rcases hty with rfl | rfl
    · have ha' : AccountOf chainId addr { involvedAccount chainId s.accounts addr with
          balanceOnErc20Contracts :=
            (involvedAccount chainId s.accounts addr).balanceOnErc20Contracts ++ [contract] } :=
        ⟨ha.chainId, ha.address, ha.counter, haddr⟩
      obtain ⟨hgood, hmarks⟩ := hs.involve haddr .erc20 [contract] ha' (fun c => by
        simp only [RecordAccount.contracts, List.mem_append]; exact or_right_comm)
      refine ⟨_, ?_, hgood, fun x => ?_⟩
      · rw [hok, ok_bind]; rfl
      · rw [hmarks, hp]; simp
    · have ha' : AccountOf chainId addr { involvedAccount chainId s.accounts addr with
          balanceOnNftContracts :=
            (involvedAccount chainId s.accounts addr).balanceOnNftContracts ++ [contract] } :=
        ⟨ha.chainId, ha.address, ha.counter, haddr⟩
      obtain ⟨hgood, hmarks⟩ := hs.involve haddr .nft [contract] ha' (fun c => by
        simp only [RecordAccount.contracts, List.mem_append]; exact or_assoc.symm)
      refine ⟨_, ?_, hgood, fun x => ?_⟩
      · rw [hok, ok_bind]; rfl
      · rw [hmarks, hp]; simp
  · refine ⟨s, ?_, hs, fun x => by simp [hp]⟩
    rw [hok, ok_bind]; rfl

/-- The contract of an entry is added to the account of one of its involvers. -/
def storedEntry (entry : String × List String) : Bool :=
  possibleAddress entry.1 && entry.2.any possibleAddress

theorem handleContract_spec (hsdk : Bech32ifies sdk) (hcfg : bech32Cfg.bech32PrefixAccAddr ≠ "")
    {ty : InvolversType} (hty : ty.OfContracts) {s : InvolvedState} (hs : s.Good chainId)
    (entry : String × List String) :
    ∃ s', handleContract sdk chainId bech32Cfg ty s entry = .ok s' ∧ s'.Good chainId ∧
      ∀ x, s'.marks x ↔ s.marks x ∨ storedEntry entry ∧ ∀ c ∈ x, c = entry.1 := by
  obtain ⟨contract, involvers⟩ := entry
  unfold handleContract storedEntry
  by_cases hempty : involvers = []
  · refine ⟨s, ?_, hs, fun x => by simp [hempty]⟩
    simp only [hempty, List.length_nil, if_true]
    rfl
  · have hlen : ¬ involvers.length = 0 := by simpa using hempty
    simp only [hlen, if_false]
    rcases unsafeAnyAddressToBech32Address_spec hsdk hcfg contract with
      ⟨hp, addr, -, hok⟩ | ⟨hp, hok⟩
    · obtain ⟨s', he, hgood, hmarks⟩ := foldlM_collect (l := involvers) (v := InvolvedState.marks)
        hs fun a _ s hs => handleContractInvolver_spec hsdk hcfg hty contract hs a
      refine ⟨s', ?_, hgood, fun x => ?_⟩
      · rw [mapError_ok_iff.2 hok, ok_bind]; exact he
      · rw [hmarks]
        simp only [hp, Bool.true_and, List.any_eq_true]
        exact or_congr_right ⟨fun ⟨a, ha, hpa, hx⟩ => ⟨⟨a, ha, hpa⟩, hx⟩,
          fun ⟨⟨a, ha, hpa⟩, hx⟩ => ⟨a, ha, hpa, hx⟩⟩
    · refine ⟨s, ?_, hs, fun x => by simp [hp]⟩
      rw [mapError_ok_iff.2 hok, ok_bind]; rfl

theorem handleInvolversOfType_spec (hsdk : Bech32ifies sdk)
    (hcfg : bech32Cfg.bech32PrefixAccAddr ≠ "") {s : InvolvedState} (hs : s.Good chainId)
    (entry : InvolversType × List String) :
    ∃ s', handleInvolversOfType sdk chainId bech32Cfg s entry = .ok s' ∧ s'.Good chainId ∧
      ∀ x, s'.marks x ↔ s.marks x ∨ ∃ a ∈ entry.2, possibleAddress a ∧ x = none :=
  foldlM_collect hs fun a _ _ hs => handleInvolver_spec hsdk hcfg entry.1 hs a

theorem handleContractsOfType_spec (hsdk : Bech32ifies sdk)
    (hcfg : bech32Cfg.bech32PrefixAccAddr ≠ "") (site : List ℕ) {s : InvolvedState}
    (hs : s.Good chainId) (entry : InvolversType × Map String (List String))
    (hty : entry.1.OfContracts) :
    ∃ s', handleContractsOfType sdk chainId bech32Cfg o site s entry = .ok s' ∧ s'.Good chainId ∧
      ∀ x, s'.marks x ↔
        s.marks x ∨ ∃ p ∈ entry.2.pairs, storedEntry p ∧ ∀ c ∈ x, c = p.1 := by
  obtain ⟨s', he, hgood, hmarks⟩ := foldlM_collect (v := InvolvedState.marks)
    (l := o.range (2 :: (if entry.1 = .nft then 1 else 0) :: site) entry.2.pairs) hs
    fun p _ s hs => handleContract_spec hsdk hcfg hty hs p
  exact ⟨s', he, hgood, fun x => by simp only [hmarks, MapOrder.mem_range]⟩

/-- The token contracts of a transaction that are added to accounts. -/
def InvolversInTransaction.storedContracts (ivs : InvolversInTransaction) : List String :=
  ((ivs.tokenContracts.erc20.pairs ++ ivs.tokenContracts.nft.pairs).filter storedEntry).map Prod.fst

/-- The transaction involves an account. -/
def InvolversInTransaction.involvesAccount (ivs : InvolversInTransaction) : Bool :=
  (ivs.signers ++ ivs.erc20 ++ ivs.nft ++ ivs.others).any possibleAddress ||
    !ivs.storedContracts.isEmpty

theorem InvolversInTransaction.mem_storedContracts {ivs : InvolversInTransaction} {c : String} :
    c ∈ ivs.storedContracts ↔ ∃ p, (p ∈ ivs.tokenContracts.erc20.pairs ∨
      p ∈ ivs.tokenContracts.nft.pairs) ∧ storedEntry p ∧ c = p.1 := by
  simp only [storedContracts, List.mem_map, List.mem_filter, List.mem_append]
  exact exists_congr fun p => by rw [and_assoc, eq_comm (a := c)]

/-- **What the loops over the involvers collect**, in every order of the maps. -/
theorem handleInvolvers_spec (hsdk : Bech32ifies sdk) (hcfg : bech32Cfg.bech32PrefixAccAddr ≠ "")
    (site : List ℕ) (ivs : InvolversInTransaction) {s : InvolvedState} (hs : s.Good chainId) :
    ∃ s', handleInvolvers sdk chainId bech32Cfg o site ivs s = .ok s' ∧ s'.Good chainId ∧
      (s'.marks none ↔ s.marks none ∨ ivs.involvesAccount) ∧
      ∀ c, s'.marks (some c) ↔ s.marks (some c) ∨ c ∈ ivs.storedContracts := by
  unfold handleInvolvers
  obtain ⟨s₁, he₁, hgood₁, hmarks₁⟩ := foldlM_collect (v := InvolvedState.marks)
    (l := o.range (0 :: site) [(InvolversType.senderOrSigner, ivs.signers), (.erc20, ivs.erc20),
      (.nft, ivs.nft), (.normal, ivs.others)]) hs
    fun p _ s hs => handleInvolversOfType_spec hsdk hcfg hs p
  obtain ⟨s₂, he₂, hgood₂, hmarks₂⟩ := foldlM_collect (v := InvolvedState.marks)
    (l := o.range (1 :: site) [(InvolversType.erc20, ivs.tokenContracts.erc20),
      (.nft, ivs.tokenContracts.nft)]) hgood₁
    fun p hp s hs => handleContractsOfType_spec (o := o) hsdk hcfg site hs p (by
      simp only [MapOrder.mem_range, List.mem_cons, List.not_mem_nil, or_false] at hp
      rcases hp with rfl | rfl
      · exact Or.inl rfl
      · exact Or.inr rfl)
  have hstored : ∀ x : Option String,
      (∃ p ∈ o.range (1 :: site) [(InvolversType.erc20, ivs.tokenContracts.erc20),
        (.nft, ivs.tokenContracts.nft)], ∃ q ∈ p.2.pairs, storedEntry q ∧ ∀ c ∈ x, c = q.1) ↔
      ∃ c ∈ ivs.storedContracts, ∀ c' ∈ x, c' = c := by
    intro x
    simp only [MapOrder.mem_range, List.mem_cons, List.not_mem_nil, or_false, exists_eq_or_imp,
      exists_eq_left, InvolversInTransaction.mem_storedContracts]
    constructor
    · rintro (⟨q, hq, hs, hx⟩ | ⟨q, hq, hs, hx⟩)
      · exact ⟨q.1, ⟨q, Or.inl hq, hs, rfl⟩, hx⟩
      · exact ⟨q.1, ⟨q, Or.inr hq, hs, rfl⟩, hx⟩
    · rintro ⟨_, ⟨q, hq | hq, hs, rfl⟩, hx⟩
      · exact Or.inl ⟨q, hq, hs, hx⟩
      · exact Or.inr ⟨q, hq, hs, hx⟩
  refine ⟨s₂, by rw [he₁]; exact he₂, hgood₂, ?_, fun c => ?_⟩
  · rw [hmarks₂, hmarks₁, or_assoc, hstored]
    refine or_congr_right ?_
    simp only [MapOrder.mem_range, List.mem_cons, List.not_mem_nil, or_false, exists_eq_or_imp,
      exists_eq_left, and_true, Option.not_mem_none, false_imp_iff, implies_true,
      InvolversInTransaction.involvesAccount, List.any_append, Bool.or_eq_true, List.any_eq_true,
      Bool.not_eq_true', List.isEmpty_eq_false_iff_exists_mem, or_assoc]
  · rw [hmarks₂, hmarks₁, or_assoc, hstored]
    refine or_congr_right ?_
    simp

/-! ## Records of a transaction -/

/-- The place of the records of a block: a chain id and a height that can be
    stored. -/
def Positioned (chainId : String) (height : ℤ) : Prop := normalizeChainId chainId ≠ "" ∧ 1 ≤ height

theorem validateBech32Address_ok {addr : String} (h : StoredAddress addr) :
    validateBech32Address addr = .ok () := by
  simp [validateBech32Address, h.1, h.2]

theorem validateHash_ok {tx : TransactionInBlock} {height : ℤ} (h : HashMatchesType tx) :
    validateHash tx.transactionHash height = .ok () := by
  rcases h with ⟨-, h⟩ | ⟨-, h⟩
  · simp [validateHash, h]
  · simp [validateHash, h]

variable {height : ℤ} {block : BlockInResponse} {tx : TransactionInBlock}

theorem validateHashOfType_ok (h : HashMatchesType tx) :
    validateHashOfType tx.transactionType tx.transactionHash height = .ok () := by
  unfold validateHashOfType
  rcases h with ⟨hty, h⟩ | ⟨hty, h⟩
  · simp [hty, h]
  · simp [hty, h]

theorem recordTx_validateBasic (htime : 1 ≤ block.timeEpochUTC)
    (hl : TxLimits sdk InvolversInTransaction.addressesButOthers tx) (value : List String) :
    (recordTx chainId height block tx value).validateBasic = .ok () ↔
      Positioned chainId height := by
  simp [RecordTransaction.validateBasic, recordTx, newRecordTransactionForInsert,
    validateChainId_ok_iff, validateHeight_ok_iff, validateEpoch_ok_iff,
    validateMessageTypes_ok_iff, htime, hl.messages.nonempty, validateHashOfType_ok hl.hash,
    Positioned]

theorem recentAccountTx_validateBasic (htime : 1 ≤ block.timeEpochUTC)
    (hl : TxLimits sdk InvolversInTransaction.addressesButOthers tx) (value : List String) :
    (recentAccountTx chainId height block tx value).validateBasic = .ok () ↔
      Positioned chainId height := by
  simp [RecordRecentAccountTransaction.validateBasic, recentAccountTx,
    newRecordRecentAccountTransactionForInsert, validateChainId_ok_iff, validateHeight_ok_iff,
    validateEpoch_ok_iff, validateMessageTypes_ok_iff, htime, hl.messages.nonempty,
    validateHash_ok hl.hash, Positioned]

theorem refAccountToRecentTx_validateBasic
    (hl : TxLimits sdk InvolversInTransaction.addressesButOthers tx)
    {entry : String × InvolvedFlag} (he : StoredAddress entry.1) :
    (refAccountToRecentTx chainId height tx entry).validateBasic = .ok () ↔
      Positioned chainId height := by
  simp [RecordRefAccountToRecentTx.validateBasic, refAccountToRecentTx,
    newRecordRefAccountToRecentTxForInsert, validateChainId_ok_iff, validateHeight_ok_iff, he.1,
    validateBech32Address_ok he, validateHash_ok hl.hash, Positioned]

theorem AccountOf.validateBasic_ok_iff {addr : String} {a : RecordAccount}
    (ha : AccountOf chainId addr a) : a.validateBasic = .ok () ↔ normalizeChainId chainId ≠ "" ∧
      ∀ c ∈ a.contracts, c ≠ "" ∧ normalizeAddress c = c := by
  unfold RecordAccount.validateBasic
  simp only [bind_unit_ok_iff, failIf_ok_iff, ha.chainId, ha.address, ha.counter,
    validateChainId_ok_iff, validateBech32Address_ok ha.stored, validateContracts_ok_iff,
    RecordAccount.contracts, List.mem_append, lt_irrefl, not_false_iff, true_and]
  refine and_congr_right fun _ => ⟨?_, fun h => ?_⟩
  · rintro ⟨he, hn⟩ c (hc | hc)
    · exact he c hc
    · exact hn c hc
  · exact ⟨fun c hc => h c (Or.inl hc), fun c hc => h c (Or.inr hc)⟩

theorem getTxValueFromTx_ok (hl : TxLimits sdk InvolversInTransaction.addressesButOthers tx) :
    ∃ value, getTxValueFromTx sdk tx = .ok value := by
  unfold getTxValueFromTx
  by_cases hempty : tx.value = ""
  · exact ⟨[], by rw [if_pos hempty]⟩
  · obtain ⟨-, coins, hcoins⟩ := hl.value.resolve_left hempty
    rw [if_neg hempty, hcoins, ok_bind]
    split_ifs with hzero
    · exact ⟨_, rfl⟩
    · exact ⟨_, rfl⟩

/-! ## Records of a block -/

/-- The records of the transactions `done`. -/
structure BlockRecords.Built (chainId : String) (height : ℤ) (done : List TransactionInBlock)
    (records : BlockRecords) : Prop where
  count : records.recordsTxs.length = done.length
  empty : done = [] → records.mapInvolvedAccounts.pairs = [] ∧ records.refAccountToRecentTxs = []
  txs : ∀ t ∈ records.recordsTxs, (t.chainId = normalizeChainId chainId ∧ t.height = height) ∧
    (t.validateBasic = .ok () ↔ Positioned chainId height)
  accounts : ∀ addr a, (addr, a) ∈ records.mapInvolvedAccounts.pairs → AccountOf chainId addr a
  contracts : ∀ c, (∃ addr a, (addr, a) ∈ records.mapInvolvedAccounts.pairs ∧ c ∈ a.contracts) ↔
    ∃ tx ∈ done, c ∈ tx.involvers.storedContracts
  recent : ∀ t ∈ records.recentAccountTxs,
    (t.chainId = normalizeChainId chainId ∧ t.height = height) ∧
      (t.validateBasic = .ok () ↔ Positioned chainId height)
  hashes : records.recentAccountTxs.map (·.hash) =
    (done.filter fun tx => tx.involvers.involvesAccount).map (·.transactionHash)
  refs : ∀ r ∈ records.refAccountToRecentTxs,
    (r.chainId = normalizeChainId chainId ∧ r.height = height) ∧
      (r.validateBasic = .ok () ↔ Positioned chainId height)

theorem transactionInformation_spec (hsdk : Bech32ifies sdk)
    (hcfg : bech32Cfg.bech32PrefixAccAddr ≠ "") (htime : 1 ≤ block.timeEpochUTC)
    (hl : TxLimits sdk InvolversInTransaction.addressesButOthers tx) (i : ℕ)
    {done : List TransactionInBlock} {records : BlockRecords}
    (hr : records.Built chainId height done) :
    ∃ records', transactionInformation sdk o chainId bech32Cfg height block records (tx, i) =
      .ok records' ∧ records'.Built chainId height (done ++ [tx]) := by
  obtain ⟨value, hvalue⟩ := getTxValueFromTx_ok hl
  obtain ⟨s, he, hgood, hnone, hsome⟩ := handleInvolvers_spec (o := o) hsdk hcfg [i] tx.involvers
    (s := ⟨∅, records.mapInvolvedAccounts⟩) ⟨hr.accounts, fun _ _ h => by cases h⟩
  have hinv : s.flags.pairs.length > 0 ↔ tx.involvers.involvesAccount := by
    rw [gt_iff_lt, List.length_pos_iff]
    exact hnone.trans ⟨fun h => h.resolve_left fun hne => hne rfl, Or.inr⟩
  have htxs : ∀ t ∈ records.recordsTxs ++ [recordTx chainId height block tx value],
      (t.chainId = normalizeChainId chainId ∧ t.height = height) ∧
        (t.validateBasic = .ok () ↔ Positioned chainId height) :=
    List.forall_mem_append.2 ⟨hr.txs, List.forall_mem_singleton.2 ⟨⟨rfl, rfl⟩,
      recordTx_validateBasic htime hl value⟩⟩
  have hcontracts : ∀ c, (∃ addr a, (addr, a) ∈ s.accounts.pairs ∧ c ∈ a.contracts) ↔
      ∃ tx' ∈ done ++ [tx], c ∈ tx'.involvers.storedContracts := by
    intro c
    rw [← InvolvedState.marks, hsome, InvolvedState.marks, hr.contracts]
    simp only [List.mem_append, List.mem_singleton, or_and_right, exists_or, exists_eq_left]
  have hvalue' := mapError_ok_iff (g := fun err =>
    wrap err s!"failed to parse coins from value {tx.value}").2 hvalue
  simp only [transactionInformation, hvalue', he, ok_bind]
  by_cases hflags : s.flags.pairs.length > 0
  · rw [if_pos hflags]
    refine ⟨_, rfl, ?_⟩
    constructor
    · simp [hr.count]
    · simp
    · exact htxs
    · exact hgood.accounts
    · exact hcontracts
    · exact List.forall_mem_append.2 ⟨hr.recent, List.forall_mem_singleton.2 ⟨⟨rfl, rfl⟩,
        recentAccountTx_validateBasic htime hl value⟩⟩
    · simp [hr.hashes, hinv.1 hflags, recentAccountTx, newRecordRecentAccountTransactionForInsert]
    · refine List.forall_mem_append.2 ⟨hr.refs, fun r hr => ?_⟩
      obtain ⟨⟨addr, flag⟩, hm, rfl⟩ := List.mem_map.1 hr
      have haddr := hgood.flags addr flag ((MapOrder.mem_range o _).1 hm)
      exact ⟨⟨rfl, rfl⟩, refAccountToRecentTx_validateBasic hl haddr⟩
  · rw [if_neg hflags]
    have hnot := mt hinv.2 hflags
    exact ⟨_, rfl, by simp [hr.count], by simp, htxs, hgood.accounts, hcontracts, hr.recent,
      by simp [hr.hashes, hnot], hr.refs⟩

/-- The loop over the transactions, with an invariant about those it has passed. -/
theorem blockInformation_passed {J : List TransactionInBlock → BlockRecords → Prop}
    {records : BlockRecords} (hempty : J [] ⟨[], ∅, [], []⟩)
    (hstep : ∀ done, ∀ tx ∈ block.transactions, ∀ i r r', J done r →
      transactionInformation sdk o chainId bech32Cfg height block r (tx, i) = .ok r' →
      J (done ++ [tx]) r')
    (he : blockInformation sdk o chainId bech32Cfg height block = .ok records) :
    J block.transactions records := by
  have hloop := foldlM_passed
    (J := fun done (records : BlockRecords) => J (done.map Prod.fst) records) hempty
    (fun done entry hentry r r' hr he => by
      rw [List.map_append]
      exact hstep _ entry.1 (List.fst_mem_of_mem_zipIdx hentry) entry.2 r r' hr he) he
  rwa [List.zipIdx_map_fst] at hloop

/-- **The records of a block.** -/
theorem blockInformation_spec (hsdk : Bech32ifies sdk) (hcfg : bech32Cfg.bech32PrefixAccAddr ≠ "")
    {now : ℤ} (hb : BlockLimits sdk InvolversInTransaction.addressesButOthers now block) :
    ∃ records, blockInformation sdk o chainId bech32Cfg height block = .ok records ∧
      records.Built chainId height block.transactions := by
  have hempty : (BlockRecords.mk [] ∅ [] []).Built chainId height
      (([] : List (TransactionInBlock × ℕ)).map Prod.fst) := by
    constructor <;> simp [Map.pairs]
  have hstep : ∀ done, ∀ p ∈ block.transactions.zipIdx, ∀ records : BlockRecords,
      records.Built chainId height (done.map Prod.fst) → ∃ records',
        transactionInformation sdk o chainId bech32Cfg height block records p = .ok records' ∧
        records'.Built chainId height ((done ++ [p]).map Prod.fst) := by
    intro done p hp records hr
    rw [List.map_append]
    exact transactionInformation_spec hsdk hcfg hb.time.1
      (hb.each p.1 (List.fst_mem_of_mem_zipIdx hp)) p.2 hr
  have hloop := foldlM_spec
    (J := fun done (records : BlockRecords) => records.Built chainId height (done.map Prod.fst))
    hempty hstep
  rwa [List.zipIdx_map_fst] at hloop

end

/-! ## Storable blocks -/

/-- The records pass the validation before their insertion. -/
structure BlockRecords.Valid (o : MapOrder) (records : BlockRecords) : Prop where
  txs : RecordsTransaction.validateBasic records.recordsTxs = .ok ()
  accounts : RecordsAccount.validateBasic (records.involvedAccounts o) = .ok ()
  recent : RecordsRecentAccountTransaction.validateBasic records.recentAccountTxs = .ok ()
  refs : RecordsRefAccountToRecentTx.validateBasic records.refAccountToRecentTxs = .ok ()

/-- The blocks whose records can be stored. -/
structure Storable (chainId : String) (block : BlockInResponse) : Prop where
  positioned : block.transactions ≠ [] → Positioned chainId block.height
  hashes : ((block.transactions.filter fun tx => tx.involvers.involvesAccount).map
    fun tx => toUpper tx.transactionHash).Nodup
  contracts : ∀ tx ∈ block.transactions, ∀ c ∈ tx.involvers.storedContracts,
    normalizeAddress c = c

theorem possibleAddress_ne_empty {addr : String} (h : possibleAddress addr = true) : addr ≠ "" := by
  rintro rfl
  exact absurd h (by decide)

theorem InvolversInTransaction.storedContracts_ne_empty {ivs : InvolversInTransaction} {c : String}
    (h : c ∈ ivs.storedContracts) : c ≠ "" := by
  obtain ⟨p, -, hs, rfl⟩ := InvolversInTransaction.mem_storedContracts.1 h
  exact possibleAddress_ne_empty (Bool.and_eq_true_iff.1 hs).1

/-- The records of a block pass their validation iff the block is storable. -/
theorem BlockRecords.Built.valid_iff {o : MapOrder} {chainId : String} {block : BlockInResponse}
    {records : BlockRecords} (hr : records.Built chainId block.height block.transactions) :
    records.Valid o ↔ Storable chainId block := by
  have hmem : ∀ a, a ∈ records.involvedAccounts o ↔
      ∃ addr, (addr, a) ∈ records.mapInvolvedAccounts.pairs := fun a => by
    simp [BlockRecords.involvedAccounts]
  have htxs := RecordsTransaction.validateBasic_iff fun t ht => (hr.txs t ht).1
  have hchain : ∀ a ∈ records.involvedAccounts o, a.chainId = normalizeChainId chainId := by
    intro a ha
    obtain ⟨addr, hm⟩ := (hmem a).1 ha
    exact (hr.accounts addr a hm).chainId
  have haccounts := RecordsAccount.validateBasic_iff hchain
  have hrecent := RecordsRecentAccountTransaction.validateBasic_iff fun t ht => (hr.recent t ht).1
  have hrefs := RecordsRefAccountToRecentTx.validateBasic_iff fun r h => (hr.refs r h).1
  have hhashes : (records.recentAccountTxs.map fun t => toUpper t.hash) =
      (block.transactions.filter fun tx => tx.involvers.involvesAccount).map
        fun tx => toUpper tx.transactionHash := by
    have h := congrArg (List.map toUpper) hr.hashes
    simpa [Function.comp_def] using h
  constructor
  · intro hv
    refine ⟨fun hne => ?_, ?_, fun tx htx c hc => ?_⟩
    · have hpos : 0 < records.recordsTxs.length := by
        rw [hr.count]; exact List.length_pos_iff.2 hne
      obtain ⟨t, ht⟩ := List.exists_mem_of_length_pos hpos
      exact (hr.txs t ht).2.1 (htxs.1 hv.txs t ht)
    · rw [← hhashes]
      exact (hrecent.1 hv.recent).2
    · obtain ⟨addr, a, hm, hca⟩ := (hr.contracts c).2 ⟨tx, htx, hc⟩
      have ha := haccounts.1 hv.accounts a ((hmem a).2 ⟨addr, hm⟩)
      exact (((hr.accounts addr a hm).validateBasic_ok_iff.1 ha).2 c hca).2
  · intro hs
    have hpos : ∀ {P : Prop}, (block.transactions = [] → P) →
        (Positioned chainId block.height → P) → P := fun h₁ h₂ =>
      (em (block.transactions = [])).elim h₁ fun hne => h₂ (hs.positioned hne)
    refine ⟨htxs.2 fun t ht => ?_, haccounts.2 fun a ha => ?_,
      hrecent.2 ⟨fun t ht => ?_, hhashes ▸ hs.hashes⟩, hrefs.2 fun r h => ?_⟩
    · refine hpos (fun he => ?_) (hr.txs t ht).2.2
      have hlen := List.length_pos_of_mem ht
      rw [hr.count, he] at hlen
      cases hlen
    · obtain ⟨addr, hm⟩ := (hmem a).1 ha
      refine hpos (fun he => ?_) fun hp => ?_
      · rw [(hr.empty he).1] at hm
        cases hm
      · refine (hr.accounts addr a hm).validateBasic_ok_iff.2 ⟨hp.1, fun c hc => ?_⟩
        obtain ⟨tx, htx, hc⟩ := (hr.contracts c).1 ⟨addr, a, hm, hc⟩
        exact ⟨InvolversInTransaction.storedContracts_ne_empty hc, hs.contracts tx htx c hc⟩
    · refine hpos (fun he => ?_) (hr.recent t ht).2.2
      have hh := hr.hashes
      rw [he] at hh
      rw [List.map_eq_nil_iff.1 hh] at ht
      cases ht
    · refine hpos (fun he => ?_) (hr.refs r h).2.2
      rw [(hr.empty he).2] at h
      cases h

theorem Bech32PrefixOfChainInfo.validateBasic_prefix {b : Bech32PrefixOfChainInfo}
    (h : b.validateBasic = .ok ()) : b.bech32PrefixAccAddr ≠ "" := by
  simp only [Bech32PrefixOfChainInfo.validateBasic, bind_unit_ok_iff, failIf_ok_iff] at h
  exact h.1

/-- The records of a block within the limits are built, and pass their validation
    iff the block is storable. -/
theorem blockInformation_valid_iff {sdk : Sdk} {o o' : MapOrder} {chainId : String}
    {bech32Cfg : Bech32PrefixOfChainInfo} {now : ℤ} {block : BlockInResponse}
    (hsdk : Bech32ifies sdk) (hcfg : bech32Cfg.validateBasic = .ok ())
    (hb : BlockLimits sdk InvolversInTransaction.addressesButOthers now block) :
    (∃ records, blockInformation sdk o chainId bech32Cfg block.height block = .ok records ∧
      records.Valid o') ↔ Storable chainId block := by
  have hprefix := Bech32PrefixOfChainInfo.validateBasic_prefix hcfg
  have hspec : ∃ records,
      blockInformation sdk o chainId bech32Cfg block.height block = .ok records ∧
        records.Built chainId block.height block.transactions :=
    blockInformation_spec hsdk hprefix hb
  obtain ⟨records, he, hr⟩ := hspec
  rw [← hr.valid_iff (o := o')]
  constructor
  · rintro ⟨records', he', hv⟩
    obtain rfl := Except.ok.inj (he.symm.trans he')
    exact hv
  · intro hv
    exact ⟨records, he, hv⟩

/-- **Whatever is accepted can be stored** exactly if the block is storable: its chain
    id and height can be stored if it has transactions, the hashes of transactions that
    involve accounts are distinct, and the contracts added to accounts are normalized. -/
theorem accepted_block_storable_iff (sdk : Sdk) (o o' : MapOrder) (chainId : String)
    (bech32Cfg : Bech32PrefixOfChainInfo) (now f t : ℤ) (r : ResponseBeTransactionsInBlockRange)
    (res : TransformedResponseBeTransactionsInBlockRange) (block : BlockInResponse)
    (hsdk : Bech32ifies sdk) (hcfg : bech32Cfg.validateBasic = .ok ())
    (hres : beTransactionsInBlockRange sdk o chainId now f t r = .ok res)
    (hblock : block ∈ res.blocks) :
    (∃ records, blockInformation sdk o' chainId bech32Cfg block.height block = .ok records ∧
      records.Valid o') ↔ Storable chainId block :=
  blockInformation_valid_iff hsdk hcfg
    ((beTransactionsInBlockRange_ok hres).blockLimits block hblock)

/-- A block with one transaction, which involves an account with a token contract. -/
def blockWithContract (contract : String) : BlockInResponse where
  height := 7
  timeEpochUTC := 1720000000
  transactions := [{
    transactionHash := String.ofList (List.replicate 64 'A')
    involvers := ⟨["rol1qqqqqqqqqqqq"], [], [], [],
      ⟨AList.insert contract ["rol1qqqqqqqqqqqq"] ∅, ∅⟩⟩
    messagesType := ["/cosmos.bank.v1beta1.MsgSend"]
    transactionType := "cosmos"
    evmTxInfo := none
    wasmTxInfo := none
    value := "" }]

def responseWithContract (contract : String) : ResponseBeTransactionsInBlockRange where
  chainId := "rollappevm_1234-1"
  blocks := AList.insert "7" (blockWithContract contract) ∅
  missingBlocks := []
  errorBlocks := []

theorem bech32Sdk_bech32ifies : Bech32ifies bech32Sdk := by
  intro hrp bytes _ _
  refine ⟨Bech32.encode hrp bytes, rfl, ?_⟩
  rw [Bech32.encode, String.toList_append, String.toList_append]
  exact List.mem_append_left _ (List.mem_append_right _ (by decide))

/-- A block with a normalized contract is stored. -/
theorem accepted_block_stored : ∃ records,
    blockInformation bech32Sdk default "rollappevm_1234-1" ⟨"rol", "rolvalcons", "rolvaloper"⟩ 7
        (blockWithContract "rol1contract") = .ok records ∧ records.Valid default :=
  (accepted_block_storable_iff bech32Sdk default default "rollappevm_1234-1"
    ⟨"rol", "rolvalcons", "rolvaloper"⟩ 1720000000 7 7 (responseWithContract "rol1contract")
    ⟨[blockWithContract "rol1contract"], [], []⟩ (blockWithContract "rol1contract")
    bech32Sdk_bech32ifies rfl rfl (List.mem_singleton_self _)).2
    ⟨fun _ => ⟨by decide, by decide⟩, by decide, by decide⟩

/-- A block whose contract is in upper case is accepted and cannot be stored. -/
theorem accepted_block_not_stored :
    beTransactionsInBlockRange bech32Sdk default "rollappevm_1234-1" 1720000000 7 7
        (responseWithContract "ROL1CONTRACT") =
      .ok ⟨[blockWithContract "ROL1CONTRACT"], [], []⟩ ∧
    ¬ ∃ records, blockInformation bech32Sdk default "rollappevm_1234-1"
        ⟨"rol", "rolvalcons", "rolvaloper"⟩ 7 (blockWithContract "ROL1CONTRACT") = .ok records ∧
      records.Valid default := by
  have hres : beTransactionsInBlockRange bech32Sdk default "rollappevm_1234-1" 1720000000 7 7
      (responseWithContract "ROL1CONTRACT") =
        .ok ⟨[blockWithContract "ROL1CONTRACT"], [], []⟩ := rfl
  refine ⟨hres, fun h => ?_⟩
  have hs := (blockInformation_valid_iff bech32Sdk_bech32ifies rfl
    ((beTransactionsInBlockRange_ok hres).blockLimits _ (List.mem_singleton_self _))).1 h
  exact absurd (hs.contracts _ (List.mem_singleton_self _) "ROL1CONTRACT" (by decide))
    (by decide)

end RollappExplorer
