/-
  The responses of the rollapp's RPC (`services/query/types`) and their validation.

  * `ResponseBeTransactionsInBlockRange.validateBasic`: the only guard against a
    hostile RPC, with the texts of its errors;
  * `Limits addrs`: the limits it declares, where the length of the addresses
    `addrs` of a transaction is limited;
  * `validateBasic_ok_iff`: what is accepted is what meets the limits, for the
    addresses the loops really visit, in every order the maps are ranged over;
  * `validateBasic_enforces_limits_iff`: when that is every declared limit.
-/
import RollappExplorer.Bech32
import RollappExplorer.Go.Error
import RollappExplorer.Go.Map
import RollappExplorer.Validation

namespace RollappExplorer

open Go

/-! ## Types -/

structure ResponseBeGetChainInfo where
  bech32 : Map String String
  chainId : String
  chainType : String
  denom : Map String String
  latestBlock : ℤ
  latestBlockTimeEpochUTC : ℤ

structure ResponseBeGetLatestBlockNumber where
  latestBlock : ℤ
  latestBlockTimeEpochUTC : ℤ

/-- `InfoInTransactionInBlockInResponseBeTransactionsInBlockRange` -/
structure InfoInTransaction where
  action : String
  methodSignature : String

/-- `ContractInvolversInTransactionInBlockInResponseBeTransactionsInBlockRange` -/
structure ContractInvolvers where
  erc20 : Map String (List String)
  nft : Map String (List String)

/-- `InvolversInTransactionInBlockInResponseBeTransactionsInBlockRange` -/
structure InvolversInTransaction where
  signers : List String
  others : List String
  erc20 : List String
  nft : List String
  tokenContracts : ContractInvolvers

/-- `TransactionInBlockInResponseBeTransactionsInBlockRange` -/
structure TransactionInBlock where
  transactionHash : String
  involvers : InvolversInTransaction
  messagesType : List String
  transactionType : String
  evmTxInfo : Option InfoInTransaction
  wasmTxInfo : Option InfoInTransaction
  value : String

/-- `BlockInResponseBeTransactionsInBlockRange`; the height is zero until it is
    extracted from the key of the block. -/
structure BlockInResponse where
  height : ℤ
  timeEpochUTC : ℤ
  transactions : List TransactionInBlock

structure ResponseBeTransactionsInBlockRange where
  chainId : String
  blocks : Map String BlockInResponse
  missingBlocks : List ℤ
  errorBlocks : List ℤ

structure TransformedResponseBeTransactionsInBlockRange where
  blocks : List BlockInResponse
  missingBlocks : List ℤ
  errorBlocks : List ℤ

/-- `sdk.Coin` -/
structure Coin where
  amount : ℤ
  denom : String

/-- The functions of the Cosmos SDK the indexer calls. -/
structure Sdk where
  bech32ifyAddressBytes : String → List UInt8 → Except Error String
  parseCoinsNormalized : String → Except Error (List Coin)

/-! ## Errors -/

def errBlackList : Error := "black list"
def errBlackListDueToMisMatchChainId : Error := wrap errBlackList "mis-match chain-id"
def errBlackListDueToMalformedResponse : Error := wrap errBlackList "malformed response"

def isErrBlackList (err : Error) : Bool := contains err errBlackList

def errResponseValidationFailed : Error := "response validation failed"

def newErrResponseValidationFailedFrom (err : Error) : Error := wrap errResponseValidationFailed err

/-! ## Chain info -/

def ResponseBeGetChainInfo.validateBasic (r : ResponseBeGetChainInfo) : Except Error Unit := do
  failIf (r.bech32.pairs.length < 1) "missing bech32 information"
  failIf (len r.chainId < 1) "missing chain-id"
  failIf (len r.chainType < 1) "missing chain-type"
  failIf (r.denom.pairs.length < 1) "missing denom"
  failIf (r.latestBlock < 1) "missing latest block height information"
  failIf (r.latestBlockTimeEpochUTC < 1) "missing latest block time information"

def ResponseBeGetLatestBlockNumber.validateBasic (r : ResponseBeGetLatestBlockNumber) :
    Except Error Unit := do
  failIf (r.latestBlock < 1) "missing latest block height information"
  failIf (r.latestBlockTimeEpochUTC < 1) "missing latest block time information"

/-! ## Transactions in a block range -/

/-- A number over its limit is a malformed response of the block `key`. -/
def maximumAllowed (what : String) (n max : ℕ) (key : String) : Except Error Unit :=
  failIf (n > max)
    (wrap errBlackListDueToMalformedResponse s!"{what} {n}, maximum allowed {max} [{key}]")

/-- The loop over a list of addresses. -/
def validateAddresses (what : String) (addrs : List String) (key : String) : Except Error Unit :=
  addrs.forM fun addr =>
    maximumAllowed s!"{what} address too big" (len addr) rpcTxMaximumLengthAddressAllowed key

def validateTransactionType (tx : TransactionInBlock) (i : ℕ) (key : String) : Except Error Unit :=
  if tx.transactionType = "cosmos" then
    failIf (!isValidCosmosTransactionHash tx.transactionHash)
      s!"invalid cosmos transaction hash {tx.transactionHash} for tx at {i} [{key}]"
  else if tx.transactionType = "evm" then
    failIf (!isValidEvmTransactionHash tx.transactionHash)
      s!"invalid evm transaction hash {tx.transactionHash} for tx at {i} [{key}]"
  else if tx.transactionType = "wasm" then
    failIf (!isValidCosmosTransactionHash tx.transactionHash)
      s!"invalid wasm transaction hash {tx.transactionHash} for tx at {i} [{key}]"
  else .error s!"unrecognised transaction type {tx.transactionType} for tx at {i} [{key}]"

/-- One of the two maps of token contracts. -/
def validateTokenContracts (o : MapOrder) (site : List ℕ) (name : String)
    (contracts : Map String (List String)) (key : String) : Except Error Unit := do
  maximumAllowed s!"too many involvers {name} token contract per tx" contracts.pairs.length
    rpcTxMaximumTokenContractsInvolvesPerTxAllowed key
  (o.range site contracts.pairs).forM fun (contract, involvers) => do
    maximumAllowed s!"{name} contract address too big" (len contract)
      rpcTxMaximumLengthAddressAllowed key
    maximumAllowed s!"too many involvers {name} token contract addresses per tx" involvers.length
      rpcTxMaximumInvolversPerTxAllowed key
    validateAddresses s!"{name} token contract involver" involvers key

def validateInvolvers (o : MapOrder) (site : List ℕ) (ivs : InvolversInTransaction)
    (key : String) : Except Error Unit := do
  maximumAllowed "too many signers per tx" ivs.signers.length rpcTxMaximumSignersPerTx key
  validateAddresses "signer" ivs.signers key
  maximumAllowed "too many involvers Others per tx" ivs.others.length
    rpcTxMaximumInvolversPerTxAllowed key
  -- the source ranges over the signers a second time, not over the others
  validateAddresses "signer" ivs.signers key
  maximumAllowed "too many involvers ERC-20 per tx" ivs.erc20.length
    rpcTxMaximumInvolversPerTxAllowed key
  validateAddresses "ERC-20" ivs.erc20 key
  maximumAllowed "too many involvers NFT per tx" ivs.nft.length
    rpcTxMaximumInvolversPerTxAllowed key
  validateAddresses "NFT" ivs.nft key
  validateTokenContracts o (0 :: site) "ERC-20" ivs.tokenContracts.erc20 key
  validateTokenContracts o (1 :: site) "NFT" ivs.tokenContracts.nft key

def isSystemMessageType (msgType : String) : Bool :=
  msgType = "/ibc.core.channel.v1.MsgAcknowledgement" ||
    msgType = "/ibc.core.channel.v1.MsgRecvPacket" || msgType = "/ibc.core.channel.v1.MsgTimeout"

def validateMessagesType (messagesType : List String) (i : ℕ) (key : String) :
    Except Error Unit := do
  failIf (messagesType.length < 1) s!"missing messages type for tx at {i} [{key}]"
  -- when possible to violate the rule, let split into smaller parts to validate
  if messagesType.length > rpcTxMaximumMessagesPerTxAllowed then do
    maximumAllowed "too many messages per tx"
      (messagesType.filter fun m => !isSystemMessageType m).length
      rpcTxMaximumMessagesPerTxAllowed key
    maximumAllowed "too many system messages per tx"
      (messagesType.filter isSystemMessageType).length rpcTxMaximumSystemMessagesPerTxAllowed key
  messagesType.forM fun msgType => do
    failIf (msgType = "") "message type can not be empty"
    maximumAllowed "message type is too long" (len msgType) rpcTxMaximumStringSizeAllowed key

/-- The info of an EVM or a Wasm transaction, by the limits of its two fields. -/
def validateTxInfo (name : String) (actionMax sigMax : ℕ) (info : Option InfoInTransaction)
    (key : String) : Except Error Unit :=
  match info with
  | none => .ok ()
  | some info => do
    maximumAllowed s!"{name} tx action size is too long" (len info.action) actionMax key
    maximumAllowed s!"{name} tx method signature size is too long" (len info.methodSignature)
      sigMax key

def validateValue (sdk : Sdk) (value key : String) : Except Error Unit :=
  if len value > 0 then do
    maximumAllowed "value size is too long" (len value) rpcTxMaximumStringSizeAllowed key
    match sdk.parseCoinsNormalized value with
    | .error parseErr => .error (wrap parseErr "failed to parse tx value")
    | .ok _ => .ok ()
  else .ok ()

def TransactionInBlock.validateBasic (sdk : Sdk) (o : MapOrder) (site : List ℕ)
    (tx : TransactionInBlock) (i : ℕ) (key : String) : Except Error Unit := do
  failIf (len tx.transactionHash < 1) s!"missing transaction hash for tx at {i} [{key}]"
  validateTransactionType tx i key
  validateInvolvers o site tx.involvers key
  validateMessagesType tx.messagesType i key
  failIf (tx.transactionType ≠ "evm" ∧ tx.evmTxInfo.isSome)
    s!"unexpected evm tx info for tx at {i} [{key}]"
  failIf (tx.transactionType ≠ "wasm" ∧ tx.wasmTxInfo.isSome)
    s!"unexpected wasm tx info for tx at {i} [{key}]"
  validateTxInfo "evm" 66 10 tx.evmTxInfo key
  validateTxInfo "wasm" 200 200 tx.wasmTxInfo key
  validateValue sdk tx.value key

def BlockInResponse.validateBasic (sdk : Sdk) (o : MapOrder) (now : ℤ) (key : String)
    (block : BlockInResponse) : Except Error Unit := do
  failIf (block.timeEpochUTC < 1) s!"missing block time information [{key}]"
  failIf (block.timeEpochUTC > now + rpcTxAheadBlockTimeAllowed)
    (wrap errBlackListDueToMalformedResponse
      s!"bad block time {block.timeEpochUTC}, now {now} [{key}]")
  maximumAllowed "too many txs" block.transactions.length rpcTxMaximumTxsPerBlockAllowed key
  block.transactions.zipIdx.forM fun (tx, i) =>
    tx.validateBasic sdk o (i :: key.toList.map Char.toNat) i key

def ResponseBeTransactionsInBlockRange.validateBasic (sdk : Sdk) (o : MapOrder) (now : ℤ)
    (r : ResponseBeTransactionsInBlockRange) : Except Error Unit := do
  failIf (len r.chainId < 1) "missing chain-id"
  r.missingBlocks.forM fun height =>
    failIf (height < 1) s!"missing blocks information contains invalid number {height}"
  r.errorBlocks.forM fun height =>
    failIf (height < 1) s!"error blocks information contains invalid number {height}"
  (o.range [] r.blocks.pairs).forM fun (key, block) => block.validateBasic sdk o now key

/-! ## The declared limits -/

/-- The addresses of a map of token contracts: its keys and their involvers. -/
def contractAddresses (contracts : Map String (List String)) : List String :=
  contracts.pairs.flatMap fun (contract, involvers) => contract :: involvers

/-- Every address of a transaction except those of `Others`. -/
def InvolversInTransaction.addressesButOthers (ivs : InvolversInTransaction) : List String :=
  ivs.signers ++ ivs.erc20 ++ ivs.nft ++ contractAddresses ivs.tokenContracts.erc20 ++
    contractAddresses ivs.tokenContracts.nft

/-- Every address of a transaction. -/
def InvolversInTransaction.addresses (ivs : InvolversInTransaction) : List String :=
  ivs.others ++ ivs.addressesButOthers

/-- The hash has the format of the type of the transaction. -/
def HashMatchesType (tx : TransactionInBlock) : Prop :=
  (tx.transactionType = "cosmos" ∨ tx.transactionType = "wasm") ∧
      isValidCosmosTransactionHash tx.transactionHash ∨
    tx.transactionType = "evm" ∧ isValidEvmTransactionHash tx.transactionHash

/-- The limits of a map of token contracts. -/
structure ContractLimits (contracts : Map String (List String)) : Prop where
  count : contracts.pairs.length ≤ rpcTxMaximumTokenContractsInvolvesPerTxAllowed
  involvers : ∀ p ∈ contracts.pairs, p.2.length ≤ rpcTxMaximumInvolversPerTxAllowed

/-- The limits of the message types of a transaction. -/
structure MessageLimits (messagesType : List String) : Prop where
  nonempty : 1 ≤ messagesType.length
  normal : (messagesType.filter fun m => !isSystemMessageType m).length ≤
    rpcTxMaximumMessagesPerTxAllowed
  system : (messagesType.filter isSystemMessageType).length ≤
    rpcTxMaximumSystemMessagesPerTxAllowed
  each : ∀ m ∈ messagesType, m ≠ "" ∧ len m ≤ rpcTxMaximumStringSizeAllowed

/-- The limits of a transaction, where the length of its addresses `addrs` is
    limited. -/
structure TxLimits (sdk : Sdk) (addrs : InvolversInTransaction → List String)
    (tx : TransactionInBlock) : Prop where
  hash : HashMatchesType tx
  signers : tx.involvers.signers.length ≤ rpcTxMaximumSignersPerTx
  others : tx.involvers.others.length ≤ rpcTxMaximumInvolversPerTxAllowed
  erc20 : tx.involvers.erc20.length ≤ rpcTxMaximumInvolversPerTxAllowed
  nft : tx.involvers.nft.length ≤ rpcTxMaximumInvolversPerTxAllowed
  erc20Contracts : ContractLimits tx.involvers.tokenContracts.erc20
  nftContracts : ContractLimits tx.involvers.tokenContracts.nft
  addresses : ∀ a ∈ addrs tx.involvers, len a ≤ rpcTxMaximumLengthAddressAllowed
  messages : MessageLimits tx.messagesType
  evmInfo : ∀ info ∈ tx.evmTxInfo,
    tx.transactionType = "evm" ∧ len info.action ≤ 66 ∧ len info.methodSignature ≤ 10
  wasmInfo : ∀ info ∈ tx.wasmTxInfo,
    tx.transactionType = "wasm" ∧ len info.action ≤ 200 ∧ len info.methodSignature ≤ 200
  value : tx.value = "" ∨ len tx.value ≤ rpcTxMaximumStringSizeAllowed ∧
    ∃ coins, sdk.parseCoinsNormalized tx.value = .ok coins

structure BlockLimits (sdk : Sdk) (addrs : InvolversInTransaction → List String) (now : ℤ)
    (block : BlockInResponse) : Prop where
  time : 1 ≤ block.timeEpochUTC ∧ block.timeEpochUTC ≤ now + rpcTxAheadBlockTimeAllowed
  txs : block.transactions.length ≤ rpcTxMaximumTxsPerBlockAllowed
  each : ∀ tx ∈ block.transactions, TxLimits sdk addrs tx

/-- The limits of a response. -/
structure Limits (sdk : Sdk) (addrs : InvolversInTransaction → List String) (now : ℤ)
    (r : ResponseBeTransactionsInBlockRange) : Prop where
  chainId : r.chainId ≠ ""
  missing : ∀ h ∈ r.missingBlocks, 1 ≤ h
  error : ∀ h ∈ r.errorBlocks, 1 ≤ h
  blocks : ∀ p ∈ r.blocks.pairs, BlockLimits sdk addrs now p.2

/-! ## What the loops check -/

@[simp] theorem maximumAllowed_ok_iff {what key : String} {n max : ℕ} {u : Unit} :
    maximumAllowed what n max key = .ok u ↔ n ≤ max := by
  unfold maximumAllowed
  rw [failIf_ok_iff, not_lt]

theorem validateAddresses_ok_iff {what key : String} {addrs : List String} {u : Unit} :
    validateAddresses what addrs key = .ok u ↔
      ∀ a ∈ addrs, len a ≤ rpcTxMaximumLengthAddressAllowed := by
  unfold validateAddresses
  simp only [forM_ok_iff, maximumAllowed_ok_iff]

theorem validateTransactionType_ok_iff {tx : TransactionInBlock} {i : ℕ} {key : String}
    {u : Unit} : validateTransactionType tx i key = .ok u ↔ HashMatchesType tx := by
  unfold validateTransactionType HashMatchesType
  by_cases hc : tx.transactionType = "cosmos"
  · simp [hc]
  · by_cases he : tx.transactionType = "evm"
    · simp [he]
    · by_cases hw : tx.transactionType = "wasm"
      · simp [hw]
      · simp [hc, he, hw]

theorem mem_contractAddresses {contracts : Map String (List String)} {a : String} :
    a ∈ contractAddresses contracts ↔ ∃ p ∈ contracts.pairs, a = p.1 ∨ a ∈ p.2 := by
  simp only [contractAddresses, List.mem_flatMap, List.mem_cons]

theorem validateTokenContracts_ok_iff {o : MapOrder} {site : List ℕ} {name key : String}
    {contracts : Map String (List String)} {u : Unit} :
    validateTokenContracts o site name contracts key = .ok u ↔ ContractLimits contracts ∧
      ∀ a ∈ contractAddresses contracts, len a ≤ rpcTxMaximumLengthAddressAllowed := by
  unfold validateTokenContracts
  simp only [bind_unit_ok_iff, maximumAllowed_ok_iff, forM_ok_iff, MapOrder.mem_range,
    validateAddresses_ok_iff, mem_contractAddresses]
  constructor
  · rintro ⟨hcount, heach⟩
    refine ⟨⟨hcount, fun p hp => (heach p hp).2.1⟩, ?_⟩
    rintro a ⟨p, hp, rfl | ha⟩
    · exact (heach p hp).1
    · exact (heach p hp).2.2 a ha
  · rintro ⟨⟨hcount, hinv⟩, haddr⟩
    exact ⟨hcount, fun p hp => ⟨haddr _ ⟨p, hp, Or.inl rfl⟩, hinv p hp,
      fun a ha => haddr a ⟨p, hp, Or.inr ha⟩⟩⟩

/-- What the loops over the involvers check: of `Others` only the number. -/
theorem validateInvolvers_ok_iff {o : MapOrder} {site : List ℕ} {ivs : InvolversInTransaction}
    {key : String} {u : Unit} :
    validateInvolvers o site ivs key = .ok u ↔
      ivs.signers.length ≤ rpcTxMaximumSignersPerTx ∧
      ivs.others.length ≤ rpcTxMaximumInvolversPerTxAllowed ∧
      ivs.erc20.length ≤ rpcTxMaximumInvolversPerTxAllowed ∧
      ivs.nft.length ≤ rpcTxMaximumInvolversPerTxAllowed ∧
      ContractLimits ivs.tokenContracts.erc20 ∧ ContractLimits ivs.tokenContracts.nft ∧
      ∀ a ∈ ivs.addressesButOthers, len a ≤ rpcTxMaximumLengthAddressAllowed := by
  unfold validateInvolvers
  simp only [bind_unit_ok_iff, maximumAllowed_ok_iff, validateAddresses_ok_iff,
    validateTokenContracts_ok_iff, InvolversInTransaction.addressesButOthers, List.mem_append]
  constructor
  · rintro ⟨hs, has, ho, -, he, hae, hn, han, ⟨hce, hace⟩, hcn, hacn⟩
    refine ⟨hs, ho, he, hn, hce, hcn, ?_⟩
    rintro a ((((ha | ha) | ha) | ha) | ha)
    exacts [has a ha, hae a ha, han a ha, hace a ha, hacn a ha]
  · rintro ⟨hs, ho, he, hn, hce, hcn, ha⟩
    have has : ∀ a ∈ ivs.signers, len a ≤ rpcTxMaximumLengthAddressAllowed :=
      fun a h => ha a (by simp [h])
    exact ⟨hs, has, ho, has, he, fun a h => ha a (by simp [h]), hn, fun a h => ha a (by simp [h]),
      ⟨hce, fun a h => ha a (by simp [h])⟩, hcn, fun a h => ha a (by simp [h])⟩

/-- The fast path for short lists agrees with the two counts. -/
theorem validateMessagesType_ok_iff {messagesType : List String} {i : ℕ} {key : String}
    {u : Unit} : validateMessagesType messagesType i key = .ok u ↔ MessageLimits messagesType := by
  have hn := List.length_filter_le (fun m => !isSystemMessageType m) messagesType
  have hs := List.length_filter_le isSystemMessageType messagesType
  unfold validateMessagesType
  by_cases hlong : messagesType.length > rpcTxMaximumMessagesPerTxAllowed
  · simp only [bind_unit_ok_iff, failIf_ok_iff, not_lt, hlong, if_true, maximumAllowed_ok_iff,
      forM_ok_iff]
    constructor
    · rintro ⟨h₁, h₂, h₃, h₄⟩
      exact ⟨h₁, h₂, h₃, h₄⟩
    · rintro ⟨h₁, h₂, h₃, h₄⟩
      exact ⟨h₁, h₂, h₃, h₄⟩
  · simp only [bind_unit_ok_iff, failIf_ok_iff, not_lt, hlong, if_false, maximumAllowed_ok_iff,
      forM_ok_iff]
    rw [gt_iff_lt, not_lt] at hlong
    have hsys : rpcTxMaximumMessagesPerTxAllowed ≤ rpcTxMaximumSystemMessagesPerTxAllowed := by
      decide
    constructor
    · rintro ⟨h₁, h₂⟩
      exact ⟨h₁, hn.trans hlong, hs.trans (hlong.trans hsys), h₂⟩
    · rintro ⟨h₁, -, -, h₂⟩
      exact ⟨h₁, h₂⟩

theorem validateTxInfo_ok_iff {name key : String} {actionMax sigMax : ℕ}
    {info : Option InfoInTransaction} {u : Unit} :
    validateTxInfo name actionMax sigMax info key = .ok u ↔
      ∀ i ∈ info, len i.action ≤ actionMax ∧ len i.methodSignature ≤ sigMax := by
  cases info with
  | none => simp [validateTxInfo]
  | some info => simp [validateTxInfo]

theorem len_pos_iff {s : String} : 0 < len s ↔ s ≠ "" := by
  rw [len, Nat.pos_iff_ne_zero, ne_eq, String.utf8ByteSize_eq_zero_iff]

theorem validateValue_ok_iff {sdk : Sdk} {value key : String} {u : Unit} :
    validateValue sdk value key = .ok u ↔ value = "" ∨
      len value ≤ rpcTxMaximumStringSizeAllowed ∧
        ∃ coins, sdk.parseCoinsNormalized value = .ok coins := by
  unfold validateValue
  by_cases hv : value = ""
  · simp [hv, len]
  · have h0 : len value > 0 := len_pos_iff.2 hv
    simp only [h0, if_true, bind_unit_ok_iff, maximumAllowed_ok_iff, hv, false_or]
    cases sdk.parseCoinsNormalized value with
    | error e => simp
    | ok coins => simp

/-! ## What is accepted -/

theorem TransactionInBlock.validateBasic_ok_iff {sdk : Sdk} {o : MapOrder} {site : List ℕ}
    {tx : TransactionInBlock} {i : ℕ} {key : String} {u : Unit} :
    tx.validateBasic sdk o site i key = .ok u ↔
      TxLimits sdk InvolversInTransaction.addressesButOthers tx := by
  unfold TransactionInBlock.validateBasic
  simp only [bind_unit_ok_iff, failIf_ok_iff, validateTransactionType_ok_iff,
    validateInvolvers_ok_iff, validateMessagesType_ok_iff, validateTxInfo_ok_iff,
    validateValue_ok_iff, not_and, not_lt]
  constructor
  · rintro ⟨-, hh, ⟨hs, ho, he, hn, hce, hcn, ha⟩, hm, hevm, hwasm, hei, hwi, hv⟩
    refine ⟨hh, hs, ho, he, hn, hce, hcn, ha, hm, fun info hi => ?_, fun info hi => ?_, hv⟩
    · exact ⟨by_contra fun ht => hevm ht (Option.isSome_iff_exists.2 ⟨info, hi⟩), hei info hi⟩
    · exact ⟨by_contra fun ht => hwasm ht (Option.isSome_iff_exists.2 ⟨info, hi⟩), hwi info hi⟩
  · rintro ⟨hh, hs, ho, he, hn, hce, hcn, ha, hm, hevm, hwasm, hv⟩
    refine ⟨?_, hh, ⟨hs, ho, he, hn, hce, hcn, ha⟩, hm, fun ht hi => ?_, fun ht hi => ?_,
      fun i hi => (hevm i hi).2, fun i hi => (hwasm i hi).2, hv⟩
    · -- an empty hash has none of the formats
      by_contra hlen
      have hempty : tx.transactionHash = "" := by
        by_contra hne
        exact hlen (len_pos_iff.2 hne)
      rcases hh with ⟨-, h⟩ | ⟨-, h⟩
      · rw [hempty] at h; exact absurd h (by decide)
      · rw [hempty] at h; exact absurd h (by decide)
    · obtain ⟨info, hi⟩ := Option.isSome_iff_exists.1 hi
      exact ht (hevm info hi).1
    · obtain ⟨info, hi⟩ := Option.isSome_iff_exists.1 hi
      exact ht (hwasm info hi).1

theorem BlockInResponse.validateBasic_ok_iff {sdk : Sdk} {o : MapOrder} {now : ℤ} {key : String}
    {block : BlockInResponse} {u : Unit} :
    block.validateBasic sdk o now key = .ok u ↔
      BlockLimits sdk InvolversInTransaction.addressesButOthers now block := by
  unfold BlockInResponse.validateBasic
  simp only [bind_unit_ok_iff, failIf_ok_iff, maximumAllowed_ok_iff, forM_ok_iff,
    TransactionInBlock.validateBasic_ok_iff, not_lt]
  constructor
  · rintro ⟨h₁, h₂, h₃, h₄⟩
    refine ⟨⟨h₁, h₂⟩, h₃, fun tx htx => ?_⟩
    obtain ⟨i, hi, rfl⟩ := List.getElem_of_mem htx
    exact h₄ (_, i) (List.mk_mem_zipIdx_iff_getElem?.2 (by simp [hi]))
  · rintro ⟨⟨h₁, h₂⟩, h₃, h₄⟩
    exact ⟨h₁, h₂, h₃, fun p hp => h₄ _ (List.fst_mem_of_mem_zipIdx hp)⟩

/-- **What is accepted**: the responses within the limits, where no address of
    `Others` is measured. -/
theorem ResponseBeTransactionsInBlockRange.validateBasic_ok_iff {sdk : Sdk} {o : MapOrder}
    {now : ℤ} {r : ResponseBeTransactionsInBlockRange} {u : Unit} :
    r.validateBasic sdk o now = .ok u ↔
      Limits sdk InvolversInTransaction.addressesButOthers now r := by
  unfold ResponseBeTransactionsInBlockRange.validateBasic
  simp only [bind_unit_ok_iff, failIf_ok_iff, forM_ok_iff, MapOrder.mem_range,
    BlockInResponse.validateBasic_ok_iff, not_lt]
  constructor
  · rintro ⟨h₁, h₂, h₃, h₄⟩
    exact ⟨len_pos_iff.1 h₁, h₂, h₃, h₄⟩
  · rintro ⟨h₁, h₂, h₃, h₄⟩
    exact ⟨len_pos_iff.2 h₁, h₂, h₃, h₄⟩

/-! ## Every declared limit -/

/-- No address of `Others` is over the limit. -/
def OthersWithinLimit (r : ResponseBeTransactionsInBlockRange) : Prop :=
  ∀ p ∈ r.blocks.pairs, ∀ tx ∈ p.2.transactions, ∀ a ∈ tx.involvers.others,
    len a ≤ rpcTxMaximumLengthAddressAllowed

theorem TxLimits.addresses_iff {sdk : Sdk} {tx : TransactionInBlock} :
    TxLimits sdk InvolversInTransaction.addresses tx ↔
      TxLimits sdk InvolversInTransaction.addressesButOthers tx ∧
        ∀ a ∈ tx.involvers.others, len a ≤ rpcTxMaximumLengthAddressAllowed := by
  constructor
  · intro h
    exact ⟨{ h with addresses := fun a ha => h.addresses a (List.mem_append_right _ ha) },
      fun a ha => h.addresses a (List.mem_append_left _ ha)⟩
  · rintro ⟨h, ho⟩
    exact { h with addresses := fun a ha => (List.mem_append.1 ha).elim (ho a) (h.addresses a) }

theorem Limits.addresses_iff {sdk : Sdk} {now : ℤ} {r : ResponseBeTransactionsInBlockRange} :
    Limits sdk InvolversInTransaction.addresses now r ↔
      Limits sdk InvolversInTransaction.addressesButOthers now r ∧ OthersWithinLimit r := by
  constructor
  · intro h
    refine ⟨{ h with blocks := fun p hp => ?_ }, fun p hp tx htx => ?_⟩
    · have hb := h.blocks p hp
      exact { hb with each := fun tx htx => (TxLimits.addresses_iff.1 (hb.each tx htx)).1 }
    · exact (TxLimits.addresses_iff.1 ((h.blocks p hp).each tx htx)).2
  · rintro ⟨h, ho⟩
    refine { h with blocks := fun p hp => ?_ }
    have hb := h.blocks p hp
    exact { hb with
      each := fun tx htx => TxLimits.addresses_iff.2 ⟨hb.each tx htx, ho p hp tx htx⟩ }

/-- **The validator enforces every limit it declares** on a response exactly if no
    address of `Others` is too long or another limit is exceeded anyway. -/
theorem validateBasic_enforces_limits_iff (sdk : Sdk) (o : MapOrder) (now : ℤ)
    (r : ResponseBeTransactionsInBlockRange) :
    (r.validateBasic sdk o now = .ok () ↔ Limits sdk InvolversInTransaction.addresses now r) ↔
      OthersWithinLimit r ∨ ¬ Limits sdk InvolversInTransaction.addressesButOthers now r := by
  rw [ResponseBeTransactionsInBlockRange.validateBasic_ok_iff, Limits.addresses_iff]
  constructor
  · intro h
    by_cases hl : Limits sdk InvolversInTransaction.addressesButOthers now r
    · exact Or.inl (h.1 hl).2
    · exact Or.inr hl
  · rintro (ho | hl)
    · exact ⟨fun h => ⟨h, ho⟩, fun h => h.1⟩
    · exact ⟨fun h => absurd h hl, fun h => h.1⟩

/-- A Cosmos SDK with the bech32 encoding, and without coins. -/
def bech32Sdk : Sdk where
  bech32ifyAddressBytes hrp bytes := .ok (Bech32.encode hrp bytes)
  parseCoinsNormalized _ := .ok []

/-- A response with one transaction that involves an address of 101 bytes. -/
def responseWithLongOther : ResponseBeTransactionsInBlockRange where
  chainId := "rollappevm_1234-1"
  blocks := AList.insert "7" ⟨0, 1720000000, [{
    transactionHash := String.ofList (List.replicate 64 'A')
    involvers := ⟨[], [String.ofList (List.replicate 101 'a')], [], [], ⟨∅, ∅⟩⟩
    messagesType := ["/cosmos.bank.v1beta1.MsgSend"]
    transactionType := "cosmos"
    evmTxInfo := none
    wasmTxInfo := none
    value := "" }]⟩ ∅
  missingBlocks := []
  errorBlocks := []

/-- The response is accepted although an address is too long. -/
theorem validateBasic_accepts_long_other :
    responseWithLongOther.validateBasic bech32Sdk default 1720000000 = .ok () ∧
      ¬ Limits bech32Sdk InvolversInTransaction.addresses 1720000000 responseWithLongOther := by
  refine ⟨by decide, fun h => ?_⟩
  have ho := (Limits.addresses_iff.1 h).2
  exact absurd (ho _ (List.mem_singleton_self _) _ (List.mem_singleton_self _) _
    (List.mem_singleton_self _)) (by decide)

end RollappExplorer
