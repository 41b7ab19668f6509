/-
  The records the indexer inserts into the database (`database/types`) and their
  validation.

  * `RecordTransaction`, `RecordAccount`, `RecordRecentAccountTransaction`,
    `RecordRefAccountToRecentTx` with their constructors and `validateBasic`;
  * `RecordsTransaction.validateBasic`, … validate a list of records of one block:
    one chain id, one height, and (recent transactions) distinct hashes;
  * `RecordsTransaction.validateBasic_iff`, …: for records that agree on the chain
    id and the height, a list is valid iff every record is.
-/
import Mathlib.Data.List.Nodup
import RollappExplorer.Go.Error
import RollappExplorer.Validation

namespace RollappExplorer

open Go

/-- `Bech32PrefixOfChainInfo` -/
structure Bech32PrefixOfChainInfo where
  bech32PrefixAccAddr : String
  bech32PrefixCons : String
  bech32PrefixOperator : String
  deriving DecidableEq, Inhabited

def Bech32PrefixOfChainInfo.validateBasic (b : Bech32PrefixOfChainInfo) : Except Error Unit := do
  failIf (b.bech32PrefixAccAddr = "") "bech32 prefix for account address is missing"
  failIf (b.bech32PrefixCons = "") "bech32 prefix for consensus address is missing"
  failIf (b.bech32PrefixOperator = "") "bech32 prefix for validator address is missing"

/-! ## Records -/

structure RecordTransaction where
  chainId : String
  height : ℤ
  hash : String
  partitionId : String
  epoch : ℤ
  messageTypes : List String
  txType : String
  action : String
  value : List String

def newRecordTransactionForInsert (chainId : String) (height : ℤ) (hash : String) (epoch : ℤ)
    (messageTypes : List String) (txType : String) : RecordTransaction where
  chainId := normalizeChainId chainId
  height := height
  hash := hash
  partitionId := ""
  epoch := epoch
  messageTypes := messageTypes
  txType := txType
  action := ""
  value := []

structure RecordAccount where
  chainId : String
  bech32Address : String
  continousInsertReferenceCurrentTxCounter : ℤ
  balanceOnErc20Contracts : List String
  balanceOnNftContracts : List String

def newRecordAccountForInsert (chainId bech32Address : String) : RecordAccount where
  chainId := normalizeChainId chainId
  bech32Address := normalizeAddress bech32Address
  continousInsertReferenceCurrentTxCounter := 0
  balanceOnErc20Contracts := []
  balanceOnNftContracts := []

structure RecordRecentAccountTransaction where
  chainId : String
  height : ℤ
  hash : String
  refCount : ℤ
  epoch : ℤ
  messageTypes : List String
  action : String
  value : List String

def newRecordRecentAccountTransactionForInsert (chainId : String) (height : ℤ) (hash : String)
    (epoch : ℤ) (messageTypes : List String) : RecordRecentAccountTransaction where
  chainId := normalizeChainId chainId
  height := height
  hash := hash
  refCount := 0
  epoch := epoch
  messageTypes := messageTypes
  action := ""
  value := []

structure RecordRefAccountToRecentTx where
  chainId : String
  bech32Address : String
  height : ℤ
  hash : String
  signer : Bool
  erc20 : Bool
  nft : Bool

def newRecordRefAccountToRecentTxForInsert (chainId bech32Address : String) (height : ℤ)
    (hash : String) : RecordRefAccountToRecentTx where
  chainId := normalizeChainId chainId
  bech32Address := normalizeAddress bech32Address
  height := height
  hash := hash
  signer := false
  erc20 := false
  nft := false

/-! ## Validation of one record -/

/-- The checks of a chain id shared by all records. -/
def validateChainId (chainId : String) : Except Error Unit := do
  failIf (normalizeChainId chainId ≠ chainId)
    s!"chain id must be normalized, expected {normalizeChainId chainId}, got {chainId}"
  failIf (chainId = "") "chain id cannot be empty"

def validateBech32Address (addr : String) : Except Error Unit := do
  failIf (normalizeAddress addr ≠ addr)
    s!"bech32 address must be normalized, expected {normalizeAddress addr}, got {addr}"
  failIf (addr = "") "bech32 address cannot be empty"

def validateHeight (height : ℤ) : Except Error Unit :=
  failIf (height < 1) s!"height must be possitive, got {height}"

def validateEpoch (epoch : ℤ) : Except Error Unit :=
  failIf (epoch < 1) s!"epoch must be possitive, got {epoch}"

def validateMessageTypes (messageTypes : List String) : Except Error Unit :=
  failIf (messageTypes.length < 1) "message types cannot be empty"

/-- The hash of a transaction of unknown type. -/
def validateHash (hash : String) (height : ℤ) : Except Error Unit :=
  failIf (!isValidCosmosTransactionHash hash && !isValidEvmTransactionHash hash)
    s!"invalid transaction hash {hash} of block {height}, neither Cosmos nor EVM format"

/-- The hash of a transaction of the type `txType`. -/
def validateHashOfType (txType hash : String) (height : ℤ) : Except Error Unit :=
  if txType = "cosmos" ∨ txType = "wasm" then
    failIf (!isValidCosmosTransactionHash hash)
      s!"invalid cosmos transaction hash {hash} of block {height}"
  else if txType = "evm" then
    failIf (!isValidEvmTransactionHash hash)
      s!"invalid evm transaction hash {hash} of block {height}"
  else .error s!"unrecognised transaction type {txType} of block {height}"

def RecordTransaction.validateBasic (t : RecordTransaction) : Except Error Unit := do
  validateChainId t.chainId
  validateHeight t.height
  failIf (t.partitionId ≠ "") s!"partition id must not be set, got {t.partitionId}"
  validateEpoch t.epoch
  validateMessageTypes t.messageTypes
  validateHashOfType t.txType t.hash t.height

/-- The contracts of one kind (`name` in the texts) an account has a balance on. -/
def validateContracts (name : String) (contracts : List String) : Except Error Unit :=
  contracts.forM fun contract => do
    failIf (contract = "") s!"balance on {name} contract address cannot be empty string"
    failIf (normalizeAddress contract ≠ contract)
      (s!"{name} contract address must be normalized, " ++
        s!"expected {normalizeAddress contract}, got {contract}")

def RecordAccount.validateBasic (a : RecordAccount) : Except Error Unit := do
  validateChainId a.chainId
  validateBech32Address a.bech32Address
  failIf (a.continousInsertReferenceCurrentTxCounter < 0)
    ("continous insert reference current tx counter must be non-negative, " ++
      s!"got {a.continousInsertReferenceCurrentTxCounter}")
  validateContracts "ERC-20/CW-20" a.balanceOnErc20Contracts
  validateContracts "NFT" a.balanceOnNftContracts

def RecordRecentAccountTransaction.validateBasic (t : RecordRecentAccountTransaction) :
    Except Error Unit := do
  validateChainId t.chainId
  validateHeight t.height
  validateHash t.hash t.height
  validateEpoch t.epoch
  validateMessageTypes t.messageTypes

def RecordRefAccountToRecentTx.validateBasic (t : RecordRefAccountToRecentTx) :
    Except Error Unit := do
  validateChainId t.chainId
  validateBech32Address t.bech32Address
  validateHeight t.height
  validateHash t.hash t.height

theorem validateChainId_ok_iff {chainId : String} {u : Unit} :
    validateChainId (normalizeChainId chainId) = .ok u ↔ normalizeChainId chainId ≠ "" := by
  simp [validateChainId, normalizeChainId_idem]

theorem validateHeight_ok_iff {height : ℤ} {u : Unit} :
    validateHeight height = .ok u ↔ 1 ≤ height := by
  rw [validateHeight, failIf_ok_iff, Int.not_lt]

theorem validateEpoch_ok_iff {epoch : ℤ} {u : Unit} : validateEpoch epoch = .ok u ↔ 1 ≤ epoch := by
  rw [validateEpoch, failIf_ok_iff, Int.not_lt]

theorem validateMessageTypes_ok_iff {messageTypes : List String} {u : Unit} :
    validateMessageTypes messageTypes = .ok u ↔ 1 ≤ messageTypes.length := by
  rw [validateMessageTypes, failIf_ok_iff, not_lt]

theorem validateContracts_ok_iff {name : String} {contracts : List String} {u : Unit} :
    validateContracts name contracts = .ok u ↔
      ∀ c ∈ contracts, c ≠ "" ∧ normalizeAddress c = c := by
  simp only [validateContracts, forM_ok_iff, bind_unit_ok_iff, failIf_ok_iff, ne_eq, not_not]

/-! ## Validation of the records of a block -/

/-- `theOnlyChainId`: the chain id of the records before, empty if there are none. -/
def theOnlyChainId (what prev now : String) : Except Error String :=
  if prev = "" then .ok now
  else if prev ≠ now then
    .error s!"all {what} must have the same chain id, previously got {prev}, now got {now}"
  else .ok prev

/-- `theOnlyBlockHeight`: the height of the records before, zero if there are none. -/
def theOnlyBlockHeight (what : String) (prev now : ℤ) : Except Error ℤ :=
  if prev = 0 then .ok now
  else if prev ≠ now then
    .error s!"all {what} must have the same block height, previously got {prev}, now got {now}"
  else .ok prev

/-- One iteration of the loop of `RecordsTransaction.ValidateBasic`. -/
def RecordsTransaction.check (s : String × ℤ) (tx : RecordTransaction) :
    Except Error (String × ℤ) := do
  let c ← theOnlyChainId "transactions" s.1 tx.chainId
  let h ← theOnlyBlockHeight "transactions" s.2 tx.height
  tx.validateBasic
  return (c, h)

def RecordsTransaction.validateBasic (txs : List RecordTransaction) : Except Error Unit :=
  discard (txs.foldlM check ("", 0))

/-- One iteration of the loop of `RecordsAccount.ValidateBasic`. -/
def RecordsAccount.check (s : String) (account : RecordAccount) : Except Error String := do
  let c ← theOnlyChainId "accounts" s account.chainId
  account.validateBasic
  return c

def RecordsAccount.validateBasic (accounts : List RecordAccount) : Except Error Unit :=
  discard (accounts.foldlM check "")

/-- One iteration of the loop of `RecordsRecentAccountTransaction.ValidateBasic`; the
    last component is `uniqueHashTracker`. -/
def RecordsRecentAccountTransaction.check (s : String × ℤ × List String)
    (tx : RecordRecentAccountTransaction) : Except Error (String × ℤ × List String) := do
  let c ← theOnlyChainId "transactions" s.1 tx.chainId
  let h ← theOnlyBlockHeight "transactions" s.2.1 tx.height
  failIf (toUpper tx.hash ∈ s.2.2) s!"duplicate transaction hash {tx.hash} of block {tx.height}"
  tx.validateBasic
  return (c, h, toUpper tx.hash :: s.2.2)

def RecordsRecentAccountTransaction.validateBasic (txs : List RecordRecentAccountTransaction) :
    Except Error Unit :=
  discard (txs.foldlM check ("", 0, []))

/-- One iteration of the loop of `RecordsRefAccountToRecentTx.ValidateBasic`. -/
def RecordsRefAccountToRecentTx.check (s : String × ℤ) (ref : RecordRefAccountToRecentTx) :
    Except Error (String × ℤ) := do
  let c ← theOnlyChainId "references" s.1 ref.chainId
  let h ← theOnlyBlockHeight "references" s.2 ref.height
  ref.validateBasic
  return (c, h)

def RecordsRefAccountToRecentTx.validateBasic (refs : List RecordRefAccountToRecentTx) :
    Except Error Unit :=
  discard (refs.foldlM check ("", 0))

/-! ## Lists of records of one block -/

theorem theOnlyChainId_ok {what c prev : String} (h : prev = "" ∨ prev = c) :
    theOnlyChainId what prev c = .ok c := by
  unfold theOnlyChainId
  rcases h with rfl | rfl <;> simp

theorem theOnlyBlockHeight_ok {what : String} {h prev : ℤ} (hp : prev = 0 ∨ prev = h) :
    theOnlyBlockHeight what prev h = .ok h := by
  unfold theOnlyBlockHeight
  rcases hp with rfl | rfl <;> simp

/-- The accumulators of a loop over records with chain id `c` and height `h`. -/
def Agree (c : String) (h : ℤ) (s : String × ℤ) : Prop := (s.1 = "" ∨ s.1 = c) ∧ (s.2 = 0 ∨ s.2 = h)

variable {c : String} {h : ℤ}

theorem RecordsTransaction.validateBasic_iff {txs : List RecordTransaction}
    (ht : ∀ t ∈ txs, t.chainId = c ∧ t.height = h) :
    RecordsTransaction.validateBasic txs = .ok () ↔ ∀ t ∈ txs, t.validateBasic = .ok () := by
  rw [validateBasic, discard_ok_iff]
  refine foldlM_ok_iff (P := Agree c h) (fun t hm s hs => ?_) ⟨Or.inl rfl, Or.inl rfl⟩
  obtain ⟨rfl, rfl⟩ := ht t hm
  have hstep : check s t = (do t.validateBasic; pure (t.chainId, t.height)) := by
    rw [check, theOnlyChainId_ok hs.1, theOnlyBlockHeight_ok hs.2, ok_bind, ok_bind]
  rw [hstep]
  exact check_step ⟨Or.inr rfl, Or.inr rfl⟩

theorem RecordsAccount.validateBasic_iff {accounts : List RecordAccount}
    (ha : ∀ a ∈ accounts, a.chainId = c) :
    RecordsAccount.validateBasic accounts = .ok () ↔ ∀ a ∈ accounts, a.validateBasic = .ok () := by
  rw [validateBasic, discard_ok_iff]
  refine foldlM_ok_iff (P := fun s => s = "" ∨ s = c) (fun a hm s hs => ?_) (Or.inl rfl)
  obtain rfl := ha a hm
  have hstep : check s a = (do a.validateBasic; pure a.chainId) := by
    rw [check, theOnlyChainId_ok hs, ok_bind]
  rw [hstep]
  exact check_step (Or.inr rfl)

theorem RecordsRefAccountToRecentTx.validateBasic_iff {refs : List RecordRefAccountToRecentTx}
    (hr : ∀ r ∈ refs, r.chainId = c ∧ r.height = h) :
    RecordsRefAccountToRecentTx.validateBasic refs = .ok () ↔
      ∀ r ∈ refs, r.validateBasic = .ok () := by
  rw [validateBasic, discard_ok_iff]
  refine foldlM_ok_iff (P := Agree c h) (fun r hm s hs => ?_) ⟨Or.inl rfl, Or.inl rfl⟩
  obtain ⟨rfl, rfl⟩ := hr r hm
  have hstep : check s r = (do r.validateBasic; pure (r.chainId, r.height)) := by
    rw [check, theOnlyChainId_ok hs.1, theOnlyBlockHeight_ok hs.2, ok_bind, ok_bind]
  rw [hstep]
  exact check_step ⟨Or.inr rfl, Or.inr rfl⟩

/-- The loop over recent transactions, from any accumulators that agree. -/
theorem RecordsRecentAccountTransaction.foldlM_check_iff
    {txs : List RecordRecentAccountTransaction} {s : String × ℤ × List String}
    (ht : ∀ t ∈ txs, t.chainId = c ∧ t.height = h) (hs : Agree c h (s.1, s.2.1)) :
    (∃ s', txs.foldlM check s = .ok s') ↔ (∀ t ∈ txs, t.validateBasic = .ok ()) ∧
      (txs.map fun t => toUpper t.hash).Nodup ∧ ∀ t ∈ txs, toUpper t.hash ∉ s.2.2 := by
  induction txs generalizing s with
  | nil => simp [pure, Except.pure]
  | cons t txs ih =>
    obtain ⟨rfl, rfl⟩ := ht t (by simp)
    have hstep : check s t = (do
        failIf (toUpper t.hash ∈ s.2.2)
          s!"duplicate transaction hash {t.hash} of block {t.height}"
        t.validateBasic
        pure (t.chainId, t.height, toUpper t.hash :: s.2.2)) := by
      rw [check, theOnlyChainId_ok hs.1, theOnlyBlockHeight_ok hs.2, ok_bind, ok_bind]
    have ih := ih (s := (t.chainId, t.height, toUpper t.hash :: s.2.2))
      (fun t ht' => ht t (by simp [ht'])) ⟨Or.inr rfl, Or.inr rfl⟩
    have hloop : (∃ s', (t :: txs).foldlM check s = .ok s') ↔
        toUpper t.hash ∉ s.2.2 ∧ t.validateBasic = .ok () ∧
          ∃ s', txs.foldlM check (t.chainId, t.height, toUpper t.hash :: s.2.2) = .ok s' := by
      rw [List.foldlM_cons, hstep]
      simp only [bind_assoc, bind_unit_ok_iff, failIf_ok_iff, pure_bind, exists_and_left]
    rw [hloop, ih]
    simp only [List.forall_mem_cons, List.map_cons, List.nodup_cons]
    simp only [List.mem_map, List.mem_cons, not_or, not_exists, not_and]
    constructor
    · rintro ⟨hn, hv, hl, hd, hs⟩
      exact ⟨⟨hv, hl⟩, ⟨fun t' ht' he => (hs t' ht').1 he, hd⟩, hn, fun t' ht' => (hs t' ht').2⟩
    · rintro ⟨⟨hv, hl⟩, ⟨hd', hd⟩, hn, hs⟩
      exact ⟨hn, hv, hl, hd, fun t' ht' => ⟨hd' t' ht', hs t' ht'⟩⟩

/-- Recent transactions must also have distinct hashes, up to case. -/
theorem RecordsRecentAccountTransaction.validateBasic_iff
    {txs : List RecordRecentAccountTransaction} (ht : ∀ t ∈ txs, t.chainId = c ∧ t.height = h) :
    RecordsRecentAccountTransaction.validateBasic txs = .ok () ↔
      (∀ t ∈ txs, t.validateBasic = .ok ()) ∧ (txs.map fun t => toUpper t.hash).Nodup := by
  rw [validateBasic, discard_ok_iff, foldlM_check_iff ht ⟨Or.inl rfl, Or.inl rfl⟩]
  simp

end RollappExplorer
