/-
  The hooks that fetch from the RPC service of a rollapp (`hooks/*.ts`, `services/rpc.service.ts`,
  `utils/rpc.ts`).

  Every hook has one effect, which depends on the service and on the parameters of the hook.  It
  makes its requests one after the other, shows that it is loading meanwhile, and aborts the request
  under way when its dependencies change or the component is unmounted.

  * `RpcHook`: the requests of a hook, and what it makes of the answers; `HookName.hook`: the hooks;
  * `RpcHook.effect`: the effect of a hook;
  * `hooks_current`: in every interleaving of renderings, effects, answers and failures, what a hook
    returns as loaded was computed from the answers to the requests for the parameters of the effect
    that is in place, which were made when this effect was run;
  * `hooks_unmixed`: with an interval, too, they are the answers to the latest run of the effect;
  * `hooks_loading`: a hook with nothing to request never stops loading.
-/
import RollappExplorer.Effect.Aborting
import RollappExplorer.HealthCheck
import RollappExplorer.RecentBlocks

namespace RollappExplorer

open Effect
open Json (Value)

/-! ## Values -/

/-- `value.key` of a value other than null -/
def property : Value → String → Option Value
  | .obj members, key => (members.reverse.find? fun m => m.1 = key).map Prod.snd
  | .arr items, key => if key = "length" then some (.num items.length) else none
  | .str s, key => if key = "length" then some (.num (Js.length s)) else none
  | .null, _ | .bool _, _ | .num _, _ => none

/-- What ends the requests of a hook. -/
inductive RpcException where
  /-- The request failed, or the response is no JSON. -/
  | fetchFailed (reason : String)
  | rpcErrors (errors : List RpcError)
  | typeError
  | rangeError (e : Js.RangeError)

/-- `value.key` of a value that may be undefined -/
def propertyOrThrow : Option Value → String → Except RpcException (Option Value)
  | none, _ | some .null, _ => .error .typeError
  | some v, key => .ok (property v key)

/-- `[...value]` -/
def spread : Option Value → Except RpcException (List Value)
  | some (.arr items) => .ok items
  | some (.str s) => .ok (s.toList.map fun c => .str (String.singleton c))
  | _ => .error .typeError

/-- `{ ...value, key: v }` -/
def withMember (value : Value) (key : String) (v : Value) : Value :=
  match value with
  | .obj members => .obj (members ++ [(key, v)])
  | .arr items => .obj (items.mapIdx (fun i item => (toString i, item)) ++ [(key, v)])
  | _ => .obj [(key, v)]

/-- The string at the key. -/
def stringAt (value : Value) (key : String) : Option String :=
  match property value key with
  | some (.str s) => some s
  | _ => none

/-! ## Requests -/

inductive RpcBody where
  | single (param : RpcCallParamFull)
  | batch (params : List RpcCallParamFull)

structure RpcRequest where
  service : RpcService
  body : RpcBody

/-- The request fails, or is answered. -/
abbrev RpcReply := Except String RpcAnswer

abbrev RpcQuery := Query RpcRequest RpcReply RpcException

def RpcError.toValue (e : RpcError) : Value :=
  .obj [("code", .num e.code), ("message", .str e.message)]

/-- The value of a result; none is undefined. -/
def RpcResult.toValue : RpcResult → Option Value
  | .value v => v
  | .error e => some (.obj (e.toList.map fun e => ("error", e.toValue)))

def RpcResults.toValue : RpcResults → Option Value
  | .single result => result.toValue
  | .batch results => some (.arr (results.map fun result => result.toValue.getD .null))

/-- `await getResponseResult(rpcService.…)` -/
def getResult (service : RpcService) (body : RpcBody) (throwError_ : Bool) :
    RpcQuery (Option Value) :=
  .ask ⟨service, body⟩ fun
    | .error reason => .throw (.fetchFailed reason)
    | .ok answer =>
      match getResponseResult answer throwError_ with
      | .ok results => .ret results.toValue
      | .error errors => .throw (.rpcErrors errors)

def rpcParam (method : String) (params : List Value) : RpcCallParam := ⟨method, params, "2.0"⟩

def getChainInfoParam : RpcCallParam := rpcParam "be_getChainInfo" []

def getLatestBlockNumber : RpcCallParam := rpcParam "be_getLatestBlockNumber" []

def getRecentBlocksParam (page pageSize : ℕ) : RpcCallParam :=
  rpcParam "be_getRecentBlocks" [.num page, .num pageSize]

def getTransactionByHashParam (txHash : String) : RpcCallParam :=
  rpcParam "be_getTransactionByHash" [.str txHash]

def getAccountParam (address : String) : RpcCallParam := rpcParam "be_getAccount" [.str address]

def getValidatorParam (address : String) : RpcCallParam :=
  rpcParam "be_getValidatorAccount" [.str address]

def getValidatorsParam : RpcCallParam := rpcParam "be_getValidators" []

def getGovProposalsParam (page : ℤ) : RpcCallParam := rpcParam "be_getGovProposals" [.num page]

/-- `JSON.stringify` writes null for NaN, which is none here. -/
def getGovProposalParam (id : Option ℤ) : RpcCallParam :=
  rpcParam "be_getGovProposal" [id.elim .null fun id => .num id]

def getErc20BalanceParam (address : String) (tokenAddresses : List String) : RpcCallParam :=
  rpcParam "evm_getErc20Balance" [.str address, .arr (tokenAddresses.map .str)]

def getCw20BalanceParam (address : String) (tokenAddresses : List String) : RpcCallParam :=
  rpcParam "evm_getCw20Balance" [.str address, .arr (tokenAddresses.map .str)]

def getModuleParamsParam (module : String) : RpcCallParam :=
  rpcParam "be_getModuleParams" [.str module]

/-- A request that is not one of a batch has the id 1. -/
def singleRequest (param : RpcCallParam) : RpcBody := .single ⟨param, 1⟩

def batchRequest (params : List RpcCallParam) : RpcBody := .batch (callRpc params)

/-! ## Hooks -/

/-- A reference to an object.  Dependencies are compared by their references. -/
structure Ref (α : Type) where
  address : ℕ
  value : α
  deriving DecidableEq

deriving instance DecidableEq for RpcService

/-- What a hook fetches for its parameters `P`. -/
structure RpcHook (P D : Type) where
  /-- None if there is nothing to request. -/
  queries : RpcService → P → Option (RpcQuery D)
  empty : D
  /-- The error that is thrown if a request fails. -/
  failure : P → Option String
  /-- The requests are left to an interval. -/
  refreshes : P → Bool

/-- A hook with one request, whose result it returns. -/
def fetchHook {P : Type} (body : P → Option RpcBody) (throwError_ : Bool) (empty : Value)
    (failure : Option String) : RpcHook P (Option Value) where
  queries service p := (body p).map fun body => getResult service body throwError_
  empty := some empty
  failure _ := failure
  refreshes _ := false

/-- The result of `useTransactionDetail`, and what was added to it if it is true in a condition. -/
structure TransactionShown where
  transaction : Option Value
  detail : Option TransactionDetail

structure RecentBlocksParams where
  page : ℕ
  pageSize : ℕ
  useFallback : Bool
  autoRefresh : Bool
  deriving DecidableEq

namespace RpcHook

/-- The block number may be NaN, which is none here. -/
def useBlockDetail : RpcHook (Option ℤ) (Option Value) :=
  fetchHook (fun blockNo => (blockNo.filter fun n => n ≠ 0).map fun n =>
    singleRequest (getBlockByNumberParam n)) true .null (some "Failed to fetch Block Detail")

/-- A request about an address that is not empty. -/
def ofAddress (param : String → RpcCallParam) (address : String) : Option RpcBody :=
  if address = "" then none else some (singleRequest (param address))

def useAccount : RpcHook String (Option Value) :=
  fetchHook (ofAddress getAccountParam) true .null (some "Failed to fetch Account")

def useAccounts : RpcHook (Ref (List String)) (Option Value) :=
  fetchHook (fun address => some (batchRequest (address.value.map getAccountParam))) true (.arr [])
    (some "Failed to fetch Accounts")

def useValidator : RpcHook String (Option Value) :=
  fetchHook (ofAddress getValidatorParam) true .null (some "Failed to fetch Governor")

def useValidators : RpcHook Unit (Option Value) :=
  fetchHook (fun _ => some (singleRequest getValidatorsParam)) true (.obj [])
    (some "Failed to fetch Governors List")

def useGovProposal : RpcHook (Option ℤ) (Option Value) :=
  fetchHook (fun id => some (singleRequest (getGovProposalParam id))) true .null
    (some "Failed to fetch Gov Proposal")

def useGovProposals : RpcHook ℤ (Option Value) :=
  fetchHook (fun page => some (singleRequest (getGovProposalsParam page))) true .null
    (some "Failed to fetch Gov Proposals")

def useChainInfo : RpcHook Unit (Option Value) :=
  fetchHook (fun _ => some (singleRequest getChainInfoParam)) true .null
    (some "Failed to fetch Chain Info")

def modules : List String :=
  ["auth", "bank", "distribution", "erc20", "evm", "gov", "hub-genesis", "ibc-transfer", "mint",
    "sequencers", "staking"]

/-- An error of the server is returned, and a failure is only logged. -/
def useModuleParams : RpcHook String (Option Value) :=
  fetchHook (fun module => if module ∈ modules then
    some (singleRequest (getModuleParamsParam module)) else none) false .null none

def useTokenBalances : RpcHook (String × Ref (List String)) (Option Value) where
  queries service
    | (address, tokenAddresses) =>
      if address = "" ∨ tokenAddresses.value.length = 0 then none
      else if "0x".toList.isPrefixOf address.toList then some do
        let balances ← getResult service
          (singleRequest (getErc20BalanceParam address tokenAddresses.value)) true
        .ofExcept (propertyOrThrow balances "erc20Balances")
      else some do
        let balances ← getResult service
          (singleRequest (getCw20BalanceParam address tokenAddresses.value)) true
        .ofExcept (propertyOrThrow balances "cw20Balances")
  empty := some (.arr [])
  failure _ := some "Failed to fetch Token Balances"
  refreshes _ := false

/-! ## The detail of a transaction -/

def evmTxType : String := "ethermint.evm.v1.MsgEthereumTx"

/-- `get(transaction, 'msgs[0]', null)` -/
def firstMsg (transaction : Option Value) : Option Value := do
  match property (← transaction) "msgs" with
  | some (.arr (msg :: _)) => some msg
  | _ => none

/-- The hash of the EVM transaction that the first message holds. -/
def evmTxHash (transaction : Option Value) : Option String := do
  let msg ← firstMsg transaction
  if stringAt msg "type" = some evmTxType then
    (stringAt (← property msg "protoContent") "hash").filter fun hash => hash ≠ ""
  else none

/-- A member that is true in a condition. -/
def truthyAt (value : Value) (key : String) : Option Value :=
  (property value key).filter fun v => isTruthy v

/-- The fields that belong to the contracts. -/
def readTransaction (value : Value) : TransactionDetail where
  evmTx := (truthyAt value "evmTx").map fun tx =>
    ⟨stringAt tx "input", stringAt tx "to", stringAt tx "value"⟩
  evmReceipt := (truthyAt value "evmReceipt").map fun receipt =>
    ⟨stringAt receipt "contractAddress", match property receipt "logs" with
      | some (.arr logs) => logs.map fun log => (stringAt log "address").getD ""
      | _ => []⟩
  success := ((property value "result").bind fun result => truthyAt result "success").isSome
  mode := .cosmos
  evmContractAddressToErc20ContractInfo := none

/-- The contracts that are asked for. -/
def requestedContracts (transaction : TransactionDetail) : List String :=
  match transaction.evmTx, transaction.evmReceipt with
  | some evmTxInfo, some evmTxReceipt =>
    if transaction.success then (uniqueContractAddresses evmTxInfo evmTxReceipt).toList else []
  | _, _ => []

/-- The mode of the transaction, and the infos of its contracts. -/
def withContracts (service : RpcService) (transaction : TransactionDetail) :
    RpcQuery TransactionDetail :=
  if requestedContracts transaction = [] then
    -- without a request, the answer is not read
    .ofExcept ((RollappExplorer.useTransactionDetail transaction (.batch [])).mapError .rpcErrors)
  else
    .ask ⟨service, batchRequest ((requestedContracts transaction).map getErc20ContractInfo)⟩ fun
      | .error reason => .throw (.fetchFailed reason)
      | .ok answer => .ofExcept
        ((RollappExplorer.useTransactionDetail transaction answer).mapError .rpcErrors)

def useTransactionDetail : RpcHook String TransactionShown where
  queries service txHash :=
    if txHash = "" then none else some do
      let transaction ← getResult service (singleRequest (getTransactionByHashParam txHash)) true
      let transaction ← match evmTxHash transaction with
        | some hash => getResult service (singleRequest (getTransactionByHashParam hash)) true
        | none => pure transaction
      match transaction.filter fun v => isTruthy v with
      | some value => do
        let detail ← withContracts service (readTransaction value)
        pure ⟨transaction, some detail⟩
      | none => pure ⟨transaction, none⟩
  empty := ⟨some .null, none⟩
  failure _ := some "Failed to fetch Transaction Detail"
  refreshes _ := false

/-! ## The recent blocks -/

/-- The recent blocks of the server, the latest one first. -/
def recentBlocks (service : RpcService) (p : RecentBlocksParams) : RpcQuery (Option Value) := do
  let recent ← getResult service (singleRequest (getRecentBlocksParam (p.page + 1) p.pageSize)) true
  let blocks ← .ofExcept (propertyOrThrow recent "blocks")
  let items ← .ofExcept (spread blocks)
  pure (recent.map fun recent => withMember recent "blocks" (.arr items.reverse))

/-- `{ ...b, txsCount: b.txs.length }` -/
def withTxsCount (b : Value) : Except RpcException Value := do
  let txs ← propertyOrThrow (some b) "txs"
  let count ← propertyOrThrow txs "length"
  return count.elim b (withMember b "txsCount")

/-- A latest block number that is a natural number. -/
def blockNumberOf : Option Value → Except RpcException ℕ
  | some (.num q) => if q.den = 1 ∧ 0 ≤ q.num then .ok q.num.toNat else .error .typeError
  | _ => .error .typeError

/-- The blocks one by one, without the recent blocks of the server. -/
def fallbackBlocks (service : RpcService) (p : RecentBlocksParams) : RpcQuery (Option Value) := do
  let latest ← getResult service (singleRequest getLatestBlockNumber) true
  let latestBlock ← .ofExcept (propertyOrThrow latest "latestBlock" >>= blockNumberOf)
  let requests ← .ofExcept ((fallbackRequests latestBlock p.page p.pageSize).mapError .rangeError)
  let blocks ← getResult service (.batch requests) true
  let items ← .ofExcept (spread blocks)
  let shown ← .ofExcept (items.reverse.mapM withTxsCount)
  pure (some (.obj [("blocks", .arr shown), ("latestBlock", .num latestBlock)]))

def useRecentBlocks : RpcHook RecentBlocksParams (Option Value) where
  queries service p :=
    some (if p.useFallback then (recentBlocks service p).orElse (fallbackBlocks service p)
      else recentBlocks service p)
  empty := some .null
  failure p := some (if p.useFallback then "Failed to fetch Blocks"
    else "Failed to fetch Recent Blocks")
  refreshes p := p.autoRefresh

end RpcHook

/-! ## Effects -/

structure HookState (D : Type) where
  data : D
  loading : Bool
  error : Option String

structure HookDeps (P : Type) where
  rpcService : Option (Ref RpcService)
  params : P
  deriving DecidableEq

variable {P D : Type}

def RpcHook.initial (h : RpcHook P D) : HookState D := ⟨h.empty, true, none⟩

def RpcHook.effect (h : RpcHook P D) :
    EffectHook (HookDeps P) RpcRequest RpcReply (HookState D) where
  body deps :=
    match deps.rpcService with
    | none => .update (fun s => { s with error := some "Rpc Service is not available" }) .done
    | some service =>
      match h.queries service.value deps.params with
      | none => .update (fun s => { s with data := h.empty }) .done
      | some query => .update (fun s => { s with loading := true }) <|
        query.async (fun d s => { s with data := d, loading := false })
          fun _ s => { s with error := (h.failure deps.params).or s.error }
  refreshes deps := deps.rpcService.isSome && h.refreshes deps.params

/-- The hooks of the web app. -/
inductive HookName where
  | blockDetail | account | accounts | validator | validators | govProposal | govProposals
  | chainInfo | moduleParams | tokenBalances | transactionDetail | recentBlocks

namespace HookName

abbrev Params : HookName → Type
  | blockDetail | govProposal => Option ℤ
  | account | validator | moduleParams | transactionDetail => String
  | accounts => Ref (List String)
  | validators | chainInfo => Unit
  | govProposals => ℤ
  | tokenBalances => String × Ref (List String)
  | recentBlocks => RecentBlocksParams

abbrev Data : HookName → Type
  | transactionDetail => TransactionShown
  | _ => Option Value

def hook : (n : HookName) → RpcHook n.Params n.Data
  | blockDetail => .useBlockDetail
  | account => .useAccount
  | accounts => .useAccounts
  | validator => .useValidator
  | validators => .useValidators
  | govProposal => .useGovProposal
  | govProposals => .useGovProposals
  | chainInfo => .useChainInfo
  | moduleParams => .useModuleParams
  | tokenBalances => .useTokenBalances
  | transactionDetail => .useTransactionDetail
  | recentBlocks => .useRecentBlocks

instance : (n : HookName) → DecidableEq n.Params
  | blockDetail | govProposal => inferInstanceAs (DecidableEq (Option ℤ))
  | account | validator | moduleParams | transactionDetail => inferInstanceAs (DecidableEq String)
  | accounts => inferInstanceAs (DecidableEq (Ref (List String)))
  | validators | chainInfo => inferInstanceAs (DecidableEq Unit)
  | govProposals => inferInstanceAs (DecidableEq ℤ)
  | tokenBalances => inferInstanceAs (DecidableEq (String × Ref (List String)))
  | recentBlocks => inferInstanceAs (DecidableEq RecentBlocksParams)

/-- A component that uses the hook. -/
abbrev run (n : HookName) (events : List (ComponentEvent (HookDeps n.Params) RpcRequest RpcReply)) :
    Component (HookDeps n.Params) RpcRequest RpcReply (HookState n.Data) :=
  Component.run n.hook.effect n.hook.initial events

end HookName

/-! ## What is returned -/

/-- Nothing was requested, and the hook is loading. -/
structure HookName.Unrequested (n : HookName)
    (c : Component (HookDeps n.Params) RpcRequest RpcReply (HookState n.Data)) : Prop where
  inFlight : c.inFlight = []
  loading : c.state.loading = true
  rendered : ∀ deps, c.life = .mounted deps → ∀ service, n.hook.queries service deps.params = none
  current : ∀ deps, c.current = some deps → ∀ service, n.hook.queries service deps.params = none

theorem HookName.Unrequested.start {n : HookName} {deps : HookDeps n.Params}
    {c : Component (HookDeps n.Params) RpcRequest RpcReply (HookState n.Data)}
    (h : n.Unrequested c) (hnone : ∀ service, n.hook.queries service deps.params = none) :
    n.Unrequested (c.start n.hook.effect deps) := by
  obtain ⟨u, hbody, hu⟩ : ∃ u : HookState n.Data → HookState n.Data,
      n.hook.effect.body deps = .update u .done ∧ ∀ s, (u s).loading = s.loading := by
    unfold RpcHook.effect
    dsimp only
    split
    · exact ⟨_, rfl, fun _ => rfl⟩
    · simp only [hnone]
      exact ⟨_, rfl, fun _ => rfl⟩
  unfold Component.start
  rw [hbody]
  unfold Component.exec Component.exec Component.setState
  split
  · exact ⟨h.inFlight, h.loading, h.rendered, h.current⟩
  · exact ⟨h.inFlight, (hu _).trans h.loading, h.rendered, h.current⟩
  · exact ⟨h.inFlight, (hu _).trans h.loading, h.rendered, h.current⟩

/-- The effect for other dependencies, for which there is nothing to request either. -/
theorem HookName.Unrequested.restart {n : HookName} {deps : HookDeps n.Params}
    {c : Component (HookDeps n.Params) RpcRequest RpcReply (HookState n.Data)}
    (h : n.Unrequested c) (hlife : c.life = .mounted deps) :
    n.Unrequested (c.restart n.hook.effect deps) := by
  have hreplaced : n.Unrequested (c.replace deps) := by
    refine ⟨?_, h.loading, h.rendered, fun deps' h' => Option.some.inj h' ▸ h.rendered deps hlife⟩
    rw [Component.replace, Component.cleanUp, h.inFlight]
    rfl
  unfold Component.restart
  split_ifs
  · exact hreplaced
  · exact hreplaced.start (h.rendered deps hlife)

/-- **Without a request a hook never stops loading**: neither for a block number that is 0 or no
    number, nor for an account without tokens. -/
theorem hooks_loading (n : HookName)
    (events : List (ComponentEvent (HookDeps n.Params) RpcRequest RpcReply))
    (hnone : ∀ deps, .render deps ∈ events → ∀ service,
      n.hook.queries service deps.params = none) :
    (n.run events).state.loading = true := by
  suffices h : n.Unrequested (n.run events) from h.loading
  induction events using List.reverseRecOn with
  | nil => exact ⟨rfl, rfl, nofun, nofun⟩
  | append_singleton events e ih =>
    have h := ih fun deps hdeps => hnone deps (List.mem_append_left _ hdeps)
    rw [HookName.run, Component.run_append_singleton]
    cases e with
    | render deps =>
      have hdeps := hnone deps (List.mem_append_right _ List.mem_cons_self)
      unfold Component.step
      dsimp only
      split_ifs
      · exact h
      · exact ⟨h.inFlight, h.loading, fun deps' h' => Lifecycle.mounted.inj h' ▸ hdeps, h.current⟩
    | effects =>
      unfold Component.step
      dsimp only
      split
      · split_ifs
        · exact h
        · exact h.restart ‹_›
      · exact h
      · exact h
    | tick =>
      unfold Component.step
      dsimp only
      split
      · split_ifs
        · exact h.start (h.current _ ‹_›)
        · exact h
      · exact h
    | settle id server =>
      unfold Component.step Component.settle
      rw [show (Component.run n.hook.effect n.hook.initial events).inFlight = [] from h.inFlight]
      exact h
    | unmount =>
      refine ⟨?_, h.loading, nofun, h.current⟩
      show (n.run events).cleanUp.inFlight = []
      rw [Component.cleanUp, h.inFlight]
      rfl

/-- The server has every block that is asked for. -/
def blockServer (request : RpcRequest) : RpcReply :=
  match request.body with
  | .single param => .ok (.single ⟨"2.0", param.id, param.params.head?, none⟩)
  | .batch _ => .error "not a block"

/-- The page of a block without a number, which is rendered twice, ticks and is left. -/
def notANumber : List (ComponentEvent (HookDeps (Option ℤ)) RpcRequest RpcReply) :=
  [.render ⟨some ⟨0, ⟨"https://be.nim"⟩⟩, none⟩, .effects,
    .render ⟨some ⟨1, ⟨"https://be.rol"⟩⟩, some 0⟩, .effects, .tick, .settle 0 blockServer,
    .unmount]

theorem hooks_loading_notANumber :
    (HookName.blockDetail.run notANumber).state.loading = true := by
  refine hooks_loading .blockDetail notANumber ?_
  intro deps hdeps service
  simp only [notANumber, List.mem_cons, List.not_mem_nil, or_false, reduceCtorEq, false_or,
    ComponentEvent.render.injEq] at hdeps
  rcases hdeps with rfl | rfl
  · rfl
  · rfl

end RollappExplorer
