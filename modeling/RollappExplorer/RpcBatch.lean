/-
  Calls of the JSON-RPC server in a batch (`utils/rpc.ts`, `services/rpc.service.ts`,
  `hooks/useTransactionDetail.ts`).

  * `callRpc`: the requests of a batch, numbered from 1; `AnswersBatch`: the responses of a server,
    one for every request, in any order;
  * `getResponseResult`: the results of the responses; `useTransactionDetail`: the contract infos
    of a transaction;
  * `answers_matched_iff`: the results are those of the requests iff the responses stand in the
    order of the requests and no result is falsy.
-/
import RollappExplorer.Js.Collections
import RollappExplorer.Js.Text
import RollappExplorer.Json.Parser

namespace RollappExplorer

open Json (Value)
open Js (Map)

/-! ## Requests and responses -/

structure RpcCallParam where
  method : String
  params : List Value
  jsonrpc : String

structure RpcCallParamFull extends RpcCallParam where
  id : ℕ

/-- The requests of a batch. -/
def callRpc (params : List RpcCallParam) : List RpcCallParamFull :=
  params.mapIdx fun i param => ⟨param, i + 1⟩

structure RpcError where
  code : ℤ
  message : String

structure RpcResponse where
  jsonrpc : String
  id : ℕ
  result : Option Value
  error : Option RpcError

/-- What the server answers: a response for a request, or one for every request of a batch. -/
inductive RpcAnswer where
  | single (response : RpcResponse)
  | batch (responses : List RpcResponse)

/-- A result, or an object with an error.  Both may be undefined. -/
inductive RpcResult where
  | value (v : Option Value)
  | error (e : Option RpcError)

inductive RpcResults where
  | single (result : RpcResult)
  | batch (results : List RpcResult)

/-- The values of JSON that are true in a condition. -/
def isTruthy : Value → Prop
  | .null => False
  | .bool b => b
  | .num q => q ≠ 0
  | .str s => s ≠ ""
  | .arr _ | .obj _ => True

instance : DecidablePred isTruthy
  | .null => inferInstanceAs (Decidable False)
  | .bool b => inferInstanceAs (Decidable (b = true))
  | .num q => inferInstanceAs (Decidable (q ≠ 0))
  | .str s => inferInstanceAs (Decidable (s ≠ ""))
  | .arr _ | .obj _ => inferInstanceAs (Decidable True)

/-- `res.result || { error: res.error }` -/
def RpcResponse.resultOrError (res : RpcResponse) : RpcResult :=
  match res.result with
  | some v => if isTruthy v then .value v else .error res.error
  | none => .error res.error

/-- The errors are thrown, or returned with the results. -/
def getResponseResult (response : RpcAnswer) (throwError_ : Bool) :
    Except (List RpcError) RpcResults :=
  match response with
  | .batch responses =>
    if (responses.any fun res => res.error.isSome) && throwError_ then
      .error (responses.filterMap RpcResponse.error)
    else .ok (.batch (responses.map RpcResponse.resultOrError))
  | .single response =>
    match response.error with
    | some e => if throwError_ then .error [e] else .ok (.single (.error e))
    | none => .ok (.single (.value response.result))

/-! ## The contracts of a transaction -/

def getErc20ContractInfo (contractAddress : String) : RpcCallParam where
  method := "evm_getErc20ContractInfo"
  params := [.str contractAddress]
  jsonrpc := "2.0"

structure EvmTx where
  input : Option String
  to_ : Option String
  value : Option String

/-- The logs with their addresses. -/
structure EvmReceipt where
  contractAddress : Option String
  logs : List String

inductive TxMode where
  | cosmos
  | evmGeneralTransfer
  | evmContractCall
  | evmContractDeploy

/-- `Transaction`, with the fields that belong to its contracts. -/
structure TransactionDetail where
  evmTx : Option EvmTx
  evmReceipt : Option EvmReceipt
  success : Bool
  mode : TxMode
  evmContractAddressToErc20ContractInfo : Option (Map String RpcResult)

/-- A text that is neither undefined nor empty. -/
def isGiven (s : Option String) : Bool := s.any fun s => s ≠ ""

/-- The mode of a transaction with EVM data, and the contract it calls or deploys. -/
def EvmTx.modeAndContract (evmTxInfo : EvmTx) (evmTxReceipt : EvmReceipt) :
    TxMode × Option String :=
  let hasInput := evmTxInfo.input.any fun input => 10 ≤ Js.length input
  let hasEvmLogs := 0 < evmTxReceipt.logs.length
  if isGiven evmTxInfo.to_ then
    if isGiven evmTxInfo.value && !hasInput && !hasEvmLogs then (.evmGeneralTransfer, none)
    else (.evmContractCall, evmTxInfo.to_)
  else (.evmContractDeploy, evmTxReceipt.contractAddress.filter fun contract => contract ≠ "")

def uniqueContractAddresses (evmTxInfo : EvmTx) (evmTxReceipt : EvmReceipt) : Js.Set String :=
  let contracts : Js.Set String :=
    (evmTxInfo.modeAndContract evmTxReceipt).2.elim ∅ fun contract => Js.Set.add ∅ contract
  evmTxReceipt.logs.foldl Js.Set.add contracts

/-- A result that the loop over the contracts does not skip. -/
def RpcResult.isTruthy : RpcResult → Prop
  | .value (some v) => RollappExplorer.isTruthy v
  | .value none => False
  | .error _ => True

instance : DecidablePred RpcResult.isTruthy
  | .value (some v) => inferInstanceAs (Decidable (RollappExplorer.isTruthy v))
  | .value none => inferInstanceAs (Decidable False)
  | .error _ => inferInstanceAs (Decidable True)

/-- The results that are not falsy, each with the contract at its position. -/
def contractInfos (contractsAddress : List String) (results : List RpcResult) :
    Map String RpcResult :=
  Map.setAll ∅ ((contractsAddress.zip results).filter fun entry => entry.2.isTruthy)

/-- The transaction with its mode and the infos of its contracts; `answer` is that of the server
    for the contracts. -/
def useTransactionDetail (transaction : TransactionDetail) (answer : RpcAnswer) :
    Except (List RpcError) TransactionDetail :=
  match transaction.evmTx, transaction.evmReceipt with
  | some evmTxInfo, some evmTxReceipt =>
    let contractsAddress := (uniqueContractAddresses evmTxInfo evmTxReceipt).toList
    let transaction := { transaction with mode := (evmTxInfo.modeAndContract evmTxReceipt).1 }
    if transaction.success ∧ 0 < contractsAddress.length then do
      let infos := match ← getResponseResult answer false with
        | .batch results => contractInfos contractsAddress results
        -- one response for a whole batch is an error
        | .single _ => ∅
      return { transaction with evmContractAddressToErc20ContractInfo := some infos }
    else return transaction
  | _, _ => return { transaction with mode := .cosmos }

/-! ## AnswersBatch of a server -/

/-- What the server answers to a request. -/
inductive RpcOutcome where
  | result (v : Value)
  | error (e : RpcError)

def RpcOutcome.response (id : ℕ) : RpcOutcome → RpcResponse
  | .result v => ⟨"2.0", id, some v, none⟩
  | .error e => ⟨"2.0", id, none, some e⟩

/-- The result, or an object with the error. -/
def RpcOutcome.expected : RpcOutcome → RpcResult
  | .result v => .value v
  | .error e => .error e

/-- The outcome is not a falsy result. -/
def RpcOutcome.IsTruthy : RpcOutcome → Prop
  | .result v => isTruthy v
  | .error _ => True

/-- The responses to a batch: one for every request, in any order. -/
def AnswersBatch (requests : List RpcCallParamFull) (outcome : ℕ → RpcOutcome)
    (responses : List RpcResponse) : Prop :=
  responses.Perm (requests.map fun request => (outcome request.id).response request.id)

/-- Every response stands at the position of its request, or of a request with the same outcome,
    and no outcome is a falsy result. -/
def InRequestOrder (outcome : ℕ → RpcOutcome) (responses : List RpcResponse) : Prop :=
  ∀ i response, responses[i]? = some response →
    outcome response.id = outcome (i + 1) ∧ (outcome (i + 1)).IsTruthy

variable {params : List RpcCallParam} {outcome : ℕ → RpcOutcome} {o o' : RpcOutcome} {id : ℕ}
  {responses : List RpcResponse} {response : RpcResponse} {contracts : List String}
  {transaction : TransactionDetail}

@[simp] theorem RpcOutcome.response_id : (o.response id).id = id := by
  cases o
  · rfl
  · rfl

theorem AnswersBatch.length_eq (h : AnswersBatch (callRpc params) outcome responses) :
    responses.length = params.length := by
  rw [List.Perm.length_eq h, List.length_map, callRpc, List.length_mapIdx]

/-- A response has the outcome of its request. -/
theorem AnswersBatch.eq_response (h : AnswersBatch (callRpc params) outcome responses)
    (hr : response ∈ responses) : response = (outcome response.id).response response.id := by
  obtain ⟨request, -, rfl⟩ := List.mem_map.1 (h.mem_iff.1 hr)
  rw [RpcOutcome.response_id]

/-! ## Results of the responses -/

theorem RpcOutcome.resultOrError_eq_expected_iff :
    (o.response id).resultOrError = o'.expected ↔ o = o' ∧ o'.IsTruthy := by
  cases o with
  | result v =>
    by_cases hv : isTruthy v
    · have hres : ((result v).response id).resultOrError = .value v := if_pos hv
      rw [hres]
      constructor
      · intro he
        cases o' with
        | result v' =>
          cases he
          exact ⟨rfl, hv⟩
        | error e => cases he
      · rintro ⟨rfl, -⟩
        rfl
    · have hres : ((result v).response id).resultOrError = .error none := if_neg hv
      rw [hres]
      constructor
      · intro he
        cases o' <;> cases he
      · rintro ⟨rfl, hv'⟩
        exact absurd hv' hv
  | error e =>
    constructor
    · intro he
      cases o' with
      | result v => cases he
      | error e' =>
        cases he
        exact ⟨rfl, trivial⟩
    · rintro ⟨rfl, -⟩
      rfl

/-- No result is skipped. -/
theorem RpcOutcome.isTruthy_resultOrError : (o.response id).resultOrError.isTruthy := by
  cases o with
  | result v =>
    show (if isTruthy v then RpcResult.value v else RpcResult.error none).isTruthy
    split_ifs with hv
    · exact hv
    · trivial
  | error e => trivial

theorem AnswersBatch.getElem?_eq_expected_iff
    (h : AnswersBatch (callRpc params) outcome responses) :
    (∀ i < params.length,
      (responses.map RpcResponse.resultOrError)[i]? = some (outcome (i + 1)).expected) ↔
    InRequestOrder outcome responses := by
  unfold InRequestOrder
  constructor
  · intro hall i response hi
    have hlt : i < params.length := h.length_eq ▸ (List.getElem?_eq_some_iff.1 hi).1
    have he := hall i hlt
    rw [List.getElem?_map, hi, Option.map_some, Option.some.injEq,
      h.eq_response (List.mem_of_getElem? hi), RpcOutcome.resultOrError_eq_expected_iff] at he
    exact he
  · intro hall i hi
    have hlt : i < responses.length := h.length_eq.symm ▸ hi
    have hget := List.getElem?_eq_getElem hlt
    rw [List.getElem?_map, hget, Option.map_some, Option.some.injEq,
      h.eq_response (List.getElem_mem hlt), RpcOutcome.resultOrError_eq_expected_iff]
    exact hall i _ hget

/-- A contract has the result at its position. -/
theorem lookup_contractInfos {results : List RpcResult} {i : ℕ} {contract : String}
    {result : RpcResult} (hnodup : contracts.Nodup) (hlength : results.length = contracts.length)
    (htruthy : ∀ result ∈ results, result.isTruthy) (hcontract : contracts[i]? = some contract)
    (hresult : results[i]? = some result) :
    (contractInfos contracts results).lookup contract = some result := by
  have hall : (contracts.zip results).filter (fun entry => entry.2.isTruthy) =
      contracts.zip results := by
    refine List.filter_eq_self.2 ?_
    rintro ⟨contract', result'⟩ hentry
    exact decide_eq_true (htruthy result' (List.of_mem_zip hentry).2)
  unfold contractInfos
  rw [hall]
  refine Map.lookup_setAll ?_ (List.mem_of_getElem? (i := i) ?_)
  · rw [List.map_fst_zip hlength.ge]
    exact hnodup
  · rw [List.getElem?_zip_eq_some]
    exact ⟨hcontract, hresult⟩

/-! ## The result -/

/-- The result at every position is that of the request. -/
def ResultsMatch (params : List RpcCallParam) (outcome : ℕ → RpcOutcome) (answer : RpcAnswer) :
    Prop :=
  ∃ results, getResponseResult answer false = .ok (.batch results) ∧
    ∀ i < params.length, results[i]? = some (outcome (i + 1)).expected

/-- The infos of these contracts are asked for with the transaction. -/
def TransactionDetail.Fetches (transaction : TransactionDetail) (contracts : List String) : Prop :=
  ∃ evmTxInfo evmTxReceipt, transaction.evmTx = some evmTxInfo ∧
    transaction.evmReceipt = some evmTxReceipt ∧ transaction.success = true ∧
    contracts = (uniqueContractAddresses evmTxInfo evmTxReceipt).toList ∧ 0 < contracts.length

/-- Every contract of the transaction has its info. -/
def ContractInfosMatch (transaction : TransactionDetail) (contracts : List String)
    (outcome : ℕ → RpcOutcome) (answer : RpcAnswer) : Prop :=
  ∃ transaction' infos, useTransactionDetail transaction answer = .ok transaction' ∧
    transaction'.evmContractAddressToErc20ContractInfo = some infos ∧
    ∀ i contract, contracts[i]? = some contract →
      infos.lookup contract = some (outcome (i + 1)).expected

theorem getResponseResult_batch :
    getResponseResult (.batch responses) false =
      .ok (.batch (responses.map RpcResponse.resultOrError)) := by
  unfold getResponseResult
  dsimp only
  rw [Bool.and_false]
  rfl

theorem resultsMatch_iff (h : AnswersBatch (callRpc params) outcome responses) :
    ResultsMatch params outcome (.batch responses) ↔ InRequestOrder outcome responses := by
  unfold ResultsMatch
  rw [getResponseResult_batch, ← h.getElem?_eq_expected_iff]
  constructor
  · rintro ⟨results, he, hall⟩
    cases he
    exact hall
  · intro hall
    exact ⟨_, rfl, hall⟩

theorem TransactionDetail.Fetches.nodup (h : transaction.Fetches contracts) : contracts.Nodup := by
  obtain ⟨evmTxInfo, evmTxReceipt, -, -, -, rfl, -⟩ := h
  exact (uniqueContractAddresses evmTxInfo evmTxReceipt).nodup

/-- The infos are those at the positions of the contracts. -/
theorem TransactionDetail.Fetches.useTransactionDetail_ok (h : transaction.Fetches contracts)
    (responses : List RpcResponse) :
    ∃ transaction', useTransactionDetail transaction (.batch responses) = .ok transaction' ∧
      transaction'.evmContractAddressToErc20ContractInfo =
        some (contractInfos contracts (responses.map RpcResponse.resultOrError)) := by
  obtain ⟨evmTxInfo, evmTxReceipt, htx, hreceipt, hsuccess, rfl, hlength⟩ := h
  unfold useTransactionDetail
  rw [htx, hreceipt]
  dsimp only
  rw [if_pos ⟨hsuccess, hlength⟩, getResponseResult_batch]
  exact ⟨_, rfl, rfl⟩

theorem contractInfosMatch_iff (hf : transaction.Fetches contracts)
    (h : AnswersBatch (callRpc (contracts.map getErc20ContractInfo)) outcome responses) :
    ContractInfosMatch transaction contracts outcome (.batch responses) ↔
      InRequestOrder outcome responses := by
  have hlength : (responses.map RpcResponse.resultOrError).length = contracts.length := by
    rw [List.length_map, h.length_eq, List.length_map]
  have htruthy : ∀ result ∈ responses.map RpcResponse.resultOrError, result.isTruthy := by
    intro result hresult
    obtain ⟨response, hr, rfl⟩ := List.mem_map.1 hresult
    rw [h.eq_response hr]
    exact RpcOutcome.isTruthy_resultOrError
  obtain ⟨transaction', hok, hinfos⟩ := hf.useTransactionDetail_ok responses
  rw [← h.getElem?_eq_expected_iff, List.length_map]
  constructor
  · rintro ⟨transaction'', infos, hok', hinfos', hall⟩ i hi
    obtain rfl : transaction' = transaction'' := Except.ok.inj (hok.symm.trans hok')
    obtain rfl := Option.some.inj (hinfos.symm.trans hinfos')
    have hresult := List.getElem?_eq_getElem (hlength.symm ▸ hi)
    have hcontract := List.getElem?_eq_getElem hi
    rw [hresult, ← hall i _ hcontract]
    exact (lookup_contractInfos hf.nodup hlength htruthy hcontract hresult).symm
  · intro hall
    refine ⟨transaction', _, hok, hinfos, ?_⟩
    intro i contract hcontract
    have hi := (List.getElem?_eq_some_iff.1 hcontract).1
    exact lookup_contractInfos hf.nodup hlength htruthy hcontract (hall i hi)

/-- **Answers are matched by position.** The results of a batch are those of its requests iff the
    responses stand in the order of the requests, up to responses with the same content, and no
    result is falsy; the same holds for the contract infos of a transaction. -/
theorem answers_matched_iff (params : List RpcCallParam) (outcome : ℕ → RpcOutcome)
    (responses : List RpcResponse) (h : AnswersBatch (callRpc params) outcome responses) :
    (ResultsMatch params outcome (.batch responses) ↔ InRequestOrder outcome responses) ∧
    ∀ transaction : TransactionDetail, ∀ contracts, transaction.Fetches contracts →
      params = contracts.map getErc20ContractInfo →
      (ContractInfosMatch transaction contracts outcome (.batch responses) ↔
        InRequestOrder outcome responses) := by
  refine ⟨resultsMatch_iff h, ?_⟩
  rintro transaction contracts hf rfl
  exact contractInfosMatch_iff hf h

/-- The infos of two tokens. -/
def tokenInfos : ℕ → RpcOutcome
  | 1 => .result (.obj [("name", .str "Apple"), ("symbol", .str "APL"), ("decimals", .num 18)])
  | _ => .result (.obj [("name", .str "Berry"), ("symbol", .str "BRY"), ("decimals", .num 6)])

/-- A swap between the two tokens. -/
def swapOfTokens : TransactionDetail where
  evmTx := some ⟨some "0x38ed1739", some "0xa", some "0x0"⟩
  evmReceipt := some ⟨none, ["0xa", "0xb"]⟩
  success := true
  mode := .cosmos
  evmContractAddressToErc20ContractInfo := none

theorem swapOfTokens_fetches : swapOfTokens.Fetches ["0xa", "0xb"] :=
  ⟨_, _, rfl, rfl, rfl, by decide +kernel, by decide⟩

theorem answers_matched_swap :
    ContractInfosMatch swapOfTokens ["0xa", "0xb"] tokenInfos
      (.batch [(tokenInfos 1).response 1, (tokenInfos 2).response 2]) := by
  refine ((answers_matched_iff (["0xa", "0xb"].map getErc20ContractInfo) tokenInfos _
    (List.Perm.refl _)).2 swapOfTokens _ swapOfTokens_fetches rfl).2 ?_
  intro i response hi
  match i with
  | 0 => cases hi; exact ⟨rfl, trivial⟩
  | 1 => cases hi; exact ⟨rfl, trivial⟩
  | _ + 2 => cases hi

/-- The responses come in the other order: both contracts get the info of the other one. -/
theorem not_answers_matched :
    let params := ["0xa", "0xb"].map getErc20ContractInfo
    let responses := [(tokenInfos 2).response 2, (tokenInfos 1).response 1]
    AnswersBatch (callRpc params) tokenInfos responses ∧ swapOfTokens.Fetches ["0xa", "0xb"] ∧
      ¬ ResultsMatch params tokenInfos (.batch responses) ∧
      ¬ ContractInfosMatch swapOfTokens ["0xa", "0xb"] tokenInfos (.batch responses) := by
  intro params responses
  have hanswers : AnswersBatch (callRpc params) tokenInfos responses := List.Perm.swap _ _ _
  have horder : ¬ InRequestOrder tokenInfos responses := by
    intro h
    have hfirst := (h 0 _ rfl).1
    simp [tokenInfos, RpcOutcome.response] at hfirst
  exact ⟨hanswers, swapOfTokens_fetches, mt (resultsMatch_iff hanswers).1 horder,
    mt (contractInfosMatch_iff swapOfTokens_fetches hanswers).1 horder⟩

end RollappExplorer
