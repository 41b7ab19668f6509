/-
  The main loop of an indexer (`defaultIndexer.Start`, after its preparations).

  * `indexing`: what an iteration does with the chain info of the upstream;
    `indexNewBlocks`, `retryFailedBlock` are its two parts;
  * `iteration`: an iteration, with `genericLoop` around it;
  * `mainLoop`: the process that runs iterations forever, and may crash and start again
    at any moment.
-/
import Mathlib.Algebra.Group.Int.Defs
import RollappExplorer.BlockRange
import RollappExplorer.Indexing

namespace RollappExplorer

open Go Effect

variable {R : Type}

/-! ## Queries -/

/-- `GetLatestIndexedBlock`: the height, and whether the chain is postponed. -/
def getLatestIndexedBlock (d : Indexer R) : Prog sig (Except Error (ℤ × Bool)) := do
  match ← perform .selectLatestIndexedBlock with
  | .error err =>
    return .error (wrap err s!"failed to get latest indexed block for {d.chainId}")
  | .ok (height, postponed, expiryAtEpoch) =>
    let now ← perform .now
    return .ok (height, postponed || expiryAtEpoch.any fun expiry => expiry < now)

/-- `GetOneFailedBlock`: zero if there is none. -/
def getOneFailedBlock : Prog sig (Except Error ℤ) := do
  let now ← perform .now
  wrapping "failed to get failed block" (perform (.selectOneFailedBlock
    retryIndexingFailedBlockMaxRetries (now - retryIndexingFailedBlockGapSeconds)))

/-! ## The two parts of an iteration -/

/-- Record every block of the range as failed, after the fatal error of its batch; it is
    not critical if that fails. -/
def markRange (f t : ℤ) (fatalErr : Error) : Prog sig Unit :=
  discard (insertOrUpdateFailedBlocks (numbers f t) (some fatalErr))

/-- If the operation was too long, refresh the upstream latest block number. -/
def refreshUpstream (upstreamRpcLatestBlock : ℤ) : Prog sig ℤ := do
  let elapsed ← perform .elapsed
  if elapsed > 20 * 10 ^ 9 then
    match ← perform .beGetLatestBlockNumber with
    | .error _ => return upstreamRpcLatestBlock
    | .ok info => return max upstreamRpcLatestBlock info.latestBlock
  else return upstreamRpcLatestBlock

/-- Index new blocks, if there are any: `catchUp` and `checkRetryIndexFailedBlock`. -/
def indexNewBlocks (d : Indexer R) (latestIndexedBlock upstreamRpcLatestBlock : ℤ) :
    Prog sig (Except Error (Bool × Bool)) := do
  if upstreamRpcLatestBlock ≤ latestIndexedBlock then
    -- no new block to index
    return .ok (false, true)
  else
    match ← determineBlockRangeToIndex latestIndexedBlock upstreamRpcLatestBlock with
    | .error err => return .error err
    | .ok (anyBlock, f, t) =>
      if anyBlock then
        match (← fetchAndIndexingBlockRange d f t).fatalError with
        | some fatalErr =>
          markRange f t fatalErr
          return .error fatalErr
        | none =>
          let upstream ← refreshUpstream upstreamRpcLatestBlock
          if t < upstream then return .ok (true, false) else return .ok (false, true)
      else
        -- fall behind but not too much, try re-index failed block instead of sleeping
        return .ok (false, upstreamRpcLatestBlock - latestIndexedBlock < 5)

/-- What follows the attempt to index the failed block again. -/
def settleRetry (height : ℤ) (retryIndexErr : Option Error) : Prog sig Unit :=
  match retryIndexErr with
  | none => discard (removeFailedBlockRecord false height)
  | some err => discard (insertOrUpdateFailedBlocks [height] (some err))

/-- Index a failed block again. -/
def retryHeight (d : Indexer R) (height : ℤ) : Prog sig Unit := do
  let result ← fetchAndIndexingBlockRange d height height
  settleRetry height result.fatalError

/-- Index one failed block again, if there is one. -/
def retryFailedBlock (d : Indexer R) : Prog sig Unit := do
  match ← getOneFailedBlock with
  | .error _ => return ()
  | .ok height => if height > 0 then retryHeight d height else return ()

/-! ## Iterations -/

/-- The result of an iteration: the catch-up mode, and the error it ended with. -/
structure LoopResult where
  catchUp : Bool
  err : Option Error

/-- Blocks the upstream may be behind, in `maximumNumberOfOutdatedBlocksAccepted`. -/
def maximumNumberOfOutdatedBlocksAccepted : ℤ := 3

def indexing (d : Indexer R) (beGetChainInfo : ResponseBeGetChainInfo) : Prog sig LoopResult := do
  match ← getLatestIndexedBlock d with
  | .error err => return ⟨false, some err⟩
  | .ok (latestIndexedBlock, isPostponedChain) =>
    if isPostponedChain then return ⟨false, none⟩
    else
      let upstream := beGetChainInfo.latestBlock
      if upstream < latestIndexedBlock - maximumNumberOfOutdatedBlocksAccepted then
        -- fall too much behind, force renew upstream RPC URL
        perform .forceResetActiveJsonRpcUrl
        return ⟨false, none⟩
      else
        match ← indexNewBlocks d latestIndexedBlock upstream with
        | .error err => return ⟨false, some err⟩
        | .ok (catchUp, checkRetryIndexFailedBlock) =>
          if checkRetryIndexFailedBlock && !d.disableRetryIndexFailedBlocks then
            retryFailedBlock d
          return ⟨catchUp, none⟩

/-- The chain info of the upstream: of the refreshed URL, or else by a query. -/
def queryChainInfo (chainInfo : Option ResponseBeGetChainInfo) :
    Prog sig (Except Error ResponseBeGetChainInfo) :=
  match chainInfo with
  | some info => return .ok info
  | none => perform .beGetChainInfo

/-- `genericLoop`; an iteration that ends before `f` is called keeps the catch-up mode. -/
def genericLoop (d : Indexer R) (f : ResponseBeGetChainInfo → Prog sig LoopResult)
    (catchUp : Bool) : Prog sig LoopResult := do
  let (activeJsonRpcUrl, chainInfo) ← perform .refreshActiveJsonRpcUrl
  if len activeJsonRpcUrl = 0 then
    perform .forceResetActiveJsonRpcUrl
    return ⟨catchUp, some "no active json-rpc url"⟩
  else
    match ← queryChainInfo chainInfo with
    | .error err => return ⟨catchUp, some err⟩
    | .ok info =>
      if info.chainId ≠ d.chainId then
        perform .forceResetActiveJsonRpcUrl
        return ⟨catchUp, some "chain-id mismatch"⟩
      else f info

/-- One iteration of the main loop. -/
def iteration (d : Indexer R) (last : LoopResult) : Prog sig LoopResult :=
  genericLoop d (indexing d) last.catchUp

/-- The main loop. -/
def mainLoop (d : Indexer R) (rpc : Answers) : Service sig (World R) LoopResult where
  handler := environment d rpc
  body := iteration d
  start := ⟨false, none⟩
  boot := World.crash

/-- The database of a chain no block of which has been indexed. -/
def freshWorld (records : R) : World R where
  db := ⟨0, 0, ∅, records⟩
  tx := none
  createdPartitions := []
  history := .start

end RollappExplorer
