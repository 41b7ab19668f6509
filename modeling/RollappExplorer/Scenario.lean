/-
  Scenarios: environments that answer every call by a function of the world.

  A scenario fixes what the upstream answers and which calls fail; the database answers
  as it stands, and the checks of the query service apply.

  * `Scenario.allowed`: an environment may answer as a scenario does;
  * `Scenario.reach`, `Scenario.run`: the states a scenario drives the main loop to are
    reachable, and driving a program to its end is a run of it.
-/
import RollappExplorer.MainLoop

namespace RollappExplorer

open Go Effect

variable {R : Type}

/-- What the upstream answers, if it does, and which fallible calls fail. -/
structure Scenario (R : Type) where
  chainInfo : World R → ResponseBeGetChainInfo
  response : ℤ → ℤ → World R → Option ResponseBeTransactionsInBlockRange
  fails : Call → World R → Bool

instance : DecidablePred Stmt.Executable
  | .upsertFailedBlocks _ _ heights => inferInstanceAs (Decidable (heights ≠ [] ∧ heights.Nodup))
  | .updateLatestIndexedBlock _ _ | .deleteFailedBlock _ | .insertTransactions _
  | .insertAccounts _ | .insertRecentAccountTransactions _ | .insertRefAccountToRecentTx _
  | .cleanupZeroRefCount => isTrue trivial

instance (f t : ℤ) (res : TransformedResponseBeTransactionsInBlockRange) :
    Decidable (AnyAnswer f t res) := isTrue trivial

instance (f t : ℤ) (res : TransformedResponseBeTransactionsInBlockRange) :
    Decidable (Lists f t res) :=
  decidable_of_iff (∀ h ∈ numbers f t, h ∈ res.heights)
    ⟨fun h k hf ht => h k (mem_numbers.2 ⟨hf, ht⟩),
      fun h k hk => h k (mem_numbers.1 hk).1 (mem_numbers.1 hk).2⟩

instance (f t : ℤ) (res : TransformedResponseBeTransactionsInBlockRange) :
    Decidable (ListsOnce f t res) :=
  inferInstanceAs (Decidable (Lists f t res ∧ res.heights.Nodup))

namespace Scenario
variable (e : Scenario R) (d : Indexer R) (rpc : Answers) [∀ f t res, Decidable (rpc f t res)]

/-- The result of a call that fails if the scenario says so. -/
def result {α : Type} (c : Call) (w : World R) (a : α) : Except Error α :=
  if e.fails c w then .error "failed" else .ok a

/-- The result of a statement. -/
def statement (c : Call) (stmt : Stmt) (w : World R) : Except Error Unit :=
  if stmt.Executable then e.result c w () else .error "not executable"

/-- The answer of the query service to a query for a range. -/
def query (f t : ℤ) (w : World R) : Except Error TransformedResponseBeTransactionsInBlockRange :=
  match e.response f t w with
  | none => .error "unavailable"
  | some r =>
    match beTransactionsInBlockRange d.sdk default d.chainId 1720000000 f t r with
    | .error err => .error err
    | .ok res => if rpc f t res then .ok res else .error "unavailable"

def latestBlockNumber (w : World R) : ResponseBeGetLatestBlockNumber :=
  ⟨(e.chainInfo w).latestBlock, (e.chainInfo w).latestBlockTimeEpochUTC⟩

/-- The answers of the scenario; every call takes 1000 seconds. -/
def answer : Script sig (World R)
  | .now, w => 1000 * w.history.log.length
  | .elapsed, _ => 0
  | .mapOrder, _ => default
  | .refreshActiveJsonRpcUrl, _ => ("http://localhost:8545", none)
  | .forceResetActiveJsonRpcUrl, _ | .markCreatedPartitions _, _ => ()
  | .beGetChainInfo, w => (e.chainInfo w).validateBasic.map fun () => e.chainInfo w
  | .beGetLatestBlockNumber, w =>
    (e.latestBlockNumber w).validateBasic.map fun () => e.latestBlockNumber w
  | .beTransactionsInBlockRange f t, w => e.query d rpc f t w
  | .isCreatedPartitions epochWeek, w => decide (epochWeek ∈ w.createdPartitions)
  | .selectLatestIndexedBlock, w => .ok (w.db.latestIndexedBlock, false, none)
  | .selectOneFailedBlock maxRetries before, w =>
    .ok (oneFailedBlock w.db.failedBlock maxRetries before)
  | .selectFailedBlocksInRange f t, w => .ok (failedBlocksInRange w.db.failedBlock f t)
  | .exec stmt, w => e.statement (.exec stmt) stmt w
  | .txExec stmt, w => e.statement (.txExec stmt) stmt w
  | .preparePartitions epoch, w => e.result (.preparePartitions epoch) w ()
  | .begin, w => e.result .begin w ()
  | .commit, w => e.result .commit w ()
  | .rollback, w => e.result .rollback w ()

theorem map_const_ok {α : Type} {v : Except Error Unit} {a b : α}
    (h : (v.map fun () => a) = .ok b) : v = .ok () ∧ a = b := by
  cases v with
  | error err => cases h
  | ok u => exact ⟨rfl, Except.ok.inj h⟩

theorem statement_executable {c : Call} {stmt : Stmt} {w : World R}
    (h : e.statement c stmt w = .ok ()) : stmt.Executable := by
  unfold statement at h
  split_ifs at h with hs
  exact hs

theorem query_ok {f t : ℤ} {w : World R} {res : TransformedResponseBeTransactionsInBlockRange}
    (h : e.query d rpc f t w = .ok res) : rpc f t res ∧
      ∃ o now r, beTransactionsInBlockRange d.sdk o d.chainId now f t r = .ok res := by
  unfold query at h
  cases hr : e.response f t w with
  | none => rw [hr] at h; cases h
  | some r =>
    rw [hr] at h
    dsimp only at h
    cases hq : beTransactionsInBlockRange d.sdk default d.chainId 1720000000 f t r with
    | error err => rw [hq] at h; cases h
    | ok res' =>
      rw [hq] at h
      dsimp only at h
      split_ifs at h with hrpc
      obtain rfl := Except.ok.inj h
      exact ⟨hrpc, default, _, r, hq⟩

/-- **An environment may answer as a scenario does.** -/
theorem allowed (c : Call) (w : World R) : (environment d rpc).allows c (e.answer d rpc c w) w := by
  cases c with
  | refreshActiveJsonRpcUrl => exact fun i hi => nomatch hi
  | beGetChainInfo | beGetLatestBlockNumber =>
    intro i hi
    obtain ⟨hv, rfl⟩ := map_const_ok hi
    exact hv
  | beTransactionsInBlockRange f t => exact fun res hres => e.query_ok d rpc hres
  | isCreatedPartitions epochWeek => exact rfl
  | selectLatestIndexedBlock => exact fun r hr => Except.ok.inj hr ▸ rfl
  | selectOneFailedBlock maxRetries before => exact fun h hh => (Except.ok.inj hh).symm
  | selectFailedBlocksInRange f t => exact fun l hl => Except.ok.inj hl ▸ List.Perm.refl _
  | exec stmt => exact e.statement_executable
  | txExec stmt => exact e.statement_executable
  | now | elapsed | mapOrder | forceResetActiveJsonRpcUrl | markCreatedPartitions epochWeek
  | preparePartitions epoch | begin | commit | rollback => exact trivial

/-- The state after `n` transitions of the main loop. -/
def drive (n : ℕ) (w : World R) : Prog sig LoopResult × World R :=
  (mainLoop d rpc).drive (e.answer d rpc) n (iteration d (mainLoop d rpc).start, w)

theorem reach (n : ℕ) (w : World R) : (mainLoop d rpc).Reach w (e.drive d rpc n w) :=
  Service.drive_reach (e.allowed d rpc) n _ .refl

/-- The state after `n` calls of a program, or after all of them. -/
def finish {α : Type} (n : ℕ) (p : Prog sig α) (w : World R) : Prog sig α × World R :=
  (e.answer d rpc).drive (environment d rpc) n (p, w)

theorem run {α : Type} {n : ℕ} {p : Prog sig α} {w : World R} {b : α → Bool}
    (h : (e.finish d rpc n p w).1.returned b = true) :
    ∃ a, b a = true ∧ Run (environment d rpc) (p, w) (.ret a, (e.finish d rpc n p w).2) :=
  Script.run_of_returned (e.allowed d rpc) h

end Scenario

/-! ## Samples -/

/-- An indexer of a chain whose records do not matter. -/
def sampleIndexer (disableRetryIndexFailedBlocks : Bool) : Indexer Unit where
  chainId := "rollappevm_1234-1"
  sdk := bech32Sdk
  tables := ⟨fun _ r => r, fun _ r => r, fun _ r => r, fun _ r => r, id⟩
  bech32Cfg := ⟨"rol", "rolvalcons", "rolvaloper"⟩
  disableRetryIndexFailedBlocks := disableRetryIndexFailedBlocks

def sampleChainInfo (latestBlock : ℤ) : ResponseBeGetChainInfo where
  bech32 := AList.insert "addr" "rol" ∅
  chainId := "rollappevm_1234-1"
  chainType := "evm"
  denom := AList.insert "bank" "urol" ∅
  latestBlock := latestBlock
  latestBlockTimeEpochUTC := 1720000000

/-- A response that lists empty blocks and error blocks. -/
def emptyBlocks (keys : List String) (errorBlocks : List ℤ) :
    ResponseBeTransactionsInBlockRange where
  chainId := "rollappevm_1234-1"
  blocks := keys.foldr (fun key blocks => AList.insert key ⟨0, 1720000000, []⟩ blocks) ∅
  missingBlocks := []
  errorBlocks := errorBlocks

end RollappExplorer
