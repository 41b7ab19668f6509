/-
  The environment of an indexer: the calls it makes, and the world they act on.

  * `Call`, `sig`: the calls, with the answers each can get;
  * `World`: the tables, the open transaction, the shared cache, and the history of
    what has happened, which no call depends on;
  * `environment`: the answers a call may get, and what it changes; every fallible call
    may fail, and then changes nothing, except that a transaction ends;
  * `World.ledger`: what a world looks like to the abstract indexer.
-/
import RollappExplorer.Database
import RollappExplorer.Effect.Service
import RollappExplorer.Machine

namespace RollappExplorer

open Go Effect

/-! ## Calls -/

inductive Call where
  /-- `time.Now().UTC().Unix()` -/
  | now
  /-- `time.Since` the start of the iteration, in nanoseconds -/
  | elapsed
  /-- the order in which maps are ranged over -/
  | mapOrder
  /-- `refreshActiveJsonRpcUrl`, and the active URL after it -/
  | refreshActiveJsonRpcUrl
  | forceResetActiveJsonRpcUrl
  | beGetChainInfo
  | beGetLatestBlockNumber
  | beTransactionsInBlockRange (f t : ℤ)
  | isCreatedPartitions (epochWeek : ℤ)
  | markCreatedPartitions (epochWeek : ℤ)
  | preparePartitions (epochUtcSeconds : ℤ)
  | selectLatestIndexedBlock
  | selectOneFailedBlock (maxRetries before : ℤ)
  | selectFailedBlocksInRange (f t : ℤ)
  | exec (stmt : Stmt)
  | begin
  | txExec (stmt : Stmt)
  | commit
  | rollback

/-- The answers of a call. -/
abbrev Call.Ans : Call → Type
  | .now | .elapsed => ℤ
  | .mapOrder => MapOrder
  | .refreshActiveJsonRpcUrl => String × Option ResponseBeGetChainInfo
  | .forceResetActiveJsonRpcUrl | .markCreatedPartitions _ => Unit
  | .beGetChainInfo => Except Error ResponseBeGetChainInfo
  | .beGetLatestBlockNumber => Except Error ResponseBeGetLatestBlockNumber
  | .beTransactionsInBlockRange _ _ => Except Error TransformedResponseBeTransactionsInBlockRange
  | .isCreatedPartitions _ => Bool
  | .selectLatestIndexedBlock => Except Error (ℤ × Bool × Option ℤ)
  | .selectOneFailedBlock _ _ => Except Error ℤ
  | .selectFailedBlocksInRange _ _ => Except Error (List ℤ)
  | .preparePartitions _ | .exec _ | .begin | .txExec _ | .commit | .rollback => Except Error Unit

abbrev sig : Sig := ⟨Call, Call.Ans⟩

/-- Make a call. -/
abbrev perform (c : Call) : Prog sig c.Ans := Prog.perform (S := sig) c

/-- A call with its answer. -/
abbrev Answered := (c : Call) × c.Ans

/-- The answers that decide what becomes of a batch: it breaks off, an empty block is
    to be indexed, a block is committed, or a failed block is kept. -/
def Decisive : (c : Call) → c.Ans → Prop
  | .beTransactionsInBlockRange _ _, .error _ => True
  | .exec (.upsertFailedBlocks _ _ _), .error _ => True
  | .exec (.deleteFailedBlock _), .error _ => True
  | .exec (.updateLatestIndexedBlock _ _), _ => True
  | .preparePartitions _, .error _ => True
  | .begin, .error _ => True
  | .commit, .ok _ => True
  | _, _ => False

/-! ## Worlds -/

/-- An open transaction: its copy of the tables, and the heights of the blocks it
    indexes. -/
structure Transaction (R : Type) where
  work : Tables R
  heights : List ℤ

/-- What has happened: the last answer for a block range, the heights indexed (a block
    committed, or an empty block recorded), the heights asked for as new blocks, or removed
    from `failed_block` outside of a transaction, which no insertion into it has written
    since, the upstream's latest height and the failed height retried in this iteration, and
    all calls, the last one first. -/
structure History where
  answer : Option TransformedResponseBeTransactionsInBlockRange
  indexed : List ℤ
  unwritten : List ℤ
  upstream : ℤ
  retrying : Option ℤ
  log : List Answered

def History.start : History := ⟨none, [], [], 0, none, []⟩

structure World (R : Type) where
  db : Tables R
  tx : Option (Transaction R)
  createdPartitions : List ℤ
  history : History

variable {R : Type}

/-- What a process that crashes leaves behind. -/
def World.crash (w : World R) : World R := { w with tx := none, createdPartitions := [] }

/-- The last answer lists the block as empty. -/
def reportsEmpty (answer : Option TransformedResponseBeTransactionsInBlockRange) (h : ℤ) : Bool :=
  answer.any fun res => res.blocks.any fun b => b.height = h && b.transactions.isEmpty

/-- The empty block a statement outside of a transaction indexes. -/
def recordedHeights (w : World R) : Stmt → List ℤ
  | .updateLatestIndexedBlock h _ => if reportsEmpty w.history.answer h then [h] else []
  | _ => []

/-- The block a statement of a transaction indexes. -/
def txHeights : Stmt → List ℤ
  | .updateLatestIndexedBlock h _ => [h]
  | _ => []

/-- The numbers from `f` to `t`. -/
def numbers (f t : ℤ) : List ℤ := (List.range (t - f + 1).toNat).map fun i : ℕ => f + (i : ℤ)

/-- A query for a range asks for new blocks, unless it is part of a retry. -/
def History.asked (f t : ℤ) (history : History) : History where
  __ := history
  unwritten :=
    match history.retrying with
    | none => numbers f t ++ history.unwritten
    | some _ => history.unwritten

/-- The heights that are unwritten after a statement outside of a transaction. -/
def Stmt.unwritten : Stmt → List ℤ → List ℤ
  | .upsertFailedBlocks _ _ heights, hs => hs.filter fun h => h ∉ heights
  | .deleteFailedBlock height, hs => height :: hs
  | _, hs => hs

/-- What an answered call changes. -/
def World.change (tables : RecordTables R) : (c : Call) → c.Ans → World R → World R
  | .refreshActiveJsonRpcUrl, (_, info), w => { w with history := { w.history with
      upstream := (info.map (·.latestBlock)).getD w.history.upstream, retrying := none } }
  | .beGetChainInfo, .ok info, w =>
    { w with history := { w.history with upstream := info.latestBlock } }
  | .beTransactionsInBlockRange f t, .ok res, w =>
    { w with history := { w.history.asked f t with answer := some res } }
  | .beTransactionsInBlockRange f t, .error _, w => { w with history := w.history.asked f t }
  | .selectOneFailedBlock _ _, .ok height, w =>
    { w with history := { w.history with retrying := some height } }
  | .markCreatedPartitions epochWeek, _, w =>
    { w with createdPartitions := epochWeek :: w.createdPartitions }
  | .exec stmt, .ok _, w => { w with
      db := stmt.run tables w.db
      history := { w.history with
        indexed := recordedHeights w stmt ++ w.history.indexed
        unwritten := stmt.unwritten w.history.unwritten } }
  | .begin, .ok _, w => { w with tx := some ⟨w.db, []⟩ }
  | .txExec stmt, .ok _, w => { w with
      tx := w.tx.map fun tx => ⟨stmt.run tables tx.work, txHeights stmt ++ tx.heights⟩ }
  | .commit, .ok _, w => { w with
      db := (w.tx.map (·.work)).getD w.db
      tx := none
      history := { w.history with
        indexed := ((w.tx.map (·.heights)).getD []) ++ w.history.indexed } }
  | .commit, .error _, w => { w with tx := none }
  | .rollback, _, w => { w with tx := none }
  | _, _, w => w

/-- The world after an answered call. -/
def World.after (tables : RecordTables R) (c : Call) (a : c.Ans) (w : World R) : World R :=
  let w' := w.change tables c a
  { w' with history := { w'.history with log := ⟨c, a⟩ :: w.history.log } }

/-! ## The environment -/

/-- What is fixed for an indexer and its environment. -/
structure Indexer (R : Type) where
  chainId : String
  sdk : Sdk
  tables : RecordTables R
  bech32Cfg : Bech32PrefixOfChainInfo
  disableRetryIndexFailedBlocks : Bool

/-- A condition on the accepted answers for a block range. -/
abbrev Answers := ℤ → ℤ → TransformedResponseBeTransactionsInBlockRange → Prop

/-- The answers a call may get; `rpc` is assumed of the accepted answers for a block
    range. -/
def allows (d : Indexer R) (rpc : Answers) : (c : Call) → c.Ans → World R → Prop
  | .refreshActiveJsonRpcUrl, (_, info), _ => ∀ i ∈ info, i.validateBasic = .ok ()
  | .beGetChainInfo, a, _ => ∀ i, a = .ok i → i.validateBasic = .ok ()
  | .beGetLatestBlockNumber, a, _ => ∀ i, a = .ok i → i.validateBasic = .ok ()
  | .beTransactionsInBlockRange f t, a, _ => ∀ res, a = .ok res → rpc f t res ∧
      ∃ o now r, beTransactionsInBlockRange d.sdk o d.chainId now f t r = .ok res
  | .isCreatedPartitions epochWeek, a, w => a = decide (epochWeek ∈ w.createdPartitions)
  | .selectLatestIndexedBlock, a, w => ∀ r, a = .ok r → r.1 = w.db.latestIndexedBlock
  | .selectOneFailedBlock maxRetries before, a, w =>
    ∀ h, a = .ok h → h = oneFailedBlock w.db.failedBlock maxRetries before
  | .selectFailedBlocksInRange f t, a, w =>
    ∀ l, a = .ok l → l.Perm (failedBlocksInRange w.db.failedBlock f t)
  | .exec stmt, a, _ => a = .ok () → stmt.Executable
  | .txExec stmt, a, _ => a = .ok () → stmt.Executable
  | _, _, _ => True

def environment (d : Indexer R) (rpc : Answers) : Handler sig (World R) where
  allows := allows d rpc
  effect := World.after d.tables

/-! ## The ledger of a world -/

def World.ledger (w : World R) : Ledger ℤ where
  latest := w.db.latestIndexedBlock
  failed := {h | h ∈ w.db.failedBlock}
  indexed := {h | h ∈ w.history.indexed}
  unwritten := {h | h ∈ w.history.unwritten}

/-- Some call has had a decisive answer. -/
def World.Decided (w : World R) : Prop := ∃ e ∈ w.history.log, Decisive e.1 e.2

/-- What the abstract indexer depends on is the same in both worlds. -/
structure World.Calm (w w' : World R) : Prop where
  ledger : w'.ledger = w.ledger
  answer : w'.history.answer = w.history.answer
  upstream : w'.history.upstream = w.history.upstream
  retrying : w'.history.retrying = w.history.retrying
  decided : w'.Decided ↔ w.Decided

theorem World.Calm.refl (w : World R) : w.Calm w := ⟨rfl, rfl, rfl, rfl, Iff.rfl⟩

theorem World.Calm.trans {w w' w'' : World R} (h : w.Calm w') (h' : w'.Calm w'') : w.Calm w'' :=
  ⟨h'.ledger.trans h.ledger, h'.answer.trans h.answer, h'.upstream.trans h.upstream,
    h'.retrying.trans h.retrying, h'.decided.trans h.decided⟩

theorem World.decided_after {tables : RecordTables R} {c : Call} {a : c.Ans} {w : World R} :
    (w.after tables c a).Decided ↔ Decisive c a ∨ w.Decided := by
  simp [World.Decided, World.after]

/-- An answer that changes nothing the abstract indexer depends on. -/
theorem World.calm_after {tables : RecordTables R} {c : Call} {a : c.Ans} {w : World R}
    (hdb : (w.change tables c a).db = w.db) (hh : (w.change tables c a).history = w.history)
    (hd : ¬ Decisive c a) : w.Calm (w.after tables c a) := by
  refine ⟨?_, ?_, ?_, ?_, ?_⟩
  · simp only [World.ledger, World.after, hdb, hh]
  · simp only [World.after, hh]
  · simp only [World.after, hh]
  · simp only [World.after, hh]
  · rw [World.decided_after]
    exact or_iff_right hd

/-! ## Specifications about the ledger -/

/-- A specification of what the abstract indexer depends on. -/
structure Quiet (T : Spec (World R)) : Prop where
  inv : ∀ w w', w.Calm w' → T.inv w → T.inv w'
  guar : ∀ w w', w.Calm w' → T.inv w → T.guar w w'

variable {T : Spec (World R)} {d : Indexer R} {rpc : Answers} {w : World R} {α : Type}

/-- A call whose answers are calm. -/
theorem Quiet.wp_call (hT : Quiet T) {c : Call} {f : c.Ans → Prog sig α} {Q : α → World R → Prop}
    (hw : T.inv w) (hc : ∀ a, allows d rpc c a w → w.Calm (w.after d.tables c a))
    (h : ∀ a, allows d rpc c a w → w.Calm (w.after d.tables c a) →
      T.inv (w.after d.tables c a) →
        T.wp (environment d rpc) (f a) Q (w.after d.tables c a)) :
    T.wp (environment d rpc) (perform c >>= f) Q w :=
  Spec.wp_call_bind hw fun a ha =>
    ⟨hT.guar _ _ (hc a ha) hw, h a ha (hc a ha) (hT.inv _ _ (hc a ha) hw)⟩

end RollappExplorer
